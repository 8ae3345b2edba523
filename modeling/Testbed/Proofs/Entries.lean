import Mathlib.Data.List.Induction
import Testbed.Registry

/-!
# Entries as a map

A list of fields is a map from names to values: `lookup` after `setField` gives the last value that
was set.  Writing one field after another therefore leaves behind, for each name, the last value
that was written to it, and each name once.
-/

namespace Testbed

namespace Json

variable {α : Type} {key k : String} {v : α} {fs : List (String × α)}

theorem lookup_cons (key k : String) (v : α) (fs : List (String × α)) :
    lookup key ((k, v) :: fs) = if k = key then some v else lookup key fs := by
  by_cases h : k = key
  · simp [lookup, h]
  · simp [lookup, h]

theorem lookup_setField (key k : String) (v : α) (fs : List (String × α)) :
    lookup key (setField k v fs) = if k = key then some v else lookup key fs := by
  induction fs with
  | nil => exact lookup_cons key k v []
  | cons f fs ih =>
    rcases f with ⟨k', v'⟩
    by_cases hk : k' = k
    · -- The field is replaced in its place.
      subst hk
      have replaced : setField k' v ((k', v') :: fs) = (k', v) :: fs := by
        simp [setField]
      rw [replaced, lookup_cons, lookup_cons]
      by_cases h : k' = key
      · rw [if_pos h, if_pos h]
      · rw [if_neg h, if_neg h, if_neg h]
    · have passed : setField k v ((k', v') :: fs) = (k', v') :: setField k v fs := by
        simp [setField, hk]
      rw [passed, lookup_cons, lookup_cons, ih]
      by_cases h : k' = key
      · have other : k ≠ key := fun he => hk (h.trans he.symm)
        rw [if_pos h, if_neg other, if_pos h]
      · rw [if_neg h, if_neg h]

theorem mem_names_setField :
    key ∈ (setField k v fs).map Prod.fst ↔ key = k ∨ key ∈ fs.map Prod.fst := by
  induction fs with
  | nil => simp [setField]
  | cons f fs ih =>
    unfold setField
    by_cases hk : f.1 = k
    · simp [hk]
    · simp only [beq_iff_eq, hk, if_false, List.map_cons, List.mem_cons, ih]
      exact or_left_comm

theorem nodup_names_setField (h : (fs.map Prod.fst).Nodup) :
    ((setField k v fs).map Prod.fst).Nodup := by
  induction fs with
  | nil => simp [setField]
  | cons f fs ih =>
    rw [List.map_cons, List.nodup_cons] at h
    unfold setField
    by_cases hk : f.1 = k
    · simpa [← hk] using h
    · have fresh : f.1 ∉ (setField k v fs).map Prod.fst := by
        rw [mem_names_setField]
        rintro (he | hm)
        · exact hk he
        · exact h.1 hm
      simpa [hk] using ⟨by simpa using fresh, ih h.2⟩

end Json

namespace Registry

variable {key : String} {ws : List (String × Entry)} {es : List (String × Entry)}

/-! ## Writing one after another -/

/-- The value that was written to a key last. -/
def lastWritten (key : String) (ws : List (String × Entry)) : Option Entry :=
  Json.lookup key ws.reverse

/-- The entries after writes to a registry that is open. -/
def written (es ws : List (String × Entry)) : List (String × Entry) :=
  ws.foldl (fun es w => Json.setField w.1 w.2 es) es

theorem written_append (es ws ws' : List (String × Entry)) :
    written es (ws ++ ws') = written (written es ws) ws' :=
  List.foldl_append

theorem written_singleton (es : List (String × Entry)) (w : String × Entry) :
    written es [w] = Json.setField w.1 w.2 es := rfl

theorem lastWritten_append (key : String) (ws ws' : List (String × Entry)) :
    lastWritten key (ws ++ ws') = (lastWritten key ws').or (lastWritten key ws) := by
  simp [lastWritten, Json.lookup, List.find?_append, Option.map_or]

theorem lastWritten_singleton (key : String) (w : String × Entry) :
    lastWritten key [w] = if w.1 = key then some w.2 else none :=
  Json.lookup_cons ..

theorem lastWritten_eq_none_iff : lastWritten key ws = none ↔ ∀ w ∈ ws, w.1 ≠ key := by
  simp [lastWritten, Json.lookup, List.find?_eq_none]

theorem lookup_written (key : String) (es ws : List (String × Entry)) :
    Json.lookup key (written es ws) = (lastWritten key ws).or (Json.lookup key es) := by
  induction ws using List.reverseRecOn with
  | nil => rfl
  | append_singleton ws w ih =>
    rw [written_append, written_singleton, lastWritten_append, lastWritten_singleton,
      Json.lookup_setField, ih]
    by_cases h : w.1 = key
    · simp [h]
    · simp [h]

theorem mem_names_written : key ∈ (written es ws).map Prod.fst ↔
    key ∈ ws.map Prod.fst ∨ key ∈ es.map Prod.fst := by
  induction ws using List.reverseRecOn with
  | nil => simp [written]
  | append_singleton ws w ih =>
    rw [written_append, written_singleton, Json.mem_names_setField, ih, List.map_append,
      List.mem_append]
    simp only [List.map_cons, List.map_nil, List.mem_singleton]
    tauto

theorem nodup_names_written (h : (es.map Prod.fst).Nodup) :
    ((written es ws).map Prod.fst).Nodup := by
  induction ws using List.reverseRecOn with
  | nil => exact h
  | append_singleton ws w ih =>
    rw [written_append, written_singleton]
    exact Json.nodup_names_setField ih

/-! ## The keys in order -/

theorem keyLe_iff {a b : String} : keyLe a b = true ↔ a ≤ b := by
  rw [keyLe, Bool.not_eq_true', decide_eq_false_iff_not]
  exact String.not_lt

/-- Keys are listed in strictly ascending order, so none is listed twice. -/
theorem pairwise_sorted_keys {ks : List String} (h : ks.Nodup) :
    (ks.mergeSort keyLe).Pairwise (· < ·) := by
  have total : ∀ a b, (keyLe a b || keyLe b a) = true := by
    intro a b
    rw [Bool.or_eq_true, keyLe_iff, keyLe_iff]
    exact String.le_total a b
  have trans : ∀ a b c, keyLe a b = true → keyLe b c = true → keyLe a c = true := by
    intro a b c hab hbc
    exact keyLe_iff.2 (String.le_trans (keyLe_iff.1 hab) (keyLe_iff.1 hbc))
  have sorted : (ks.mergeSort keyLe).Pairwise fun a b => keyLe a b = true :=
    List.pairwise_mergeSort trans total ks
  have distinct : (ks.mergeSort keyLe).Nodup := (List.mergeSort_perm ks keyLe).nodup_iff.2 h
  refine (sorted.and distinct).imp ?_
  intro a b hab
  -- Of two different keys in order the first is the smaller one.
  by_contra not_lt
  exact hab.2 (String.le_antisymm (keyLe_iff.1 hab.1) (String.not_lt.1 not_lt))

end Registry
end Testbed
