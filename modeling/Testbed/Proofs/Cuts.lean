import Mathlib
import Testbed.Text.Lower
import Testbed.Text.Occurrence

/-!
# Cutting and lower-casing texts

A text that is cut at a character is the part before it, the character and the part after it.  A
text in lower case stays as it is when it is put in lower case again, and it has as many of each
punctuation mark as the text that it was made from.
-/

namespace Testbed
namespace Text

variable {p : Char → Bool} {cs a b : List Char} {c d : Char}

/-! ## Cutting -/

theorem splitFirst?_eq_none : splitFirst? p cs = none ↔ ∀ x ∈ cs, p x = false := by
  induction cs with
  | nil => simp [splitFirst?]
  | cons c rest ih => cases hc : p c <;> simp [splitFirst?, hc, ih]

theorem splitFirst?_append (ha : ∀ x ∈ a, p x = false) (hc : p c = true) :
    splitFirst? p (a ++ c :: b) = some (a, b) := by
  induction a with
  | nil => simp [splitFirst?, hc]
  | cons x a ih =>
    have hx : p x = false := ha x List.mem_cons_self
    simp [splitFirst?, hx, ih fun y hy => ha y (List.mem_cons_of_mem x hy)]

theorem of_splitFirst? (h : splitFirst? p cs = some (a, b)) :
    ∃ c, p c = true ∧ cs = a ++ c :: b ∧ ∀ x ∈ a, p x = false := by
  induction cs generalizing a with
  | nil => cases h
  | cons c rest ih =>
    unfold splitFirst? at h
    split at h
    · rename_i hc
      cases h
      exact ⟨c, hc, rfl, nofun⟩
    · rename_i hc
      obtain ⟨⟨a', b'⟩, cut, he⟩ := Option.map_eq_some_iff.1 h
      cases he
      obtain ⟨c', hc', rfl, before⟩ := ih cut
      refine ⟨c', hc', rfl, fun x hx => ?_⟩
      rcases List.mem_cons.1 hx with rfl | hx
      · simpa using hc
      · exact before x hx

theorem splitLast?_eq_none : splitLast? p cs = none ↔ ∀ x ∈ cs, p x = false := by
  induction cs with
  | nil => simp [splitLast?]
  | cons c rest ih =>
    unfold splitLast?
    cases hr : splitLast? p rest with
    | none => cases hc : p c <;> simp [hc, ← ih, hr]
    | some r =>
      have some_mark : ¬ ∀ x ∈ rest, p x = false := fun h => by
        cases hr.symm.trans (ih.2 h)
      simp [some_mark]

theorem splitLast?_append (hc : p c = true) (hb : ∀ x ∈ b, p x = false) :
    splitLast? p (a ++ c :: b) = some (a, b) := by
  induction a with
  | nil =>
    have none : splitLast? p b = none := splitLast?_eq_none.2 hb
    simp [splitLast?, none, hc]
  | cons x a ih => simp [splitLast?, ih]

theorem of_splitLast? (h : splitLast? p cs = some (a, b)) :
    ∃ c, p c = true ∧ cs = a ++ c :: b ∧ ∀ x ∈ b, p x = false := by
  induction cs generalizing a with
  | nil => cases h
  | cons c rest ih =>
    unfold splitLast? at h
    split at h
    · rename_i r cut
      cases h
      obtain ⟨c', hc', rfl, after⟩ := ih cut
      exact ⟨c', hc', rfl, after⟩
    · rename_i none
      split at h
      · rename_i hc
        cases h
        exact ⟨c, hc, rfl, splitLast?_eq_none.1 none⟩
      · cases h

/-! ## Lower case -/

/-- The small letters of a run of capital letters stand outside of another run.  This is checked for
all pairs of runs, hence in natural numbers. -/
def CaseRun.clears (r q : CaseRun) : Bool :=
  let up := r.shift.toNat
  let down := (-r.shift).toNat
  r.last + up < q.first + down || q.last + down < r.first + up ||
    (q.step == 2 && (r.step == 2 || r.first == r.last) && (r.first + up + down + q.first) % 2 == 1)

/-- A run is beyond ASCII, and its small letters are characters, but no capital letters or
punctuation marks. -/
def CaseRun.isSound (r : CaseRun) : Bool :=
  let least := (r.first : Int) + r.shift
  let most := (r.last : Int) + r.shift
  0x80 ≤ r.first && (0x80 ≤ least || (97 ≤ least && most ≤ 122)) &&
    (most < 0xD800 || (0xE000 ≤ least && most < 0x110000)) &&
    !(least ≤ 0x130 && 0x130 ≤ most) && !(least ≤ 0x3A3 && 0x3A3 ≤ most) &&
    caseRuns.toList.all r.clears

theorem caseRuns_sound : caseRuns.toList.all CaseRun.isSound = true := by
  decide +kernel

/-- A code point belongs to a run of capital letters. -/
def CaseRun.Has (r : CaseRun) (n : Nat) : Prop :=
  r.first ≤ n ∧ n ≤ r.last ∧ (n - r.first) % r.step = 0

/-- A code point that a capital letter of a run is lowered to. -/
def CaseRun.Gives (r : CaseRun) (m : Nat) : Prop :=
  ∃ n, r.Has n ∧ (m : Int) = n + r.shift

theorem CaseRun.has_iff (r : CaseRun) (n : Nat) :
    (r.first ≤ n && n ≤ r.last && (n - r.first) % r.step == 0) = true ↔ r.Has n := by
  simp [Has, and_assoc]

theorem CaseRun.sound_of_mem {r : CaseRun} (h : r ∈ caseRuns) : r.isSound = true :=
  List.all_eq_true.1 caseRuns_sound r h.val

variable {r q : CaseRun} {m : Nat}

theorem CaseRun.beyond_ascii (h : r ∈ caseRuns) : 0x80 ≤ r.first := by
  have sound := CaseRun.sound_of_mem h
  simp only [isSound, Bool.and_eq_true, decide_eq_true_eq] at sound
  exact sound.1.1.1.1.1

theorem CaseRun.Gives.range (hm : r.Gives m) (hr : r ∈ caseRuns) :
    (0x80 ≤ m ∨ 97 ≤ m ∧ m ≤ 122) ∧ m ≠ 0x130 ∧ m ≠ 0x3A3 ∧ m.isValidChar := by
  obtain ⟨n, ⟨first, last, -⟩, hm⟩ := hm
  have sound := CaseRun.sound_of_mem hr
  simp only [isSound, Bool.and_eq_true, Bool.or_eq_true, decide_eq_true_eq, Bool.not_eq_true',
    Bool.and_eq_false_iff, decide_eq_false_iff_not] at sound
  unfold Nat.isValidChar
  omega

theorem CaseRun.Gives.not_has (hm : r.Gives m) (hr : r ∈ caseRuns) (hq : q ∈ caseRuns) :
    ¬ q.Has m := by
  obtain ⟨n, ⟨first, last, steps⟩, hm⟩ := hm
  have sound := CaseRun.sound_of_mem hr
  rw [isSound, Bool.and_eq_true, List.all_eq_true] at sound
  have apart := sound.2 q hq.val
  simp only [clears, Bool.and_eq_true, Bool.or_eq_true, decide_eq_true_eq, beq_iff_eq] at apart
  rintro ⟨qfirst, qlast, qsteps⟩
  -- The other run ends before, begins after, or takes every second code point but these.
  rcases apart with (before | after) | ⟨⟨qstep, rstep | single⟩, odd⟩
  · omega
  · omega
  · rw [qstep] at qsteps
    rw [rstep] at steps
    omega
  · rw [qstep] at qsteps
    omega

/-- A character that is no capital letter is its own small letter. -/
theorem lowerChar_eq_self (ascii : ¬ (c.isUpper = true))
    (outside : ∀ q ∈ caseRuns, ¬ q.Has c.toNat) : lowerChar c = c := by
  have none : caseRuns.find? (fun r =>
      r.first ≤ c.toNat && c.toNat ≤ r.last && (c.toNat - r.first) % r.step == 0) = none := by
    refine Array.find?_eq_none.2 fun q hq h => outside q hq ((q.has_iff _).1 h)
  simp only [lowerChar, none, Char.toLower_eq_of_not_isUpper ascii, ite_self]

theorem isUpper_iff (c : Char) : c.isUpper = true ↔ 65 ≤ c.toNat ∧ c.toNat ≤ 90 := by
  simp [Char.isUpper, UInt32.le_iff_toNat_le]

theorem toNat_toLower (upper : c.isUpper = true) : c.toLower.toNat = c.toNat + 32 := by
  have range := (isUpper_iff c).1 upper
  rw [Char.toLower_eq_of_isUpper upper, Char.toNat_ofNat, if_pos (.inl (by omega))]

/-- A character is its own small letter, or is lowered as an ASCII letter or within its run. -/
theorem lowerChar_cases (c : Char) :
    lowerChar c = c ∨ (c.isUpper = true ∧ (lowerChar c).toNat = c.toNat + 32) ∨
      0x80 ≤ c.toNat ∧ ∃ r ∈ caseRuns, r.Gives (lowerChar c).toNat := by
  unfold lowerChar
  simp only
  split
  · -- An ASCII character.
    by_cases upper : c.isUpper = true
    · exact .inr (.inl ⟨upper, toNat_toLower upper⟩)
    · exact .inl (Char.toLower_eq_of_not_isUpper upper)
  · -- All others are looked up in the table.
    rename_i beyond
    split
    · rename_i r found
      have mem : r ∈ caseRuns := Array.mem_of_find?_eq_some found
      have has : r.Has c.toNat := (r.has_iff _).1 (Array.find?_some (p := fun r : CaseRun =>
        r.first ≤ c.toNat && c.toNat ≤ r.last && (c.toNat - r.first) % r.step == 0) found)
      have positive : 0 ≤ (c.toNat : Int) + r.shift := by
        have sound := CaseRun.sound_of_mem mem
        simp only [CaseRun.isSound, Bool.and_eq_true, Bool.or_eq_true, decide_eq_true_eq] at sound
        have first := has.1
        omega
      have gives : r.Gives ((c.toNat : Int) + r.shift).toNat :=
        ⟨c.toNat, has, Int.toNat_of_nonneg positive⟩
      refine .inr (.inr ⟨by omega, r, mem, ?_⟩)
      rw [Char.toNat_ofNat, if_pos (gives.range mem).2.2.2]
      exact gives
    · exact .inl rfl

/-- The character is in lower case, whatever stands around it. -/
structure IsLow (c : Char) : Prop where
  dotted : c.toNat ≠ 0x130
  sigma : c.toNat ≠ 0x3A3
  same : lowerChar c = c

theorem isLow_lowerChar (dotted : c.toNat ≠ 0x130) (sigma : c.toNat ≠ 0x3A3) :
    IsLow (lowerChar c) := by
  rcases lowerChar_cases c with same | ⟨upper, value⟩ | ⟨-, r, mem, gives⟩
  · rw [same]
    exact ⟨dotted, sigma, same⟩
  · have range := (isUpper_iff c).1 upper
    have low : ¬ (lowerChar c).isUpper = true := fun h => by
      have range' := (isUpper_iff _).1 h
      omega
    refine ⟨by omega, by omega, lowerChar_eq_self low fun q hq has => ?_⟩
    have beyond := CaseRun.beyond_ascii hq
    have first' := has.1
    omega
  · -- The small letter of a run lies in no run, so nothing lowers it further.
    have range := gives.range mem
    have low : ¬ (lowerChar c).isUpper = true := fun h => by
      have range' := (isUpper_iff _).1 h
      omega
    exact ⟨range.2.1, range.2.2.1, lowerChar_eq_self low fun q hq => gives.not_has mem hq⟩

/-- What a character becomes in lower case, before a text. -/
def lowered (before : List Char) (c : Char) (rest : List Char) : List Char :=
  if c.toNat == 0x130 then ['i', Char.ofNat 0x307]
  else if c.toNat == 0x3A3 then
    if before.head?.any hasCase && !rest.head?.any hasCase then [Char.ofNat 0x3C2]
    else [Char.ofNat 0x3C3]
  else [lowerChar c]

theorem lowerAfter_cons (before : List Char) (c : Char) (rest : List Char) :
    lowerAfter before (c :: rest) = lowered before c rest ++ lowerAfter (c :: before) rest :=
  rfl

/-- The small letters that stand for the dotted capital I and the capital sigma. -/
theorem isLow_special : ∀ n ∈ [0x69, 0x307, 0x3C2, 0x3C3], IsLow (Char.ofNat n) := by
  -- Code points are checked, since characters do not reduce as well.
  have checked : ∀ n ∈ [0x69, 0x307, 0x3C2, 0x3C3],
      (caseRuns.all fun q => !(q.first ≤ n && n ≤ q.last && (n - q.first) % q.step == 0)) = true ∧
        n ≠ 0x130 ∧ n ≠ 0x3A3 ∧ 90 < n ∧ n < 0xD800 := by decide +kernel
  intro n hn
  obtain ⟨outside, dotted, sigma, small, valid⟩ := checked n hn
  have value : (Char.ofNat n).toNat = n := by rw [Char.toNat_ofNat, if_pos (.inl valid)]
  refine ⟨by rwa [value], by rwa [value], lowerChar_eq_self ?_ fun q hq has => ?_⟩
  · rw [isUpper_iff, value]
    omega
  · have found := Array.all_eq_true'.1 outside q hq
    rw [value] at has
    rw [(q.has_iff n).2 has] at found
    cases found

theorem isLow_of_mem_lowered {before rest : List Char} {x : Char} (h : x ∈ lowered before c rest) :
    IsLow x := by
  unfold lowered at h
  split at h
  · rcases List.mem_cons.1 h with rfl | h
    · exact isLow_special 0x69 (by decide)
    · obtain rfl := List.mem_singleton.1 h
      exact isLow_special 0x307 (by decide)
  · rename_i dotted
    split at h
    · split at h
      · obtain rfl := List.mem_singleton.1 h
        exact isLow_special 0x3C2 (by decide)
      · obtain rfl := List.mem_singleton.1 h
        exact isLow_special 0x3C3 (by decide)
    · rename_i sigma
      obtain rfl := List.mem_singleton.1 h
      exact isLow_lowerChar (by simpa using dotted) (by simpa using sigma)

theorem isLow_of_mem_lower : ∀ x ∈ lower cs, IsLow x := by
  have mem (before : List Char) : ∀ x ∈ lowerAfter before cs, IsLow x := by
    induction cs generalizing before with
    | nil => nofun
    | cons c rest ih =>
      intro x h
      rw [lowerAfter_cons] at h
      rcases List.mem_append.1 h with h | h
      · exact isLow_of_mem_lowered h
      · exact ih _ x h
  exact mem []

theorem lower_eq_self (low : ∀ x ∈ cs, IsLow x) : lower cs = cs := by
  -- What stands before a character matters to a sigma only, and there is none.
  have same (before : List Char) : lowerAfter before cs = cs := by
    induction cs generalizing before with
    | nil => rfl
    | cons c rest ih =>
      have first := low c List.mem_cons_self
      have one : lowered before c rest = [c] := by
        simp [lowered, first.dotted, first.sigma, first.same]
      rw [lowerAfter_cons, one, ih fun x hx => low x (List.mem_cons_of_mem c hx)]
      rfl
  exact same []

/-- A text in lower case stays as it is. -/
theorem lower_lower (cs : List Char) : lower (lower cs) = lower cs :=
  lower_eq_self isLow_of_mem_lower

theorem lowered_ne_nil (before : List Char) (c : Char) (rest : List Char) :
    lowered before c rest ≠ [] := by
  unfold lowered
  split
  · simp
  · split
    · split <;> simp
    · simp

theorem lower_ne_nil (h : cs ≠ []) : lower cs ≠ [] := by
  cases cs with
  | nil => exact absurd rfl h
  | cons c rest =>
    rw [lower, lowerAfter_cons]
    exact List.append_ne_nil_of_left_ne_nil (lowered_ne_nil [] c rest) _

/-- An ASCII character that is no letter. -/
def IsMark (d : Char) : Prop := d.toNat < 0x80 ∧ d.isAlpha = false

instance (d : Char) : Decidable (IsMark d) := inferInstanceAs (Decidable (_ ∧ _))

theorem lowerChar_eq_mark (hd : IsMark d) : lowerChar c = d ↔ c = d := by
  have letters : ¬ (97 ≤ d.toNat ∧ d.toNat ≤ 122) ∧ ¬ (65 ≤ d.toNat ∧ d.toNat ≤ 90) := by
    simpa [Char.isAlpha, Char.isLower, Char.isUpper, UInt32.le_iff_toNat_le, and_comm] using hd.2
  have ascii := hd.1
  rcases lowerChar_cases c with same | ⟨upper, value⟩ | ⟨beyond, r, mem, gives⟩
  · rw [same]
  · have range := (isUpper_iff c).1 upper
    constructor
    · rintro rfl
      omega
    · rintro rfl
      omega
  · have range := gives.range mem
    constructor
    · rintro rfl
      omega
    · rintro rfl
      omega

theorem count_lowered (hd : IsMark d) (before : List Char) (c : Char) (rest : List Char) :
    (lowered before c rest).count d = [c].count d := by
  have ascii := hd.1
  -- What is put in for a special letter is a letter, or beyond ASCII.
  have none {xs : List Char} (hxs : ∀ x ∈ xs, x = 'i' ∨ 0x80 ≤ x.toNat) : xs.count d = 0 := by
    refine List.count_eq_zero.2 fun mem => ?_
    rcases hxs d mem with rfl | beyond
    · cases hd.2
    · omega
  unfold lowered
  split
  · rename_i dotted
    rw [none (by simp), none (by simp at dotted ⊢; omega)]
  · split
    · rename_i sigma
      split
      · rw [none (by simp), none (by simp at sigma ⊢; omega)]
      · rw [none (by simp), none (by simp at sigma ⊢; omega)]
    · simp only [List.count_singleton, beq_iff_eq, lowerChar_eq_mark hd]

/-- A text has as many of each mark in lower case. -/
theorem count_lower (hd : IsMark d) (cs : List Char) : (lower cs).count d = cs.count d := by
  have same (before : List Char) : (lowerAfter before cs).count d = cs.count d := by
    induction cs generalizing before with
    | nil => rfl
    | cons c rest ih =>
      rw [lowerAfter_cons, List.count_append, count_lowered hd, ih, ← List.count_append]
      rfl
  exact same []

end Text
end Testbed
