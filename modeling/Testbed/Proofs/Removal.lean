import Mathlib.Data.List.Forall2
import Testbed.Proofs.Calls
import Testbed.Proofs.Conduct
import Testbed.Proofs.Containers

/-!
# Removing containers

A program that removes a container comes back without an error only if it has been told that the
container is gone: by an answer to a removal, or by an engine that cannot find it.  What a program
has been told is the note of the rule `Rule.removal`, and `Removing` says that the note is true.
-/

namespace Testbed

/-- The reply to a call tells that there is no container with an id. -/
def Call.Tells (id : String) : (c : Call) → c.Reply → Prop
  | .engine (.remove i _ _), r =>
    i = id ∧ ∀ f : Fault, r = .error f → f.isA Fault.Kind.isNotFound = true
  | .engine (.find i), r => i = id ∧ ∃ f : Fault, r = .error f ∧ f.isA Fault.Kind.isNotFound = true
  | _, _ => False

/-- A call that programs make to remove the container with an id. -/
def Call.stops (id : String) : Call → Bool
  | .engine (.remove i ..) => i == id
  | .claim _ => true
  | c => c.isStop

/-- The rule of programs that remove a container: the note is what they have been told. -/
def Rule.removal (id : String) : Rule Prop where
  allows := fun _ c => c.stops id = true
  note := fun gone c r => gone ∨ c.Tells id r

/-- A program that comes back without an error has been told that the container is gone. -/
def Told {α : Type} (gone : Prop) (r : Except Fault α) : Prop := ∀ a, r = .ok a → gone

theorem Client.removeContainer_removal (id : String) (force volumes : Bool) (gone : Prop) :
    Task.Follows (Rule.removal id) Told (Client.removeContainer id force volumes).run gone := by
  -- The look-up and the removal, which the handler is told about.
  have body (gone : Prop) : Task.Follows (Rule.removal id)
      (fun gone (r : Except Fault Bool) =>
        Told gone r ∧ ∀ f, r = .error f → Client.isNotFound f = true → gone)
      (do
        let _ ← Work.engine (.find id)
        let _ ← Work.engine (.remove id force volumes)
        pure true : Work Bool).run gone := by
    refine And.intro rfl fun r => ?_
    rcases r with e | found
    · refine ⟨nofun, ?_⟩
      intro f hf hn
      cases hf
      exact .inr ⟨rfl, e, rfl, hn⟩
    · refine And.intro (beq_self_eq_true id) fun r => ?_
      rcases r with e | ⟨⟩
      · refine ⟨nofun, ?_⟩
        intro f hf hn
        cases hf
        refine .inr ⟨rfl, ?_⟩
        intro g hg
        cases hg
        exact hn
      · refine ⟨?_, nofun⟩
        intro b _
        exact .inr ⟨rfl, nofun⟩
  refine Work.follows_bind (P := fun _ _ => True) ⟨rfl, fun _ => trivial⟩ ?_ ?_
  · intro gone _ _
    refine Work.follows_bind (P := Told) (Work.follows_handle (body gone) ?_ ?_ ?_) ?_ ?_
    · exact fun _ _ h => h.1
    · intro gone e h hc
      have told : gone := h.2 e rfl hc
      refine And.intro rfl fun _ => ?_
      intro b _
      exact .inl told
    · exact fun _ _ _ _ => nofun
    · intro gone removed h
      have told : gone := h removed rfl
      split
      · refine And.intro rfl fun _ => ?_
        intro b _
        exact .inl told
      · intro b _
        exact told
    · exact fun _ _ _ => nofun
  · exact fun _ _ _ => nofun

/-- A capability that is called and removes its container is one of these programs. -/
theorem Capability.stopOne_removal (c : Capability) (h : c.action = .remove) (gone : Prop) :
    Task.Follows (Rule.removal c.containerId) Told (StopPass.stopOne c).run gone := by
  have act (gone : Prop) : Task.Follows (Rule.removal c.containerId) Told c.act.run gone := by
    unfold act
    rw [h]
    refine Work.follows_bind (Client.removeContainer_removal _ _ _ gone) ?_ ?_
    · intro gone removed told _ _
      exact told removed rfl
    · exact fun _ _ _ => nofun
  refine And.intro rfl fun _ => And.intro rfl fun unused => ?_
  cases unused with
  | true => exact act _
  | false => exact fun _ => nofun

/-! ## What programs are told is true -/

/-- An honest engine tells the truth about a container. -/
theorem World.tells_lacks {w w' : World} {id : String} {c : Call} {r : c.Reply}
    (honest : w.engine.Honest) (h : w.perform c = some (r, w')) (told : c.Tells id r) :
    w'.engine.Lacks id := by
  have closed : World.noWorkers.isA Fault.Kind.isNotFound = false := by decide +kernel
  unfold Call.Tells at told
  split at told
  · rename_i i force volumes r
    rcases told with ⟨rfl, told⟩
    rcases World.perform_engine h with ⟨hr, rfl⟩ | ⟨hr, -⟩
    · cases hr' : r with
      | ok a => exact Engine.remove_lacks (hr.symm.trans hr')
      | error f => exact honest _ i f rfl (hr.symm.trans hr') (told f hr')
    · rw [told _ hr] at closed
      cases closed
  · rename_i i r
    rcases told with ⟨rfl, f, hf, hn⟩
    rcases World.perform_engine h with ⟨hr, rfl⟩ | ⟨hr, -⟩
    · exact honest _ i f rfl (hr.symm.trans hf) hn
    · cases hr.symm.trans hf
      rw [hn] at closed
      cases closed
  · exact told.elim

/-- A program that removes a container, with what it has been told, which is true of the engine. -/
def Removing {α : Type} (e : Engine) (id : String) (t : Task (Except Fault α)) : Prop :=
  ∃ gone : Prop, (gone → e.Lacks id) ∧ t.Follows (Rule.removal id) Told gone

namespace Removing

variable {α : Type} {e e' : Engine} {id : String} {t t' : Task (Except Fault α)} {w w' : World}

theorem within (h : Removing e id t) (hw : e'.Within e) : Removing e' id t := by
  rcases h with ⟨gone, hg, ht⟩
  exact ⟨gone, fun g => (hg g).within hw, ht⟩

theorem next (h : Removing w.engine id t) (honest : w.engine.Honest)
    (hw : w'.engine.Within w.engine) (hn : w.next? t = some (t', w')) :
    Removing w'.engine id t' := by
  rcases h with ⟨gone, hg, ht⟩
  rcases ht.next hn with ⟨c, r, -, -, hr, ht'⟩
  refine ⟨gone ∨ c.Tells id r, ?_, ht'⟩
  rintro (g | told)
  · exact (hg g).within hw
  · exact World.tells_lacks honest hr told

/-- A container is gone once a program that removes it has come back without an error. -/
theorem lacks {r : Except Fault α} (h : Removing e id t) (ht : StopPass.outcome? t = some r)
    (a : α) (hr : r = .ok a) : e.Lacks id := by
  rcases h with ⟨gone, hg, hf⟩
  unfold StopPass.outcome? at ht
  split at ht
  · rw [hr] at ht
    cases ht
  · exact hg (hf _ rfl)
  · cases ht

end Removing

/-! ## Programs side by side -/

section

variable {α β γ : Type} {R : α → β → Prop} {xs : List α} {ys : List β}

theorem forall₂_set (h : List.Forall₂ R xs ys) {k : Nat} {b : β}
    (hk : ∀ a, xs[k]? = some a → R a b) : List.Forall₂ R xs (ys.set k b) := by
  induction h generalizing k with
  | nil => exact .nil
  | cons hr hs ih =>
    cases k with
    | zero => exact .cons (hk _ rfl) hs
    | succ k => exact .cons hr (ih hk)

theorem forall₂_getElem? (h : List.Forall₂ R xs ys) {k : Nat} {a : α} {b : β}
    (ha : xs[k]? = some a) (hb : ys[k]? = some b) : R a b := by
  induction h generalizing k with
  | nil => cases ha
  | cons hr hs ih =>
    cases k with
    | zero =>
      cases ha
      cases hb
      exact hr
    | succ k => exact ih ha hb

theorem forall₂_of_getElem? (h : List.Forall₂ R xs ys) {k : Nat} {b : β} (hb : ys[k]? = some b) :
    ∃ a, xs[k]? = some a ∧ R a b := by
  have hk : k < xs.length := h.length_eq ▸ (List.getElem?_eq_some_iff.1 hb).1
  exact ⟨xs[k], List.getElem?_eq_getElem hk, forall₂_getElem? h (List.getElem?_eq_getElem hk) hb⟩

theorem forall₂_comp {S : β → γ → Prop} {zs : List γ} (h : List.Forall₂ R xs ys)
    (h' : List.Forall₂ S ys zs) : List.Forall₂ (fun a c => ∃ b, R a b ∧ S b c) xs zs := by
  induction h generalizing zs with
  | nil =>
    cases h'
    exact .nil
  | cons hr _ ih =>
    cases h' with
    | cons hs hs' => exact .cons ⟨_, hr, hs⟩ (ih hs')

end

/-- Programs that remove one container each. -/
abbrev RemovingAll {α : Type} (e : Engine) (ids : List String)
    (ts : List (Task (Except Fault α))) : Prop :=
  List.Forall₂ (fun id t => Removing e id t) ids ts

/-- Outcomes of programs that remove one container each: without an error the container is gone. -/
abbrev Removed {α : Type} (e : Engine) (ids : List String) (rs : List (Except Fault α)) : Prop :=
  List.Forall₂ (fun id r => ∀ a, r = .ok a → e.Lacks id) ids rs

namespace RemovingAll

variable {α : Type} {e e' : Engine} {ids : List String} {ts : List (Task (Except Fault α))}
  {w w' : World}

theorem within (h : RemovingAll e ids ts) (hw : e'.Within e) : RemovingAll e' ids ts :=
  h.imp fun _ _ h => h.within hw

theorem step (h : RemovingAll w.engine ids ts) (honest : w.engine.Honest)
    (hw : w'.engine.Within w.engine) {k : Nat} {t t' : Task (Except Fault α)}
    (ht : ts[k]? = some t) (hn : w.next? t = some (t', w')) :
    RemovingAll w'.engine ids (ts.set k t') := by
  refine forall₂_set (h.within hw) ?_
  intro id hid
  exact (forall₂_getElem? h hid ht).next honest hw hn

theorem removed (h : RemovingAll e ids ts) {rs : List (Except Fault α)}
    (hr : StopPass.outcomes? ts = some rs) : Removed e ids rs := by
  refine (forall₂_comp h (StopPass.outcomes?_eq_some hr)).imp ?_
  rintro id r ⟨t, ht, ho⟩
  exact ht.lacks ho

end RemovingAll

theorem Removed.within {α : Type} {e e' : Engine} {ids : List String}
    {rs : List (Except Fault α)} (h : Removed e ids rs) (hw : e'.Within e) : Removed e' ids rs :=
  h.imp fun _ _ h a ha => (h a ha).within hw

end Testbed
