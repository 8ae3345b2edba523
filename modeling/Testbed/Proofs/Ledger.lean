import Mathlib.Data.List.Nodup
import Testbed.Proofs.Calls

/-!
# The ledger during a run

A ledger holds at most one capability of each identity.  It grows by calls that record a capability
and by publishing, and it is emptied when it is drained; nothing else touches it.
-/

namespace Testbed
namespace Ledger

variable {l : Ledger} {c d : Capability} {cs : List Capability}

/-- No two capabilities have one identity. -/
def Distinct (l : Ledger) : Prop := (l.entries.map Capability.identity).Nodup

/-- The ledger with several capabilities recorded, one after another. -/
def recordAll (l : Ledger) (cs : List Capability) : Ledger := cs.foldl record l

theorem Distinct.record (h : l.Distinct) (c : Capability) : (l.record c).Distinct := by
  unfold Ledger.record
  split
  · exact h
  · rename_i hc
    have fresh : c.identity ∉ l.entries.map Capability.identity := by
      simpa [contains] using hc
    have := List.Nodup.concat fresh h
    simpa [Distinct] using this

theorem Distinct.recordAll (h : l.Distinct) (cs : List Capability) :
    (l.recordAll cs).Distinct := by
  induction cs generalizing l with
  | nil => exact h
  | cons c cs ih => exact ih (h.record c)

theorem mem_record (h : d ∈ l.entries) : d ∈ (l.record c).entries := by
  unfold Ledger.record
  split
  · exact h
  · exact List.mem_append_left _ h

theorem mem_recordAll (h : d ∈ l.entries) : d ∈ (l.recordAll cs).entries := by
  induction cs generalizing l with
  | nil => exact h
  | cons c cs ih => exact ih (mem_record h)

theorem of_mem_record (h : d ∈ (l.record c).entries) : d ∈ l.entries ∨ d = c := by
  unfold Ledger.record at h
  split at h
  · exact .inl h
  · rcases List.mem_append.1 h with h | h
    · exact .inl h
    · exact .inr (List.mem_singleton.1 h)

theorem of_mem_recordAll (h : d ∈ (l.recordAll cs).entries) : d ∈ l.entries ∨ d ∈ cs := by
  induction cs generalizing l with
  | nil => exact .inl h
  | cons c cs ih =>
    rcases ih h with h | h
    · rcases of_mem_record h with h | rfl
      · exact .inl h
      · exact .inr (List.mem_cons_self ..)
    · exact .inr (List.mem_cons_of_mem _ h)

end Ledger

/-! ## Publishing -/

namespace Lifecycle

variable {w w' : World}

theorem takeOver_ledger (w : World) (h : Handle) :
    (takeOver w h).ledger = w.ledger.recordAll h.stop.toList := by
  unfold takeOver
  split <;> simp_all [Ledger.recordAll]

theorem Stores.ledger {es : List (String × Entry)} {o : Except Fault Unit}
    (h : Stores w es o w') : w'.ledger = w.ledger := by
  rcases h.world with ⟨registry, log, rfl⟩
  rfl

/-- Handles are taken over from the first on. -/
theorem Takes.ledger {seen : List Service} {hs : List Handle} {o : Except Fault Unit}
    (h : Takes w seen hs o w') :
    ∃ k, w'.ledger = w.ledger.recordAll ((hs.take k).flatMap fun h => h.stop.toList) := by
  have first (w : World) (h : Handle) (hs : List Handle) : (takeOver w h).ledger =
      w.ledger.recordAll (((h :: hs).take 1).flatMap fun h => h.stop.toList) := by
    rw [takeOver_ledger]
    simp
  induction h with
  | nil => exact ⟨0, rfl⟩
  | twice => exact ⟨1, first ..⟩
  | refused => exact ⟨1, first ..⟩
  | taken log new hr rest ih =>
    rcases ih with ⟨k, hk⟩
    refine ⟨k + 1, ?_⟩
    rw [hk, takeOver_ledger]
    simp [Ledger.recordAll]

/-- Publishing records capabilities of the handles that are handed over. -/
theorem publish_ledger {d : Delivery} {o : Except Fault EnvironmentSettings}
    (h : publish w d = (o, w')) :
    ∃ k, w'.ledger = w.ledger.recordAll ((d.handles.take k).flatMap fun h => h.stop.toList) := by
  cases publishes_of_publish h with
  | untyped => exact ⟨0, by simp [Ledger.recordAll]⟩
  | failed hd handles => exact handles.ledger
  | refused hd handles rest =>
    rw [rest.ledger]
    exact handles.ledger
  | done hd handles rest =>
    rw [rest.ledger]
    exact handles.ledger

/-! ## Every change -/

theorem closeRuntime_ledger (w : World) : w.closeRuntime.ledger = w.ledger := by
  rcases w.closeRuntime_eq with ⟨isOpen, closed, log, he⟩
  rw [he]

theorem effect_ledger {c : Call} (h : World.Effect w c w') :
    w'.ledger = w.ledger ∨ ∃ d, c = .record d ∧ w'.ledger = w.ledger.record d := by
  cases h with
  | record d => exact .inr ⟨d, rfl, rfl⟩
  | shutdown => exact .inl (closeRuntime_ledger w)
  | _ => exact .inl rfl

variable {l n : Lifecycle} {a : Action}

/-- An action records a capability: it calls for it, or publishes a handle with it. -/
def Records (l : Lifecycle) (a : Action) (c : Capability) : Prop :=
  l.call? a = some (.record c) ∨
    ∃ i m p d h, a = .caller i m ∧ l.callers[i]? = some (.publishing p d) ∧ h ∈ d.handles ∧
      h.stop = some c

/-- A turn that makes no call publishes, drains or leaves the ledger alone. -/
theorem Turn.ledger {s s' : Stage} {m : Move} (h : Turn l s m s' n) (hc : s.call? m = none) :
    n.world.ledger = l.world.ledger ∨
      (∃ p d k, s = .publishing p d ∧ n.world.ledger =
        l.world.ledger.recordAll ((d.handles.take k).flatMap fun h => h.stop.toList)) ∨
      ∃ p, s = .draining p ∧ n.world.ledger = ⟨[]⟩ := by
  have publishes {p : Plan} {d : Delivery} {r : Except Fault EnvironmentSettings} {w : World}
      (hs : s = .publishing p d) (hp : publish l.world d = (r, w)) :
      ∃ p d k, s = .publishing p d ∧ w.ledger =
        l.world.ledger.recordAll ((d.handles.take k).flatMap fun h => h.stop.toList) := by
    rcases publish_ledger hp with ⟨k, hk⟩
    exact ⟨p, d, k, hs, hk⟩
  have calls {α : Type} {t t' : Task α} {w : World} (hn : l.world.next? t = some (t', w))
      (hc : t.call? = none) : False := by
    rcases World.next?_eq_some hn with ⟨c, next, r, rfl, -⟩
    cases hc
  -- Programs only move on by calls, so that they do not move here.
  cases h
  case publishFailed hp => exact .inr (.inl (publishes rfl hp))
  case publishLast hp _ => exact .inr (.inl (publishes rfl hp))
  case publishThen hp _ _ =>
    have := publishes rfl hp
    exact .inr (.inl this)
  case publishClosed hp _ =>
    have := publishes rfl hp
    exact .inr (.inl this)
  case drain p k log => exact .inr (.inr ⟨p, rfl, rfl⟩)
  case init h => exact (calls h hc).elim
  case finish h => exact (calls h hc).elim
  case disconnectSteps h => exact (calls h hc).elim
  all_goals
    refine .inl ?_
  case passGoes h =>
    rcases StopPass.turn?_world h with ⟨log, rfl⟩
    rfl
  case passEnds h =>
    rcases StopPass.turn?_world h with ⟨log, rfl⟩
    rfl
  case passSteps h =>
    rcases StopPass.step?_call h with ⟨c, hc', -⟩
    have : some c = none := hc'.symm.trans hc
    cases this
  case haltedFailing => exact closeRuntime_ledger l.world
  case halted => exact closeRuntime_ledger l.world
  case victimDies hk h => exact (calls h (by simpa [Stage.call?, hk, Victim.call?] using hc)).elim
  case victimGoes hk h => exact (calls h (by simpa [Stage.call?, hk, Victim.call?] using hc)).elim
  case victimCancelled hk h =>
    rcases World.cancel?_call h with rfl | ⟨c, ht, rfl, hw, -⟩
    · rfl
    · simp [Stage.call?, hk, Victim.call?, ht, hw] at hc
  all_goals rfl

/-- An action records capabilities or drains the ledger; nothing else happens to it. -/
theorem Change.ledger (h : Change l a n) :
    (∃ cs, (∀ c ∈ cs, l.Records a c) ∧ n.world.ledger = l.world.ledger.recordAll cs) ∨
      ∃ i m p, a = .caller i m ∧ l.callers[i]? = some (.draining p) ∧
        n.world.ledger = ⟨[]⟩ := by
  have same (he : n.world.ledger = l.world.ledger) :
      ∃ cs, (∀ c ∈ cs, l.Records a c) ∧ n.world.ledger = l.world.ledger.recordAll cs :=
    ⟨[], nofun, he⟩
  -- Either there is a call, which may record something, or a caller publishes or drains.
  rcases h.moved with ⟨c, r, hc, hr⟩ | ⟨hc, -⟩
  · refine .inl ?_
    rcases effect_ledger (World.effect_of_perform hr) with he | ⟨d, rfl, he⟩
    · exact same he
    · refine ⟨[d], ?_, he⟩
      intro e hm
      rcases List.mem_singleton.1 hm with rfl
      exact .inl hc
  · cases a with
    | caller i m =>
      cases h with
      | @caller i m s s' n hs turn =>
        have hc' : s.call? m = none := by simpa [call?, hs] using hc
        rcases turn.ledger hc' with he | ⟨p, d, k, rfl, he⟩ | ⟨p, rfl, he⟩
        · exact .inl (same he)
        · refine .inl ⟨_, ?_, he⟩
          intro c hm
          rcases List.mem_flatMap.1 hm with ⟨h, hh, hm⟩
          exact .inr ⟨i, _, p, d, h, rfl, hs, List.mem_of_mem_take hh, by simpa using hm⟩
        · exact .inr ⟨i, _, p, rfl, hs, he⟩
    | leftover i k =>
      rcases h.of_leftover with ⟨-, w, os, rfl, ⟨log, rfl⟩ | ⟨c, called, -⟩⟩
      · exact .inl (same rfl)
      · cases called.symm.trans hc
    | _ =>
      cases h
      exact .inl (same rfl)

/-- No two recorded capabilities ever have one identity. -/
theorem Run.ledger_distinct {l' : Lifecycle} {tr : List Moment} (fresh : l.Fresh)
    (run : Run l tr l') : l'.world.ledger.Distinct := by
  induction run with
  | refl =>
    rw [fresh.ledger]
    exact List.nodup_nil
  | tail _ h ih =>
    rcases (change_of_act? h).ledger with ⟨cs, -, he⟩ | ⟨i, m, p, -, -, he⟩
    · rw [he]
      exact ih.recordAll cs
    · rw [he]
      exact List.nodup_nil

end Lifecycle
end Testbed
