import Testbed.Proofs.Run

/-!
# The calls of a run

At each moment of a run at most one call is made.  `Change.moved` shows that the world only changes
by this call, apart from what callers themselves change: phases, registry, ledger and runtime.
-/

namespace Testbed

/-- The call that a caller makes by a move. -/
def Stage.call? : Stage → Move → Option Call
  | .initializing _ t, .go _ => t.call?
  | .finishing t, .go _ => t.call?
  | .stopping _ pass, .go k => pass.call? k
  | .disconnecting _ _ t, .go _ => t.call?
  | .halting victims _, .go k => victims[k]?.bind Victim.call?
  | .halting victims _, .cancel k true => (victims[k]?.bind Victim.call?).filter Call.inWorker
  | _, _ => none

/-- The call that work which was left behind makes by its next step. -/
def Leftover.call? (k : Nat) : Leftover → Option Call
  | .work t => t.call?
  | .pass p => p.call? k

/-- The call that is made by an action. -/
def Lifecycle.call? (l : Lifecycle) : Action → Option Call
  | .caller i m => l.callers[i]?.bind fun s => s.call? m
  | .leftover i k => l.leftovers[i]?.bind (Leftover.call? k)
  | _ => none

/-- The call that is made at a moment. -/
def Lifecycle.Moment.call? (x : Moment) : Option Call := x.before.call? x.action

namespace World

/-- Nothing but what callers change themselves has changed. -/
def Kept (w w' : World) : Prop :=
  ∃ holdings registry log gate,
    w' = { w with toHoldings := holdings, registry := registry, log := log, gateOpen := gate }

/-- The world has changed by one call, or only by what callers change themselves. -/
def Moved (w : World) (call : Option Call) (w' : World) : Prop :=
  (∃ c r, call = some c ∧ w.perform c = some (r, w')) ∨ call = none ∧ w.Kept w'

variable {w w' : World}

theorem Kept.refl (w : World) : w.Kept w := ⟨w.toHoldings, w.registry, w.log, w.gateOpen, rfl⟩

theorem closeRuntime_kept (w : World) : w.Kept w.closeRuntime := by
  rcases closeRuntime_eq w with ⟨isOpen, closed, log, he⟩
  exact ⟨_, w.registry, log, w.gateOpen, he⟩

theorem Kept.moved (h : w.Kept w') : w.Moved none w' := .inr ⟨rfl, h⟩

theorem next?_moved {α : Type} {t t' : Task α} (h : w.next? t = some (t', w')) :
    w.Moved t.call? w' := by
  rcases next?_eq_some h with ⟨c, next, r, rfl, hr, rfl⟩
  exact .inl ⟨c, r, rfl, hr⟩

end World

namespace StopPass

variable {w w' : World} {p : StopPass}

theorem outcome?_call? {α : Type} {t : Task (Except Fault α)} {r : Except Fault α}
    (h : outcome? t = some r) : t.call? = none := by
  unfold outcome? at h
  split at h
  · rfl
  · rfl
  · cases h

/-- Programs have outcomes if each of them has, and then in the same order. -/
theorem outcomes?_eq_some {α : Type} {ts : List (Task (Except Fault α))}
    {rs : List (Except Fault α)} (h : outcomes? ts = some rs) :
    List.Forall₂ (fun t r => outcome? t = some r) ts rs := by
  induction ts generalizing rs with
  | nil =>
    cases h
    exact .nil
  | cons t ts ih =>
    unfold outcomes? at h ih
    rw [List.mapM_cons] at h
    rcases Option.bind_eq_some_iff.1 h with ⟨r, hr, h⟩
    rcases Option.bind_eq_some_iff.1 h with ⟨rs, hrs, h⟩
    cases h
    exact .cons hr (ih hrs)

theorem outcomes?_getElem? {α : Type} {ts : List (Task (Except Fault α))}
    {rs : List (Except Fault α)} (h : outcomes? ts = some rs) {k : Nat}
    {t : Task (Except Fault α)} (hk : ts[k]? = some t) :
    ∃ r, rs[k]? = some r ∧ outcome? t = some r := by
  have all := outcomes?_eq_some h
  clear h
  induction all generalizing k with
  | nil => cases hk
  | cons hr _ ih =>
    cases k with
    | zero =>
      cases hk
      exact ⟨_, rfl, hr⟩
    | succ k => exact ih hk

/-- A pass only takes a turn when its programs make no call. -/
theorem turn?_call? {r : Progress} (h : p.turn? w = some (r, w')) (k : Nat) :
    p.call? k = none := by
  have done {α : Type} {ts : List (Task (Except Fault α))} {rs : List (Except Fault α)}
      (ho : outcomes? ts = some rs) : ts[k]?.bind Program.call? = none := by
    cases ht : ts[k]? with
    | none => rfl
    | some t =>
      rcases outcomes?_getElem? ho ht with ⟨r, -, hr⟩
      exact outcome?_call? hr
  cases turns_of_turn? h with
  | lists ho => exact done ho
  | reports ho => exact done ho
  | sweeps ho _ => exact outcome?_call? ho
  | lost ho => exact outcome?_call? ho
  | sums log ho => exact done ho

theorem step?_moved {p' : StopPass} {k : Nat} (h : p.step? w k = some (p', w')) :
    w.Moved (p.call? k) w' := by
  cases steps_of_step? h with
  | stopping hk hn =>
    have moved := World.next?_moved hn
    simpa [call?, hk] using moved
  | listing hn => exact World.next?_moved hn
  | removing hk hn =>
    have moved := World.next?_moved hn
    simpa [call?, hk] using moved

end StopPass

/-! ## Every change -/

namespace Lifecycle

variable {l l' : Lifecycle}

/-- A turn of a caller changes the world by its call. -/
theorem Turn.moved {s s' : Stage} {m : Move} (h : Turn l s m s' l') :
    l.world.Moved (s.call? m) l'.world := by
  have publishes {d : Delivery} {r : Except Fault EnvironmentSettings} {w : World}
      (hp : publish l.world d = (r, w)) (log : List LogRecord) :
      l.world.Kept { w with log := log } := by
    rcases publish_world hp with ⟨registry, ledger, log', rfl⟩
    exact ⟨_, _, _, _, rfl⟩
  -- A turn makes the call of its stage, or it only changes what callers change themselves.
  cases h
  case init h => exact World.next?_moved h
  case finish h => exact World.next?_moved h
  case disconnectSteps h => exact World.next?_moved h
  case passSteps h => exact StopPass.step?_moved h
  case passGoes h =>
    rcases StopPass.turn?_world h with ⟨log, rfl⟩
    exact .inr ⟨StopPass.turn?_call? h _, _, _, _, _, rfl⟩
  case passEnds h =>
    rcases StopPass.turn?_world h with ⟨log, rfl⟩
    exact .inr ⟨StopPass.turn?_call? h _, _, _, _, _, rfl⟩
  case publishFailed w h => exact (publishes h w.log).moved
  case publishLast w h _ => exact (publishes h w.log).moved
  case publishThen h _ _ => exact (publishes h _).moved
  case publishClosed h _ => exact (publishes h _).moved
  case haltedFailing => exact (World.closeRuntime_kept l.world).moved
  case halted => exact (World.closeRuntime_kept l.world).moved
  case victimDone hk =>
    refine .inr ⟨?_, .refl _⟩
    rcases hk with hk | hk <;> simp [Stage.call?, hk, Victim.call?, Program.call?]
  case victimDies hk h =>
    have := World.next?_moved h
    simpa [Stage.call?, hk, Victim.call?] using this
  case victimGoes hk h =>
    have := World.next?_moved h
    simpa [Stage.call?, hk, Victim.call?] using this
  case victimCancelled vs next k landed t t' w hk h =>
    rcases World.cancel?_eq_some h with ⟨c, next', r, rfl, -, rfl, hw⟩
    -- A call that is cancelled has landed or not; only one in a worker can have landed.
    cases landed with
    | false =>
      rw [if_neg (by simp)] at hw
      exact hw ▸ (World.Kept.refl _).moved
    | true =>
      split at hw
      · rename_i hl
        rcases hw with ⟨r', hr⟩
        exact .inl ⟨c, r', by simp [Stage.call?, hk, Victim.call?, Program.call?, hl.2], hr⟩
      · rename_i hl
        refine .inr ⟨?_, hw ▸ .refl _⟩
        simpa [Stage.call?, hk, Victim.call?, Program.call?] using hl
  all_goals exact World.Kept.moved ⟨_, _, _, _, rfl⟩

/-- Every action changes the world by the call that is made by it. -/
theorem Change.moved {n : Lifecycle} {a : Action} (h : Change l a n) :
    l.world.Moved (l.call? a) n.world := by
  cases h with
  | caller i hs turn =>
    have := turn.moved
    simpa [call?, hs] using this
  | work i k hi ht =>
    have := World.next?_moved ht
    simpa [call?, hi, Leftover.call?] using this
  | passGoes i k hi ht =>
    rcases StopPass.turn?_world ht with ⟨log, rfl⟩
    refine .inr ⟨?_, _, _, _, _, rfl⟩
    simp [call?, hi, Leftover.call?, StopPass.turn?_call? ht]
  | passEnds i k hi ht =>
    rcases StopPass.turn?_world ht with ⟨log, rfl⟩
    refine .inr ⟨?_, _, _, _, _, rfl⟩
    simp [call?, hi, Leftover.call?, StopPass.turn?_call? ht]
  | passSteps i k hi idle ht =>
    have := StopPass.step?_moved ht
    simpa [call?, hi, Leftover.call?] using this
  | gate isOpen => exact World.Kept.moved ⟨_, _, _, _, rfl⟩
  | _ => exact (World.Kept.refl _).moved

/-- Work that was left behind makes a call or adds to the log, and does nothing else. -/
theorem Change.of_leftover {n : Lifecycle} {i k : Nat} (h : Change l (.leftover i k) n) :
    (∃ o, l.leftovers[i]? = some o) ∧ ∃ w os, n = { l with world := w, leftovers := os } ∧
      ((∃ log, w = { l.world with log := log }) ∨
        ∃ c, l.call? (.leftover i k) = some c ∧ World.Effect l.world c w) := by
  cases h with
  | work i k hi ht =>
    refine ⟨⟨_, hi⟩, _, _, rfl, .inr ?_⟩
    simpa [call?, hi, Leftover.call?] using World.next?_call ht
  | passGoes i k hi ht => exact ⟨⟨_, hi⟩, _, _, rfl, .inl (StopPass.turn?_world ht)⟩
  | passEnds i k hi ht => exact ⟨⟨_, hi⟩, _, _, rfl, .inl (StopPass.turn?_world ht)⟩
  | passSteps i k hi idle ht =>
    refine ⟨⟨_, hi⟩, _, _, rfl, .inr ?_⟩
    simpa [call?, hi, Leftover.call?] using StopPass.step?_call ht

end Lifecycle
end Testbed
