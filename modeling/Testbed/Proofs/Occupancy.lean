import Testbed.Proofs.Cleanup

/-!
# Work past the drain

If no part of a plan outlives the drain of the ledger, all programs make the calls of a cleanup only
from then on (`Cleaned`), the ledger stays empty, and what is left behind ends with its runtime
(`Attended`), also if a program had shut the runtime of the plan down before.
-/

namespace Testbed

open Work

/-! ## Programs that clean up -/

/-- The program makes the calls of a cleanup only. -/
abbrev Task.Cleans {α : Type} (t : Task (Except Fault α)) : Prop :=
  Work.Gives (fun c => c.cleansUp = true) (fun _ => True) t

/-- The programs of a pass only make some calls. -/
def StopPass.Makes (P : Call → Prop) (p : StopPass) : Prop :=
  match p.stage with
  | .stopping ts => ∀ t ∈ ts, Work.Gives P (fun _ => True) t
  | .listing _ t => Work.Gives P (fun _ => True) t
  | .removing _ _ ts => ∀ t ∈ ts, Work.Gives P (fun _ => True) t

/-- The programs of a pass make the calls of a cleanup only. -/
abbrev StopPass.Cleans (p : StopPass) : Prop := p.Makes fun c => c.cleansUp = true

/-- A program on a runtime that makes the calls of a cleanup only. -/
abbrev Victim.Cleans (v : Victim) : Prop := v.Makes fun c => c.cleansUp = true

/-- Work that was left behind and makes the calls of a cleanup only. -/
def Leftover.Cleans : Leftover → Prop
  | .work t => t.Cleans
  | .pass p => p.Cleans

/-- What runs for a caller past the drain makes the calls of a cleanup only. -/
def Stage.Cleans : Stage → Prop
  | .stopping _ p => p.Cleans
  | .disconnecting _ _ t => t.Cleans
  | .halting vs _ => ∀ v ∈ vs, v.Cleans
  | _ => True

namespace StopPass

variable {P : Call → Prop} {p p' : StopPass} {w w' : World} {c : Call} {k : Nat}

/-- A pass that starts makes the calls of stop actions, and claims what it has been handed over. -/
theorem start_makes {cs : List Capability} (sweep : Option String)
    (stops : ∀ call : Call, call.isStop = true → P call) (claims : ∀ c ∈ cs, P (.claim c)) :
    (start cs sweep).Makes P := by
  intro t ht
  rcases List.mem_map.1 ht with ⟨c, hc, rfl⟩
  exact c.stopOne_gives stops (claims c hc)

theorem start_cleans (cs : List Capability) (sweep : Option String) : (start cs sweep).Cleans :=
  start_makes sweep (fun _ => Call.cleansUp_of_isStop) fun _ _ => rfl

theorem labelled_gives (session : String) (stops : ∀ call : Call, call.isStop = true → P call)
    (lists : ∀ filter, P (.engine (.listLabelled filter))) :
    Work.Gives P (fun _ => True) (labelled session) := by
  have opens : Client.ensureOpen.Gives P fun _ => True := gives_ensureOpen (stops _ rfl)
  refine gives_handle (gives_then opens fun _ => gives_engine (lists _)) ?_
  exact fun _ => gives_then (gives_log (stops _ rfl)) fun _ => gives_pure trivial

theorem Makes.turn (h : p.Makes P) (ht : p.turn? w = some (.going p', w'))
    (stops : ∀ call : Call, call.isStop = true → P call)
    (lists : ∀ filter, P (.engine (.listLabelled filter))) : p'.Makes P := by
  cases turns_of_turn? ht with
  | @lists cs session => exact labelled_gives session stops lists
  | sweeps _ _ =>
    intro t ht
    rcases List.mem_map.1 ht with ⟨id, -, rfl⟩
    exact Task.Follows.weaken (Client.removeContainer_gives id true true) stops

theorem Cleans.turn (h : p.Cleans) (ht : p.turn? w = some (.going p', w')) : p'.Cleans :=
  Makes.turn h ht (fun _ => Call.cleansUp_of_isStop) fun _ => rfl

theorem Makes.step (h : p.Makes P) (hs : p.step? w k = some (p', w')) : p'.Makes P := by
  have set {α : Type} {ts : List (Task (Except Fault α))} {t t' : Task (Except Fault α)}
      (h : ∀ t ∈ ts, Gives P (fun _ => True) t) (hk : ts[k]? = some t)
      (hn : w.next? t = some (t', w')) : ∀ t ∈ ts.set k t', Gives P (fun _ => True) t := by
    intro u hu
    rcases List.mem_or_eq_of_mem_set hu with hu | rfl
    · exact h u hu
    · exact Gives.next (h t (List.mem_of_getElem? hk)) hn
  cases steps_of_step? hs with
  | stopping hk hn => exact set h hk hn
  | listing hn => exact Gives.next h hn
  | removing hk hn => exact set h hk hn

theorem Makes.call (h : p.Makes P) (hc : p.call? k = some c) : P c := by
  have child {α : Type} {ts : List (Task (Except Fault α))}
      (h : ∀ t ∈ ts, Gives P (fun _ => True) t) (hc : ts[k]?.bind Program.call? = some c) :
      P c := by
    rcases Option.bind_eq_some_iff.1 hc with ⟨t, ht, hc⟩
    exact Task.Follows.allows (h t (List.mem_of_getElem? ht)) hc
  rcases p with ⟨cs, sweep, stage⟩
  cases stage with
  | stopping ts => exact child h hc
  | listing rs t => exact Task.Follows.allows h hc
  | removing rs ids ts => exact child h hc

theorem Cleans.running (h : p.Cleans) : ∀ t ∈ p.running, t.Cleans := by
  have rest {α : Type} {t : Task (Except Fault α)} {t' : Task (Except Fault Unit)}
      (h : t.Cleans) (ht : unfinished? t = some t') : t'.Cleans :=
    (Task.Follows.unfinished h ht).mono fun _ _ _ _ _ => trivial
  intro t' ht'
  rcases p with ⟨cs, sweep, stage⟩
  cases stage with
  | stopping ts =>
    rcases List.mem_filterMap.1 ht' with ⟨t, ht, hu⟩
    exact rest (h t ht) hu
  | listing rs t => exact rest h (Option.mem_toList.1 ht')
  | removing rs ids ts =>
    rcases List.mem_filterMap.1 ht' with ⟨t, ht, hu⟩
    exact rest (h t ht) hu

end StopPass

theorem Stage.Cleans.call {s : Stage} {m : Move} {c : Call} (h : s.Cleans)
    (late : s.isLate = true) (hc : s.call? m = some c) : c.cleansUp = true := by
  unfold Stage.call? at hc
  split at hc
  · cases late
  · cases late
  · exact StopPass.Makes.call h hc
  · exact Task.Follows.allows h hc
  · exact Victim.makes_call h hc
  · exact Victim.makes_call h (Option.mem_filter_iff.1 hc).1
  · cases hc

theorem Leftover.Cleans.call {o : Leftover} {k : Nat} {c : Call} (h : o.Cleans)
    (hc : o.call? k = some c) : c.cleansUp = true := by
  cases o with
  | work t => exact Task.Follows.allows h hc
  | pass p => exact StopPass.Makes.call h hc

namespace Lifecycle

variable {l l' n : Lifecycle} {a : Action} {s s' : Stage} {m : Move} {c : Call} {i : Nat}
  {tr u v : List Moment} {x : Moment}

theorem victims_clean (h : ∀ o ∈ l.leftovers, o.Cleans) : ∀ v ∈ l.victims, v.Cleans := by
  intro v hv
  rcases List.mem_flatMap.1 hv with ⟨o, ho, hv⟩
  have cleans := h o ho
  cases o with
  | work t =>
    rcases List.mem_singleton.1 hv with rfl
    exact cleans
  | pass p =>
    rcases List.mem_map.1 hv with ⟨t, ht, rfl⟩
    exact StopPass.Cleans.running cleans t ht

/-! ## Past the drain -/

/-- Whatever drives the environment or was left behind makes the calls of a cleanup only, and no
capability is in the ledger. -/
structure Cleaned (l : Lifecycle) : Prop where
  stages : ∀ {i : Nat} {s : Stage} {p : Phase},
    l.callers[i]? = some s → s.drives? = some p → s.isLate = true ∧ s.Cleans
  leftovers : ∀ o ∈ l.leftovers, o.Cleans
  ledger : l.world.ledger = {}

/-- A caller past the drain makes the calls of a cleanup only, and leaves no other work behind. -/
theorem Turn.cleans (turn : Turn l s m s' n) (late : s.isLate = true) (h : s.Cleans)
    (left : ∀ o ∈ l.leftovers, o.Cleans) :
    (s'.drives? = none ∨ s'.isLate = true ∧ s'.Cleans) ∧ ∀ o ∈ n.leftovers, o.Cleans := by
  have halting {vs : List Victim} {next : Afterwards} (hs : s = .halting vs next) :
      s'.isLate = true ∧ s'.Cleans := by
    subst hs
    rcases turn.halts h with ⟨vs', rfl, h'⟩ | ⟨f, rfl, -⟩ | ⟨p, r, rfl, rfl⟩
    · exact ⟨late, h'⟩
    · cases late
    · exact ⟨rfl, trivial⟩
  -- What a runtime cancels when it is shut down was left behind on it.
  have victims : ∀ v ∈ l.victims, v.Cleans := victims_clean left
  cases turn
  case confirm p cs k running => exact ⟨.inr ⟨rfl, StopPass.start_cleans cs (l.sweepOf p)⟩, left⟩
  case confirmAnew p cs k log hr => exact ⟨.inr ⟨rfl, StopPass.start_cleans cs (l.sweepOf p)⟩, left⟩
  case passGoes ht => exact ⟨.inr ⟨rfl, StopPass.Cleans.turn h ht⟩, left⟩
  case passSteps idle ht => exact ⟨.inr ⟨rfl, StopPass.Makes.step h ht⟩, left⟩
  case passExpired p pass =>
    refine ⟨.inr ⟨rfl, trivial⟩, ?_⟩
    intro o ho
    rcases List.mem_append.1 ho with ho | ho
    · exact left o ho
    · rcases List.mem_singleton.1 ho with rfl
      exact h
  case disconnect p r k =>
    exact ⟨.inr ⟨rfl, Client.close_gives.weaken fun _ => Call.cleansUp_of_isClose⟩, left⟩
  case releaseHalting => exact ⟨.inr ⟨rfl, victims⟩, nofun⟩
  case disconnected => exact ⟨.inr ⟨rfl, victims⟩, nofun⟩
  case disconnectSteps hn => exact ⟨.inr ⟨rfl, Work.Gives.next h hn⟩, left⟩
  case disconnectExpired p r t log =>
    refine ⟨.inr ⟨rfl, ?_⟩, nofun⟩
    intro v hv
    rcases List.mem_append.1 hv with hv | hv
    · exact victims v hv
    · rcases List.mem_singleton.1 hv with rfl
      exact h
  case haltedFailing => exact ⟨.inr (halting rfl), left⟩
  case halted => exact ⟨.inr (halting rfl), left⟩
  case victimDone => exact ⟨.inr (halting rfl), left⟩
  case victimDies => exact ⟨.inr (halting rfl), left⟩
  case victimGoes => exact ⟨.inr (halting rfl), left⟩
  case victimCancelled => exact ⟨.inr (halting rfl), left⟩
  all_goals
    first
      | exact ⟨.inr ⟨rfl, trivial⟩, left⟩
      | exact ⟨.inl rfl, left⟩
      | cases late

theorem Cleaned.call (h : l.Cleaned) (hc : l.call? a = some c) : c.cleansUp = true := by
  cases a with
  | caller i m =>
    rcases Option.bind_eq_some_iff.1 hc with ⟨s, hs, hc⟩
    rcases Stage.drives?_of_call? hc with ⟨p, hp⟩
    rcases h.stages hs hp with ⟨late, cleans⟩
    exact cleans.call late hc
  | leftover i k =>
    rcases Option.bind_eq_some_iff.1 hc with ⟨o, ho, hc⟩
    exact (h.leftovers o (List.mem_of_getElem? ho)).call hc
  | _ => cases hc

theorem Cleaned.ledger_change (h : l.Cleaned) (hc : Change l a n) : n.world.ledger = {} := by
  -- Who records is either a program, or a caller that publishes.
  rcases hc.ledger with ⟨cs, records, he⟩ | ⟨-, -, -, -, -, he⟩
  · cases cs with
    | nil => exact he.trans h.ledger
    | cons c cs =>
      rcases records c (List.mem_cons_self ..) with hc | ⟨i, m, p, d, hd, -, hi, -⟩
      · exact absurd rfl (Call.cleansUp_ne_record (h.call hc) c)
      · cases (h.stages hi rfl).1
  · exact he

theorem Cleaned.turn (h : l.Cleaned) (sound : l.Sound) (drained : l.Drained)
    (hs : l.callers[i]? = some s) (turn : Turn l s m s' n) :
    (s'.drives? = none ∨ s'.isLate = true ∧ s'.Cleans) ∧ ∀ o ∈ n.leftovers, o.Cleans := by
  cases hd : s.drives? with
  | none =>
    -- Who does not drive past the drain never will.
    rcases turn.idle hd (drained.phase_ne sound) with ⟨idle, -, left, -⟩
    exact ⟨.inl idle, left ▸ h.leftovers⟩
  | some p =>
    rcases h.stages hs hd with ⟨late, cleans⟩
    exact turn.cleans late cleans h.leftovers

theorem Cleaned.change (h : l.Cleaned) (sound : l.Sound) (drained : l.Drained)
    (hc : Change l a n) : n.Cleaned where
  stages := by
    intro j t p ht hp
    rcases hc.callers ht with ht | ⟨d, -, rfl⟩ | ⟨m, s, n', -, hs, turn, -⟩
    · exact h.stages ht hp
    · cases hp
    · rcases (h.turn sound drained hs turn).1 with idle | cleans
      · rw [idle] at hp
        cases hp
      · exact cleans
  leftovers := by
    intro o ho
    rcases hc.leftover ho with old | ⟨o', old, advances⟩ | ⟨i, m, s, s', n', -, hs, turn, rfl⟩
    · exact h.leftovers o old
    · cases advances with
      | work ht => exact Work.Gives.next (h.leftovers _ old) ht
      | goes ht => exact StopPass.Cleans.turn (h.leftovers _ old) ht
      | steps ht => exact StopPass.Makes.step (h.leftovers _ old) ht
    · exact (h.turn sound drained hs turn).2 o ho
  ledger := h.ledger_change hc

/-! ## Work that is left behind past the drain -/

/-- Nothing has been left behind, and nothing runs on the runtime. -/
def Vacant (l : Lifecycle) : Prop :=
  l.leftovers = [] ∧ ∀ (i : Nat) (s : Stage), l.callers[i]? = some s → s.holds? ≠ some true

/-- Work is only left behind on a runtime that takes calls.  A runtime that was shut down before
the drain is replaced before a stop pass is started. -/
def Attended (l : Lifecycle) : Prop := l.Vacant ∨ l.Staffed

/-- A caller past the drain leaves nothing behind before its pass, which it starts on a runtime that
it holds. -/
theorem Turn.attends (turn : Turn l s m s' n) (late : s.isLate = true)
    (vacant : s.holds? ≠ some true) (left : l.leftovers = []) :
    n.leftovers = [] ∧
      (s'.holds? = some true → n.held = true ∧ n.world.workersOpen = true) := by
  cases turn
  case confirm p cs k running => exact ⟨left, fun _ => running⟩
  case confirmAnew => exact ⟨left, fun _ => ⟨rfl, rfl⟩⟩
  all_goals
    first
      | exact absurd rfl vacant
      | (cases late; done)
      | exact ⟨left, nofun⟩
      | exact ⟨rfl, nofun⟩

theorem Vacant.change (h : l.Vacant) (cleaned : l.Cleaned) (drained : l.Drained)
    (sound : l.Sound) (hc : Change l a n) : n.Attended := by
  have sound' : n.Sound := sound.change hc
  rcases h with ⟨left, vacant⟩
  rcases hc.turn_or_none_left left with ⟨i, m, s, s', n, rfl, hs, turn, rfl⟩ | ⟨other, none, -⟩
  · have own : n.leftovers = [] ∧
        (s'.holds? = some true → n.held = true ∧ n.world.workersOpen = true) := by
      cases hd : s.drives? with
      | none =>
        rcases turn.idle hd (drained.phase_ne sound) with ⟨idle, -, same, -⟩
        refine ⟨same.trans left, ?_⟩
        intro holds
        rcases Stage.drives?_of_holds? holds with ⟨p, hp⟩
        cases idle.symm.trans hp
      | some p => exact turn.attends (cleaned.stages hs hd).1 (vacant i s hs) left
    -- The caller that starts its pass holds a runtime from now on.
    by_cases holds : s'.holds? = some true
    · have now : (l.callers.set i s')[i]? = some s' := by
        simp [(List.getElem?_eq_some_iff.1 hs).1]
      rcases own.2 holds with ⟨held, opened⟩
      exact .inr (sound'.staffed now holds held opened own.1)
    · refine .inl ⟨own.1, ?_⟩
      intro j t ht
      rcases getElem?_set_cases ht with ⟨rfl, rfl⟩ | ⟨-, ht⟩
      · exact holds
      · exact vacant j t ht
  · refine .inl ⟨none, ?_⟩
    intro j t ht
    rcases hc.callers ht with ht | ⟨d, -, rfl⟩ | ⟨m, s, n', ha, -⟩
    · exact vacant j t ht
    · nofun
    · exact absurd ha (other j m)

theorem Attended.change (h : l.Attended) (cleaned : l.Cleaned) (drained : l.Drained)
    (sound : l.Sound) (hc : Change l a n) : n.Attended := by
  rcases h with vacant | staffed
  · exact vacant.change cleaned drained sound hc
  · -- The calls of a cleanup shut no runtime down.
    refine .inr (staffed.change sound hc ?_)
    intro call
    cases cleaned.call call

theorem Attended.none_left_idle (h : l.Attended)
    (idle : ∀ (i : Nat) (s : Stage), l.callers[i]? = some s → s.drives? = none) :
    l.leftovers = [] := by
  rcases h with vacant | staffed
  · exact vacant.1
  · exact staffed.none_left_idle idle

/-- If nothing is left behind when the ledger is drained, only the calls of a cleanup are made from
then on, the ledger stays empty, and what is left behind ends with its runtime. -/
theorem Run.cleaned (fresh : l.Fresh) (run : Run l (u ++ x :: v) l') (hx : x.drains = true)
    (left : x.before.leftovers = []) : l'.Cleaned ∧ l'.Attended := by
  refine run.since (P := fun _ n => n.Cleaned ∧ n.Attended) ?_ ?_
  · intro front act
    rcases Moment.drains_turn act hx with ⟨i, k, p, -, -, hn, cs, log, he⟩
    have left : x.after.leftovers = [] := by
      rw [he]
      exact left
    have sound : x.after.Sound := run.at_moment.2.2.sound fresh
    -- Only the caller drives that has drained the ledger.
    have alone {j : Nat} {t : Stage} {q : Phase} (ht : x.after.callers[j]? = some t)
        (hq : t.drives? = some q) :
        t = .confirming p x.before.world.ledger.entries.reverse := by
      rcases sound.unique ht hn hq rfl with rfl
      exact Option.some.inj (ht.symm.trans hn)
    refine ⟨⟨?_, by simp [left], by simp [he]⟩, .inl ⟨left, ?_⟩⟩
    · intro j t q ht hq
      rw [alone ht hq]
      exact ⟨rfl, trivial⟩
    · intro j t ht holds
      rcases Stage.drives?_of_holds? holds with ⟨q, hq⟩
      rw [alone ht hq] at holds
      cases holds
  · rintro w y front act ⟨cleaned, attended⟩
    have sound : y.before.Sound := front.sound fresh
    have drained : y.before.Drained := front.drained fresh hx
    have hc : Change y.before y.action y.after := change_of_act? act
    exact ⟨cleaned.change sound drained hc, attended.change cleaned drained sound hc⟩

end Lifecycle
end Testbed
