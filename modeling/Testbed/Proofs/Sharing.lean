import Testbed.Lifecycle.Ensemble
import Testbed.Proofs.Publication

/-!
# Sharing a registry

Environments that are built on one registry do not know of each other.  Only one of them can seal
the registry (`Ensemble.Sound`), and nobody else drains it; but each of them clears it when its
setup fails.  Reads that rely on an environment that is ready are therefore answered as they were
when it was sealed until another environment clears the registry, and are refused from then on.
-/

namespace Testbed
namespace Registry

variable {r r' : Registry}

theorem Writes.eq_of_closed (h : r.Writes r') (closed : r.state ≠ .opened) : r' = r := by
  rcases r with ⟨state, entries⟩
  rcases r' with ⟨state', entries'⟩
  have same : state' = state := h.state
  have kept : entries' = entries := h.entries closed
  rw [same, kept]

theorem sealEntries_eq_ok (h : r.sealEntries = .ok r') :
    r.state = .opened ∧ r' = { r with state := .sealed } := by
  unfold sealEntries at h
  split at h
  · rename_i opened
    cases h
    exact ⟨opened, rfl⟩
  · cases h

theorem beginDrain_not_opened (closed : r.state ≠ .opened) : r.beginDrain.state ≠ .opened := by
  unfold beginDrain
  split
  · exact closed
  · intro opened
    cases opened

end Registry

namespace Lifecycle

variable {l n : Lifecycle} {a : Action} {s s' : Stage} {m : Move} {w : World} {tr : List Moment}

/-! ## One of several environments -/

theorem Fresh.adopt (fresh : l.Fresh) (w : World) : (l.adopt w).Fresh where
  history := fresh.history
  ledger := fresh.ledger
  held := fresh.held
  ready := fresh.ready
  settled := fresh.settled
  stopped := fresh.stopped
  report := fresh.report
  failure := fresh.failure
  leftovers := fresh.leftovers
  callers := fresh.callers

theorem Sound.adopt (sound : l.Sound) (w : World) : (l.adopt w).Sound :=
  sound.of_eq rfl rfl rfl rfl

/-- The world that an environment shares has changed, but not the registry. -/
theorem Gated.adopt (gated : l.Gated) (same : w.registry = l.world.registry) :
    (l.adopt w).Gated where
  stages := fun hs hr => (congrArg Registry.state same).trans (gated.stages hs hr)
  phases := fun hr => (congrArg Registry.state same).trans (gated.phases hr)
  cleared := by
    rw [show (l.adopt w).world.registry = w.registry from rfl, same]
    exact gated.cleared

theorem Attributed.adopt (h : Attributed tr l) (same : w.registry = l.world.registry) :
    Attributed tr (l.adopt w) where
  idle := by
    rw [show (l.adopt w).world.registry = w.registry from rfl, same]
    exact h.idle
  stages := by
    rw [show (l.adopt w).world.registry = w.registry from rfl, same]
    exact h.stages
  ready := by
    rw [show (l.adopt w).world.registry = w.registry from rfl, same]
    exact h.ready

/-- The ways in which a caller changes the registry. -/
theorem Regulates.ways {r r' : Registry} (h : Regulates r s s' r') :
    r.Writes r' ∨ (s = .sealing ∧ s' = .entering ∧ r.sealEntries = .ok r') ∨
      (∃ strict, s = .quieting strict ∧ r' = r.beginDrain) ∨
        ∃ p o, s = .clearing p o ∧ s' = .closing p o ∧ r' = r.clear := by
  cases h with
  | writes written => exact .inl written
  | seals hr => exact .inr (.inl ⟨rfl, rfl, hr⟩)
  | drains strict => exact .inr (.inr (.inl ⟨strict, rfl, rfl⟩))
  | clears p o => exact .inr (.inr (.inr ⟨p, o, rfl, rfl, rfl⟩))

/-! ## Who has sealed the registry -/

/-- The environment has sealed its registry: it is about to become ready, or has been. -/
def HasSealed (l : Lifecycle) : Prop :=
  (l.phase = .ready ∨ l.phase = .tearingDown ∨ l.phase = .stopped) ∨
    ∃ i : Nat, l.callers[i]? = some .entering

/-- An environment that has sealed its registry now had done so before, or does it now. -/
theorem HasSealed.before (h : n.HasSealed) (sound : l.Sound) (hc : Change l a n) :
    l.HasSealed ∨ ∃ i m, a = .caller i m ∧ l.callers[i]? = some .sealing ∧
      n.callers[i]? = some .entering ∧
        l.world.registry.sealEntries = .ok n.world.registry := by
  -- The phase tells of a seal, or a caller that has just sealed.
  rcases h with phase | ⟨i, hi⟩
  · refine .inl ?_
    have kept (same : n.phase = l.phase) : l.HasSealed := .inl (same ▸ phase)
    rcases hc.turn_or_same with ⟨i, m, s, s', n', -, hs, turn, rfl⟩ | ⟨hh, -⟩
    · rcases turn.history with hh | ⟨q, -, hh, enters⟩
      · exact kept (phase_of_history_eq hh)
      · have now : q = .ready ∨ q = .tearingDown ∨ q = .stopped :=
          (phase_of_history (l := n') hh) ▸ phase
        cases enters with
        | setup p => simp at now
        | ready => exact .inr ⟨i, hs⟩
        | teardown strict =>
          cases turn
          case tearDown hp => exact .inl (.inl hp)
        | close p r =>
          cases p with
          | failure f => simp [Purpose.target] at now
          | teardown strict => exact .inl (.inr (.inl (sound.phase_eq hs rfl)))
    · exact kept (phase_of_history_eq hh)
  · rcases hc.callers hi with hl | ⟨d, -, he⟩ | ⟨m, s, n', ha, hs, turn, hn⟩
    · exact .inl (.inr ⟨i, hl⟩)
    · cases he
    · refine .inr ⟨i, m, ha, ?_⟩
      subst hn
      cases turn
      case «seal» k r log hr => exact ⟨hs, hi, hr⟩

/-- Having sealed the registry is not undone. -/
theorem HasSealed.after (h : l.HasSealed) (sound : l.Sound) (hc : Change l a n) :
    n.HasSealed := by
  -- The phases behind the seal lead to one another only.
  rcases h with phase | ⟨i, hi⟩
  · rcases hc.turn_or_same with ⟨i, m, s, s', n', -, -, turn, rfl⟩ | ⟨hh, -⟩
    · rcases turn.history with hh | ⟨q, hq, hh, -⟩
      · exact .inl ((phase_of_history_eq hh).symm ▸ phase)
      · refine .inl ?_
        rw [show Lifecycle.phase { n' with callers := l.callers.set i s' } = q from
          phase_of_history (l := n') hh]
        rcases phase with hp | hp | hp
        · rw [hp] at hq
          simp [Phase.next] at hq
          exact .inr (.inl hq)
        · rw [hp] at hq
          simp [Phase.next] at hq
          exact .inr (.inr hq)
        · rw [hp] at hq
          cases hq
    · exact .inl ((phase_of_history_eq hh).symm ▸ phase)
  · rcases hc.goes hi with ⟨-, hn⟩ | ⟨m, s', n', -, turn, rfl, -⟩
    · exact .inr ⟨i, hn⟩
    · cases turn
      case enterReady => exact .inl (.inl rfl)
      case enterReadyRefused hp =>
        rw [sound.phase_eq hi rfl] at hp
        exact absurd (by simp [Phase.next]) hp

/-- An environment that has sealed its registry does not clear it before its teardown. -/
theorem HasSealed.not_clearing {c : Nat} {p : Purpose} {o : Except Fault TeardownReport}
    (h : l.HasSealed) (sound : l.Sound) (calm : l.phase.rank ≤ 2)
    (hc : l.callers[c]? = some (.clearing p o)) : False := by
  have phase : l.phase = p.source := sound.phase_eq hc rfl
  rcases h with hp | ⟨d, hd⟩
  · -- A failed setup is cleaned up before the environment is ready, a teardown afterwards.
    cases p with
    | failure f => simp [phase, Purpose.source] at hp
    | teardown strict =>
      rw [phase] at calm
      exact absurd calm (show ¬ Phase.tearingDown.rank ≤ 2 by decide)
  · have same : d = c := sound.unique hd hc rfl rfl
    rw [same, hc] at hd
    cases hd

end Lifecycle

namespace Ensemble

variable {g g' : Ensemble} {e : Event} {i j : Nat} {l n : Lifecycle}

/-! ## Runs -/

/-- An event with the ensembles before and after it. -/
structure Moment where
  before : Ensemble
  event : Event
  after : Ensemble

/-- The runs that start at an ensemble, with their moments and what they have led to. -/
inductive Run (g : Ensemble) : List Moment → Ensemble → Prop where
  | refl : Run g [] g
  | tail {tr : List Moment} {h k : Ensemble} {e : Event} (run : Run g tr h)
      (step : h.next? e = some k) : Run g (tr ++ [⟨h, e, k⟩]) k

/-- The run of a list of events, if they can happen in this order. -/
def replay? (g : Ensemble) : List Event → Option (List Moment × Ensemble)
  | [] => some ([], g)
  | e :: es =>
    match g.next? e with
    | none => none
    | some h => (replay? h es).map fun r => (⟨g, e, h⟩ :: r.1, r.2)

theorem Run.head {h : Ensemble} {tr : List Moment} (step : g.next? e = some h)
    (run : Run h tr g') : Run g (⟨g, e, h⟩ :: tr) g' := by
  induction run with
  | refl => exact .tail .refl step
  | tail _ hs ih => exact .tail ih hs

theorem Run.of_replay? {tr : List Moment} {es : List Event}
    (h : replay? g es = some (tr, g')) : Run g tr g' := by
  induction es generalizing g tr with
  | nil =>
    cases h
    exact .refl
  | cons e es ih =>
    unfold replay? at h
    cases he : g.next? e with
    | none => simp [he] at h
    | some k =>
      rw [he] at h
      rcases Option.map_eq_some_iff.1 h with ⟨r, hr, heq⟩
      cases heq
      exact .head he (ih hr)

/-! ## One event -/

theorem member?_eq_some : g.member? i = some l ↔
    ∃ m, g.members[i]? = some m ∧ l = m.adopt g.world := by
  simp only [member?, Option.map_eq_some_iff]
  constructor
  · rintro ⟨m, hm, rfl⟩
    exact ⟨m, hm, rfl⟩
  · rintro ⟨m, hm, rfl⟩
    exact ⟨m, hm, rfl⟩

/-- A member is in the world that it shares. -/
theorem registry_of_member (hi : g.member? i = some l) :
    l.world.registry = g.world.registry := by
  rcases member?_eq_some.1 hi with ⟨m, -, rfl⟩
  rfl

/-- What an event is: a member takes an action, or a value is stored. -/
theorem next?_cases (h : g.next? e = some g') :
    (∃ i a l n, e = .act i a ∧ g.member? i = some l ∧ Lifecycle.Change l a n ∧
      g' = ⟨n.world, g.members.set i n⟩ ∧ g'.member? i = some n) ∨
    ∃ key value, e = .store key value ∧
      g' = { g with world := (Lifecycle.store g.world key value).2 } := by
  cases e with
  | act i a =>
    refine .inl ?_
    rcases Option.bind_eq_some_iff.1 h with ⟨l, hl, h⟩
    rcases Option.bind_eq_some_iff.1 h with ⟨n, hn, h⟩
    cases h
    refine ⟨i, a, l, n, rfl, hl, Lifecycle.change_of_act? hn, rfl, ?_⟩
    rcases member?_eq_some.1 hl with ⟨m, hm, -⟩
    refine member?_eq_some.2 ⟨n, ?_, rfl⟩
    simp [(List.getElem?_eq_some_iff.1 hm).1]
  | store key value =>
    cases h
    exact .inr ⟨key, value, rfl, rfl⟩

/-- A member takes the action, or is left where it was in a world that may have changed. -/
theorem member_of_next? (h : g.next? e = some g') (hi : g'.member? i = some n) :
    (∃ a l, e = .act i a ∧ g.member? i = some l ∧ Lifecycle.Change l a n ∧
      g'.world = n.world) ∨
    ∃ l, g.member? i = some l ∧ n = l.adopt g'.world ∧ ∀ a, e ≠ .act i a := by
  rcases next?_cases h with ⟨j, a, l, k, rfl, hl, hc, rfl, hj⟩ | ⟨key, value, rfl, rfl⟩
  · by_cases hij : j = i
    · subst hij
      have same : k = n := Option.some.inj (hj.symm.trans hi)
      subst same
      exact .inl ⟨a, l, rfl, hl, hc, rfl⟩
    · refine .inr ?_
      rcases member?_eq_some.1 hi with ⟨m, hm, rfl⟩
      rw [List.getElem?_set_ne hij] at hm
      refine ⟨m.adopt g.world, member?_eq_some.2 ⟨m, hm, rfl⟩, rfl, ?_⟩
      intro a' he
      exact hij (Event.act.inj he).1
  · rcases member?_eq_some.1 hi with ⟨m, hm, rfl⟩
    exact .inr ⟨m.adopt g.world, member?_eq_some.2 ⟨m, hm, rfl⟩, rfl, nofun⟩

/-- The environment clears its registry by an action. -/
def Clears (l n : Lifecycle) : Prop :=
  ∃ (c : Nat) (p : Purpose) (o : Except Fault TeardownReport),
    l.callers[c]? = some (.clearing p o) ∧ n.callers[c]? = some (.closing p o)

/-- The environment seals its registry by an action. -/
def Seals (l n : Lifecycle) : Prop :=
  ∃ c : Nat, l.callers[c]? = some .sealing ∧ n.callers[c]? = some .entering

/-- The ways in which the shared registry changes: it is written to, or a member seals, drains or
clears it. -/
theorem registry_of_next? (h : g.next? e = some g') :
    g.world.registry.Writes g'.world.registry ∨
    ∃ i a l n, e = .act i a ∧ g.member? i = some l ∧ g'.member? i = some n ∧
      ((Seals l n ∧ g.world.registry.sealEntries = .ok g'.world.registry) ∨
        ((∃ (c : Nat) (strict : Bool), l.callers[c]? = some (.quieting strict)) ∧
          g'.world.registry = g.world.registry.beginDrain) ∨
        Clears l n ∧ g'.world.registry = ⟨.cleared, []⟩) := by
  rcases next?_cases h with ⟨i, a, l, n, rfl, hl, hc, rfl, hn⟩ | ⟨key, value, rfl, rfl⟩
  · have same := registry_of_member hl
    rcases hc.registry with written | ⟨c, s, s', hs, hs', reg⟩
    · exact .inl (same ▸ written)
    rcases reg.ways with written | ⟨rfl, rfl, hr⟩ | ⟨strict, rfl, hr⟩ |
      ⟨p, o, rfl, rfl, hr⟩
    · exact .inl (same ▸ written)
    · exact .inr ⟨i, a, l, n, rfl, hl, hn, .inl ⟨⟨c, hs, hs'⟩, same ▸ hr⟩⟩
    · exact .inr ⟨i, a, l, n, rfl, hl, hn, .inr (.inl ⟨⟨c, strict, hs⟩, same ▸ hr⟩)⟩
    · exact .inr ⟨i, a, l, n, rfl, hl, hn, .inr (.inr ⟨⟨c, p, o, hs, hs'⟩, hr⟩)⟩
  · exact .inl (Lifecycle.store_registry ..)

/-! ## One member seals -/

/-- Every member is sound, and at most one of them has sealed the registry, which then is not open
any more. -/
structure Sound (g : Ensemble) : Prop where
  members : ∀ {i : Nat} {l : Lifecycle}, g.member? i = some l → l.Sound
  closed : ∀ {i : Nat} {l : Lifecycle}, g.member? i = some l → l.HasSealed →
    g.world.registry.state ≠ .opened
  unique : ∀ {i j : Nat} {l k : Lifecycle}, g.member? i = some l → g.member? j = some k →
    l.HasSealed → k.HasSealed → i = j

/-- An ensemble of environments of which nothing has been asked yet, with a new registry. -/
structure Fresh (g : Ensemble) : Prop where
  members : ∀ l ∈ g.members, l.Fresh
  registry : g.world.registry = {}

theorem Fresh.member (fresh : g.Fresh) (hi : g.member? i = some l) : l.Fresh := by
  rcases member?_eq_some.1 hi with ⟨m, hm, rfl⟩
  exact (fresh.members m (List.mem_of_getElem? hm)).adopt g.world

theorem Fresh.not_sealed (fresh : g.Fresh) (hi : g.member? i = some l) : ¬ l.HasSealed := by
  have new := fresh.member hi
  rintro (phase | ⟨c, hc⟩)
  · simp [new.phase_eq] at phase
  · simp [new.callers] at hc

theorem Fresh.sound (fresh : g.Fresh) : g.Sound where
  members := fun hi => (fresh.member hi).sound
  closed := fun hi h => absurd h (fresh.not_sealed hi)
  unique := fun hi _ h _ => absurd h (fresh.not_sealed hi)

theorem closed_of_next? (h : g.next? e = some g') (closed : g.world.registry.state ≠ .opened) :
    g'.world.registry.state ≠ .opened := by
  rcases registry_of_next? h with written | ⟨i, a, l, n, -, -, -, ways⟩
  · exact written.state ▸ closed
  · rcases ways with ⟨-, hr⟩ | ⟨-, hr⟩ | ⟨-, hr⟩
    · exact absurd (Registry.sealEntries_eq_ok hr).1 closed
    · rw [hr]
      exact Registry.beginDrain_not_opened closed
    · intro opened
      rw [hr] at opened
      cases opened

/-- A member that has sealed the registry had done so before the event, or does it by the event
and nobody has done it before. -/
theorem Sound.sealed_before (sound : g.Sound) (h : g.next? e = some g')
    (hi : g'.member? i = some n) (hn : n.HasSealed) :
    (∃ l, g.member? i = some l ∧ l.HasSealed) ∨
      (∃ a l, e = .act i a ∧ g.member? i = some l ∧ Lifecycle.Change l a n ∧ Seals l n ∧
        g.world.registry.sealEntries = .ok g'.world.registry) := by
  rcases member_of_next? h hi with ⟨a, l, rfl, hl, hc, hw⟩ | ⟨l, hl, rfl, -⟩
  · rcases hn.before (sound.members hl) hc with before | ⟨c, m, -, hs, hs', hr⟩
    · exact .inl ⟨l, hl, before⟩
    · rw [registry_of_member hl, ← hw] at hr
      exact .inr ⟨a, l, rfl, hl, hc, ⟨c, hs, hs'⟩, hr⟩
  · exact .inl ⟨l, hl, hn⟩

theorem Sound.next (sound : g.Sound) (h : g.next? e = some g') : g'.Sound where
  members := by
    intro i n hi
    rcases member_of_next? h hi with ⟨a, l, rfl, hl, hc, -⟩ | ⟨l, hl, rfl, -⟩
    · exact (sound.members hl).change hc
    · exact (sound.members hl).adopt _
  closed := by
    intro i n hi hn
    rcases sound.sealed_before h hi hn with ⟨l, hl, before⟩ | ⟨a, l, -, hl, -, -, hr⟩
    · exact closed_of_next? h (sound.closed hl before)
    · rw [(Registry.sealEntries_eq_ok hr).2]
      exact nofun
  unique := by
    intro i j n k hi hj hn hk
    rcases sound.sealed_before h hi hn with ⟨l, hl, before⟩ | ⟨a, l, he, -, -, -, hr⟩
    · rcases sound.sealed_before h hj hk with ⟨l', hl', before'⟩ | ⟨a', l', -, -, -, -, hr'⟩
      · exact sound.unique hl hl' before before'
      · exact absurd (Registry.sealEntries_eq_ok hr').1 (sound.closed hl before)
    · rcases sound.sealed_before h hj hk with ⟨l', hl', before'⟩ | ⟨a', l', he', -, -, -, -⟩
      · exact absurd (Registry.sealEntries_eq_ok hr).1 (sound.closed hl' before')
      · exact (Event.act.inj (he.symm.trans he')).1

theorem Run.sound {tr : List Moment} (fresh : g.Fresh) (run : Run g tr g') : g'.Sound := by
  induction run with
  | refl => exact fresh.sound
  | tail _ h ih => exact ih.next h

/-! ## What becomes of a sealed registry -/

/-- A member other than the i-th clears the registry. -/
def Moment.clearedByOther (i : Nat) (x : Moment) : Prop :=
  ∃ j a l n, x.event = .act j a ∧ j ≠ i ∧ x.before.member? j = some l ∧
    x.after.member? j = some n ∧ Clears l n

/-- The i-th member seals the registry. -/
def Moment.sealedBy (i : Nat) (x : Moment) : Prop :=
  (∃ a l n, x.event = .act i a ∧ x.before.member? i = some l ∧ x.after.member? i = some n ∧
    Seals l n) ∧ x.after.world.registry.state = .sealed

/-- A registry that is cleared stays as it is. -/
theorem cleared_of_next? (h : g.next? e = some g')
    (cleared : g.world.registry = ⟨.cleared, []⟩) : g'.world.registry = ⟨.cleared, []⟩ := by
  have closed : g.world.registry.state ≠ .opened := by simp [cleared]
  rcases registry_of_next? h with written | ⟨i, a, l, n, -, -, -, ⟨-, hr⟩ | ⟨-, hr⟩ | ⟨-, hr⟩⟩
  · exact (written.eq_of_closed closed).trans cleared
  · exact absurd (Registry.sealEntries_eq_ok hr).1 closed
  · rw [hr, cleared]
    rfl
  · exact hr

theorem Moment.cleared_by_other (h : g.next? e = some g')
    (hc : (⟨g, e, g'⟩ : Moment).clearedByOther i) : g'.world.registry = ⟨.cleared, []⟩ := by
  rcases hc with ⟨j, a, l, n, he, -, hl, hn, c, p, o, hs, hs'⟩
  have he : e = .act j a := he
  subst he
  rcases member_of_next? h hn with ⟨a', l', ha, hl', change, hw⟩ | ⟨l', -, -, other⟩
  · cases ha
    cases Option.some.inj (hl.symm.trans hl')
    rcases change.goes hs with ⟨-, hk⟩ | ⟨m, s', n', -, turn, rfl, hk⟩
    · cases hs'.symm.trans hk
    · cases hs'.symm.trans hk
      rw [hw]
      cases turn <;> rfl
  · exact absurd rfl (other a)

/-- A sealed registry stays as it is until the member that has sealed it begins its teardown, or
another member clears it. -/
theorem Sound.kept_by_next (sound : g.Sound) (h : g.next? e = some g')
    (hl : g.member? i = some l) (holder : l.HasSealed) (calm : l.phase.rank ≤ 2)
    (shut : g.world.registry.state = .sealed)
    (others : ¬ (⟨g, e, g'⟩ : Moment).clearedByOther i) :
    g'.world.registry = g.world.registry := by
  have closed : g.world.registry.state ≠ .opened := by simp [shut]
  rcases registry_of_next? h with written | ⟨j, a, k, n, he, hk, hn, ⟨-, hr⟩ | ⟨hq, -⟩ | ⟨hcl, -⟩⟩
  · exact written.eq_of_closed closed
  · exact absurd (Registry.sealEntries_eq_ok hr).1 closed
  · -- Only the member that has sealed the registry gets to its teardown.
    rcases hq with ⟨c, strict, hc⟩
    have phase : k.phase = .tearingDown := (sound.members hk).phase_eq hc rfl
    have same : i = j := sound.unique hl hk holder (.inl (.inr (.inl phase)))
    subst same
    cases Option.some.inj (hl.symm.trans hk)
    rw [phase] at calm
    exact absurd calm (by decide)
  · by_cases same : j = i
    · subst same
      cases Option.some.inj (hl.symm.trans hk)
      rcases hcl with ⟨c, p, o, hc, -⟩
      exact (holder.not_clearing (sound.members hl) calm hc).elim
    · exact absurd ⟨j, a, k, n, he, same, hk, hn, hcl⟩ others

/-! ## What a member has published -/

/-- The moment of the i-th member's own run, if it is the one that moves. -/
def Moment.own? (i : Nat) (x : Moment) : Option Lifecycle.Moment :=
  match x.event, x.before.member? i, x.after.member? i with
  | .act j a, some l, some n => if j = i then some ⟨l, a, n⟩ else none
  | _, _, _ => none

/-- The moments at which the i-th member moves, as it sees them. -/
def own (i : Nat) (tr : List Moment) : List Lifecycle.Moment := tr.filterMap (Moment.own? i)

/-- Whatever is not an action of the i-th member leaves the registry as it is. -/
def Undisturbed (i : Nat) (tr : List Moment) : Prop :=
  ∀ x ∈ tr, (∀ a, x.event ≠ .act i a) → x.after.world.registry = x.before.world.registry

section

variable {tr : List Moment} {a : Lifecycle.Action}

theorem own_append_act (hl : g.member? i = some l) (hn : g'.member? i = some n) :
    own i (tr ++ [⟨g, .act i a, g'⟩]) = own i tr ++ [⟨l, a, n⟩] := by
  simp [own, Moment.own?, hl, hn]

theorem own_append_other (other : ∀ a, e ≠ .act i a) : own i (tr ++ [⟨g, e, g'⟩]) = own i tr := by
  have none : Moment.own? i ⟨g, e, g'⟩ = none := by
    unfold Moment.own?
    split
    · rename_i j a l n he _ _
      rw [if_neg]
      rintro rfl
      exact other a he
    · rfl
  simp [own, none]

/-- A member whose registry nobody else touches keeps account of it as if it were alone. -/
theorem Run.attributed (fresh : g.Fresh) (run : Run g tr g') (hi : g'.member? i = some l)
    (quiet : Undisturbed i tr) : Lifecycle.Attributed (own i tr) l ∧ l.Gated := by
  induction run generalizing l with
  | refl =>
    have new := fresh.member hi
    have registry : l.world.registry = {} := (registry_of_member hi).trans fresh.registry
    exact ⟨.fresh new (by rw [registry]), new.gated (by rw [registry])⟩
  | @tail tr h k e run step ih =>
    have before : Undisturbed i tr := fun x hx => quiet x (List.mem_append_left _ hx)
    rcases member_of_next? step hi with ⟨a, l', rfl, hl, hc, -⟩ | ⟨l', hl, rfl, other⟩
    · rcases ih hl before with ⟨attributed, gated⟩
      have sound : l'.Sound := (run.sound fresh).members hl
      rw [own_append_act hl hi]
      exact ⟨attributed.change sound gated hc, gated.change sound hc⟩
    · rcases ih hl before with ⟨attributed, gated⟩
      have same : k.world.registry = l'.world.registry :=
        (quiet ⟨h, e, k⟩ (by simp) other).trans (registry_of_member hl).symm
      rw [own_append_other other]
      exact ⟨attributed.adopt same, gated.adopt same⟩

/-- What the i-th member has published is what readers of a registry find. -/
def PublishedBy (i : Nat) (tr : List Moment) (r : Registry) : Prop :=
  ∃ (d : Delivery) (s : EnvironmentSettings), Lifecycle.deliveries (own i tr) = [d] ∧
    d.settings = .settings s ∧ (d.handles.map Handle.service).Nodup ∧
      r.Serves d.handles s (Lifecycle.writesIn Stage.inFirstPart (own i tr))
        (Lifecycle.writesIn Stage.inSecondPart (own i tr))

theorem Run.published (fresh : g.Fresh) (run : Run g tr g') (hi : g'.member? i = some l)
    (quiet : Undisturbed i tr) {c : Nat} (hc : l.callers[c]? = some .sealing) :
    PublishedBy i tr { g'.world.registry with state := .sealed } := by
  rcases ((run.attributed fresh hi quiet).1.stages hc rfl).1 with
    ⟨d, s, once, settings, distinct, entries⟩
  rw [registry_of_member hi] at entries
  exact ⟨d, s, once, settings, distinct, Registry.serves_of_written rfl distinct entries⟩

/-- What has become of the registry since the i-th member has sealed it. -/
structure Since (i : Nat) (l : Lifecycle) (u : List Moment) (x : Moment) (v : List Moment)
    (r : Registry) : Prop where
  sealedBy : x.sealedBy i
  published : Undisturbed i u → PublishedBy i u x.after.world.registry
  cleared : (∃ y ∈ v, y.clearedByOther i) → r = ⟨.cleared, []⟩
  kept : (∀ y ∈ v, ¬ y.clearedByOther i) → l.phase.rank ≤ 2 → r = x.after.world.registry

theorem Since.next {u v : List Moment} {x : Moment} (h : Since i l u x v g.world.registry)
    (sound : g.Sound) (hl : g.member? i = some l) (holder : l.HasSealed)
    (step : g.next? e = some g') (later : l.phase.rank ≤ n.phase.rank) :
    Since i n u x (v ++ [⟨g, e, g'⟩]) g'.world.registry where
  sealedBy := h.sealedBy
  published := h.published
  cleared := by
    rintro ⟨y, hy, hc⟩
    rcases List.mem_append.1 hy with hy | hy
    · exact cleared_of_next? step (h.cleared ⟨y, hy, hc⟩)
    · rcases List.mem_singleton.1 hy with rfl
      exact Moment.cleared_by_other step hc
  kept := by
    intro none calm
    have before : ∀ y ∈ v, ¬ y.clearedByOther i := fun y hy => none y (List.mem_append_left _ hy)
    have calm' : l.phase.rank ≤ 2 := Nat.le_trans later calm
    have same := h.kept before calm'
    have shut : g.world.registry.state = .sealed := by
      rw [same]
      exact h.sealedBy.2
    rw [sound.kept_by_next step hl holder calm' shut (none _ (by simp)), same]

/-- An environment that has sealed its registry knows what has become of it since. -/
theorem Run.since (fresh : g.Fresh) (run : Run g tr g') (hi : g'.member? i = some l)
    (holder : l.HasSealed) :
    ∃ u x v, tr = u ++ x :: v ∧ Since i l u x v g'.world.registry := by
  induction run generalizing l with
  | refl => exact absurd holder (fresh.not_sealed hi)
  | @tail tr h k e run step ih =>
    have sound : h.Sound := run.sound fresh
    have carry {l' : Lifecycle} (hl : h.member? i = some l') (held : l'.HasSealed)
        (later : l'.phase.rank ≤ l.phase.rank) :
        ∃ u x v, tr ++ [⟨h, e, k⟩] = u ++ x :: v ∧ Since i l u x v k.world.registry := by
      rcases ih hl held with ⟨u, x, v, rfl, since⟩
      exact ⟨u, x, v ++ [⟨h, e, k⟩], by simp, since.next sound hl held step later⟩
    rcases member_of_next? step hi with ⟨a, l', rfl, hl, hc, hw⟩ | ⟨l', hl, rfl, -⟩
    · rcases holder.before (sound.members hl) hc with held | ⟨c, m, -, hs, hs', hr⟩
      · exact carry hl held hc.rank_le
      · -- The member seals the registry at this moment.
        rw [registry_of_member hl, ← hw] at hr
        have shut := (Registry.sealEntries_eq_ok hr).2
        refine ⟨tr, ⟨h, .act i a, k⟩, [], rfl, ?_⟩
        exact
          { sealedBy := ⟨⟨a, l', l, rfl, hl, hi, c, hs, hs'⟩, by rw [shut]⟩
            published := fun quiet => shut ▸ run.published fresh hl quiet hs
            cleared := by simp
            kept := fun _ _ => rfl }
    · exact carry hl holder (Nat.le_refl _)

/-! ## Reads -/

/-- Of an environment that is ready: readers of the shared registry are answered as they were when
the environment had sealed it exactly as long as no other environment has cleared it.  From then
on every read is refused.  If nobody else has touched the registry before it was sealed, readers
find what the environment has published. -/
theorem reads_last_until_cleared (fresh : g.Fresh) (run : Run g tr g')
    (hi : g'.member? i = some l) (ready : l.phase = .ready) :
    ∃ u x v, tr = u ++ x :: v ∧ x.sealedBy i ∧
      ((∀ op : Registry.Operation, op.isRead = true →
          g'.world.registry.reading op = x.after.world.registry.reading op) ↔
        ∀ y ∈ v, ¬ y.clearedByOther i) ∧
      ((∃ y ∈ v, y.clearedByOther i) → ∀ op : Registry.Operation, op.isRead = true →
        ∃ f, g'.world.registry.reading op = .error f) ∧
      (Undisturbed i u → (∀ y ∈ v, ¬ y.clearedByOther i) →
        PublishedBy i u g'.world.registry) := by
  rcases run.since fresh hi (.inl (.inl ready)) with ⟨u, x, v, rfl, since⟩
  have calm : l.phase.rank ≤ 2 := by rw [ready]; decide
  have refused (hc : ∃ y ∈ v, y.clearedByOther i) (op : Registry.Operation)
      (read : op.isRead = true) : ∃ f, g'.world.registry.reading op = .error f := by
    cases h : g'.world.registry.reading op with
    | error f => exact ⟨f, rfl⟩
    | ok a =>
      have shut : g'.world.registry.state = .sealed :=
        (Registry.letsThrough_of_reading read h).sealed
      rw [since.cleared hc] at shut
      cases shut
  refine ⟨u, x, v, rfl, since.sealedBy, ⟨?_, ?_⟩, refused, ?_⟩
  · intro same y hy hc
    -- The keys can be read of every sealed registry.
    rcases refused ⟨y, hy, hc⟩ .keys rfl with ⟨f, hf⟩
    have read := same .keys rfl
    rw [hf] at read
    have keys : x.after.world.registry.reading .keys =
        .ok (.texts ((x.after.world.registry.entries.map Prod.fst).mergeSort Registry.keyLe)) := by
      rw [Registry.reading, Registry.keys, Registry.requireSealed_eq_ok.2 since.sealedBy.2]
      rfl
    cases read.trans keys
  · intro none op _
    rw [since.kept none calm]
  · intro quiet none
    rw [since.kept none calm]
    exact since.published quiet

end

/-- A plan that hands over settings only. -/
def bare : Plan where
  init := fun _ => .done (.ok ⟨[], .settings {}⟩)

/-- Two new environments on one new registry. -/
def pair : Ensemble := ⟨{}, [Lifecycle.create {} {} false, Lifecycle.create {} {} false]⟩

/-- The first environment is set up. -/
def oneSetup : List Event :=
  .act 0 (.enter (.setup Lifecycle.Plan.immediate)) :: List.replicate 8 (.act 0 (.caller 0 (.go 0)))

/-- Then the second one tries as well. -/
def twoSetups : List Event :=
  oneSetup ++ .act 1 (.enter (.setup bare)) :: List.replicate 24 (.act 1 (.caller 0 (.go 0)))

theorem fresh_pair : pair.Fresh where
  members := by
    intro l hl
    have fresh : (Lifecycle.create {} {} false).Fresh := Lifecycle.fresh_create rfl rfl {} false 0
    rcases List.mem_pair.1 hl with rfl | rfl
    · exact fresh
    · exact fresh
  registry := rfl

theorem reads_last_until_cleared_of_pair : pair.Fresh ∧ ∃ tr g' l, Run pair tr g' ∧
    g'.member? 0 = some l ∧ l.phase = .ready ∧
    ∃ u x v, tr = u ++ x :: v ∧ x.sealedBy 0 ∧
      ((∀ op : Registry.Operation, op.isRead = true →
          g'.world.registry.reading op = x.after.world.registry.reading op) ↔
        ∀ y ∈ v, ¬ y.clearedByOther 0) ∧
      ((∃ y ∈ v, y.clearedByOther 0) → ∀ op : Registry.Operation, op.isRead = true →
        ∃ f, g'.world.registry.reading op = .error f) ∧
      (Undisturbed 0 u → (∀ y ∈ v, ¬ y.clearedByOther 0) →
        PublishedBy 0 u g'.world.registry) := by
  have facts : (replay? pair oneSetup).map (fun r => (r.2.member? 0).map (·.phase)) =
      some (some .ready) := by
    decide +kernel
  rcases Option.map_eq_some_iff.1 facts with ⟨⟨tr, g'⟩, hr, ready⟩
  rcases Option.map_eq_some_iff.1 ready with ⟨l, hi, ready⟩
  have run : Run pair tr g' := Run.of_replay? hr
  exact ⟨fresh_pair, tr, g', l, run, hi, ready, reads_last_until_cleared fresh_pair run hi ready⟩

/-- The setup of a second environment, which cannot succeed, takes away what the first one has
published: that one stays ready and its reads are refused. -/
theorem second_setup_clears_registry : ∃ tr g', Run pair tr g' ∧
    (∃ x ∈ tr, (x.after.member? 0).map (·.phase) = some .ready ∧
      x.after.world.registry.token = .ok "") ∧
    (g'.member? 0).map (·.phase) = some .ready ∧
      ∃ f, g'.world.registry.token = .error f := by
  have facts : (replay? pair twoSetups).map (fun r =>
      (r.1.any fun x => (x.after.member? 0).map (·.phase) == some .ready &&
          x.after.world.registry.token.toOption == some "",
        (r.2.member? 0).map (·.phase), r.2.world.registry.token.toOption)) =
      some (true, some .ready, none) := by
    decide +kernel
  rcases Option.map_eq_some_iff.1 facts with ⟨⟨tr, g'⟩, hr, facts⟩
  simp only [Prod.mk.injEq, List.any_eq_true, Bool.and_eq_true, beq_iff_eq] at facts
  rcases facts with ⟨⟨x, hx, before, token⟩, ready, refused⟩
  have read {r : Except Fault String} {t : String} (h : r.toOption = some t) : r = .ok t := by
    cases r with
    | ok a => exact congrArg _ (Option.some.inj h)
    | error f => cases h
  refine ⟨tr, g', Run.of_replay? hr, ⟨x, hx, before, read token⟩, ready, ?_⟩
  cases h : g'.world.registry.token with
  | ok t =>
    rw [h] at refused
    cases refused
  | error f => exact ⟨f, rfl⟩

end Ensemble
end Testbed
