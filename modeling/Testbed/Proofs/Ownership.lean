import Testbed.Proofs.Expiry
import Testbed.Proofs.Occupancy

/-!
# Handles that a plan hands over

Publishing records the capabilities of the handles that it comes to.  It comes to none if the
settings are of another type, and it stops at the first handle whose service was there before or
whose entry the registry refuses.  If the setup then fails and the wait for its cleanup is not given
up, the stop actions that are started are those of the capabilities that had been recorded.
-/

namespace Testbed

open Work

/-! ## What publishing comes to -/

/-- A capability with an identity is in the ledger. -/
def Ledger.Holds (l : Ledger) (n : Nat) : Prop := ∃ c ∈ l.entries, c.identity = n

/-- Publishing gets past some handles: there are none, or the registry takes their entries and no
two of them are for one service. -/
def Handle.Pass (r : Registry) (hs : List Handle) : Prop :=
  hs = [] ∨ r.state = .opened ∧ (hs.map Handle.service).Nodup

/-- Publishing comes to a handle with the capability of an identity. -/
def Delivery.TakesOver (r : Registry) (d : Delivery) (n : Nat) : Prop :=
  (∃ s, d.settings = .settings s) ∧ ∃ k h c, d.handles[k]? = some h ∧
    Handle.Pass r (d.handles.take k) ∧ h.stop = some c ∧ c.identity = n

instance (r : Registry) (hs : List Handle) : Decidable (Handle.Pass r hs) :=
  decidable_of_iff
    (hs.isEmpty = true ∨ r.state = .opened ∧ (hs.map Handle.service).Nodup) (by simp [Handle.Pass])

/-- The settings have the right type. -/
def Delivered.isSettings : Delivered → Bool
  | .settings _ => true
  | .other _ => false

theorem Delivery.takesOver_iff {r : Registry} {d : Delivery} {n : Nat} :
    d.TakesOver r n ↔ d.settings.isSettings = true ∧ ∃ k ∈ List.range d.handles.length,
      Handle.Pass r (d.handles.take k) ∧
        (d.handles[k]?.bind Handle.stop).map Capability.identity = some n := by
  have typed : (∃ s, d.settings = .settings s) ↔ d.settings.isSettings = true := by
    cases d.settings <;> simp [Delivered.isSettings]
  rw [TakesOver, typed]
  refine and_congr_right fun _ => exists_congr fun k => ?_
  constructor
  · rintro ⟨h, c, hk, pass, hc, rfl⟩
    have bound := (List.getElem?_eq_some_iff.1 hk).1
    exact ⟨List.mem_range.2 bound, pass, by simp [hk, hc]⟩
  · rintro ⟨-, pass, stop⟩
    rcases Option.map_eq_some_iff.1 stop with ⟨c, hc, rfl⟩
    rcases Option.bind_eq_some_iff.1 hc with ⟨h, hk, hc⟩
    exact ⟨h, c, hk, pass, hc, rfl⟩

instance (r : Registry) (d : Delivery) (n : Nat) : Decidable (d.TakesOver r n) :=
  decidable_of_iff _ Delivery.takesOver_iff.symm

namespace Ledger

variable {l : Ledger} {c : Capability} {n : Nat}

theorem holds_record : (l.record c).Holds n ↔ l.Holds n ∨ c.identity = n := by
  constructor
  · rintro ⟨d, hd, rfl⟩
    rcases of_mem_record hd with hd | rfl
    · exact .inl ⟨d, hd, rfl⟩
    · exact .inr rfl
  · rintro (⟨d, hd, rfl⟩ | rfl)
    · exact ⟨d, mem_record hd, rfl⟩
    · -- If the identity is there before, then with another capability.
      unfold record
      split
      · rename_i hc
        rcases List.any_eq_true.1 hc with ⟨d, hd, he⟩
        exact ⟨d, hd, by simpa using he⟩
      · exact ⟨c, by simp, rfl⟩

theorem holds_recordAll {cs : List Capability} (h : l.Holds n) : (l.recordAll cs).Holds n := by
  rcases h with ⟨c, hc, rfl⟩
  exact ⟨c, mem_recordAll hc, rfl⟩

end Ledger

namespace Lifecycle

variable {w w' : World} {n : Nat}

theorem takeOver_holds (h : Handle) :
    (takeOver w h).ledger.Holds n ↔ w.ledger.Holds n ∨ ∃ c, h.stop = some c ∧ c.identity = n := by
  unfold takeOver
  split
  · rename_i c hc
    simp [hc, Ledger.holds_record]
  · rename_i hc
    simp [hc]

/-- Publishing gets past more handles after those whose services have been seen. -/
def Clear (r : Registry) (seen : List Service) (hs : List Handle) : Prop :=
  hs = [] ∨ r.state = .opened ∧ (hs.map Handle.service).Nodup ∧ ∀ h ∈ hs, h.service ∉ seen

theorem clear_cons {r : Registry} {seen : List Service} {h : Handle} {hs : List Handle} :
    Clear r seen (h :: hs) ↔
      (r.state = .opened ∧ h.service ∉ seen) ∧ Clear r (h.service :: seen) hs := by
  constructor
  · rintro (none | ⟨opened, nodup, unseen⟩)
    · cases none
    · rw [List.map_cons, List.nodup_cons] at nodup
      refine ⟨⟨opened, unseen h (List.mem_cons_self ..)⟩, .inr ⟨opened, nodup.2, ?_⟩⟩
      intro g hg
      have other : g.service ≠ h.service := by
        rintro he
        exact nodup.1 (he ▸ List.mem_map_of_mem hg)
      simp [other, unseen g (List.mem_cons_of_mem _ hg)]
  · rintro ⟨⟨opened, unseen⟩, none | ⟨-, nodup, rest⟩⟩
    · subst none
      exact .inr ⟨opened, by simp, by simpa using unseen⟩
    · refine .inr ⟨opened, ?_, ?_⟩
      · rw [List.map_cons, List.nodup_cons]
        refine ⟨?_, nodup⟩
        intro hm
        rcases List.mem_map.1 hm with ⟨g, hg, he⟩
        exact rest g hg (he ▸ List.mem_cons_self ..)
      · intro g hg
        rcases List.mem_cons.1 hg with rfl | hg
        · exact unseen
        · exact fun hm => rest g hg (List.mem_cons_of_mem _ hm)

theorem clear_nil_iff {r : Registry} {hs : List Handle} : Clear r [] hs ↔ Handle.Pass r hs := by
  simp [Clear, Handle.Pass]

/-- A position of a list is its head or one of its tail. -/
theorem exists_position {p : Nat → Handle → Prop} {h : Handle} {hs : List Handle} :
    (∃ k g, (h :: hs)[k]? = some g ∧ p k g) ↔ p 0 h ∨ ∃ k g, hs[k]? = some g ∧ p (k + 1) g := by
  constructor
  · rintro ⟨_ | k, g, hk, hp⟩
    · cases hk
      exact .inl hp
    · exact .inr ⟨k, g, hk, hp⟩
  · rintro (hp | ⟨k, g, hk, hp⟩)
    · exact ⟨0, h, rfl, hp⟩
    · exact ⟨k + 1, g, hk, hp⟩

/-- The ledger then holds what it held before, and the capabilities of the handles that are come
to. -/
theorem Takes.holds {seen : List Service} {hs : List Handle} {o : Except Fault Unit}
    (h : Takes w seen hs o w') :
    w'.ledger.Holds n ↔ w.ledger.Holds n ∨
      ∃ k h, hs[k]? = some h ∧ Clear w.registry seen (hs.take k) ∧
        ∃ c, h.stop = some c ∧ c.identity = n := by
  -- The first handle is taken over in any case; the others only if it is new and its entry stored.
  have head {r : Registry} {seen : List Service} : Clear r seen [] := .inl rfl
  have stops {r : Registry} {seen : List Service} {h : Handle} {hs : List Handle} {k : Nat}
      (no : ¬ (r.state = .opened ∧ h.service ∉ seen)) : ¬ Clear r seen (h :: hs.take k) :=
    fun hc => no (clear_cons.1 hc).1
  induction h with
  | nil => simp
  | twice known =>
    rw [exists_position]
    simp [takeOver_holds, head, stops fun both => both.2 known]
  | refused new hr =>
    rw [exists_position]
    simp [takeOver_holds, head, stops fun both => Registry.not_opened_of_set hr both.1]
  | @taken w w' seen h hs r o log new hr rest ih =>
    rcases Registry.of_set hr with ⟨before, he⟩
    have after : r.state = .opened := he ▸ before
    have onward {k : Nat} : Clear w.registry seen (h :: hs.take k) ↔
        Clear r (h.service :: seen) (hs.take k) := by
      rw [clear_cons]
      simp [before, new, Clear, after]
    rw [exists_position]
    simp only [ih, takeOver_holds, List.take_zero, List.take_succ_cons, head, true_and, onward,
      or_assoc]

theorem publish_holds {d : Delivery} {o : Except Fault EnvironmentSettings}
    (h : publish w d = (o, w')) :
    w'.ledger.Holds n ↔ w.ledger.Holds n ∨ d.TakesOver w.registry n := by
  cases publishes_of_publish h with
  | untyped hd => simp [Delivery.TakesOver, hd]
  | failed hd handles =>
    rw [handles.holds]
    simp [Delivery.TakesOver, hd, clear_nil_iff]
  | refused hd handles rest =>
    rw [rest.ledger, handles.holds]
    simp [Delivery.TakesOver, hd, clear_nil_iff]
  | done hd handles rest =>
    rw [rest.ledger, handles.holds]
    simp [Delivery.TakesOver, hd, clear_nil_iff]

/-- If all handles have been taken over, each was come to. -/
theorem Takes.clear {seen : List Service} {hs : List Handle} (h : Takes w seen hs (.ok ()) w') :
    Clear w.registry seen hs := by
  generalize ho : (Except.ok () : Except Fault Unit) = o at h
  induction h with
  | nil => exact .inl rfl
  | twice => cases ho
  | refused => cases ho
  | @taken w w' seen h hs r o log new hr rest ih =>
    rcases Registry.of_set hr with ⟨before, he⟩
    have after : r.state = .opened := he ▸ before
    refine clear_cons.2 ⟨⟨before, new⟩, ?_⟩
    have rest := ih ho
    simpa [Clear, before, after] using rest

theorem publish_takesOver {d : Delivery} {frozen : EnvironmentSettings}
    (h : publish w d = (.ok frozen, w')) {g : Handle} {c : Capability} (hg : g ∈ d.handles)
    (hc : g.stop = some c) : d.TakesOver w.registry c.identity := by
  cases publishes_of_publish h with
  | @done s w₁ w' hd handles rest =>
    rcases List.mem_iff_getElem?.1 hg with ⟨k, hk⟩
    refine ⟨⟨s, hd⟩, k, g, c, hk, ?_, hc, rfl⟩
    -- Whatever publishing gets past, it gets past the handles before it.
    rcases clear_nil_iff.1 handles.clear with none | ⟨opened, nodup⟩
    · simp [none] at hk
    · refine .inr ⟨opened, ?_⟩
      exact nodup.sublist ((List.take_sublist k d.handles).map Handle.service)

end Lifecycle

/-! ## Capabilities that are recorded when a setup fails -/

/-- The caller sets up and has published, or cleans up after a failure and has not drained the
ledger yet. -/
def Stage.isUndrained : Stage → Bool
  | .finishing _ | .sealing | .failing _ | .draining _ => true
  | .halting _ next => !next.isLate
  | _ => false

/-- The setup of the caller cannot fail any more. -/
def Stage.hasSetUp : Stage → Bool
  | .entering | .announcingReady | .settling | .finished (.ok _) => true
  | _ => false

theorem Stage.isUndrained_drives? {s : Stage} (h : s.isUndrained = true) :
    s.drives? = some .initializing ∨ ∃ p, s = .draining p := by
  cases s with
  | draining p => exact .inr ⟨p, rfl⟩
  | halting vs next => cases next <;> first | exact .inl rfl | cases h
  | _ => first | exact .inl rfl | cases h

/-- When a pass has ended, all that it has been handed over has been claimed. -/
theorem StopPass.Tracked.all_used {used : List Nat} {pass : StopPass} {w w' : World}
    {r : Except Fault TeardownReport} (h : pass.Tracked used)
    (ht : pass.turn? w = some (.ended r, w')) : ∀ c ∈ pass.capabilities, c.identity ∈ used := by
  have all {cs : List Capability} {rs : List (Except Fault Unit)}
      (h : List.Forall₂ (fun c _ => c.identity ∈ used) cs rs) : ∀ c ∈ cs, c.identity ∈ used := by
    intro c hc
    rcases List.mem_iff_getElem?.1 hc with ⟨k, hk⟩
    have bound : k < rs.length := h.length_eq ▸ (List.getElem?_eq_some_iff.1 hk).1
    exact forall₂_getElem? h hk (List.getElem?_eq_getElem bound)
  cases turns_of_turn? ht with
  | reports ended =>
    cases h with
    | stopping begun => exact all (used_of_outcomes begun ended)
  | lost =>
    cases h with
    | listing t claimed => exact all claimed
  | sums =>
    cases h with
    | removing ids ts claimed => exact all claimed

namespace Lifecycle

variable {l l' n₁ : Lifecycle} {s s' : Stage} {m : Move} {i n : Nat} {u v : List Moment}
  {x : Moment} {p : Plan} {d : Delivery} {f : Fault}

/-- A capability with an identity is known to the caller that sets up: it is in the ledger until
this is drained, and then in the stop pass. -/
inductive Kept (l : Lifecycle) (n : Nat) : Stage → Prop where
  | recorded {s : Stage} (hs : s.isUndrained = true) (h : l.world.ledger.Holds n) : Kept l n s
  | handed (p : Purpose) {cs : List Capability} (h : ∃ c ∈ cs, c.identity = n) :
      Kept l n (.confirming p cs)
  | passing (p : Purpose) {pass : StopPass} (h : ∃ c ∈ pass.capabilities, c.identity = n)
      (tracked : pass.Tracked l.world.used) : Kept l n (.stopping p pass)
  | setUp {s : Stage} (hs : s.hasSetUp = true) : Kept l n s

/-- A capability stays with its caller when others move. -/
theorem Kept.frame (h : Kept l n s)
    (ledger : s.isUndrained = true → l.world.ledger.Holds n → n₁.world.ledger.Holds n)
    (more : ∀ k ∈ l.world.used, k ∈ n₁.world.used) : Kept n₁ n s := by
  cases h with
  | recorded hs h => exact .recorded hs (ledger hs h)
  | handed p h => exact .handed p h
  | passing p h tracked => exact .passing p h (tracked.mono more)
  | setUp hs => exact .setUp hs

/-- A capability in the ledger stays there until its caller drains it. -/
theorem Kept.recorded_turn (early : s.isUndrained = true) (holds : l.world.ledger.Holds n)
    (turn : Turn l s m s' n₁)
    (ledger : (∀ p, s ≠ .draining p) → l.world.ledger.Holds n → n₁.world.ledger.Holds n) :
    Kept n₁ n s' := by
  have onward (hs : ∀ p, s ≠ .draining p) (early' : s'.isUndrained = true) : Kept n₁ n s' :=
    .recorded early' (ledger hs holds)
  cases turn
  case finish => exact onward (by simp) rfl
  case finishDone => exact onward (by simp) rfl
  case finishFailed => exact onward (by simp) rfl
  case finishExpired => exact onward (by simp) rfl
  case sealFailed => exact onward (by simp) rfl
  case «seal» => exact .setUp rfl
  case failHalting => exact onward (by simp) rfl
  case failDraining => exact onward (by simp) rfl
  case haltedFailing => exact onward (by simp) rfl
  case victimDone => exact onward (by simp) early
  case victimDies => exact onward (by simp) early
  case victimGoes => exact onward (by simp) early
  case victimCancelled => exact onward (by simp) early
  case drain p k log =>
    rcases holds with ⟨c, hc, he⟩
    exact .handed p ⟨c, List.mem_reverse.2 hc, he⟩
  all_goals cases early

/-- A capability in the stop pass stays there until the pass has ended and claimed it. -/
theorem Kept.passing_turn {pass : StopPass} (h : ∃ c ∈ pass.capabilities, c.identity = n)
    (tracked : pass.Tracked l.world.used) {q : Purpose} (turn : Turn l (.stopping q pass) m s' n₁)
    (waits : m ≠ .expire) : n ∈ n₁.world.used ∨ Kept n₁ n s' := by
  cases turn with
  | passGoes _ _ ht =>
    have same := StopPass.capabilities_of_turn? ht
    exact .inr (.passing q (same ▸ h) (tracked.turn ht))
  | passSteps _ _ idle hstep =>
    have same := StopPass.capabilities_of_step? hstep
    exact .inr (.passing q (same ▸ h) (tracked.step hstep))
  | passEnds _ _ ht =>
    rcases h with ⟨c, hc, rfl⟩
    have claimed := tracked.all_used ht c hc
    rcases StopPass.turn?_world ht with ⟨log, rfl⟩
    exact .inl claimed
  | passExpired => exact absurd rfl waits

/-- When its caller moves, a capability stays with it or has been claimed in the stop pass. -/
theorem Kept.turn (h : Kept x.before n s) (ha : x.action = .caller i m)
    (hs : x.before.callers[i]? = some s) (turn : Turn x.before s m s' n₁)
    (hr : x.reached? = some s') (sound : x.before.Sound) (calm : x.givesUp = false)
    (ledger : (∀ p, s ≠ .draining p) → x.before.world.ledger.Holds n →
      n₁.world.ledger.Holds n) :
    n ∈ n₁.world.used ∨ Kept n₁ n s' := by
  have hx : x.stage? = some s := (Moment.stage?_caller ha).trans hs
  cases h with
  | recorded early h => exact .inr (.recorded_turn early h turn ledger)
  | handed p h =>
    cases turn with
    | confirmNothing =>
      rcases h with ⟨c, hc, -⟩
      cases hc
    | confirm => exact .inr (.passing p h (StopPass.tracked_start _))
    | confirmAnew => exact .inr (.passing p h (StopPass.tracked_start _))
    | confirmRefused => exact absurd hr (Moment.not_refused calm hx)
  | passing p h tracked =>
    -- Nobody gives up a pass while the run is calm.
    refine Kept.passing_turn h tracked turn ?_
    rintro rfl
    exact absurd hs (Moment.not_expired calm ha)
  | setUp done =>
    cases turn
    case enterReady => exact .inr (.setUp rfl)
    case enterReadyRefused k refused =>
      rw [sound.phase_eq hs rfl] at refused
      exact absurd (by decide) refused
    case announceReady => exact .inr (.setUp rfl)
    case settle => exact .inr (.setUp rfl)
    all_goals cases done

/-- What is in the ledger stays there unless a caller drains it. -/
theorem ledger_holds (act : x.before.act? x.action = some x.after)
    (h : x.before.world.ledger.Holds n)
    (undrained : ∀ j m p, x.action = .caller j m → x.before.callers[j]? ≠ some (.draining p)) :
    x.after.world.ledger.Holds n := by
  rcases (change_of_act? act).ledger with ⟨cs, -, he⟩ | ⟨j, m, p, ha, hj, -⟩
  · rw [he]
    exact Ledger.holds_recordAll h
  · exact absurd hj (undrained j m p ha)

/-- Whoever moves, a capability that is known to the caller stays known or is claimed. -/
theorem Kept.step (h : Kept x.before n s) (hs : x.before.callers[i]? = some s)
    (act : x.before.act? x.action = some x.after) (sound : x.before.Sound)
    (calm : x.givesUp = false) :
    n ∈ x.after.world.used ∨ ∃ s', x.after.callers[i]? = some s' ∧ Kept x.after n s' := by
  rcases (change_of_act? act).goes hs with ⟨other, hn⟩ | ⟨m, s', n₁, ha, turn, he, hn⟩
  · refine .inr ⟨s, hn, h.frame ?_ fun k hk => (Moment.used_iff act).2 (.inl hk)⟩
    intro early holds
    refine ledger_holds act holds fun j m q ha hj => ?_
    -- Another caller that drains would drive beside this one.
    have drives : ∃ q, s.drives? = some q := by
      rcases Stage.isUndrained_drives? early with hd | ⟨p, rfl⟩
      · exact ⟨_, hd⟩
      · exact ⟨_, rfl⟩
    rcases drives with ⟨q', hd⟩
    rcases sound.unique hj hs rfl hd with rfl
    exact other m ha
  · have hr : x.reached? = some s' := (Moment.reached?_caller ha).trans hn
    have world : x.after.world = n₁.world := by rw [he]
    have ledger (undrained : ∀ p, s ≠ .draining p) (holds : x.before.world.ledger.Holds n) :
        n₁.world.ledger.Holds n := by
      rw [← world]
      refine ledger_holds act holds fun j m' q ha' hj => ?_
      cases ha.symm.trans ha'
      exact undrained q (Option.some.inj (hs.symm.trans hj))
    rcases h.turn ha hs turn hr sound calm ledger with claimed | kept
    · exact .inl (world ▸ claimed)
    · refine .inr ⟨s', hn, kept.frame ?_ ?_⟩
      · rw [world]
        exact fun _ holds => holds
      · rw [world]
        exact fun _ hk => hk

end Lifecycle

/-! ## Nothing is left behind before a setup fails -/

/-- The caller is about to run the first part of its plan, runs it or publishes. -/
def Stage.opens : Stage → Bool
  | .starting _ | .initializing .. | .publishing .. => true
  | _ => false

theorem Stage.opens_drives? {s : Stage} (h : s.opens = true) :
    s.drives? = some .initializing := by
  cases s <;> first | rfl | cases h

namespace Lifecycle

section

variable {l l' n₁ : Lifecycle} {a : Action} {s s' : Stage} {m : Move}

/-- Only a caller that drives leaves work behind, and its setup is over then. -/
theorem Turn.litters (turn : Turn l s m s' n₁) :
    n₁.leftovers = l.leftovers ∨ n₁.leftovers = [] ∨
      (∃ q, s.drives? = some q) ∧ s'.opens = false := by
  cases turn <;>
    first
      | exact .inl rfl
      | exact .inr (.inl rfl)
      | exact .inr (.inr ⟨⟨_, rfl⟩, rfl⟩)

theorem Turn.of_opens (turn : Turn l s m s' n₁) (h : s'.opens = true) :
    s.opens = true ∨ l.phase = .uninitialized := by
  cases turn
  case begin first => exact .inr first
  all_goals first | exact .inl rfl | cases h

theorem Change.litters (hc : Change l a n₁) (none : l.leftovers = []) :
    n₁.leftovers = [] ∨ ∃ (i : Nat) (m : Move) (s s' : Stage), a = .caller i m ∧
      l.callers[i]? = some s ∧ n₁.callers[i]? = some s' ∧ (∃ q, s.drives? = some q) ∧
        s'.opens = false := by
  rcases hc.turn_or_none_left none with ⟨i, m, s, s', n, rfl, hs, turn, rfl⟩ | ⟨-, none, -⟩
  · rcases turn.litters with same | gone | ⟨drives, closes⟩
    · exact .inl (same.trans none)
    · exact .inl gone
    · have bound := (List.getElem?_eq_some_iff.1 hs).1
      exact .inr ⟨i, m, s, s', rfl, hs, by simp [bound], drives, closes⟩
  · exact .inl none

/-- Nothing has been left behind before a setup, nor while one opens. -/
structure Untouched (l : Lifecycle) : Prop where
  before : l.phase = .uninitialized → l.leftovers = []
  opening : ∀ {i : Nat} {s : Stage}, l.callers[i]? = some s → s.opens = true → l.leftovers = []

theorem Untouched.change (h : l.Untouched) (sound : l.Sound) (hc : Change l a n₁) :
    n₁.Untouched where
  before := by
    intro hp
    have first : l.phase = .uninitialized := by
      have := hc.rank_le
      rw [hp] at this
      revert this
      cases l.phase <;> simp [Phase.rank]
    rcases hc.litters (h.before first) with none | ⟨i, m, s, s', -, hs, -, ⟨q, hq⟩, -⟩
    · exact none
    · rw [sound.phase_eq hs hq] at first
      exact absurd first (drives?_ne hq).1
  opening := by
    intro j t ht opens
    have none : l.leftovers = [] := by
      rcases hc.callers ht with hj | ⟨d, -, rfl⟩ | ⟨m, s, n', -, hs, turn, -⟩
      · exact h.opening hj opens
      · cases opens
      · rcases turn.of_opens opens with opens | first
        · exact h.opening hs opens
        · exact h.before first
    rcases hc.litters none with none | ⟨i, m, s, s', ha, hs, hs', ⟨q, hq⟩, closes⟩
    · exact none
    · -- The caller that litters is not the one that opens, but both drive.
      have other : i ≠ j := by
        rintro rfl
        cases hs'.symm.trans ht
        rw [opens] at closes
        cases closes
      rcases hc.callers ht with hj | ⟨d, ha', -⟩ | ⟨m', -, -, ha', -⟩
      · exact absurd (sound.unique hs hj hq (Stage.opens_drives? opens)) other
      · cases ha.symm.trans ha'
      · cases ha.symm.trans ha'
        exact absurd rfl other

theorem Run.untouched {tr : List Moment} (fresh : l.Fresh) (run : Run l tr l') :
    l'.Untouched := by
  induction run with
  | refl => exact ⟨fun _ => fresh.leftovers, fun _ _ => fresh.leftovers⟩
  | tail run h ih => exact ih.change (run.sound fresh) (change_of_act? h)

end

end Lifecycle

/-! ## Capabilities that publishing did not come to -/

/-- The call is one of a cleanup and does not claim an identity. -/
def Call.Leaves (n : Nat) (c : Call) : Prop := c.cleansUp = true ∧ Lifecycle.Spares n c

theorem Call.leaves_of_isStop {n : Nat} {c : Call} (h : c.isStop = true) : c.Leaves n := by
  refine ⟨Call.cleansUp_of_isStop h, ?_⟩
  rintro d rfl
  cases h

theorem Call.leaves_of_isClose {n : Nat} {c : Call} (h : c.isClose = true) : c.Leaves n := by
  refine ⟨Call.cleansUp_of_isClose h, ?_⟩
  rintro d rfl
  cases h

theorem Call.leaves_listing (n : Nat) (filter : String) :
    (Call.engine (.listLabelled filter)).Leaves n := by
  refine ⟨rfl, ?_⟩
  rintro d hd
  cases hd

namespace Lifecycle

variable {l l' n₁ : Lifecycle} {s s' : Stage} {m : Move} {i n : Nat} {u v : List Moment}
  {x : Moment} {p : Plan} {d : Delivery} {f : Fault}

/-- The caller cleans up after a failed setup, and nothing that it runs claims an identity. -/
inductive Spared (l : Lifecycle) (n : Nat) : Stage → Prop where
  | failing (f : Fault) : Spared l n (.failing f)
  | halting (f : Fault) : Spared l n (.halting [] (.drain f))
  | draining (f : Fault) : Spared l n (.draining (.failure f))
  | confirming (f : Fault) {cs : List Capability} (h : ∀ c ∈ cs, c.identity ≠ n) :
      Spared l n (.confirming (.failure f) cs)
  | stopping (f : Fault) {pass : StopPass} (h : pass.Makes (Call.Leaves n)) :
      Spared l n (.stopping (.failure f) pass)
  | clearing (f : Fault) (r : Except Fault TeardownReport) :
      Spared l n (.clearing (.failure f) r)
  | closing (f : Fault) (r : Except Fault TeardownReport) : Spared l n (.closing (.failure f) r)
  | ended {s : Stage} (hs : s.WindsDown) (hp : l.phase = .failed) : Spared l n s

theorem Spared.call {c : Call} (h : Spared l n s) (hc : s.call? m = some c) : c.Leaves n := by
  cases h with
  | stopping f h =>
    cases m with
    | go k => exact h.call hc
    | _ => cases hc
  | halting f =>
    -- No program is left that could make a call.
    unfold Stage.call? at hc
    split at hc <;> simp_all
  | ended hs hp => exact Call.leaves_of_isClose (WindsDown.call hs hc)
  | _ => cases m <;> cases hc

theorem Spared.frame (h : Spared l n s) (phase : n₁.phase = l.phase) : Spared n₁ n s := by
  cases h with
  | ended hs hp => exact .ended hs (phase.trans hp)
  | failing f => exact .failing f
  | halting f => exact .halting f
  | draining f => exact .draining f
  | confirming f h => exact .confirming f h
  | stopping f h => exact .stopping f h
  | clearing f r => exact .clearing f r
  | closing f r => exact .closing f r

/-- The phase in which a caller cleans up. -/
theorem Spared.phase (h : Spared l n s) (sound : l.Sound) (hs : l.callers[i]? = some s) :
    l.phase = .initializing ∨ l.phase = .failed := by
  cases h with
  | ended hs hp => exact .inr hp
  | _ => exact .inl (sound.phase_eq hs rfl)

/-- A pass that is handed other capabilities leaves the identity alone. -/
theorem leaves_start {cs : List Capability} (sweep : Option String)
    (h : ∀ c ∈ cs, c.identity ≠ n) : (StopPass.start cs sweep).Makes (Call.Leaves n) := by
  refine StopPass.start_makes sweep (fun _ => Call.leaves_of_isStop) fun c hc => ⟨rfl, ?_⟩
  rintro d hd
  cases hd
  exact h c hc

theorem Spared.stopping_turn {pass : StopPass} (f : Fault) (h : pass.Makes (Call.Leaves n))
    (turn : Turn l (.stopping (.failure f) pass) m s' n₁) (waits : m ≠ .expire) :
    Spared n₁ n s' ∧ n₁.leftovers = l.leftovers := by
  cases turn with
  | passGoes _ _ ht =>
    exact ⟨.stopping f (h.turn ht (fun _ => Call.leaves_of_isStop) (Call.leaves_listing n)), rfl⟩
  | passEnds => exact ⟨.clearing f _, rfl⟩
  | passSteps _ _ _ ht => exact ⟨.stopping f (h.step ht), rfl⟩
  | passExpired => exact absurd rfl waits

/-- A caller that has entered the last phase stays in it and leaves nothing behind. -/
theorem Spared.ended_turn (wind : s.WindsDown) (hp : l.phase = .failed) (turn : Turn l s m s' n₁)
    (left : l.leftovers = []) : Spared n₁ n s' ∧ n₁.leftovers = [] := by
  have wind' : s'.WindsDown := (WindsDown.turn wind turn left).1
  have phase : n₁.phase = .failed := by
    rcases turn.history with same | ⟨q, hq, -, -⟩
    · exact (phase_of_history_eq same).trans hp
    · rw [hp] at hq
      cases hq
  refine ⟨.ended wind' phase, ?_⟩
  rcases turn.leftovers with same | none | ⟨t, -, -, -, f, rfl⟩ | ⟨p, pass, rfl, -⟩
  · exact same.trans left
  · exact none
  · exact wind'.elim
  · exact wind.elim

theorem Spared.turn (h : Spared x.before n s) (solo : Solo i x.before)
    (ha : x.action = .caller i m) (hs : x.before.callers[i]? = some s)
    (turn : Turn x.before s m s' n₁) (sound : x.before.Sound) (calm : x.givesUp = false)
    (free : ¬ x.before.world.ledger.Holds n) : Spared n₁ n s' ∧ n₁.leftovers = [] := by
  have left : x.before.leftovers = [] := solo.leftovers
  have idle : x.before.victims = [] := by
    simp [victims, left]
  -- Nothing was left behind, so that no program is cancelled with the runtime.
  cases h with
  | failing f =>
    cases turn with
    | failHalting => exact ⟨idle ▸ .halting f, rfl⟩
    | failDraining => exact ⟨.draining f, left⟩
  | halting f =>
    cases turn with
    | haltedFailing => exact ⟨.draining f, left⟩
    | victimDone _ _ _ hk => simp at hk
    | victimDies _ _ _ hk => cases hk
    | victimGoes _ _ _ hk => cases hk
    | victimCancelled _ _ _ _ hk => cases hk
  | draining f =>
    cases turn with
    | drain =>
      refine ⟨.confirming f ?_, left⟩
      intro c hc he
      exact free ⟨c, List.mem_reverse.1 hc, he⟩
  | confirming f h =>
    cases turn with
    | confirmNothing => exact ⟨.clearing f _, left⟩
    | confirm => exact ⟨.stopping f (leaves_start _ h), left⟩
    | confirmAnew => exact ⟨.stopping f (leaves_start _ h), left⟩
    | confirmRefused => exact ⟨.clearing f _, left⟩
  | stopping f h =>
    refine (Spared.stopping_turn f h turn ?_).imp_right fun same => same.trans left
    rintro rfl
    exact absurd hs (Moment.not_expired calm ha)
  | clearing f r =>
    cases turn with
    | clearFailure => exact ⟨.closing f _, left⟩
    | clear => exact ⟨.closing f r, left⟩
  | closing f r =>
    cases turn with
    | closeFailed => exact ⟨.ended trivial rfl, left⟩
    | closeRefused _ _ _ _ refused =>
      rw [sound.phase_eq hs rfl] at refused
      exact absurd (Purpose.target_mem_next (.failure f)) refused
  | ended wind hp => exact Spared.ended_turn wind hp turn left

/-- A caller that cleans up after its setup, and an identity that is out of its reach. -/
structure Sparing (i n : Nat) (l : Lifecycle) : Prop extends Solo i l where
  unused : n ∉ l.world.used
  free : ¬ l.world.ledger.Holds n
  stage : ∃ s, l.callers[i]? = some s ∧ Spared l n s

theorem Sparing.step (h : Sparing i n x.before) (act : x.before.act? x.action = some x.after)
    (sound : x.before.Sound) (calm : x.givesUp = false) : Sparing i n x.after := by
  obtain ⟨s, hs, spared⟩ := h.stage
  have calls {c : Call} (hc : x.call? = some c) : c.Leaves n := by
    rcases h.call hc with ⟨m, t, -, ht, hct⟩
    cases hs.symm.trans ht
    exact spared.call hct
  have unused : n ∉ x.after.world.used := by
    intro hu
    rcases (Moment.used_iff act).1 hu with hu | starts
    · exact h.unused hu
    · rcases Moment.starts_iff.1 starts with ⟨c, hc, he, -⟩
      exact (calls hc).2 c rfl he
  have free : ¬ x.after.world.ledger.Holds n := by
    rcases (change_of_act? act).ledger with ⟨cs, records, he⟩ | ⟨-, -, -, -, -, he⟩
    · -- Nothing is recorded: the caller only cleans up.
      cases cs with
      | nil => exact he ▸ h.free
      | cons c cs =>
        rcases records c (List.mem_cons_self ..) with hc | ⟨j, -, p, d, -, -, hj, -⟩
        · exact absurd rfl (Call.cleansUp_ne_record (calls hc).1 c)
        · rcases h.only hj rfl with rfl
          cases hs.symm.trans hj
          cases spared with
          | ended hs hp => exact hs.elim
    · rw [he]
      rintro ⟨c, hc, -⟩
      cases hc
  have late : x.before.phase ≠ .uninitialized ∧ x.before.phase ≠ .ready := by
    rcases spared.phase sound hs with hp | hp <;> simp [hp]
  rcases (change_of_act? act).goes hs with ⟨other, hn⟩ | ⟨m, s', n₁, ha, turn, he, hn⟩
  · rcases h.others late act other with ⟨left, -, phase, -, -, only⟩
    exact ⟨⟨fun {j t q} => only j t q, left⟩, unused, free, s, hn, spared.frame phase⟩
  · rcases spared.turn h.toSolo ha hs turn sound calm h.free with ⟨spared', left⟩
    rw [he]
    refine ⟨⟨?_, left⟩, he ▸ unused, he ▸ free, s', he ▸ hn, spared'.frame rfl⟩
    intro j t q ht hq
    rcases getElem?_set_cases ht with ⟨rfl, rfl⟩ | ⟨-, ht⟩
    · rfl
    · exact h.only ht hq

/-! ## Every failed setup -/

/-- What a caller has done that publishes. -/
structure Published (x : Moment) (i : Nat) (d : Delivery) : Prop where
  ledger : ∀ n, x.after.world.ledger.Holds n ↔
    x.before.world.ledger.Holds n ∨ d.TakesOver x.before.world.registry n
  leftovers : x.after.leftovers = x.before.leftovers
  undrained : ∃ s, x.after.callers[i]? = some s ∧ s.isUndrained = true
  /-- Either the setup fails here, or publishing has come to every handle. -/
  outcome : (∃ f, x.after.callers[i]? = some (.failing f)) ∨
    ∀ g ∈ d.handles, ∀ c, g.stop = some c → d.TakesOver x.before.world.registry c.identity

theorem Moment.published (act : x.before.act? x.action = some x.after)
    (ha : x.action = .caller i m) (hs : x.before.callers[i]? = some (.publishing p d)) :
    Published x i d := by
  have hx : x.stage? = some (.publishing p d) := (Moment.stage?_caller ha).trans hs
  rcases x.turn act hx with ⟨j, m', s', n₁, ha', -, turn, he, hr⟩
  cases ha.symm.trans ha'
  have hn : x.after.callers[i]? = some s' := (Moment.reached?_caller ha).symm.trans hr
  have left : x.after.leftovers = n₁.leftovers := by rw [he]
  have world : x.after.world = n₁.world := by rw [he]
  cases turn with
  | publishFailed _ _ _ hp =>
    refine ⟨fun n => ?_, left, ⟨_, hn, rfl⟩, .inl ⟨_, hn⟩⟩
    rw [world]
    exact publish_holds hp
  | publishLast _ _ _ hp =>
    refine ⟨fun n => ?_, left, ⟨_, hn, rfl⟩, .inr fun g hg c hc => publish_takesOver hp hg hc⟩
    rw [world]
    exact publish_holds hp
  | publishThen _ _ _ log hp =>
    refine ⟨fun n => ?_, left, ⟨_, hn, rfl⟩, .inr fun g hg c hc => publish_takesOver hp hg hc⟩
    have holds := publish_holds (n := n) hp
    rw [world]
    exact holds
  | publishClosed _ _ _ log hp =>
    refine ⟨fun n => ?_, left, ⟨_, hn, rfl⟩, .inl ⟨_, hn⟩⟩
    have holds := publish_holds (n := n) hp
    rw [world]
    exact holds

/-- A recorded capability is known to the caller that sets up, until it is claimed. -/
theorem Run.kept (fresh : l.Fresh) (run : Run l (u ++ x :: v) l')
    (hs : ∃ s, x.after.callers[i]? = some s ∧ s.isUndrained = true)
    (holds : x.after.world.ledger.Holds n) (calm : ∀ z ∈ v, z.givesUp = false) :
    n ∈ l'.world.used ∨ ∃ s, l'.callers[i]? = some s ∧ Kept l' n s := by
  refine run.since (P := fun v l' => (∀ z ∈ v, z.givesUp = false) →
    n ∈ l'.world.used ∨ ∃ s, l'.callers[i]? = some s ∧ Kept l' n s) ?_ ?_ calm
  · intro _ _ _
    rcases hs with ⟨s, hs, early⟩
    exact .inr ⟨s, hs, .recorded early holds⟩
  · intro v y front act ih calm
    have now := calm y (by simp)
    rcases ih fun z hz => calm z (List.mem_append_left _ hz) with claimed | ⟨s, hs, kept⟩
    · exact .inl ((Moment.used_iff act).2 (.inl claimed))
    · exact kept.step hs act (front.sound fresh) now

/-- An identity that is not in the ledger when a setup fails is out of reach from then on. -/
theorem Run.sparing (fresh : l.Fresh) (run : Run l (u ++ x :: v) l')
    (failing : x.after.callers[i]? = some (.failing f)) (left : x.after.leftovers = [])
    (unused : n ∉ x.after.world.used) (free : ¬ x.after.world.ledger.Holds n)
    (calm : ∀ z ∈ v, z.givesUp = false) : Sparing i n l' := by
  refine run.since (P := fun v l' => (∀ z ∈ v, z.givesUp = false) → Sparing i n l') ?_ ?_ calm
  · intro _ _ _
    have sound : x.after.Sound := run.at_moment.2.2.sound fresh
    refine ⟨⟨?_, left⟩, unused, free, _, failing, .failing f⟩
    exact fun hs hq => sound.unique hs failing hq rfl
  · intro v y front act ih calm
    have now := calm y (by simp)
    exact (ih fun z hz => calm z (List.mem_append_left _ hz)).step act (front.sound fresh) now

/-- A setup raises after it has published, for whatever reason, and the wait for its cleanup is not
given up.  Then the stop action of a handle has been started exactly if its capability had been
used, or was in the ledger, before publishing, or if publishing came to the handle. -/
theorem setup_takes_over (fresh : l.Fresh) (run : Run l (u ++ x :: v) l')
    (ha : x.action = .caller i m) (hs : x.before.callers[i]? = some (.publishing p d))
    (calm : ∀ z ∈ u ++ x :: v, z.givesUp = false)
    (raised : l'.callers[i]? = some (.finished (.error f))) {g : Handle} (hg : g ∈ d.handles)
    {c : Capability} (hc : g.stop = some c) (unused : c.identity ∉ l.world.used) :
    (u ++ x :: v).countP (Moment.starts c.identity) = 1 ↔
      c.identity ∈ x.before.world.used ∨ x.before.world.ledger.Holds c.identity ∨
        d.TakesOver x.before.world.registry c.identity := by
  rcases run.at_moment with ⟨front, act, upto⟩
  have after {z : Moment} (hz : z ∈ v) : z.givesUp = false := calm z (by simp [hz])
  rcases Moment.published act ha hs with ⟨ledger, left, undrained, outcome⟩
  have used : c.identity ∈ x.after.world.used ↔ c.identity ∈ x.before.world.used := by
    -- Publishing makes no call.
    have silent : x.starts c.identity = false := by
      simp [Moment.starts, Moment.call?, Lifecycle.call?, Stage.call?, ha, hs]
    simp [Moment.used_iff act, silent]
  -- What has been started is what has been used.
  have balance : (u ++ x :: v).countP (Moment.starts c.identity) = 1 ↔
      c.identity ∈ l'.world.used := by
    have counted := run.starts_balance c.identity
    rw [if_neg unused, Nat.add_zero] at counted
    rw [counted]
    simp
  rw [balance]
  constructor
  · intro started
    by_contra no
    rw [not_or, ← ledger c.identity] at no
    rcases no with ⟨unused', free⟩
    rcases outcome with ⟨f', failing⟩ | all
    · have none : x.after.leftovers = [] := left.trans ((front.untouched fresh).opening hs rfl)
      have sparing := run.sparing fresh failing none (used.not.2 unused') free fun z => after
      exact sparing.unused started
    · exact free ((ledger _).2 (.inr (all g hg c hc)))
  · intro owned
    have later (hu : c.identity ∈ x.after.world.used) : c.identity ∈ l'.world.used := by
      refine run.stays (P := fun l' => c.identity ∈ l'.world.used) ?_ hu
      exact fun run hu => (Moment.used_iff run.tail_inv.2.1).2 (.inl hu)
    rcases owned with hu | recorded
    · exact later (used.2 hu)
    · have holds := (ledger c.identity).2 recorded
      rcases run.kept fresh undrained holds fun z => after with claimed | ⟨s, hs', kept⟩
      · exact claimed
      · -- A setup that has raised keeps nothing.
        cases raised.symm.trans hs'
        cases kept with
        | recorded early h => cases early
        | setUp done => cases done

/-! ## Two containers for one service, and settings of another type -/

/-- A plan that hands something over at once. -/
def handing (d : Delivery) : Plan where
  init := fun _ => .done (.ok d)

/-- A handle with the capability of an identity. -/
def numbered (service : Service) (n : Nat) : Handle :=
  ⟨service, "box", "c1", "uri", some ⟨n, "box", "c1", some service, .succeed⟩⟩

/-- Two databases, and a container that publishing does not come to. -/
def twoDatabases : Delivery :=
  ⟨[numbered .postgres 0, numbered .postgres 1, numbered .keycloak 2], .settings {}⟩

/-- A database, with settings of another type. -/
def untyped : Delivery := ⟨[numbered .postgres 0], .other "dict"⟩

/-- A setup that fails after it has published, given which programs of the stop pass move. -/
def failedPublishing (d : Delivery) (moves : List Nat) : List Action :=
  .enter (.setup (handing d)) :: List.replicate 8 (.caller 0 (.go 0)) ++
    moves.map (fun k => .caller 0 (.go k)) ++ List.replicate 16 (.caller 0 (.go 0))

/-- The identities of the capabilities that are handed over. -/
def identities (d : Delivery) : List Nat := d.handles.filterMap fun h => h.stop.map (·.identity)

/-- What is known where a caller publishes: the identities that have been used or recorded, and
those that are handed over with whether publishing takes them over. -/
def Moment.publishing? (x : Moment) : Option (List Nat × List (Nat × Bool)) :=
  match x.action, x.stage? with
  | .caller 0 _, some (.publishing _ d) =>
    some (x.before.world.used ++ x.before.world.ledger.entries.map Capability.identity,
      (identities d).map fun n => (n, d.TakesOver x.before.world.registry n))
  | _, _ => none

/-- The replay of a setup that fails after it has published. -/
theorem publishing_of_replay {as : List Action} {e : List Nat × List (Nat × Bool)}
    (h : (Run.replay? (create {} {} false) as).map (fun r =>
      (r.1[4]?.bind Moment.publishing?, r.1.all fun z => !z.givesUp, r.2.setupError?.isSome)) =
      some (some e, true, true)) :
    ∃ u x v l' m p d f, Run.replay? (create {} {} false) as = some (u ++ x :: v, l') ∧
      x.action = .caller 0 m ∧ x.before.callers[0]? = some (.publishing p d) ∧
      x.publishing? = some e ∧ (∀ z ∈ u ++ x :: v, z.givesUp = false) ∧
      l'.callers[0]? = some (.finished (.error f)) := by
  rcases Option.map_eq_some_iff.1 h with ⟨⟨tr, l'⟩, hr, facts⟩
  simp only [Prod.mk.injEq] at facts
  rcases facts with ⟨published, calm, raised⟩
  rcases Option.bind_eq_some_iff.1 published with ⟨x, hx, hp⟩
  rcases List.append_of_mem (List.mem_of_getElem? hx) with ⟨u, v, rfl⟩
  rcases Option.isSome_iff_exists.1 raised with ⟨f, hf⟩
  have at_caller : ∃ m p d, x.action = .caller 0 m ∧
      x.before.callers[0]? = some (.publishing p d) := by
    unfold Moment.publishing? at hp
    split at hp
    · rename_i m p d ha hs
      exact ⟨m, p, d, ha, (Moment.stage?_caller ha).symm.trans hs⟩
    · cases hp
  rcases at_caller with ⟨m, p, d, ha, hs⟩
  refine ⟨u, x, v, l', m, p, d, f, hr, ha, hs, hp, ?_, setupError?_eq_some hf⟩
  simpa only [List.all_eq_true, Bool.not_eq_true'] using calm

/-- Of two databases and another container, the stop actions of the databases are started. -/
theorem setup_takes_over_of_two_databases :
    (create {} {} false).Fresh ∧ ∃ u x v l' p d f, Run (create {} {} false) (u ++ x :: v) l' ∧
      x.before.callers[0]? = some (.publishing p d) ∧ identities d = [0, 1, 2] ∧
      l'.callers[0]? = some (.finished (.error f)) ∧
      (u ++ x :: v).countP (Moment.starts 0) = 1 ∧ (u ++ x :: v).countP (Moment.starts 1) = 1 ∧
        (u ++ x :: v).countP (Moment.starts 2) ≠ 1 := by
  have fresh : (create {} {} false).Fresh := fresh_create rfl rfl {} false 0
  have facts : (Run.replay? (create {} {} false)
        (failedPublishing twoDatabases [0, 0, 0, 1, 1, 1])).map (fun r =>
      (r.1[4]?.bind Moment.publishing?, r.1.all fun z => !z.givesUp, r.2.setupError?.isSome)) =
      some (some ([], [(0, true), (1, true), (2, false)]), true, true) := by
    decide +kernel
  rcases publishing_of_replay facts with ⟨u, x, v, l', m, p, d, f, hr, ha, hs, hp, calm, raised⟩
  have run := Run.of_replay? hr
  have hx : x.stage? = some (.publishing p d) := (Moment.stage?_caller ha).trans hs
  simp only [Moment.publishing?, ha, hx, Option.some.injEq, Prod.mk.injEq,
    List.append_eq_nil_iff, List.map_eq_nil_iff] at hp
  rcases hp with ⟨⟨unused, unrecorded⟩, taken⟩
  have handed : identities d = [0, 1, 2] := by
    simpa [Function.comp_def] using congrArg (List.map Prod.fst) taken
  have started {n : Nat} (hn : n ∈ identities d) :
      (u ++ x :: v).countP (Moment.starts n) = 1 ↔ d.TakesOver x.before.world.registry n := by
    rcases List.mem_filterMap.1 hn with ⟨g, hg, stop⟩
    rcases Option.map_eq_some_iff.1 stop with ⟨c, hc, rfl⟩
    rw [setup_takes_over fresh run ha hs calm raised hg hc List.not_mem_nil]
    simp [unused, unrecorded, Ledger.Holds]
  rw [handed] at taken started
  simp only [List.map_cons, List.map_nil, List.cons.injEq, Prod.mk.injEq, decide_eq_true_eq,
    decide_eq_false_iff_not, true_and, and_true] at taken
  exact ⟨fresh, u, x, v, l', p, d, f, run, hs, handed, raised, (started (by simp)).2 taken.1,
    (started (by simp)).2 taken.2.1, (started (by simp)).not.2 taken.2.2⟩

/-- With settings of another type the stop action of a database that was handed over is never
started. -/
theorem untyped_settings_leave_container :
    (create {} {} false).Fresh ∧ ∃ u x v l' p d f, Run (create {} {} false) (u ++ x :: v) l' ∧
      x.before.callers[0]? = some (.publishing p d) ∧ identities d = [0] ∧
      (∀ z ∈ u ++ x :: v, z.givesUp = false) ∧ l'.callers[0]? = some (.finished (.error f)) ∧
      (u ++ x :: v).countP (Moment.starts 0) = 0 := by
  have fresh : (create {} {} false).Fresh := fresh_create rfl rfl {} false 0
  have facts : (Run.replay? (create {} {} false) (failedPublishing untyped [])).map (fun r =>
      (r.1[4]?.bind Moment.publishing?, r.1.all fun z => !z.givesUp, r.2.setupError?.isSome)) =
      some (some ([], [(0, false)]), true, true) := by
    decide +kernel
  have never : (Run.replay? (create {} {} false) (failedPublishing untyped [])).map (fun r =>
      r.1.countP (Moment.starts 0)) = some 0 := by
    decide +kernel
  rcases publishing_of_replay facts with ⟨u, x, v, l', m, p, d, f, hr, ha, hs, hp, calm, raised⟩
  have hx : x.stage? = some (.publishing p d) := (Moment.stage?_caller ha).trans hs
  simp only [Moment.publishing?, ha, hx, Option.some.injEq, Prod.mk.injEq] at hp
  have handed : identities d = [0] := by
    simpa [Function.comp_def] using congrArg (List.map Prod.fst) hp.2
  rw [hr] at never
  exact ⟨fresh, u, x, v, l', p, d, f, Run.of_replay? hr, hs, handed, calm, raised,
    Option.some.inj never⟩

end Lifecycle
end Testbed
