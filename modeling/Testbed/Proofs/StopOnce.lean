import Testbed.Proofs.Conduct
import Testbed.Proofs.Drain
import Testbed.Proofs.Ledger

/-!
# Stop actions

The stop action of a capability is started by the claim that is granted; no identity is granted
twice.  After the drain, each drained capability passes through the stages of `Course`, and the
caller that drained cannot leave the stop pass before all of them have come to their end.
-/

namespace Testbed

/-- The k-th capability that a pass stops, with what is left of its program. -/
def StopPass.child? (p : StopPass) (k : Nat) : Option (Capability × Task (Except Fault Unit)) :=
  match p.stage with
  | .stopping children => p.capabilities[k]?.bind fun c => children[k]?.map fun t => (c, t)
  | _ => none

namespace Lifecycle

variable {l l' : Lifecycle} {tr u v : List Moment} {x : Moment} {n : Nat}

namespace Moment

/-- The stop action of the capability with an identity is started. -/
def starts (n : Nat) (x : Moment) : Bool :=
  match x.call? with
  | some (.claim c) => c.identity == n && !x.before.world.used.contains n
  | _ => false

/-- A stop pass moves. -/
def byPass (x : Moment) : Bool :=
  match x.action with
  | .leftover i _ =>
    match x.before.leftovers[i]? with
    | some (.pass _) => true
    | _ => false
  | _ =>
    match x.stage? with
    | some (.stopping ..) => true
    | _ => false

/-- The stop action of the capability with an identity returns or raises in a stop pass. -/
def Finishes (n : Nat) (x : Moment) : Prop :=
  ∃ p pass pass' k c call next r,
    x.stage? = some (.stopping p pass) ∧ pass.child? k = some (c, .call call next) ∧
      x.reached? = some (.stopping p pass') ∧ pass'.child? k = some (c, .done r) ∧
        c.identity = n

theorem starts_iff : x.starts n = true ↔
    ∃ c, x.call? = some (.claim c) ∧ c.identity = n ∧ n ∉ x.before.world.used := by
  unfold starts
  constructor
  · intro h
    split at h
    · rename_i c hc
      simp only [Bool.and_eq_true, beq_iff_eq, Bool.not_eq_true', List.contains_eq_mem,
        decide_eq_false_iff_not] at h
      exact ⟨c, hc, h⟩
    · cases h
  · rintro ⟨c, hc, rfl, hu⟩
    simp [hc, hu]

end Moment

/-! ## Claims that are granted -/

/-- A call uses up the identity of the capability that it claims, and nothing else. -/
theorem effect_used {w w' : World} {c : Call} (h : World.Effect w c w') :
    n ∈ w'.used ↔ n ∈ w.used ∨ n ∉ w.used ∧ ∃ d, c = .claim d ∧ d.identity = n := by
  -- Only a claim uses up an identity, and only the first one for it.
  cases h with
  | claim d hu =>
    constructor
    · intro hn
      rcases List.mem_cons.1 hn with rfl | hn
      · exact .inr ⟨hu, d, rfl, rfl⟩
      · exact .inl hn
    · rintro (hn | ⟨-, e, he, rfl⟩)
      · exact List.mem_cons_of_mem _ hn
      · cases he
        exact List.mem_cons_self ..
  | claimInVain d hu =>
    constructor
    · exact .inl
    · rintro (hn | ⟨hn, e, he, rfl⟩)
      · exact hn
      · cases he
        exact absurd hu hn
  | shutdown =>
    rcases w.closeRuntime_eq with ⟨isOpen, closed, log, he⟩
    simp [he]
  | outside c o clock drawn log trace pauses hc =>
    constructor
    · exact .inl
    · rintro (hn | ⟨-, e, rfl, -⟩)
      · exact hn
      · cases hc
  | _ => simp

/-- An identity is used from the moment on at which its stop action is started. -/
theorem Moment.used_iff (h : x.before.act? x.action = some x.after) :
    n ∈ x.after.world.used ↔ n ∈ x.before.world.used ∨ x.starts n = true := by
  rw [starts_iff]
  rcases (change_of_act? h).moved with ⟨c, r, hc, hr⟩ | ⟨hc, holdings, registry, log, gate, hw⟩
  · rw [effect_used (World.effect_of_perform hr)]
    constructor
    · rintro (hn | ⟨hn, d, rfl, hd⟩)
      · exact .inl hn
      · exact .inr ⟨d, hc, hd, hn⟩
    · rintro (hn | ⟨d, hd, hn⟩)
      · exact .inl hn
      · exact .inr ⟨hn.2, d, Option.some.inj (hc.symm.trans hd), hn.1⟩
  · have same : x.after.world.used = x.before.world.used := by
      rw [hw]
    rw [same]
    constructor
    · exact .inl
    · rintro (hn | ⟨d, hd, -⟩)
      · exact hn
      · rw [Moment.call?, hc] at hd
        cases hd

/-- Starts are counted by the identities that are used. -/
theorem Run.starts_balance (run : Run l tr l') (n : Nat) :
    tr.countP (Moment.starts n) + (if n ∈ l.world.used then 1 else 0) =
      if n ∈ l'.world.used then 1 else 0 := by
  induction run with
  | refl => simp
  | @tail tr m m' a run h ih =>
    have hu : n ∈ m'.world.used ↔ n ∈ m.world.used ∨ Moment.starts n ⟨m, a, m'⟩ = true :=
      Moment.used_iff (x := ⟨m, a, m'⟩) h
    rw [List.countP_append, List.countP_singleton]
    -- An identity that has been used is not started again.
    by_cases hn : n ∈ m.world.used
    · have hs : Moment.starts n ⟨m, a, m'⟩ = false := by
        by_contra hs
        rcases Moment.starts_iff.1 (by simpa using hs) with ⟨c, -, -, hn'⟩
        exact hn' hn
      rw [if_pos (hu.2 (.inl hn))]
      rw [if_pos hn] at ih
      simpa only [hs, Bool.false_eq_true, if_false, Nat.add_zero] using ih
    · rw [if_neg hn] at ih
      cases hs : Moment.starts n ⟨m, a, m'⟩ with
      | true =>
        rw [if_pos (hu.2 (.inr hs))]
        simp only [if_true]
        omega
      | false =>
        have hm : n ∉ m'.world.used := by
          simp [hu, hn, hs]
        rw [if_neg hm]
        simpa only [hs, Bool.false_eq_true, if_false, Nat.add_zero] using ih

/-- No stop action is started twice. -/
theorem Run.starts_once (run : Run l tr l') (n : Nat) : tr.countP (Moment.starts n) ≤ 1 := by
  have := run.starts_balance n
  split at this <;> split at this <;> omega

/-! ## What becomes of a drained capability -/

/-- The stop action of the capability with an identity has been started and has finished. -/
def Over (n : Nat) (v : List Moment) : Prop :=
  ∃ s z, [s, z].Sublist v ∧ s.starts n = true ∧ z.Finishes n

/-- The call does not claim an identity. -/
def Spares (n : Nat) (call : Call) : Prop := ∀ c, call = .claim c → c.identity ≠ n

/-- How far the program of a capability has come in the stop pass, given the moments since the
drain and the identities that are used. -/
inductive Course (c : Capability) (v : List Moment) (used : List Nat) :
    Task (Except Fault Unit) → Prop where
  | logs (hu : c.identity ∉ used) : Course c v used (StopPass.stopOne c)
  | claims (hu : c.identity ∉ used) : Course c v used c.use
  | acts {call : Call} {next : call.Reply → Task (Except Fault Unit)} {s : Moment} (hs : s ∈ v)
      (h : s.starts c.identity = true) : Course c v used (.call call next)
  | ended {r : Except Fault Unit} (h : Over c.identity v) : Course c v used (.done r)

/-- Where a capability stands while the caller that drained it is at a stage and its stop action is
not over. -/
inductive Standing (c : Capability) (v : List Moment) (used : List Nat) : Stage → Prop where
  | listed (p : Purpose) {cs : List Capability} (hc : c ∈ cs)
      (distinct : (cs.map Capability.identity).Nodup) (hu : c.identity ∉ used) :
      Standing c v used (.confirming p cs)
  | stopping (p : Purpose) {cs : List Capability} {sweep : Option String} {k : Nat}
      {ts : List (Task (Except Fault Unit))} {t : Task (Except Fault Unit)}
      (hc : cs[k]? = some c) (hk : ts[k]? = some t) (course : Course c v used t)
      (others : ∀ j t', j ≠ k → ts[j]? = some t' →
        Work.Gives (Spares c.identity) (fun _ => True) t') :
      Standing c v used (.stopping p ⟨cs, sweep, .stopping ts⟩)

variable {c : Capability} {used used' : List Nat}

theorem Over.append (h : Over n v) (w : List Moment) : Over n (v ++ w) := by
  rcases h with ⟨s, z, hsz, hs, hz⟩
  exact ⟨s, z, hsz.trans (List.sublist_append_left ..), hs, hz⟩

theorem Course.append {t : Task (Except Fault Unit)} (h : Course c v used t) (w : List Moment)
    (hu : c.identity ∉ used → c.identity ∉ used') : Course c (v ++ w) used' t := by
  cases h with
  | logs h => exact .logs (hu h)
  | claims h => exact .claims (hu h)
  | acts hs h => exact .acts (List.mem_append_left _ hs) h
  | ended h => exact .ended (h.append w)

/-- Moments that do not start the stop action leave a capability where it stands. -/
theorem Standing.append {s : Stage} (h : Standing c v used s) (w : List Moment)
    (hu : c.identity ∉ used → c.identity ∉ used') : Standing c (v ++ w) used' s := by
  cases h with
  | listed p hc distinct h => exact .listed p hc distinct (hu h)
  | stopping p hc hk course others => exact .stopping p hc hk (course.append w hu) others

/-- The caller of a capability that is not over is past the drain. -/
theorem Standing.isPast {s : Stage} (h : Standing c v used s) : s.isPast = true := by
  cases h <;> rfl

/-- A program moves on in the course of its capability. -/
theorem Course.next {t t' : Task (Except Fault Unit)} {w w' : World} (h : Course c v w.used t)
    (hn : w.next? t = some (t', w'))
    (hs : t.call? = some (.claim c) → c.identity ∉ w.used → x.starts c.identity = true)
    (hf : ∀ call next r, t = .call call next → t' = .done r → x.Finishes c.identity) :
    Course c (v ++ [x]) w'.used t' := by
  rcases World.next?_eq_some hn with ⟨call, next, r, rfl, hr, rfl⟩
  generalize ht : Program.call call next = t at h
  -- The program of a capability logs, claims, makes the call of its action and ends.
  cases h with
  | logs h =>
    cases c.stopOne_eq.symm.trans ht.symm
    cases hr
    exact .claims h
  | claims h =>
    cases c.use_eq.symm.trans ht.symm
    have granted : w.perform (.claim c) =
        some (true, { w with used := c.identity :: w.used }) :=
      if_neg (by simpa using h)
    cases granted.symm.trans hr
    rcases c.act_eq_call with ⟨call, next, ha⟩
    have hx := hs rfl h
    exact ha ▸ .acts (List.mem_append_right _ (List.mem_singleton_self x)) hx
  | @acts call next s hm h =>
    cases ht
    cases hr' : next r with
    | call call' next' => exact .acts (List.mem_append_left _ hm) h
    | done o =>
      refine .ended ⟨s, x, ?_, h, hf call next o rfl hr'⟩
      exact List.Sublist.append (List.singleton_sublist.2 hm) (List.Sublist.refl [x])
  | ended h => cases ht

/-- A pass that starts begins with every drained capability. -/
theorem Standing.start (p : Purpose) {cs : List Capability} (sweep : Option String) (hc : c ∈ cs)
    (distinct : (cs.map Capability.identity).Nodup) (hu : c.identity ∉ used) :
    Standing c v used (.stopping p (.start cs sweep)) := by
  rcases List.mem_iff_getElem?.1 hc with ⟨k, hk⟩
  have hk' : (cs.map Capability.identity)[k]? = some c.identity := by
    simp [hk]
  refine .stopping (k := k) p hk (by simp [hk]) (.logs hu) ?_
  intro j t' hj ht
  rw [List.getElem?_map] at ht
  rcases Option.map_eq_some_iff.1 ht with ⟨d, hd, rfl⟩
  refine d.stopOne_gives ?_ ?_
  · rintro call hcall e rfl
    cases hcall
  · intro e he hi
    cases he
    have hj' : (cs.map Capability.identity)[j]? = some c.identity := by
      simp [hd, hi]
    have hlt := (List.getElem?_eq_some_iff.1 hj').1
    exact hj ((List.getElem?_inj hlt distinct).1 (hj'.trans hk'.symm))

/-- A pass that moves on keeps a capability in its course. -/
theorem Standing.step {i j : Nat} {p : Purpose} {pass pass' : StopPass} {w : World}
    (h : Standing c v x.before.world.used (.stopping p pass)) (ha : x.action = .caller i (.go j))
    (hs : x.before.callers[i]? = some (.stopping p pass))
    (ht : pass.step? x.before.world j = some (pass', w))
    (hr : x.reached? = some (.stopping p pass')) :
    Standing c (v ++ [x]) w.used (.stopping p pass') := by
  cases h with
  | @stopping _ cs sweep k ts t hc hk course others =>
    cases StopPass.steps_of_step? ht with
    | @stopping _ _ _ t₀ t' ht₀ hn =>
      have call : x.call? = t₀.call? := by
        simp [Moment.call?, Lifecycle.call?, ha, hs, Stage.call?, StopPass.call?, ht₀]
      by_cases hj : j = k
      · -- The program of the capability itself moves on.
        subst hj
        have he : t₀ = t := Option.some.inj (ht₀.symm.trans hk)
        subst he
        have hk' : (ts.set j t')[j]? = some t' := by
          simp [(List.getElem?_eq_some_iff.1 hk).1]
        refine .stopping p hc hk' (course.next hn ?_ ?_) ?_
        · intro hcall hu
          exact Moment.starts_iff.2 ⟨c, call.trans hcall, rfl, hu⟩
        · rintro call' next r rfl rfl
          refine ⟨p, ⟨cs, sweep, .stopping ts⟩, _, j, c, call', next, r, ?_, ?_, hr, ?_, rfl⟩
          · exact (Moment.stage?_caller ha).trans hs
          · simp [StopPass.child?, hc, hk]
          · simp only [StopPass.child?, hc, hk', Option.bind_some, Option.map_some]
        · intro j' u hj' hu
          rw [List.getElem?_set_ne (Ne.symm hj')] at hu
          exact others j' u hj' hu
      · -- Another program moves on, and it does not claim the capability.
        have spares := others j t₀ hj ht₀
        refine .stopping (k := k) p hc ?_ (course.append [x] ?_) ?_
        · rw [List.getElem?_set_ne hj]
          exact hk
        · intro hu hw
          rcases World.next?_call hn with ⟨call', hcall, he⟩
          rcases (effect_used he).1 hw with hw | ⟨-, d, rfl, hd⟩
          · exact hu hw
          · exact Task.Follows.allows spares hcall d rfl hd
        · intro j' u hj' hu
          rcases getElem?_set_cases hu with ⟨rfl, rfl⟩ | ⟨-, hu⟩
          · exact Work.Gives.next spares hn
          · exact others j' u hj' hu

/-- The caller that drained moves on: the stop action of the capability is over or it still stands
in the stop pass. -/
theorem Standing.turn {i : Nat} {m : Move} {s s' : Stage} {n' : Lifecycle}
    (h : Standing c v x.before.world.used s) (ha : x.action = .caller i m)
    (hs : x.before.callers[i]? = some s) (turn : Turn x.before s m s' n')
    (hw : x.after.world = n'.world) (hr : x.reached? = some s') (calm : x.givesUp = false) :
    Over c.identity (v ++ [x]) ∨ Standing c (v ++ [x]) x.after.world.used s' := by
  have hx : x.stage? = some s := (Moment.stage?_caller ha).trans hs
  rw [hw]
  have idle {p : Purpose} {pass : StopPass} {r : StopPass.Progress} {w : World}
      (h : Standing c v x.before.world.used (.stopping p pass))
      (ht : pass.turn? x.before.world = some (r, w)) : Over c.identity (v ++ [x]) := by
    cases h with
    | @stopping _ cs sweep k ts t hc hk course others =>
      have hcall := StopPass.turn?_call? ht k
      simp only [StopPass.call?, hk, Option.bind_some] at hcall
      cases course with
      | ended h => exact h.append [x]
      | _ => cases hcall
  -- A capability that is handed to a pass stands in it until its program has ended.
  cases turn
  case confirmNothing =>
    cases h with
    | listed p hc distinct hu => cases hc
  case confirm p _ _ _ =>
    cases h with
    | listed _ hc distinct hu => exact .inr (.start p _ hc distinct hu)
  case confirmAnew p _ _ _ _ =>
    cases h with
    | listed _ hc distinct hu => exact .inr (.start p _ hc distinct hu)
  case confirmRefused => exact absurd hr (Moment.not_refused calm hx)
  case passGoes ht => exact .inl (idle h ht)
  case passEnds ht => exact .inl (idle h ht)
  case passExpired => exact absurd hs (Moment.not_expired calm ha)
  case passSteps ht => exact .inr (h.step ha hs ht hr)
  all_goals cases h

/-! ## Runs -/

/-- A stop pass moves only past the drain. -/
theorem Run.drained_of_byPass (fresh : l.Fresh) (run : Run l (u ++ x :: v) l')
    (calm : ∀ z ∈ u ++ x :: v, z.givesUp = false) (hx : x.byPass = true) :
    ∃ i m p pass, x.action = .caller i m ∧ x.before.callers[i]? = some (.stopping p pass) := by
  unfold Moment.byPass at hx
  split at hx
  · rename_i i k ha
    split at hx
    · rename_i pass hi
      have none := run.at_moment.1.no_pass_left fresh
        (fun z hz => calm z (List.mem_append_left _ hz)) pass
      exact absurd (List.mem_of_getElem? hi) none
    · cases hx
  · split at hx
    · rename_i p pass hs
      rcases Moment.stage?_eq_some.1 hs with ⟨i, m, ha, hi⟩
      exact ⟨i, m, p, pass, ha, hi⟩
    · cases hx

/-- A capability whose stop action is only started by stop passes is unused when the ledger is
drained. -/
theorem Run.unused_at_drain (fresh : l.Fresh) (run : Run l u l') {i : Nat} {p : Purpose}
    (hi : l'.callers[i]? = some (.draining p)) (unused : c.identity ∉ l.world.used)
    (calm : ∀ z ∈ u, z.givesUp = false)
    (own : ∀ z ∈ u, z.starts c.identity = true → z.byPass = true) :
    c.identity ∉ l'.world.used := by
  intro hu
  have balance := run.starts_balance c.identity
  rw [if_neg unused, if_pos hu] at balance
  have started : 0 < u.countP (Moment.starts c.identity) := by omega
  rcases List.countP_pos_iff.1 started with ⟨z, hz, hs⟩
  have pass := own z hz hs
  rcases List.append_of_mem hz with ⟨u₁, u₂, rfl⟩
  obtain ⟨j, m, q, r, -, hj⟩ := run.drained_of_byPass fresh calm pass
  -- A pass has moved before, so that the ledger has been drained already.
  have drained : z.before.Drained := .inr ⟨j, _, hj, rfl⟩
  have later : z.after.Drained := run.at_moment.2.2.keeps_drained fresh drained
  have now := run.stays (fun run h => run.keeps_drained fresh h) later
  exact now.not_draining (run.sound fresh) hi

/-- Whoever moves, a capability in a stop pass stands there until its stop action is over. -/
theorem Standing.moment {i : Nat} {s : Stage} (standing : Standing c v x.before.world.used s)
    (hs : x.before.callers[i]? = some s) (act : x.before.act? x.action = some x.after)
    (sound : x.before.Sound) (calm : x.givesUp = false)
    (own : x.starts c.identity = true → ∃ i m p pass, x.action = .caller i m ∧
      x.before.callers[i]? = some (.stopping p pass)) :
    Over c.identity (v ++ [x]) ∨ ∃ s', x.after.callers[i]? = some s' ∧
      Standing c (v ++ [x]) x.after.world.used s' := by
  rcases (change_of_act? act).goes hs with ⟨other, hn⟩ | ⟨m, s', n', ha, turn, hw, hn⟩
  · refine .inr ⟨s, hn, standing.append [x] ?_⟩
    intro hu hu'
    rcases (Moment.used_iff act).1 hu' with hu' | hst
    · exact hu hu'
    · -- Only the caller of the pass could have started the stop action.
      obtain ⟨j, m, q, r, ha, hj⟩ := own hst
      rcases Stage.isPast_drives? standing.isPast with ⟨p, hp⟩
      have hij := sound.unique hj hs rfl hp
      exact other m (hij ▸ ha)
  · have hr : x.reached? = some s' := (Moment.reached?_caller ha).trans hn
    have hw' : x.after.world = n'.world := by
      rw [hw]
    rcases standing.turn ha hs turn hw' hr calm with past | standing
    · exact .inl past
    · exact .inr ⟨s', hn, standing⟩

/-- Until its stop action is over, a drained capability stands in the stop pass of the caller that
drained it. -/
theorem Run.standing (fresh : l.Fresh) (run : Run l (u ++ x :: v) l') (hx : x.drains = true)
    (hc : c ∈ x.before.world.ledger.entries) (unused : c.identity ∉ l.world.used)
    (calm : ∀ z ∈ u ++ x :: v, z.givesUp = false)
    (own : ∀ z ∈ u ++ x :: v, z.starts c.identity = true → z.byPass = true) :
    Over c.identity v ∨
      ∃ (i : Nat) (s : Stage), l'.callers[i]? = some s ∧ Standing c v l'.world.used s := by
  -- By induction on what happens after the drain.
  induction v using List.reverseRecOn generalizing l' with
  | nil =>
    rcases run.tail_inv with ⟨front, hact, rfl⟩
    rcases Moment.drains_turn hact hx with ⟨i, k, p, -, hi, hn, cs, log, hw⟩
    have before {z : Moment} (hz : z ∈ u) : z ∈ u ++ [x] := List.mem_append_left _ hz
    have still : c.identity ∉ x.before.world.used :=
      front.unused_at_drain fresh hi unused (fun z hz => calm z (before hz))
        fun z hz => own z (before hz)
    refine .inr ⟨i, _, hn, .listed p (List.mem_reverse.2 hc) ?_ ?_⟩
    · rw [List.map_reverse]
      exact List.nodup_reverse.2 (front.ledger_distinct fresh)
    · rw [hw]
      exact still
  | append_singleton v y ih =>
    have run' : Run l ((u ++ x :: v) ++ [y]) l' := by
      simpa using run
    have mem {z : Moment} (hz : z ∈ u ++ x :: v) : z ∈ u ++ x :: (v ++ [y]) := by
      refine List.Sublist.subset (List.Sublist.append (List.Sublist.refl u) ?_) hz
      exact List.Sublist.cons_cons x (List.sublist_append_left ..)
    rcases run'.tail_inv with ⟨front, hact, rfl⟩
    have hy : y ∈ u ++ x :: (v ++ [y]) := by simp
    obtain past | ⟨i, s, hs, standing⟩ := ih front (fun z hz => calm z (mem hz))
      fun z hz => own z (mem hz)
    · exact .inl (past.append [y])
    · refine (standing.moment hs hact (front.sound fresh) (calm y hy) fun starts => ?_).imp_right
        fun h => ⟨i, h⟩
      exact run'.drained_of_byPass fresh (fun z hz => calm z (by simpa using hz)) (own y hy starts)

end Lifecycle
end Testbed
