import Testbed.Proofs.Execution
import Testbed.Proofs.Expiry
import Testbed.Proofs.Tidy

/-!
# Confirmed stop passes

The programs of a stop pass take their turns in any order, yet each of them only depends on the
replies to its own calls: what the run has told a program is the list of its exchanges.  A pass
that comes to its end reports on every capability what its own program has ended with, in the order
of the capabilities, and then on every container that its label query has named and that no
capability stands for, in the order of that answer.
-/

namespace Testbed

/-! ## What exchanges lead to -/

namespace Task

variable {α : Type} {t t' : Task α} {es : List Exchange}

/-- The replies to its calls have led one program to another, whoever has acted in between. -/
inductive Leads (t : Task α) : List Exchange → Task α → Prop where
  | here : Leads t [] t
  | next {es : List Exchange} {c : Call} {next : c.Reply → Task α}
      (h : Leads t es (.call c next)) (r : c.Reply) : Leads t (es ++ [⟨c, r⟩]) (next r)

/-- A program that has come some way still follows its rule. -/
theorem Follows.leads {σ : Type} {R : Rule σ} {Q : σ → α → Prop} {s : σ} (h : Follows R Q t s)
    (led : t.Leads es t') : Follows R Q t' (R.after s es) := by
  induction led with
  | here => exact h
  | @next es c next led r ih =>
    rw [Rule.after, List.foldl_append]
    exact ih.2 r

/-- Nothing but the replies decides where a program comes to. -/
theorem Leads.unique {t₁ t₂ : Task α} (h₁ : t.Leads es t₁) (h₂ : t.Leads es t₂) : t₁ = t₂ := by
  induction h₁ generalizing t₂ with
  | here =>
    generalize he : ([] : List Exchange) = fs at h₂
    cases h₂ with
    | here => rfl
    | next => simp at he
  | @next es c next h₁ r ih =>
    generalize he : es ++ [⟨c, r⟩] = fs at h₂
    cases h₂ with
    | here => simp at he
    | next h₂ =>
      simp only [List.append_singleton_inj] at he
      rcases he with ⟨rfl, last⟩
      cases last
      cases ih h₂
      rfl

end Task

namespace StopPass

variable {α : Type} {w w' : World}

/-- The replies to its calls have brought a program to its end. -/
def Ended (t : Task (Except Fault α)) (es : List Exchange) (o : Except Fault α) : Prop :=
  ∃ t', t.Leads es t' ∧ outcome? t' = some o

theorem Ended.unique {t : Task (Except Fault α)} {es : List Exchange} {o o' : Except Fault α}
    (h : Ended t es o) (h' : Ended t es o') : o' = o := by
  rcases h with ⟨t₁, led, outcome⟩
  rcases h' with ⟨t₂, led', outcome'⟩
  cases led.unique led'
  exact Option.some.inj (outcome'.symm.trans outcome)

/-! ## Programs side by side -/

/-- Programs that take turns have come as far as others, each by its own exchanges. -/
structure Abreast (starts : List (Task (Except Fault α))) (es : Nat → List Exchange)
    (ts : List (Task (Except Fault α))) : Prop where
  length : starts.length = ts.length
  leads : ∀ (k : Nat) (t₀ t : Task (Except Fault α)), starts[k]? = some t₀ → ts[k]? = some t →
    t₀.Leads (es k) t

/-- Programs that took turns have ended with outcomes.  The exchanges of each program are enough to
tell its outcome, whenever the others took their turns. -/
structure Results (starts : List (Task (Except Fault α))) (es : Nat → List Exchange)
    (rs : List (Except Fault α)) : Prop where
  length : starts.length = rs.length
  ended : ∀ (k : Nat) (t : Task (Except Fault α)) (r : Except Fault α), starts[k]? = some t →
    rs[k]? = some r → ∀ o, Ended t (es k) o ↔ o = r

variable {starts ts : List (Task (Except Fault α))} {es es' : Nat → List Exchange}
  {rs : List (Except Fault α)} {k : Nat}

theorem Abreast.start (h : ∀ k, es k = []) : Abreast starts es starts where
  length := rfl
  leads k t₀ t h₀ ht := by
    cases h₀.symm.trans ht
    rw [h k]
    exact .here

/-- One of the programs moves on by its next exchange, and the others wait. -/
theorem Abreast.step (h : Abreast starts es ts) {c : Call} {next : c.Reply → Task (Except Fault α)}
    (hk : ts[k]? = some (.call c next)) (r : c.Reply)
    (he : ∀ j, es' j = es j ++ if k = j then [⟨c, r⟩] else []) :
    Abreast starts es' (ts.set k (next r)) where
  length := by
    rw [List.length_set]
    exact h.length
  leads j t₀ t h₀ ht := by
    rw [he j]
    rcases getElem?_set_cases ht with ⟨rfl, rfl⟩ | ⟨other, ht⟩
    · rw [if_pos rfl]
      exact (h.leads j t₀ _ h₀ hk).next r
    · rw [if_neg (Ne.symm other), List.append_nil]
      exact h.leads j t₀ t h₀ ht

theorem Abreast.results (h : Abreast starts es ts) (ended : outcomes? ts = some rs) :
    Results starts es rs where
  length := h.length.trans (outcomes?_eq_some ended).length_eq
  ended k t r ht hr := by
    rcases forall₂_of_getElem? (outcomes?_eq_some ended) hr with ⟨t', ht', outcome⟩
    have ended : Ended t (es k) r := ⟨t', h.leads k t t' ht ht', outcome⟩
    refine fun o => ⟨ended.unique, ?_⟩
    rintro rfl
    exact ended

/-! ## The programs of a pass -/

/-- The k-th program that calls a capability takes its turn if a pass lets its j-th program go. -/
def stops (k : Nat) (p : StopPass) (j : Nat) : Bool :=
  match p.stage with
  | .stopping _ => j == k
  | _ => false

/-- The label query takes its turn, whichever program a pass lets go. -/
def lists (p : StopPass) (_ : Nat) : Bool :=
  match p.stage with
  | .listing .. => true
  | _ => false

/-- The k-th removal of the sweep takes its turn if a pass lets its j-th program go. -/
def removes (k : Nat) (p : StopPass) (j : Nat) : Bool :=
  match p.stage with
  | .removing .. => j == k
  | _ => false

/-- How far a pass has come by the exchanges of its programs, given for each choice of programs. -/
inductive Came (es : (StopPass → Nat → Bool) → List Exchange) : StopPass → Prop where
  | stopping {cs : List Capability} {sweep : Option String}
      {ts : List (Task (Except Fault Unit))}
      (calls : Abreast (cs.map fun c => (stopOne c).run) (fun k => es (stops k)) ts)
      (unlisted : es lists = []) (unswept : ∀ k, es (removes k) = []) :
      Came es ⟨cs, sweep, .stopping ts⟩
  | listing {cs : List Capability} {session : String} {rs : List (Except Fault Unit)}
      {t : Task (Except Fault (List String))}
      (called : Results (cs.map fun c => (stopOne c).run) (fun k => es (stops k)) rs)
      (query : Task.Leads (labelled session).run (es lists) t)
      (unswept : ∀ k, es (removes k) = []) : Came es ⟨cs, some session, .listing rs t⟩
  | removing {cs : List Capability} {session : String} {rs : List (Except Fault Unit)}
      {found ids : List String} {ts : List (Task (Except Fault Bool))}
      (called : Results (cs.map fun c => (stopOne c).run) (fun k => es (stops k)) rs)
      (listed : Ended (labelled session).run (es lists) (.ok found))
      (hi : ids = found.filter fun id => !(cs.map Capability.containerId).contains id)
      (removals : Abreast (ids.map fun id => (Client.removeContainer id).run)
        (fun k => es (removes k)) ts) : Came es ⟨cs, some session, .removing rs ids ts⟩

variable {p p' : StopPass} {fs fs' : (StopPass → Nat → Bool) → List Exchange}

theorem came_start {cs : List Capability} {sweep : Option String} (none : ∀ mine, fs mine = []) :
    Came fs (start cs sweep) :=
  .stopping (.start fun _ => none _) (none _) fun _ => none _

/-- A pass that moves on by a call of one of its programs comes further by this exchange. -/
theorem Came.step (h : Came fs p) (hs : p.step? w k = some (p', w')) :
    ∃ c r, p.call? k = some c ∧ w.perform c = some (r, w') ∧
      ∀ fs', (∀ mine, fs' mine = fs mine ++ if mine p k then [⟨c, r⟩] else []) →
        Came fs' p' := by
  -- The exchange belongs to one of the programs of this stage; those of the other stages have not
  -- begun or have ended.
  cases steps_of_step? hs with
  | stopping hk hn =>
    cases h with
    | stopping calls unlisted unswept =>
      rcases World.next?_eq_some hn with ⟨c, next, r, rfl, reply, rfl⟩
      refine ⟨c, r, by simp [call?, hk, Program.call?], reply, fun fs' more => ?_⟩
      refine .stopping (calls.step hk r fun j => ?_) ?_ fun j => ?_
      · simpa [stops] using more (stops j)
      · simpa [lists, unlisted] using more lists
      · simpa [removes, unswept] using more (removes j)
  | listing hn =>
    cases h with
    | listing called query unswept =>
      rcases World.next?_eq_some hn with ⟨c, next, r, rfl, reply, rfl⟩
      refine ⟨c, r, rfl, reply, fun fs' more => ?_⟩
      have same (j : Nat) : fs' (stops j) = fs (stops j) := by
        simpa [stops] using more (stops j)
      have asked : fs' lists = fs lists ++ [⟨c, r⟩] := by
        simpa [lists] using more lists
      refine .listing ?_ ?_ fun j => ?_
      · simpa only [same] using called
      · rw [asked]
        exact query.next r
      · simpa [removes, unswept] using more (removes j)
  | removing hk hn =>
    cases h with
    | removing called listed hi removals =>
      rcases World.next?_eq_some hn with ⟨c, next, r, rfl, reply, rfl⟩
      refine ⟨c, r, by simp [call?, hk, Program.call?], reply, fun fs' more => ?_⟩
      have same (j : Nat) : fs' (stops j) = fs (stops j) := by
        simpa [stops] using more (stops j)
      have asked : fs' lists = fs lists := by
        simpa [lists] using more lists
      refine .removing ?_ ?_ hi (removals.step hk r fun j => ?_)
      · simpa only [same] using called
      · rw [asked]
        exact listed
      · simpa [removes] using more (removes j)

theorem Came.turn (h : Came fs p) (ht : p.turn? w = some (.going p', w')) : Came fs p' := by
  cases turns_of_turn? ht with
  | lists ended =>
    cases h with
    | stopping calls unlisted unswept =>
      refine .listing (calls.results ended) ?_ unswept
      rw [unlisted]
      exact .here
  | sweeps ended hi =>
    cases h with
    | listing called query unswept =>
      exact .removing called ⟨_, query, ended⟩ hi (.start unswept)

/-! ## What a pass reports -/

/-- What has become of a container: its name and id in a report, and the error with which it was
not stopped. -/
structure Fared where
  name : String
  id : String
  error : Option Fault

/-- The error of an outcome. -/
def error? : Except Fault α → Option Fault
  | .ok _ => none
  | .error f => some f

/-- What has become of the container of a capability. -/
def Fared.called (c : Capability) (r : Except Fault Unit) : Fared :=
  ⟨c.name, c.containerId, error? r⟩

/-- What has become of a container that was swept. -/
def Fared.swept (id : String) (r : Except Fault Bool) : Fared :=
  ⟨Text.takeFirst 12 id, id, error? r⟩

end StopPass

open StopPass

/-- The report names the containers that were stopped, and the others with their errors, in their
order and each once. -/
structure TeardownReport.Lists (r : TeardownReport) (fared : List Fared) : Prop where
  stopped : r.stopped = (fared.filter fun q => q.error.isNone).map Fared.name
  failures : r.failures = fared.filterMap fun q =>
    q.error.map fun f => ⟨q.name, q.id, f.sanitize⟩

theorem TeardownReport.Lists.append {a b : TeardownReport} {fs gs : List Fared}
    (ha : a.Lists fs) (hb : b.Lists gs) : (a.append b).Lists (fs ++ gs) where
  stopped := by simp [TeardownReport.append, ha.stopped, hb.stopped]
  failures := by simp [TeardownReport.append, ha.failures, hb.failures]

namespace StopPass

theorem reportOne_lists (name id : String) (r : Except Fault Unit) :
    (reportOne name id r).Lists [⟨name, id, error? r⟩] := by
  rcases r with f | ⟨⟩
  · exact ⟨rfl, rfl⟩
  · exact ⟨rfl, rfl⟩

/-- A report that is put together lists what its parts list, one after another. -/
theorem foldl_lists {β : Type} {g : β → TeardownReport} {fared : β → Fared} (xs : List β)
    (each : ∀ x, (g x).Lists [fared x]) {r : TeardownReport} (fs : List Fared) (h : r.Lists fs) :
    (xs.foldl (fun r x => r.append (g x)) r).Lists (fs ++ xs.map fared) := by
  induction xs generalizing r fs with
  | nil => simpa using h
  | cons x xs ih => simpa using ih _ (h.append (each x))

theorem report_lists (cs : List Capability) (rs : List (Except Fault Unit)) :
    (report cs rs).Lists ((cs.zip rs).map fun q => .called q.1 q.2) :=
  foldl_lists (cs.zip rs) (fun q => reportOne_lists q.1.name q.1.containerId q.2) []
    ⟨rfl, rfl⟩

theorem sweptReport_lists (ids : List String) (rs : List (Except Fault Bool)) :
    (sweptReport ids rs).Lists ((ids.zip rs).map fun q => .swept q.1 q.2) := by
  refine foldl_lists (ids.zip rs) (fun q => ?_) [] ⟨rfl, rfl⟩
  have listed := reportOne_lists (Text.takeFirst 12 q.1) q.1 (q.2.map fun _ => ())
  rcases h : q.2 with f | removed
  · rw [h] at listed
    exact listed
  · rw [h] at listed
    exact listed

/-! ## The label query -/

/-- The rule of a label query: the note is all answers to it. -/
def naming (filter : String) : Rule (List (List String)) where
  allows := fun _ c => c.isStop = true ∨ c = .engine (.listLabelled filter)
  note := fun named c r => named ++ (c.found? r).toList

/-- A program comes back with the only answer, or with nothing if there is none. -/
def Names (named : List (List String)) (r : Except Fault (List String)) : Prop :=
  ∀ ids, r = .ok ids → named = [ids] ∨ named = [] ∧ ids = []

theorem labelled_names (session : String) :
    Task.Follows (naming s!"{Provisioner.sessionLabel}={session}") Names
      (labelled session).run [] := by
  have query : Task.Follows (naming s!"{Provisioner.sessionLabel}={session}")
      (fun named (r : Except Fault (List String)) =>
        (∀ ids, r = .ok ids → named = [ids]) ∧ ∀ f, r = .error f → named = [])
      (Client.containersWithLabel Provisioner.sessionLabel session).run [] := by
    refine And.intro (.inl rfl) fun r => ?_
    rcases r with e | ⟨⟩
    · exact ⟨nofun, fun _ _ => rfl⟩
    · refine And.intro (.inr rfl) fun r => ?_
      rcases r with e | ids
      · exact ⟨nofun, fun _ _ => rfl⟩
      · refine ⟨?_, nofun⟩
        intro ids' h
        cases h
        rfl
  refine Work.follows_handle query (fun _ _ h ids he => .inl (h.1 ids he)) ?_ fun _ _ _ _ => nofun
  intro named e h _
  rcases h.2 e rfl with rfl
  refine And.intro (.inl rfl) fun _ ids he => ?_
  cases he
  exact .inr ⟨rfl, rfl⟩

theorem after_naming (filter : String) (es : List Exchange) :
    (naming filter).after [] es = es.filterMap fun e => e.call.found? e.reply := by
  have all (named : List (List String)) : (naming filter).after named es =
      named ++ es.filterMap fun e => e.call.found? e.reply := by
    induction es generalizing named with
    | nil => simp [Rule.after]
    | cons e es ih =>
      rw [Rule.after_cons, ih]
      cases found : e.call.found? e.reply with
      | none => simp [naming, found]
      | some ids => simp [naming, found]
  simpa using all []

/-- An answer to the label query is what the query comes to. -/
theorem Ended.eq_found {session : String} {es : List Exchange} {found ids : List String}
    (h : Ended (labelled session).run es (.ok found)) {e : Exchange} (he : e ∈ es)
    (answer : e.call.found? e.reply = some ids) : ids = found := by
  rcases h with ⟨t, led, outcome⟩
  have follows := (labelled_names session).leads led
  have named : ids ∈ es.filterMap fun e => e.call.found? e.reply :=
    List.mem_filterMap.2 ⟨e, he, answer⟩
  unfold outcome? at outcome
  split at outcome
  · cases outcome
  · cases outcome
    rcases follows found rfl with one | ⟨none, -⟩
    · rw [← after_naming, one] at named
      exact List.mem_singleton.1 named
    · rw [← after_naming, none] at named
      cases named
  · cases outcome

end StopPass

namespace Lifecycle

variable {l l' m n : Lifecycle} {s s' : Stage} {i : Nat} {tr u v : List Moment} {x : Moment}
  {p : Purpose} {pass : StopPass} {mine : StopPass → Nat → Bool}

/-! ## The exchanges of a run -/

/-- The exchange of a program of the pass of a caller, if the program is one of some. -/
def Moment.passExchange? (i : Nat) (mine : StopPass → Nat → Bool) (x : Moment) :
    Option Exchange :=
  match x.action, x.stage?, x.call? with
  | .caller j (.go k), some (.stopping _ pass), some c =>
    if j = i ∧ mine pass k = true then (x.before.world.perform c).map fun r => ⟨c, r.1⟩ else none
  | _, _, _ => none

/-- What some programs of the pass of a caller have exchanged. -/
def exchanges (i : Nat) (tr : List Moment) (mine : StopPass → Nat → Bool) : List Exchange :=
  tr.filterMap (Moment.passExchange? i mine)

theorem exchanges_append (tr : List Moment) (x : Moment) :
    exchanges i (tr ++ [x]) mine = exchanges i tr mine ++ (x.passExchange? i mine).toList := by
  cases h : x.passExchange? i mine <;> simp [exchanges, h]

/-- Only the caller of a pass moves its programs. -/
theorem Moment.passExchange?_of_other (other : ∀ mv, x.action ≠ .caller i mv) :
    x.passExchange? i mine = none := by
  unfold passExchange?
  split
  · rename_i j k q pass c ha hs hc
    rw [if_neg]
    rintro ⟨rfl, -⟩
    exact other _ ha
  · rfl

theorem Moment.passExchange?_of_stage {mv : Move} (ha : x.action = .caller i mv)
    (hs : x.before.callers[i]? = some s) (calm : ∀ p pass, s ≠ .stopping p pass) :
    x.passExchange? i mine = none := by
  unfold passExchange?
  split
  · rename_i j k q pass c ha' hs' hc
    rw [Moment.stage?_caller ha, hs] at hs'
    cases hs'
    exact absurd rfl (calm q pass)
  · rfl

theorem Moment.passExchange?_of_call {k : Nat} {c : Call} {r : c.Reply} {w : World}
    (ha : x.action = .caller i (.go k)) (hs : x.before.callers[i]? = some (.stopping p pass))
    (hc : pass.call? k = some c) (reply : x.before.world.perform c = some (r, w)) :
    (x.passExchange? i mine).toList = if mine pass k then [⟨c, r⟩] else [] := by
  have stage : x.stage? = some (.stopping p pass) := (Moment.stage?_caller ha).trans hs
  have call : x.call? = some c := by
    simpa [Moment.call?, Lifecycle.call?, ha, hs, Stage.call?] using hc
  unfold passExchange?
  rw [ha, stage, call]
  cases taken : mine pass k with
  | true => simp [reply, taken]
  | false => simp [taken]

theorem Moment.passExchange?_of_idle {k : Nat} (ha : x.action = .caller i (.go k))
    (hs : x.before.callers[i]? = some (.stopping p pass)) (idle : pass.call? k = none) :
    x.passExchange? i mine = none := by
  have call : x.call? = none := by
    simpa [Moment.call?, Lifecycle.call?, ha, hs, Stage.call?] using idle
  unfold passExchange?
  split
  · rename_i hc
    cases call.symm.trans hc
  · rfl

/-! ## Every run -/

/-- The stop pass of the caller is over, or the caller has been answered. -/
def passOver : Stage → Bool
  | .clearing .. | .closing .. | .releasing .. | .disconnecting .. | .announcing ..
  | .answering .. | .finished _ => true
  | .halting _ next => next.isLate
  | _ => false

/-- What the programs of the pass of a caller have exchanged fits its stage. -/
def Traced (i : Nat) (tr : List Moment) : Option Stage → Prop
  | some (.stopping _ pass) => pass.Came (exchanges i tr)
  | some s => passOver s = true ∨ ∀ mine, exchanges i tr mine = []
  | none => ∀ mine, exchanges i tr mine = []

theorem traced_iff (out : ∀ p pass, s ≠ .stopping p pass) :
    Traced i tr (some s) ↔ passOver s = true ∨ ∀ mine, exchanges i tr mine = [] := by
  cases s with
  | stopping p pass => exact absurd rfl (out p pass)
  | _ => exact Iff.rfl

/-- A pass that is over stays over. -/
theorem Turn.passOver {mv : Move} (turn : Turn l s mv s' n) (h : Lifecycle.passOver s = true) :
    Lifecycle.passOver s' = true := by
  cases turn <;> first | rfl | exact h

/-- A caller only comes to a pass by starting it. -/
theorem Turn.of_stopping {mv : Move} (turn : Turn l s mv (.stopping p pass) n)
    (out : ∀ p pass, s ≠ .stopping p pass) :
    ∃ cs sweep, pass = .start cs sweep ∧ Lifecycle.passOver s = false := by
  cases turn
  case confirm => exact ⟨_, _, rfl, rfl⟩
  case confirmAnew => exact ⟨_, _, rfl, rfl⟩
  case passGoes => exact absurd rfl (out _ _)
  case passSteps => exact absurd rfl (out _ _)

theorem Traced.congr (h : Traced i u (some s))
    (same : exchanges i v = exchanges i u) : Traced i v (some s) := by
  cases s with
  | stopping p pass =>
    have came : pass.Came (exchanges i v) := same ▸ h
    exact came
  | _ => exact h.imp_right fun none mine => (congrFun same mine).trans (none mine)

theorem exchanges_of_silent (silent : ∀ mine, x.passExchange? i mine = none) :
    exchanges i (tr ++ [x]) = exchanges i tr := by
  funext mine
  simp [exchanges_append, silent mine]

/-- A caller is traced through whatever turn it makes. -/
theorem Traced.turn {mv : Move} (h : Traced i tr (some s)) (ha : x.action = .caller i mv)
    (hs : x.before.callers[i]? = some s) (turn : Turn x.before s mv s' n) :
    Traced i (tr ++ [x]) (some s') := by
  by_cases inside : ∃ p pass, s = .stopping p pass
  · rcases inside with ⟨p, pass, rfl⟩
    cases turn with
    | passGoes p k ht =>
      have idle := StopPass.turn?_call? ht k
      have came : StopPass.Came (exchanges i tr) _ := StopPass.Came.turn h ht
      rw [← exchanges_of_silent fun mine => Moment.passExchange?_of_idle ha hs idle] at came
      exact came
    | passSteps p k idle ht =>
      rcases StopPass.Came.step h ht with ⟨c, r, hc, reply, further⟩
      refine further _ fun mine => ?_
      rw [exchanges_append, Moment.passExchange?_of_call ha hs hc reply]
    | passEnds => exact .inl rfl
    | passExpired => exact .inl rfl
  · -- Outside of a pass no program of one moves.
    have out (p : Purpose) (pass : StopPass) : s ≠ .stopping p pass :=
      fun he => inside ⟨p, pass, he⟩
    have same : exchanges i (tr ++ [x]) = exchanges i tr :=
      exchanges_of_silent fun _ => Moment.passExchange?_of_stage ha hs out
    have known := (traced_iff out).1 h
    by_cases enters : ∃ p pass, s' = .stopping p pass
    · rcases enters with ⟨p, pass, rfl⟩
      rcases turn.of_stopping out with ⟨cs, sweep, rfl, early⟩
      refine StopPass.came_start fun mine => ?_
      rw [same]
      exact (known.resolve_left (by simp [early])) mine
    · refine (traced_iff fun p pass he => enters ⟨p, pass, he⟩).2 ?_
      rw [same]
      exact known.imp_left turn.passOver

/-- What the programs of its pass have exchanged is known of every caller of a run. -/
theorem Run.traced (fresh : l.Fresh) (run : Run l tr l') (i : Nat) :
    Traced i tr l'.callers[i]? := by
  -- Of what happens between two turns of the caller, nothing is an exchange of its programs.
  induction run with
  | refl =>
    rw [fresh.callers]
    exact fun _ => rfl
  | @tail tr m n a run h ih =>
    have change := change_of_act? h
    cases hs : m.callers[i]? with
    | some s =>
      rw [hs] at ih
      rcases change.goes hs with ⟨other, hn⟩ | ⟨mv, s', n', ha, turn, -, hn⟩
      · rw [hn]
        exact ih.congr (exchanges_of_silent fun mine => Moment.passExchange?_of_other other)
      · rw [hn]
        exact ih.turn (x := ⟨m, a, n⟩) ha hs turn
    | none =>
      rw [hs] at ih
      have other (mv : Move) : a ≠ .caller i mv := by
        rintro rfl
        cases change with
        | caller i hi turn => cases hs.symm.trans hi
      have none (mine) : exchanges i (tr ++ [⟨m, a, n⟩]) mine = [] := by
        rw [exchanges_of_silent fun mine => Moment.passExchange?_of_other other]
        exact ih mine
      cases hn : n.callers[i]? with
      | none => exact none
      | some s' =>
        rcases change.callers hn with hm | ⟨d, -, rfl⟩ | ⟨mv, s, n', ha, -⟩
        · cases hs.symm.trans hm
        · exact .inr none
        · exact absurd ha (other mv)

/-! ## Reports on passes that come to their end -/

/-- What a caller is told on a stop pass that has come to its end, given what each of its programs
has ended with. -/
structure Confirms (l : Lifecycle) (i : Nat) (u : List Moment) (x : Moment) (p : Purpose)
    (pass : StopPass) (outcomes : List (Except Fault Unit))
    (swept : List (String × Except Fault Bool)) (r : TeardownReport) : Prop where
  /-- The caller leaves the pass with the report. -/
  reached : x.reached? = some (.clearing p (.ok r))
  /-- The pass has the capabilities that were drained. -/
  drained : HandedOver u pass.capabilities
  /-- Each of them has an outcome, which its own program has ended with. -/
  calls : StopPass.Results (pass.capabilities.map fun c => (StopPass.stopOne c).run)
    (fun k => exchanges i u (StopPass.stops k)) outcomes
  /-- A pass that does not sweep removes nothing else. -/
  unswept : pass.sweep = none → swept = []
  /-- A sweep removes what its label query was answered and what no capability stands for. -/
  listed : ∀ session, pass.sweep = some session → ∃ found,
    StopPass.Ended (StopPass.labelled session).run (exchanges i u StopPass.lists) (.ok found) ∧
    (∀ e ∈ exchanges i u StopPass.lists, ∀ ids, e.call.found? e.reply = some ids → ids = found) ∧
      swept.map Prod.fst =
        found.filter fun id => !(pass.capabilities.map Capability.containerId).contains id
  /-- Each of these removals has an outcome, which its own program has ended with. -/
  removals : StopPass.Results ((swept.map Prod.fst).map fun id => (Client.removeContainer id).run)
    (fun k => exchanges i u (StopPass.removes k)) (swept.map Prod.snd)
  /-- The report lists the capabilities and then what was swept. -/
  lists : r.Lists ((pass.capabilities.zip outcomes).map (fun q => .called q.1 q.2) ++
    swept.map fun q => .swept q.1 q.2)
  /-- The caller is answered with the report. -/
  answer : ∀ a, l.callers[i]? = some (.finished a) → a = p.answer (.ok r)

/-- Whatever its programs have ended with, and in whatever order. -/
theorem pass_is_confirmed {k : Nat} {r : TeardownReport} {w : World} (fresh : l.Fresh)
    (run : Run l (u ++ x :: v) l') (goes : x.action = .caller i (.go k))
    (hs : x.before.callers[i]? = some (.stopping p pass))
    (ends : pass.turn? x.before.world = some (.ended (.ok r), w)) :
    ∃ outcomes swept, Confirms l' i u x p pass outcomes swept r := by
  rcases run.at_moment with ⟨front, act, -⟩
  rcases front.passKnown fresh hs with ⟨handed, -⟩
  have came : pass.Came (exchanges i u) := by
    have traced := front.traced fresh i
    rw [hs] at traced
    exact traced
  have reached : x.reached? = some (.clearing p (.ok r)) := by
    rcases x.turn act ((Moment.stage?_caller goes).trans hs) with
      ⟨j, m, s', n, ha, -, turn, -, hr⟩
    cases goes.symm.trans ha
    cases turn with
    | passGoes _ _ ht => cases ends.symm.trans ht
    | passEnds _ _ ht =>
      cases ends.symm.trans ht
      exact hr
    | passSteps _ _ idle _ => cases ends.symm.trans idle
  have answer (a) (finished : l'.callers[i]? = some (.finished a)) : a = p.answer (.ok r) :=
    run.answered fresh goes reached finished
  -- A pass ends behind its stop actions if nothing is swept, else behind the removals.
  cases StopPass.turns_of_turn? ends with
  | @reports cs ts rs ended =>
    cases came with
    | stopping calls unlisted unswept =>
      refine ⟨rs, [], reached, handed, calls.results ended, fun _ => rfl, nofun, ⟨rfl, nofun⟩, ?_,
        answer⟩
      simpa using StopPass.report_lists cs rs
  | @sums cs sweep rs ids ts removed log ended =>
    cases came with
    | @removing _ session _ found _ _ called listed hi removals =>
      have results := removals.results ended
      have length : ids.length = removed.length := by
        simpa using results.length
      refine ⟨rs, ids.zip removed, reached, handed, called, nofun, ?_, ?_, ?_, answer⟩
      · rintro _ ⟨⟩
        refine ⟨found, listed, fun e he ids answer => listed.eq_found he answer, ?_⟩
        rw [List.map_fst_zip length.le]
        exact hi
      · rw [List.map_fst_zip length.le, List.map_snd_zip length.ge]
        exact results
      · exact (StopPass.report_lists cs rs).append (StopPass.sweptReport_lists ids removed)

/-! ## Two capabilities and two containers that nobody recorded -/

/-- A plan that hands over a container that stops and one that does not, and then fails. -/
def Plan.mixed : Plan where
  init := fun _ => .done (.ok ⟨[
    ⟨.postgres, "db", "c1", "postgres://db", some ⟨0, "db", "c1", some .postgres, .succeed⟩⟩,
    ⟨.keycloak, "sso", "c2", "http://sso",
      some ⟨1, "sso", "c2", some .keycloak, .fail (.of .os "busy")⟩⟩], .settings {}⟩)
  after := some fun _ => throw (.of .value "late")

/-- An environment with three containers of its session, one of which is handed over. -/
def messy : Lifecycle :=
  create { engine := { containers := ["c2", "c8", "c9"].map fun id =>
    ⟨id, id, "running", [(Provisioner.sessionLabel, World.identifier 1)], none, []⟩ } } {} false

/-- A setup that fails, whose stop actions take turns and whose last container is swept first. -/
def mixedCleanup : List Action :=
  .enter (.setup Plan.mixed) :: List.replicate 9 (.caller 0 (.go 0)) ++
    [1, 0, 1, 0, 1, 0].map (fun k => .caller 0 (.go k)) ++ List.replicate 4 (.caller 0 (.go 0)) ++
      List.replicate 4 (.caller 0 (.go 1)) ++ List.replicate 5 (.caller 0 (.go 0))

/-- The report with which the first caller leaves its stop pass. -/
def Moment.confirmed? (x : Moment) : Option TeardownReport :=
  match x.action, x.stage? with
  | .caller 0 (.go _), some (.stopping _ pass) =>
    match pass.turn? x.before.world with
    | some (.ended (.ok r), _) => some r
    | _ => none
  | _, _ => none

theorem messy_fresh : messy.Fresh := fresh_create rfl rfl _ false 0

theorem mixed_cleanup_is_confirmed :
    messy.Fresh ∧ ∃ u x v l' p pass k r w outcomes swept, Run messy (u ++ x :: v) l' ∧
      x.action = .caller 0 (.go k) ∧ x.before.callers[0]? = some (.stopping p pass) ∧
        pass.turn? x.before.world = some (.ended (.ok r), w) ∧
          Confirms l' 0 u x p pass outcomes swept r ∧
            r.stopped = ["db", "c8", "c9"] ∧ r.failures = [⟨"sso", "c2", "busy"⟩] := by
  have facts : ((Run.replay? messy mixedCleanup).bind fun r => r.1[28]?.bind Moment.confirmed?) =
      some ⟨["db", "c8", "c9"], [⟨"sso", "c2", "busy"⟩]⟩ := by
    decide +kernel
  rcases Option.bind_eq_some_iff.1 facts with ⟨⟨tr, l'⟩, hr, found⟩
  rcases Option.bind_eq_some_iff.1 found with ⟨x, hx, confirmed⟩
  have run : Run messy tr l' := Run.of_replay? hr
  rcases List.append_of_mem (List.mem_of_getElem? hx) with ⟨u, v, rfl⟩
  unfold Moment.confirmed? at confirmed
  split at confirmed
  · rename_i k p pass goes hs
    split at confirmed
    · rename_i r w ends
      cases confirmed
      have before := (Moment.stage?_caller goes).symm.trans hs
      rcases pass_is_confirmed messy_fresh run goes before ends with ⟨outcomes, swept, confirms⟩
      exact ⟨messy_fresh, u, x, v, l', p, pass, k, _, w, outcomes, swept, run, goes, before, ends,
        confirms, rfl, rfl⟩
    · cases confirmed
  · cases confirmed

end Lifecycle
end Testbed
