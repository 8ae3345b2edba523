import Testbed.Proofs.Passage

/-!
# Waiting for a service

A probe answers what the service has answered last, and waiting ends when that is yes, when the
waiting is cancelled, or, with neither, when the time is up.  Nothing is said of when the time is
up, and errors of the engine do not matter any more.
-/

namespace Testbed
namespace Passage

/-- The service has answered yes. -/
def Answered (a : Passage) : Prop := a.answer = some (.ok true)

/-- The service has answered by cancelling who waits for it. -/
def Cut (a : Passage) : Prop := ∃ f, a.answer = some (.error f) ∧ f.isCancelled = true

/-- There is still something to wait for. -/
def Pending (a : Passage) : Prop := ¬ a.Answered ∧ ¬ a.Cut

/-- Since a moment the service has been waited for. -/
def Waits (a₀ a : Passage) : Prop :=
  ∃ isOpen asked answer,
    a = { a₀ with part := .waiting, isOpen := isOpen, asked := asked, answer := answer }

/-- How an attempt ended is what the service has answered. -/
def Bears (a : Passage) : Except Fault Bool → Prop
  | .ok true => a.Answered
  | .ok false => a.Pending
  | .error f => if f.isCancelled then a.Cut else a.Pending

variable {a₀ a : Passage} {f : Fault}

theorem Answered.not_cut (h : a.Answered) : ¬ a.Cut := by
  rintro ⟨f, hf, -⟩
  cases h.symm.trans hf

theorem Waits.asked (h : Waits a₀ a) (asked : Except Fault Json) :
    Waits a₀ { a with asked := asked } := by
  rcases h with ⟨isOpen, _, answer, rfl⟩
  exact ⟨isOpen, asked, answer, rfl⟩

theorem Waits.answer (h : Waits a₀ a) (answer : Option (Except Fault Bool)) :
    Waits a₀ { a with answer := answer } := by
  rcases h with ⟨isOpen, asked, _, rfl⟩
  exact ⟨isOpen, asked, answer, rfl⟩

theorem Waits.opened (h : Waits a₀ a) : Waits a₀ a.opened := by
  rcases h with ⟨_, asked, answer, rfl⟩
  exact ⟨true, asked, answer, rfl⟩

theorem Waits.part_eq (h : Waits a₀ a) : a.part = .waiting := by
  rcases h with ⟨_, _, _, rfl⟩
  rfl

theorem Waits.fail_eq (h : Waits a₀ a) (f : Fault) : a.fail f = a :=
  if_pos h.part_eq

theorem bears_answer (a : Passage) (r : Except Fault Bool) :
    { a with answer := some r }.Bears r := by
  rcases r with f | _ | _
  · simp only [Bears]
    split
    · exact ⟨f, rfl, ‹_›⟩
    · refine ⟨nofun, ?_⟩
      rintro ⟨g, hg, cancelled⟩
      cases hg
      contradiction
  · exact ⟨nofun, nofun⟩
  · exact rfl

theorem Bears.pending (h : a.Bears (.error f)) (calm : f.isCancelled = false) : a.Pending := by
  simpa [Bears, calm] using h

theorem Bears.cut (h : a.Bears (.error f)) (cancelled : f.isCancelled = true) : a.Cut := by
  simpa [Bears, cancelled] using h

theorem Pending.bears_error (h : a.Pending) (calm : f.isCancelled = false) :
    a.Bears (.error f) := by
  simpa [Bears, calm] using h

/-- A probe ends as the service has answered. -/
def Tells (service : Service) (files : Files) (probe : Work Bool) : Prop :=
  ∀ a₀ a, Waits a₀ a → a.Pending →
    probe.Ensures (reliance service files) (fun a' ready => Waits a₀ a' ∧ a'.Bears (.ok ready))
      (fun a' f => Waits a₀ a' ∧ a'.Bears (.error f)) a

end Passage

namespace Readiness

open Passage Work

variable {service : Service} {files : Files}

/-! ## Probes -/

/-- Families of errors that leave out cancelling hold no error that cancels. -/
theorem isCancelled_of_isA {f : Fault} {family : Fault.Kind → Bool} (h : f.isA family = true)
    (other : family .cancelled = false) : f.isCancelled = false := by
  unfold Fault.isCancelled Fault.isA at *
  cases kind : f.kind? with
  | none => rfl
  | some k =>
    rw [kind] at h
    refine beq_eq_false_iff_ne.2 ?_
    rintro rfl
    exact Bool.false_ne_true (other.symm.trans h)

variable {a₀ a : Passage}

/-- The answer of a query counts once the connection is closed, unless closing it fails. -/
theorem disconnect_ensures (c : Connection) {r : Except Fault Bool} (waits : Waits a₀ a)
    (asked : a.asked.map (fun value => Json.same value (.int 1)) = r) :
    Work.Ensures (reliance service files) (fun a' _ => Waits a₀ a' ∧ a'.Bears r)
      (fun a' f => Waits a₀ a' ∧ a'.Bears (.error f))
      (ExceptT.mk (Program.perform (Call.disconnect c)) : Work Unit) a := by
  rintro (f | _) -
  · exact ⟨waits.answer _, bears_answer a (.error f)⟩
  · refine ⟨waits.answer _, ?_⟩
    rw [← asked]
    exact bears_answer a _

theorem databaseAccepts_tells (dsn : String) : Tells service files (databaseAccepts dsn) := by
  intro a₀ a waits pending
  -- A connection that is refused is an answer; one that is made has not answered yet.
  refine Ensures.bind (Q := fun a' connection =>
    Waits a₀ a' ∧ (connection = none → a'.Pending)) ?_ ?_
  · refine Ensures.handle (E := fun a' f => Waits a₀ a' ∧ a'.Bears (.error f)) ?_ ?_ ?_
    · rintro (f | connection) -
      · exact ⟨waits.answer _, bears_answer a (.error f)⟩
      · exact ⟨waits, nofun⟩
    · rintro a₁ f ⟨waits, bears⟩ refused
      have pending := bears.pending (isCancelled_of_isA refused rfl)
      refine Ensures.bind (Q := fun a' _ => a' = a₁) (ensures_mapError (fun _ _ => rfl) ?_) ?_
      · intro problem _
        exact ⟨waits, pending.bears_error rfl⟩
      · rintro a₂ shown rfl
        refine log_then ?_
        exact ⟨waits, fun _ => pending⟩
    · rintro a₁ f ⟨waits, bears⟩ -
      exact ⟨waits, bears⟩
  · rintro a₁ (_ | connection) ⟨waits, unanswered⟩
    · exact ⟨waits, unanswered rfl⟩
    refine Ensures.andFinally
      (Q := fun a' ready => Waits a₀ a' ∧ a'.asked.map (fun v => Json.same v (.int 1)) = .ok ready)
      (E := fun a' f => Waits a₀ a' ∧ a'.asked = .error f) ?_ ?_ ?_
    · rintro (f | value) -
      · exact ⟨waits.asked _, rfl⟩
      · exact ⟨waits.asked _, rfl⟩
    · rintro a₂ ready ⟨waits, asked⟩
      exact disconnect_ensures connection waits asked
    · rintro a₂ f ⟨waits, asked⟩
      exact disconnect_ensures connection waits (by rw [asked]; rfl)

theorem pageAnswers_tells (url : String) : Tells service files (pageAnswers url) := by
  intro a₀ a waits pending
  refine Ensures.handle (E := fun a' f => Waits a₀ a' ∧ a'.Bears (.error f)) ?_ ?_ ?_
  · -- An address that cannot be requested is no answer of the service.
    refine Ensures.bind (Q := fun a' _ => a' = a) (ensures_mapError (fun _ _ => rfl) ?_) ?_
    · intro problem _
      exact ⟨waits, pending.bears_error rfl⟩
    · rintro a₁ target rfl
      refine Ensures.bind (Q := fun a' (page : Response) =>
        Waits a₀ a' ∧ a'.Bears (.ok (page.status == 200))) ?_ fun _ _ h => h
      rintro (f | page) -
      · exact ⟨waits.answer _, bears_answer a₁ (.error f)⟩
      · exact ⟨waits.answer _, bears_answer a₁ (.ok (page.status == 200))⟩
  · rintro a₁ f ⟨waits, bears⟩ http
    refine log_then ?_
    exact ⟨waits, bears.pending (isCancelled_of_isA http rfl)⟩
  · rintro a₁ f ⟨waits, bears⟩ -
    exact ⟨waits, bears⟩

/-! ## Polling -/

/-- How polling came out is what the service has answered. -/
def Polled (a : Passage) : Outcome → Prop
  | .ready _ => a.Answered
  | .timedOut .. => a.Pending

theorem attempt_ensures {probe : Work Bool} (tells : Tells service files probe)
    (calls : probe.Gives Call.Probes fun _ => True) (bound : Float) (waits : Waits a₀ a)
    (pending : a.Pending) :
    (within bound probe).Ensures (reliance service files)
      (fun a' found => Waits a₀ a' ∧
        match found with
        | .ok true => a'.Answered
        | _ => a'.Pending)
      (fun a' f => Waits a₀ a' ∧ f.isCancelled = true ∧ a'.Cut) a := by
  have brief : probe.Gives (fun c => c.takesTime = false) fun _ => True :=
    calls.weaken fun c hc => by cases c <;> first | rfl | cases hc
  refine (within_ensures (tells a₀ a waits pending) brief (fun _ => rfl) bound).mono ?_ ?_
  · rintro a' (f | _ | _) fits
    · exact ⟨fits.1.1, fits.1.2.pending fits.2⟩
    · exact fits
    · exact fits
  · rintro a' f ⟨⟨waits, bears⟩, cancelled⟩
    exact ⟨waits, cancelled, bears.cut cancelled⟩

theorem remaining_ensures {probe : Work Bool} {t : Timescale Float} {p : Plan Float}
    {start : Float} {E : Passage → Fault → Prop} :
    Work.Ensures (reliance service files) (fun a' _ => a' = a) E
      (remaining t (surroundings probe) p start) a := by
  intro (now : Float) _
  exact rfl

/-- Polling ends with the first attempt that answers yes, or when it is cancelled; else nothing
has been answered when the time is up. -/
theorem loop_ensures {probe : Work Bool} (tells : Tells service files probe)
    (calls : probe.Gives Call.Probes fun _ => True) {t : Timescale Float} {p : Plan Float}
    {start : Float} (fuel done : Nat) (delay : Float) (last : Option Fault) (waits : Waits a₀ a)
    (pending : a.Pending) :
    Work.Ensures (reliance service files)
      (fun a' outcome => Waits a₀ a' ∧ Polled a' outcome)
      (fun a' f => Waits a₀ a' ∧ f.isCancelled = true ∧ a'.Cut)
      (loop t (surroundings probe) p start fuel done delay last) a := by
  induction fuel generalizing done delay last a with
  | zero => exact ⟨waits, pending⟩
  | succ fuel ih =>
    -- What follows an attempt that has not succeeded.
    have pausing (last : Option Fault) {a : Passage} (waits : Waits a₀ a) (pending : a.Pending) :
        Work.Ensures (reliance service files)
          (fun a' outcome => Waits a₀ a' ∧ Polled a' outcome)
          (fun a' f => Waits a₀ a' ∧ f.isCancelled = true ∧ a'.Cut)
          (retry t (surroundings probe) p start fuel done delay last) a := by
      refine Ensures.bind remaining_ensures ?_
      rintro a₁ rest rfl
      refine ensures_ite (fun _ => ?_) fun _ => ⟨waits, pending⟩
      refine ask_then (fun _ => rfl) fun draw => ?_
      refine Ensures.bind (Q := fun a' _ => a' = a₁) ?_ ?_
      · rintro _ rfl
        exact rfl
      · rintro a₂ - rfl
        exact ih _ _ _ waits pending
    refine Ensures.bind remaining_ensures ?_
    rintro a₁ bound rfl
    refine Ensures.bind (attempt_ensures tells calls _ waits pending) ?_
    rintro a₂ (f | _ | _) ⟨waits, told⟩
    · refine ensures_ite (fun _ => ?_) fun _ => pausing (some f) waits told
      refine log_then ?_
      exact pausing (some f) waits told
    · exact pausing last waits told
    · refine ensures_ite (fun _ => ?_) fun _ => ⟨waits, told⟩
      refine log_then ?_
      exact ⟨waits, told⟩

/-- Waiting for a service ends with its answer, or reports that the time is up. -/
theorem await_ensures {probe : Work Bool} (tells : Tells service files probe)
    (calls : probe.Gives Call.Probes fun _ => True) (timeout : Seconds) (description : String)
    (name : Option String) (initialDelay maxDelay : Option Float) (pending : a.Pending) :
    (await probe timeout description name initialDelay maxDelay).Ensures (reliance service files)
      (fun a' _ => Waits a a' ∧ a'.Answered)
      (fun a' f => Waits a a' ∧ (f.isCancelled = true ∧ a'.Cut ∨
        a'.Pending ∧ ∃ n last, f = .environment (notReady description timeout name n last))) a := by
  rintro (f | settings) ⟨settings', valid⟩
  · cases valid
  have waits : Waits a { a with part := .waiting } := ⟨a.isOpen, a.asked, a.answer, rfl⟩
  refine Ensures.bind (Q := fun a' outcome => Waits a a' ∧ Polled a' outcome) ?_ ?_
  · refine ask_then (fun _ => rfl) fun start => ?_
    refine (loop_ensures tells calls _ _ _ _ waits pending).mono (fun _ _ h => h) ?_
    rintro a₂ f ⟨waits, cut⟩
    exact ⟨waits, .inl cut⟩
  · rintro a₁ (n | ⟨n, last⟩) ⟨waits, told⟩
    · exact ⟨waits, told⟩
    · exact ⟨waits, .inr ⟨told, n, last, rfl⟩⟩

end Readiness

namespace Provisioner

open Passage Work

variable {service : Service} {files : Files} {a₀ a : Passage}

/-- A look-up of the status changes nothing of what is waited for, even if the engine fails. -/
theorem containerStatus_ensures (waits : Waits a₀ a) (id : String) {E : Passage → Fault → Prop} :
    (Client.containerStatus id).Ensures (reliance service files)
      (fun a' _ => Waits a₀ a' ∧ a'.answer = a.answer) E a := by
  -- Nothing that is looked up tells anything of the service, and errors of the engine are handled.
  refine Ensures.handle (E := fun a' f => (Waits a₀ a' ∧ a'.answer = a.answer) ∧
    Client.isEngineFault f = true) ?_ ?_ ?_
  · refine Ensures.bind (Q := fun a' _ => Waits a₀ a' ∧ a'.answer = a.answer) ?_ ?_
    · rintro (f | _) granted
      · have same : (reliance service files).note a (.openClient false) (.error f) = a :=
          waits.fail_eq f
        rw [same]
        exact ⟨⟨waits, rfl⟩, granted f rfl⟩
      · exact ⟨waits.opened, rfl⟩
    · rintro a₁ - ⟨waits, same⟩
      refine Ensures.bind (Q := fun a' _ => a' = a₁) (ensures_engine ?_ ?_) ?_
      · intro found _
        exact find_eq (by simp [waits.part_eq]) id found
      · intro f granted
        have unchanged : (reliance service files).note a₁ (.engine (.find id)) (.error f) = a₁ :=
          waits.fail_eq f
        rw [unchanged]
        exact ⟨⟨waits, same⟩, granted.1 f rfl⟩
      · rintro a₂ found rfl
        exact ⟨waits, same⟩
  · rintro a₁ f ⟨kept, -⟩ -
    refine ensures_ite (fun _ => ?_) fun _ => ?_
    · refine log_then ?_
      exact kept
    · refine log_then ?_
      exact kept
  · rintro a₁ f ⟨-, engine⟩ other
    cases engine.symm.trans other

theorem timedOut?_of_isCancelled {f : Fault} (h : f.isCancelled = true) : timedOut? f = none := by
  cases f with
  | environment e => cases h
  | _ => rfl

/-- A service that has not answered in time is reported with the status of its container. -/
theorem waitReady_ensures {probe : Work Bool} (tells : Tells service files probe)
    (calls : probe.Gives Call.Probes fun _ => True) (c : Capability) (timeout : Seconds)
    (description : String) (pending : a.Pending) :
    (waitReady service c probe timeout description).Ensures (reliance service files)
      (fun a' _ => Waits a a' ∧ a'.Answered)
      (fun a' f => Waits a a' ∧ (f.isCancelled = true ∧ a'.Cut ∨
        a'.Pending ∧ f.provision? = some (.timeout, some service.word))) a := by
  have awaited := Readiness.await_ensures tells calls timeout description service.word none none
    pending
  refine Ensures.bind (awaited.tryCatch ?_) fun _ _ h => h
  rintro a₁ f ⟨waits, ⟨cancelled, cut⟩ | ⟨pending, n, last, rfl⟩⟩
  · rw [timedOut?_of_isCancelled cancelled]
    exact ⟨waits, .inl ⟨cancelled, cut⟩⟩
  · refine Ensures.bind (containerStatus_ensures waits c.containerId) ?_
    rintro a₂ status ⟨waits, same⟩
    refine log_then ?_
    refine ⟨waits, .inr ⟨?_, rfl⟩⟩
    simpa only [Pending, Answered, Cut, same] using pending

end Provisioner
end Testbed
