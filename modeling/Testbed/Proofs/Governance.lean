import Testbed.Proofs.OrderlyStart
import Testbed.Proofs.TwoRuns

/-!
# The settings that govern a start

A provisioner has settings of its own, and all of a start but the waiting goes by them.  Waiting
takes its two delays from the settings of the process.  A start is the same in two processes that
are configured otherwise if it does not come to waiting, if the delays agree, or if both have
delays and none is used.
-/

namespace Testbed

/-! ## A process that is configured otherwise -/

namespace World

variable {α : Type} (w : World) (process : Except Fault Settings)

/-- The world of a process that is configured otherwise. -/
def under : World := { w with process := process }

theorem viaWorkers_under {act : World → Except Fault α × World}
    (h : act (w.under process) = ((act w).1, (act w).2.under process)) :
    (w.under process).viaWorkers act =
      ((w.viaWorkers act).1, (w.viaWorkers act).2.under process) := by
  have workers : (w.under process).workersOpen = w.workersOpen := rfl
  unfold viaWorkers
  rw [workers]
  split
  · exact h
  · rfl

theorem openClient_under :
    (w.under process).openClient = (w.openClient.1, w.openClient.2.under process) := by
  have isOpen : (w.under process).clientOpen = w.clientOpen := rfl
  have connected : (w.under process).engine.connect ((w.under process).host.filter _) =
    w.engine.connect (w.host.filter fun h => !h.isEmpty) := rfl
  unfold openClient
  rw [isOpen]
  split
  · rfl
  · simp only [connected]
    split <;> rfl

theorem closeRuntime_under :
    (w.under process).closeRuntime = w.closeRuntime.under process := by
  have workers : (w.under process).workersOpen = w.workersOpen := rfl
  unfold closeRuntime
  rw [workers]
  split <;> rfl

/-- Only the reading of its settings depends on how the process is configured. -/
theorem perform_under {c : Call} (h : c ≠ .processSettings) :
    (w.under process).perform c = (w.perform c).map fun x => (x.1, x.2.under process) := by
  have workers : (w.under process).workersOpen = w.workersOpen := rfl
  have gate : (w.under process).gateOpen = w.gateOpen := rfl
  have registry : (w.under process).registry = w.registry := rfl
  have used : (w.under process).used = w.used := rfl
  cases c with
  | processSettings => exact absurd rfl h
  | openClient inWorker =>
    cases inWorker with
    | true => exact congrArg some (viaWorkers_under _ _ (openClient_under _ _))
    | false => exact congrArg some (openClient_under _ _)
  | engine r => exact congrArg some (viaWorkers_under _ _ rfl)
  | readFile p => exact congrArg some (viaWorkers_under _ _ rfl)
  | shutdownRuntime =>
    exact congrArg (fun w => some ((), w)) (closeRuntime_under _ _)
  | pause t | waitUntil t | hang | waitForGate | store key value | claim c =>
    -- Each of these calls tests a field first, and none of the fields is the settings.
    simp only [perform, workers, gate, registry, used]
    repeat' split
    all_goals rfl
  | _ => rfl

theorem process_of_perform {w w' : World} {c : Call} {r : c.Reply}
    (h : w.perform c = some (r, w')) : w'.process = w.process := by
  cases effect_of_perform h with
  | shutdown =>
    obtain ⟨_, _, _, same⟩ := closeRuntime_eq w
    rw [same]
  | _ => rfl

end World

/-- Two runs in processes that are configured otherwise. -/
def Likeness.reconfigured (process : Except Fault Settings)
    (known : Except Fault Settings → Prop) (covers : Call → Prop) : Likeness where
  worlds w w' := w' = w.under process ∧ known w.process
  calls := Eq
  covers := covers
  clock := by
    rintro w _ ⟨rfl, -⟩
    rfl

section

variable {process : Except Fault Settings} {known : Except Fault Settings → Prop}
  {covers : Call → Prop}

theorem Likeness.reconfigured_keeps {c : Call} (h : covers c → c ≠ .processSettings) :
    (reconfigured process known covers).Keeps c c Eq where
  calls := rfl
  answers := by
    rintro w _ w₁ r ⟨rfl, holds⟩ covered reply
    refine ⟨r, w₁.under process, ?_, ⟨rfl, ?_⟩, rfl⟩
    · rw [World.perform_under _ _ (h covered), reply]
      rfl
    · rwa [World.process_of_perform reply]

theorem Likeness.reconfigured_prepares {c : Call} (h : c.Prepares) :
    (reconfigured process known covers).Keeps c c Eq :=
  reconfigured_keeps fun _ => h.ne_processSettings

/-- The settings of the process are read in both runs. -/
theorem Likeness.reconfigured_settings :
    (reconfigured process known covers).Keeps .processSettings .processSettings
      fun r r' => known r ∧ r' = process where
  calls := rfl
  answers := by
    rintro w _ w₁ r ⟨rfl, holds⟩ _ reply
    cases reply
    exact ⟨process, w.under process, rfl, ⟨rfl, holds⟩, holds, rfl⟩

end

/-! ## Waiting -/

/-- The delays that waiting takes from settings. -/
def Settings.delays (s : Settings) : Float × Float :=
  (s.readinessInitialDelay, s.readinessMaxDelay)

/-- A pause between two attempts. -/
def Call.isPause : Call → Bool
  | .pause _ => true
  | _ => false

open Work

namespace Readiness

/-- Waiting is the same in two runs. -/
def Indifferent (K : Likeness) : Prop :=
  ∀ (probe : Work Bool), probe.Gives Call.Prepares (fun _ => True) →
    ∀ (timeout : Seconds) (description : String) (service : Option String),
      Task.Twins K Eq (await probe timeout description service).run
        (await probe timeout description service).run

variable {process : Except Fault Settings} {known : Except Fault Settings → Prop}
  {covers : Call → Prop}

/-- Settings with the same delays, or that cannot be read for the same reason. -/
theorem indifferent_of_agreeing : Indifferent
    (.reconfigured process (fun r => r.map Settings.delays = process.map Settings.delays)
      fun _ => True) := by
  intro probe h timeout description service
  rw [await_eq]
  refine Task.twins_call Likeness.reconfigured_settings ?_
  -- Both processes refuse to be read for one reason, or have one pair of delays.
  rintro (f | s) (f' | s') ⟨same, rfl⟩
  · cases same
    exact Task.twins_done rfl
  · cases same
  · cases same
  · have delays : s.delays = s'.delays := Except.ok.inj same
    have initialDelay : s.readinessInitialDelay = s'.readinessInitialDelay :=
      congrArg Prod.fst delays
    have maxDelay : s.readinessMaxDelay = s'.readinessMaxDelay := congrArg Prod.snd delays
    change Task.Twins _ Eq
      (polling probe timeout service ⟨_, s.readinessInitialDelay, s.readinessMaxDelay, _⟩).run
      (polling probe timeout service ⟨_, s'.readinessInitialDelay, s'.readinessMaxDelay, _⟩).run
    rw [initialDelay, maxDelay]
    have polls := polling_gives (fun _ => Call.Looks.prepares) h timeout service
    exact .of_prepares (fun _ => Likeness.reconfigured_prepares) (polls _)

/-- Settings that can be read, as long as no pause is made. -/
theorem indifferent_of_brief : Indifferent
    (.reconfigured process (fun r => r.isOk = true ∧ process.isOk = true)
      fun c => c.isPause = false) := by
  intro probe h timeout description service
  rw [await_eq]
  refine Task.twins_call Likeness.reconfigured_settings ?_
  rintro (f | s) (f' | s') ⟨⟨here, there⟩, rfl⟩
  · cases here
  · cases here
  · cases there
  · have kept (c : Call) (hc : c.Prepares) : Likeness.Keeps (.reconfigured (.ok s')
        (fun r => r.isOk = true ∧ Except.isOk (.ok s' : Except Fault Settings) = true)
        fun c => c.isPause = false) c c Eq := Likeness.reconfigured_prepares hc
    refine polling_twins kept _ _ _ _ _ fun start => ?_
    rw [attemptBound_eq, attemptBound_eq]
    refine loop_twins kept _ _ _ _ _ _ _ _ _ _ ?_ fun last => ?_
    · exact fun bound => .of_prepares kept (within_gives h trivial (fun _ => trivial) bound)
    · -- What follows begins with a pause, unless the time is up.
      refine Task.Twins.andThen (remaining_twins kept _ start) (fun rest => ?_) fun _ => rfl
      split
      · refine Task.Twins.andThen (.of_prepares (S := fun _ => True) kept (gives_ask trivial))
          (fun draw => ?_) fun _ => rfl
        exact Task.twins_uncovered fun pause => nomatch pause
      · exact Task.twins_done rfl

/-- A run that does not read the settings. -/
theorem indifferent_of_unread :
    Indifferent (.reconfigured process (fun _ => True) (· ≠ .processSettings)) :=
  fun _ _ _ _ _ => Task.Twins.refl (fun _ => Likeness.reconfigured_keeps id) _

end Readiness

/-! ## Starts -/

namespace Provisioner

/-- A start is the same in two runs if waiting is. -/
theorem startService_twins {K : Likeness} (kept : ∀ c, c ≠ .processSettings → K.Keeps c c Eq)
    (waits : Readiness.Indifferent K) (p : Provisioner) (c : ServiceConfig) :
    Task.Twins K Eq (p.startService c) (p.startService c) := by
  -- All but the waiting makes calls that do not read the settings of the process.
  have makes {α : Type} {Q : α → Prop} {work : Work α}
      (h : work.Gives (Call.Makes p.session) Q) : Task.Twins K Eq work.run work.run :=
    .of_follows h fun c hc => kept c hc.ne_processSettings
  have prepared (c : Call) (hc : c.Prepares) : K.Keeps c c Eq := kept c hc.ne_processSettings
  have asks {α : Type} {work : Work α} (h : work.Gives Call.Prepares fun _ => True) :
      Task.Twins K Eq work.run work.run := .of_prepares prepared h
  have andThen {α β : Type} {work : Work α} {f : α → Work β}
      (h : Task.Twins K Eq work.run work.run) (hf : ∀ a, Task.Twins K Eq (f a).run (f a).run) :
      Task.Twins K Eq (work >>= f).run (work >>= f).run := h.andThen hf fun _ => rfl
  have waiting (service : Service) (k : Capability) {probe : Work Bool}
      (h : probe.Gives Call.Probes fun _ => True) (timeout : Seconds) (description : String) :
      Task.Twins K Eq (waitReady service k probe timeout description).run
        (waitReady service k probe timeout description).run := by
    have h : probe.Gives Call.Prepares fun _ => True := h.weaken fun _ => Call.Probes.prepares
    exact waitReady_twins prepared service k timeout description (waits probe h _ _ _)
  cases c with
  | postgres c =>
    change Task.Twins K Eq (p.startPostgres c).run (p.startPostgres c).run
    rw [startPostgres_eq]
    refine andThen (makes (p.openPostgres_gives c)) fun o => ?_
    refine andThen (waiting _ _ (Readiness.databaseAccepts_gives _) _ _) fun _ => ?_
    refine andThen (asks (gives_ofExcept fun _ _ => True.intro)) fun shown => ?_
    exact asks (gives_then (gives_log trivial) fun _ =>
      gives_then (gives_log trivial) fun _ => gives_pure trivial)
  | keycloak c =>
    change Task.Twins K Eq (p.startKeycloak c).run (p.startKeycloak c).run
    rw [startKeycloak_eq]
    refine andThen (makes (p.openKeycloak_gives c)) fun o => ?_
    refine andThen (waiting _ _ (Readiness.pageAnswers_gives _ _) _ _) fun _ => ?_
    exact asks (gives_then (gives_log trivial) fun _ =>
      gives_then (gives_log trivial) fun _ => gives_pure trivial)
  | unsupported t => exact Task.twins_done rfl

/-- It makes no difference to the exchanges of a start which of two configurations the process
has: the settings of the process are not read, or they have the same delays or the same error, or
they can be read and no pause is made. -/
def Unaffected (before after : Except Fault Settings) (es : List Exchange) : Prop :=
  (∀ e ∈ es, e.call ≠ .processSettings) ∨
    before.map Settings.delays = after.map Settings.delays ∨
    ((before.isOk = true ∧ after.isOk = true) ∧ ∀ e ∈ es, e.call.isPause = false)

theorem startService_unaffected (p : Provisioner) (c : ServiceConfig) {w w₁ : World}
    {process : Except Fault Settings} {es : List Exchange} {r : Except Fault Handle}
    (ends : Task.Ends (p.startService c) w es r w₁) (same : Unaffected w.process process es) :
    ∃ es', Task.Ends (p.startService c) (w.under process) es' r (w₁.under process) ∧
      Task.timeline (p.startService c) (w.under process) =
        Task.timeline (p.startService c) w := by
  have conclude {known : Except Fault Settings → Prop} {covers : Call → Prop}
      (waits : Readiness.Indifferent (.reconfigured process known covers))
      (holds : known w.process) (covered : ∀ e ∈ es, covers e.call) :
      ∃ es', Task.Ends (p.startService c) (w.under process) es' r (w₁.under process) ∧
        Task.timeline (p.startService c) (w.under process) =
          Task.timeline (p.startService c) w := by
    have twins := startService_twins (fun c hc => Likeness.reconfigured_keeps fun _ => hc) waits p c
    obtain ⟨es', _, _, ends', ⟨rfl, -⟩, rfl, moments⟩ := twins ⟨rfl, holds⟩ ends covered
    have same : List.Forall₂ Eq (Task.timeline (p.startService c) w)
        (Task.timeline (p.startService c) (w.under process)) :=
      moments.imp fun _ _ h => Prod.ext h.1.symm h.2
    exact ⟨es', ends', (List.forall₂_eq_eq_eq ▸ same).symm⟩
  rcases same with unread | agree | ⟨readable, brief⟩
  · exact conclude Readiness.indifferent_of_unread trivial unread
  · exact conclude Readiness.indifferent_of_agreeing agree fun _ _ => trivial
  · exact conclude Readiness.indifferent_of_brief readable brief

end Provisioner

/-! ## Settings that cannot be read -/

theorem Task.Ends.process {α : Type} {t : Task α} {w w' : World} {es : List Exchange} {a : α}
    (h : Ends t w es a w') : w'.process = w.process := by
  induction h with
  | done => rfl
  | call reply _ ih => rw [ih, World.process_of_perform reply]

namespace Provisioner

variable {w w' : World} {es : List Exchange} {f : Fault}

/-- Waiting begins with the settings of the process, and no handler recovers from their error. -/
theorem waitReady_unreadable (unreadable : w.process = .error f) {service : Service}
    {k : Capability} {probe : Work Bool} {timeout : Seconds} {description : String} {a : Unit} :
    ¬ Task.Ends (waitReady service k probe timeout description) w es (.ok a) w' := by
  intro ends
  obtain ⟨es₁, n, w₁, es₂, rfl, waited, -⟩ := Task.Ends.peel ends
  obtain ⟨es₃, r, w₂, es₄, rfl, awaited, handled⟩ := Task.Ends.split waited
  rw [Readiness.await_eq] at awaited
  obtain ⟨reply, w₃, es₅, rfl, settings, awaited⟩ := awaited.of_call
  cases settings
  rw [unreadable] at awaited
  obtain ⟨-, rfl, -⟩ := awaited.eq_done
  simp only at handled
  split at handled
  · cases handled.eq_done.2.1
  · obtain ⟨_, status, w₄, _, -, -, logged⟩ := Task.Ends.peel handled
    obtain ⟨_, _, w₅, _, -, -, thrown⟩ := logged.peel
    cases thrown.eq_done.2.1

/-- Every start that hands over a handle has waited, so it needs the settings of its process. -/
theorem startService_unreadable (unreadable : w.process = .error f) (p : Provisioner)
    (c : ServiceConfig) (h : Handle) : ¬ Task.Ends (p.startService c) w es (.ok h) w' := by
  intro ends
  cases c with
  | postgres c =>
    change Task.Ends (p.startPostgres c) _ _ _ _ at ends
    rw [startPostgres_eq] at ends
    obtain ⟨_, o, w₁, _, -, opened, closed⟩ := ends.peel
    obtain ⟨_, _, w₂, _, -, waited, -⟩ := closed.peel
    exact waitReady_unreadable (opened.process.trans unreadable) waited
  | keycloak c =>
    change Task.Ends (p.startKeycloak c) _ _ _ _ at ends
    rw [startKeycloak_eq] at ends
    obtain ⟨_, o, w₁, _, -, opened, closed⟩ := ends.peel
    obtain ⟨_, _, w₂, _, -, waited, -⟩ := closed.peel
    exact waitReady_unreadable (opened.process.trans unreadable) waited
  | unsupported t => cases Task.Ends.eq_done ends |>.2.1

end Provisioner

/-! ## Environments -/

/-- The environment in a process that is configured otherwise. -/
def Lifecycle.under (l : Lifecycle) (process : Except Fault Settings) : Lifecycle :=
  { l with world := l.world.under process }

theorem Lifecycle.acquire_under (l : Lifecycle) (process : Except Fault Settings) :
    (l.under process).acquire = (l.acquire.1, l.acquire.2.under process) := by
  have refusals : (l.under process).refusals = l.refusals := rfl
  unfold acquire
  rw [refusals]
  split <;> rfl

theorem Lifecycle.ensureClient_under (l : Lifecycle) (process : Except Fault Settings) :
    (l.under process).ensureClient = l.ensureClient.under process := by
  have hasClient : (l.under process).hasClient = l.hasClient := rfl
  unfold ensureClient
  rw [hasClient]
  split <;> rfl

/-- An environment runs its plan with a provisioner of its own settings. -/
theorem Lifecycle.startPlan_under (l : Lifecycle) (plan : Plan)
    (process : Except Fault Settings) :
    (l.under process).startPlan plan =
      ((l.startPlan plan).1, (l.startPlan plan).2.under process) := by
  unfold startPlan
  rw [acquire_under]
  rcases l.acquire with ⟨f | _, l'⟩
  · rfl
  · simp only [ensureClient_under]
    rfl

namespace Provisioner

/-- A start goes by the settings of its provisioner, which in an environment are those of the
environment, and not by the settings of the process, unless it waits with the delays of the
process.  Else it makes the same calls at the same times, ends in the same way and leaves the same
world behind, its log included.  But it needs settings of the process that can be read: without
them no start hands over a handle. -/
theorem start_governed_by_own_settings (process : Except Fault Settings) :
    (∀ (l : Lifecycle) (plan : Plan), (l.under process).startPlan plan =
      ((l.startPlan plan).1, (l.startPlan plan).2.under process)) ∧
    (∀ (p : Provisioner) (c : ServiceConfig) (w : World),
      ∃ es r w₁, Task.Ends (p.startService c) w es r w₁ ∧
        (Unaffected w.process process es →
          ∃ es', Task.Ends (p.startService c) (w.under process) es' r (w₁.under process) ∧
            Task.timeline (p.startService c) (w.under process) =
              Task.timeline (p.startService c) w)) ∧
    ∀ (f : Fault) (p : Provisioner) (c : ServiceConfig) (w : World) (es : List Exchange)
      (h : Handle) (w₁ : World),
        ¬ Task.Ends (p.startService c) (w.under (.error f)) es (.ok h) w₁ := by
  refine ⟨fun l plan => l.startPlan_under plan process, fun p c w => ?_,
    fun f p c w es h w₁ => startService_unreadable rfl p c h⟩
  obtain ⟨es, r, w₁, ends⟩ := p.startService_ends c w
  exact ⟨es, r, w₁, ends, p.startService_unaffected c ends⟩

/-- The start of a database with the default settings. -/
def defaultStart : Task (Except Fault Handle) :=
  (⟨"s", {}⟩ : Provisioner).startService (.postgres {})

/-- In the default world the first attempt is answered. -/
theorem defaultStart_ready :
    (∃ h, Task.given? (World.advance defaultStart {}).1 = some (.ok h)) ∧
      (Task.exchanges defaultStart {}).all (fun e => !e.call.isPause) = true := by
  have ready : (Task.given? (World.advance defaultStart {}).1).map Except.isOk = some true := by
    -- The bound on attempts does not reduce; that one attempt is made is enough.
    simp only [defaultStart, startService, startPostgres, waitReady, Readiness.await,
      Readiness.attemptBound_eq]
    decide +kernel
  obtain ⟨_ | h, given, told⟩ := Option.map_eq_some_iff.1 ready
  · cases told
  refine ⟨⟨h, given⟩, ?_⟩
  simp only [defaultStart, startService, startPostgres, waitReady, Readiness.await,
    Readiness.attemptBound_eq]
  decide +kernel

/-- A process with shorter delays than the usual ones. -/
def hastyProcess : Except Fault Settings :=
  .ok { readinessInitialDelay := 0.001, readinessMaxDelay := 0.01 }

theorem start_governed_by_own_settings_of_hasty_process :
    ∃ es h w₁, Task.Ends defaultStart {} es (.ok h) w₁ ∧
      ∃ es', Task.Ends defaultStart (World.under {} hastyProcess) es' (.ok h)
        (w₁.under hastyProcess) ∧
          Task.timeline defaultStart (World.under {} hastyProcess) =
            Task.timeline defaultStart {} := by
  obtain ⟨es, r, w₁, ends, governed⟩ :=
    (start_governed_by_own_settings hastyProcess).2.1 ⟨"s", {}⟩ (.postgres {}) {}
  obtain ⟨⟨h, given⟩, brief⟩ := defaultStart_ready
  obtain ⟨rfl, rfl, rfl⟩ := ends.unique (.of_given given)
  refine ⟨_, h, _, ends, governed (.inr (.inr ⟨⟨rfl, rfl⟩, ?_⟩))⟩
  intro e he
  simpa using List.all_eq_true.1 brief e he

/-- The settings of a process whose environment has an unreadable delay. -/
def unreadableProcess : Except Fault Settings :=
  Settings.read { environment := [("TESTENV_READINESS_MAX_DELAY", "abc")] }

/-- A start ends with the complaint that settings are invalid. -/
def complains : Except Fault Handle → Bool
  | .error (.invalid title _) => title == "Settings"
  | _ => false

/-- The settings of the provisioner are the same, and yet one start hands over a handle and the
other one raises the error of the settings of its process. -/
theorem unreadable_process_settings_end_start :
    ∃ es h w₁ es' issues w₁', Task.Ends defaultStart {} es (.ok h) w₁ ∧
      Task.Ends defaultStart (World.under {} unreadableProcess) es'
        (.error (.invalid "Settings" issues)) w₁' := by
  have refused : (Task.given? (World.advance defaultStart
      (World.under {} unreadableProcess)).1).map complains = some true := by
    simp only [defaultStart, startService, startPostgres, waitReady, Readiness.await,
      Readiness.attemptBound_eq]
    decide +kernel
  obtain ⟨⟨h, given⟩, -⟩ := defaultStart_ready
  obtain ⟨f | _, given', told⟩ := Option.map_eq_some_iff.1 refused
  · cases f with
    | invalid title issues =>
      obtain rfl : title = "Settings" := by simpa [complains] using told
      exact ⟨_, h, _, _, issues, _, .of_given given, .of_given given'⟩
    | _ => cases told
  · cases told

end Provisioner
end Testbed
