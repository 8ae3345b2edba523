import Testbed.Proofs.Conduct
import Testbed.Readiness.Probe

/-!
# What the provisioner does

Whatever the engine answers, the provisioner only makes calls of `Call.Provisions`: every container
that it creates carries the label of its session, every capability that it records removes its
container, and it removes no container itself.
-/

namespace Testbed

/-- A call that the provisioner of a session makes. -/
def Call.Provisions (session : String) : Call → Prop
  | .engine (.create spec) => (Provisioner.sessionLabel, session) ∈ spec.labels
  | .engine (.remove ..) | .engine (.listLabelled _) | .engine .close => False
  | .record c => c.action = .remove
  | .claim _ | .noteStop | .store .. | .forgetClient | .observe | .hang | .waitForGate
  | .shutdownRuntime | .trace _ => False
  | _ => True

/-- A call with which the provisioner prepares, looks something up or waits: no container is made,
filled, started or removed, and nothing is recorded. -/
def Call.Quiet : Call → Prop
  | .engine (.create _) | .engine (.putArchive ..) | .engine (.start _) | .engine (.remove ..)
  | .engine (.listLabelled _) | .engine .close => False
  | .newIdentity | .record _ | .claim _ | .noteStop | .store .. | .forgetClient | .observe | .hang
  | .waitForGate | .shutdownRuntime | .trace _ => False
  | _ => True

theorem Call.Quiet.provisions {session : String} {c : Call} (h : c.Quiet) :
    c.Provisions session := by
  cases c with
  | engine r => cases r <;> trivial
  | _ => trivial

/-- A quiet call that does not read the settings of the process. -/
def Call.Prepares : Call → Prop
  | .processSettings => False
  | c => c.Quiet

/-- A call of the provisioner that does not read the settings of the process. -/
def Call.Makes (session : String) : Call → Prop
  | .processSettings => False
  | c => c.Provisions session

theorem Call.Prepares.quiet {c : Call} (h : c.Prepares) : c.Quiet := by
  cases c <;> first | exact h | exact h.elim

theorem Call.Makes.provisions {session : String} {c : Call} (h : c.Makes session) :
    c.Provisions session := by
  cases c <;> first | exact h | exact h.elim

theorem Call.Prepares.makes {session : String} {c : Call} (h : c.Prepares) : c.Makes session := by
  have provisions : c.Provisions session := h.quiet.provisions
  cases c <;> first | exact provisions | exact h

theorem Call.Prepares.ne_processSettings {c : Call} (h : c.Prepares) : c ≠ .processSettings := by
  rintro rfl
  exact h

theorem Call.Makes.ne_processSettings {session : String} {c : Call} (h : c.Makes session) :
    c ≠ .processSettings := by
  rintro rfl
  exact h

/-- A call with which a service is probed. -/
def Call.Probes : Call → Prop
  | .log .. | .connect _ | .query _ | .disconnect _ | .fetch _ => True
  | _ => False

/-- A call with which the provisioner looks something up, probes a service or lets time pass. -/
def Call.Looks : Call → Prop
  | .openClient _ | .viewClient | .engine (.find _) | .resolve _ | .inspect _ | .readFile _ | .now
  | .pause _ | .waitUntil _ | .draw => True
  | c => c.Probes

/-- A call with which a service is waited for. -/
def Call.Waits : Call → Prop
  | .processSettings => True
  | c => c.Looks

/-- A call that concerns a container that has been made. -/
def Call.Serves : Call → Prop
  | .engine (.start _) | .engine (.putArchive ..) => True
  | c => c.Looks

theorem Call.Probes.looks {c : Call} (h : c.Probes) : c.Looks := by
  cases c <;> trivial

theorem Call.Looks.prepares {c : Call} (h : c.Looks) : c.Prepares := by
  cases c with
  | engine r => cases r <;> trivial
  | _ => trivial

theorem Call.Probes.prepares {c : Call} (h : c.Probes) : c.Prepares := h.looks.prepares

theorem Call.Looks.waits {c : Call} (h : c.Looks) : c.Waits := by
  cases c <;> first | exact h | trivial

theorem Call.Waits.quiet {c : Call} (h : c.Waits) : c.Quiet := by
  cases c with
  | processSettings => trivial
  | _ => exact Call.Prepares.quiet (Call.Looks.prepares h)

theorem Call.Serves.makes {session : String} {c : Call} (h : c.Serves) : c.Makes session := by
  cases c with
  | engine r => cases r <;> trivial
  | _ => exact Call.Prepares.makes (Call.Looks.prepares h)

/-- The handle carries the right to remove its container. -/
def Handle.Stoppable (h : Handle) : Prop :=
  ∃ c, h.stop = some c ∧ c.action = .remove ∧ c.containerId = h.containerId

/-- The kind and the service of an error that tells why a container could not be started. -/
def Fault.provision? : Fault → Option (ProvisionKind × Option String)
  | .environment e =>
    match e.cause with
    | .provision kind service => some (kind, service)
    | _ => none
  | _ => none

open Work

variable {session : String}

/-! ## Readiness -/

namespace Readiness

section

variable {α : Type} {P : Call → Prop} {Q : Unit → Except Fault α → Prop}

theorem cutOff_follows {t : Task (Except Fault α)} (h : Task.Follows (Rule.only P) Q t ())
    (wait : ∀ time, P (.waitUntil time)) (deadline : Float) :
    Task.Follows (Rule.only P) (fun _ _ => True) (cutOff deadline t) () := by
  refine ⟨wait deadline, fun _ => Task.follows_bind.2 (h.mono ?_)⟩
  intro _ _ _
  trivial

/-- A program that is cut off makes the calls that it would have made, or waits. -/
theorem withDeadline_follows {t : Task (Except Fault α)} (h : Task.Follows (Rule.only P) Q t ())
    (now : P .now) (wait : ∀ time, P (.waitUntil time)) (deadline : Float) :
    Task.Follows (Rule.only P) (fun _ _ => True) (withDeadline deadline t) () := by
  induction t with
  | done r => trivial
  | call c next ih =>
    unfold withDeadline
    split
    · refine ⟨now, fun (time : Float) => ?_⟩
      simp only
      split
      · exact ⟨h.1, fun r => ih r (h.2 r)⟩
      · exact cutOff_follows (h.2 _) wait deadline
    · split
      · exact ⟨h.1, fun r => ih r (h.2 r)⟩
      · exact cutOff_follows (h.2 _) wait deadline
    · exact cutOff_follows (h.2 _) wait deadline
    · exact ⟨h.1, fun r => ih r (h.2 r)⟩

theorem within_gives {R : α → Prop} {w : Work α} (h : w.Gives P R) (now : P .now)
    (wait : ∀ time, P (.waitUntil time)) (bound : Float) :
    (within bound w).Gives P fun _ => True := by
  refine ⟨now, fun (time : Float) => Task.follows_bind.2 ?_⟩
  refine (withDeadline_follows h now wait (time + bound)).mono ?_
  intro _ r _
  split
  · split
    · exact fun _ _ => trivial
    · exact fun _ _ => trivial
  · exact fun _ _ => trivial

/-- What follows an attempt that has not succeeded: if time remains, a pause and more attempts. -/
def retry {τ : Type} (t : Timescale τ)
    (s : Surroundings (ExceptT Fault (Program Call Call.Reply)) τ) (p : Plan τ) (start : τ)
    (fuel done : Nat) (delay : τ) (last : Option Fault) : Work Outcome := do
  let rest ← remaining t s p start
  if t.positive rest then
    let draw ← s.draw
    s.pause (t.min (t.min (t.add delay (t.share delay draw)) rest) p.maxDelay)
    loop t s p start fuel (done + 1) (t.min (t.twice delay) p.maxDelay) last
  else pure (.timedOut (done + 1) last)

/-- Polling makes the calls of its surroundings. -/
theorem loop_gives {τ : Type} {t : Timescale τ}
    {s : Surroundings (ExceptT Fault (Program Call Call.Reply)) τ} {p : Plan τ} {start : τ}
    (now : Work.Gives P (fun _ => True) s.now)
    (pause : ∀ d, Work.Gives P (fun _ => True) (s.pause d))
    (draw : Work.Gives P (fun _ => True) s.draw)
    (attempt : ∀ b, Work.Gives P (fun _ => True) (s.attempt b))
    (log : ∀ level text, Work.Gives P (fun _ => True) (s.log level text)) (fuel done : Nat)
    (delay : τ) (last : Option Fault) :
    Work.Gives P (fun _ => True) (loop t s p start fuel done delay last) := by
  have remaining : Work.Gives P (fun _ => True) (remaining t s p start) :=
    gives_then now fun _ => gives_pure trivial
  -- By induction on the fuel: an attempt is followed by its log line, a pause and the rest.
  induction fuel generalizing done delay last with
  | zero => exact gives_pure trivial
  | succ fuel ih =>
    have pausing (last : Option Fault) :
        (retry t s p start fuel done delay last).Gives P fun _ => True := by
      refine gives_then remaining fun rest => gives_ite ?_ (gives_pure trivial)
      exact gives_then draw fun _ => gives_then (pause _) fun _ => ih _ _ _
    refine gives_then remaining fun bound => gives_then (attempt _) fun found => ?_
    rcases found with f | ready
    · refine gives_ite (gives_then (log _ _) fun _ => ?_) ?_
      · exact gives_then (gives_pure trivial) pausing
      · exact gives_then (gives_pure trivial) pausing
    · cases ready with
      | true =>
        exact gives_ite (gives_then (log _ _) fun _ => gives_pure trivial) (gives_pure trivial)
      | false => exact gives_then (gives_pure trivial) pausing

end

/-- Polling with the delays that waiting has found. -/
def polling (probe : Work Bool) (timeout : Seconds) (service : Option String)
    (plan : Plan Float) : Work Nat := do
  match ← poll Timescale.float (surroundings probe) plan (attemptBound plan) with
  | .ready n => pure n
  | .timedOut n last =>
    throw (.environment (notReady plan.description timeout service n last))

theorem await_eq (probe : Work Bool) (timeout : Seconds) (description : String)
    (service : Option String) (initialDelay maxDelay : Option Float) :
    await probe timeout description service initialDelay maxDelay =
      ExceptT.mk (Program.perform Call.processSettings) >>= fun s : Settings =>
        polling probe timeout service {
          timeout := timeout.toFloat
          initialDelay := initialDelay.getD s.readinessInitialDelay
          maxDelay := maxDelay.getD s.readinessMaxDelay
          description := description } :=
  rfl

/-- Polling looks things up and probes. -/
theorem polling_gives {P : Call → Prop} (looks : ∀ c, c.Looks → P c) {probe : Work Bool}
    (h : probe.Gives P fun _ => True) (timeout : Seconds) (service : Option String)
    (plan : Plan Float) : (polling probe timeout service plan).Gives P fun _ => True := by
  have now : P .now := looks _ trivial
  refine gives_then ?_ fun found => ?_
  · refine gives_then (gives_ask now) fun start => loop_gives ?_ ?_ ?_ ?_ ?_ _ _ _ _
    · exact gives_ask now
    · exact fun _ => ⟨looks _ trivial, fun _ _ _ => trivial⟩
    · exact gives_ask (looks _ trivial)
    · exact fun bound => within_gives h now (fun _ => looks _ trivial) bound
    · exact fun _ _ => gives_log (looks _ trivial)
  · split
    · exact gives_pure trivial
    · exact gives_throw

theorem await_gives {probe : Work Bool} (h : probe.Gives Call.Looks fun _ => True)
    (timeout : Seconds) (description : String) (service : Option String)
    (initialDelay maxDelay : Option Float) :
    (await probe timeout description service initialDelay maxDelay).Gives Call.Waits
      fun _ => True := by
  rw [await_eq]
  refine gives_then ⟨trivial, fun _ _ _ => trivial⟩ fun settings => ?_
  exact (polling_gives (fun _ hc => hc) h _ _ _).weaken fun _ => Call.Looks.waits

theorem databaseAccepts_gives (dsn : String) :
    (databaseAccepts dsn).Gives Call.Probes fun _ => True := by
  refine gives_then (gives_handle ?_ ?_) fun found => ?_
  · exact gives_then ⟨trivial, fun _ _ _ => trivial⟩ fun _ => gives_pure trivial
  · intro f
    exact gives_then (gives_ofExcept fun _ _ => True.intro) fun _ =>
      gives_then (gives_log trivial) fun _ => gives_pure trivial
  · split
    · exact gives_pure trivial
    · refine gives_andFinally ?_ ⟨trivial, fun _ _ _ => trivial⟩
      exact gives_then ⟨trivial, fun _ _ _ => trivial⟩ fun _ => gives_pure trivial

theorem pageAnswers_gives (url : String) (expected : Int) :
    (pageAnswers url expected).Gives Call.Probes fun _ => True := by
  refine gives_handle ?_ ?_
  · exact gives_then (gives_ofExcept fun _ _ => True.intro) fun _ =>
      gives_then ⟨trivial, fun _ _ _ => trivial⟩ fun _ => gives_pure trivial
  · exact fun _ => gives_then (gives_log trivial) fun _ => gives_pure trivial

end Readiness

/-! ## The client -/

namespace Client

theorem connect_gives : connect.Gives Call.Prepares fun _ => True := by
  refine gives_handle ?_ ?_
  · exact gives_then (gives_ensureOpen trivial) fun _ => gives_then (gives_engine trivial) fun _ =>
      gives_then (gives_log trivial) fun _ => gives_pure trivial
  · exact fun _ => gives_then (gives_log trivial) fun _ => gives_pure trivial

theorem ensureNetwork_gives (name : String) :
    (ensureNetwork name).Gives Call.Prepares fun _ => True := by
  refine gives_then (gives_ensureOpen trivial) fun _ => gives_then (gives_engine trivial) fun _ =>
    gives_ite ?_ ?_
  · exact gives_then (gives_log trivial) fun _ => gives_pure trivial
  · exact gives_then (gives_engine trivial) fun _ =>
      gives_then (gives_log trivial) fun _ => gives_pure trivial

theorem createContainer_gives {spec : Engine.ContainerSpec}
    (h : (Provisioner.sessionLabel, session) ∈ spec.labels) :
    (createContainer spec).Gives (Call.Makes session) fun _ => True := by
  refine gives_then (gives_ensureOpen trivial) fun _ => gives_then (gives_handle ?_ ?_) fun _ => ?_
  · exact gives_then (gives_engine trivial) fun _ => gives_pure trivial
  · exact fun _ => gives_then (gives_log trivial) fun _ =>
      gives_then (gives_engine trivial) fun _ => gives_pure trivial
  · exact gives_then (gives_engine h) fun _ =>
      gives_then (gives_log trivial) fun _ => gives_pure trivial

theorem putFile_gives (id path : String) (data : List UInt8) (uid gid : Int) :
    (putFile id path data uid gid).Gives Call.Serves fun _ => True := by
  refine gives_then (gives_ensureOpen trivial) fun _ =>
    gives_then (gives_ofExcept fun _ _ => True.intro) fun names =>
      gives_then (gives_engine trivial) fun _ => gives_then (gives_engine trivial) fun _ => ?_
  exact gives_ite (gives_log trivial) gives_throw

theorem startContainer_gives (id : String) :
    (startContainer id).Gives Call.Serves fun _ => True :=
  gives_then (gives_ensureOpen trivial) fun _ => gives_then (gives_engine trivial) fun _ =>
    gives_then (gives_engine trivial) fun _ => gives_log trivial

theorem publishedPort_gives (id : String) (port : Int) :
    (publishedPort id port).Gives Call.Looks fun _ => True :=
  gives_then (gives_ensureOpen trivial) fun _ => gives_then (gives_engine trivial) fun _ =>
    gives_ofExcept fun _ _ => True.intro

theorem hostAddress_gives : hostAddress.Gives Call.Looks fun _ => True :=
  gives_then (gives_ask trivial) fun _ => gives_ofExcept fun _ _ => True.intro

theorem containerStatus_gives (id : String) :
    (containerStatus id).Gives Call.Looks fun _ => True := by
  refine gives_handle ?_ fun f => ?_
  · exact gives_then (gives_ensureOpen trivial) fun _ => gives_then (gives_engine trivial) fun _ =>
      gives_pure trivial
  · exact gives_ite (gives_then (gives_log trivial) fun _ => gives_pure trivial)
      (gives_then (gives_log trivial) fun _ => gives_pure trivial)

end Client

/-! ## The provisioner -/

namespace Provisioner

theorem gives_quiet {α : Type} {Q : α → Prop} {w : Work α} (h : w.Gives Call.Quiet Q) :
    w.Gives (Call.Provisions session) Q :=
  h.weaken fun _ => Call.Quiet.provisions

theorem gives_prepared {α : Type} {Q : α → Prop} {w : Work α} (h : w.Gives Call.Prepares Q) :
    w.Gives Call.Quiet Q :=
  h.weaken fun _ => Call.Prepares.quiet

theorem gives_looks {α : Type} {Q : α → Prop} {w : Work α} (h : w.Gives Call.Looks Q) :
    w.Gives Call.Prepares Q :=
  h.weaken fun _ => Call.Looks.prepares

theorem gives_waits {α : Type} {Q : α → Prop} {w : Work α} (h : w.Gives Call.Waits Q) :
    w.Gives Call.Quiet Q :=
  h.weaken fun _ => Call.Waits.quiet

theorem gives_serves {α : Type} {Q : α → Prop} {w : Work α} (h : w.Gives Call.Serves Q) :
    w.Gives (Call.Makes session) Q :=
  h.weaken fun _ => Call.Serves.makes

theorem gives_prepares {α : Type} {Q : α → Prop} {w : Work α} (h : w.Gives Call.Prepares Q) :
    w.Gives (Call.Makes session) Q :=
  h.weaken fun _ => Call.Prepares.makes

theorem gives_makes {α : Type} {Q : α → Prop} {w : Work α} (h : w.Gives (Call.Makes session) Q) :
    w.Gives (Call.Provisions session) Q :=
  h.weaken fun _ => Call.Makes.provisions

theorem reporting_gives {α : Type} {P : Call → Prop} {Q : α → Prop} {w : Work α} (step : Step)
    (h : w.Gives P Q) (log : ∀ text, P (.log .error text)) : (reporting step w).Gives P Q :=
  gives_handle h fun _ => gives_then (gives_log (log _)) fun _ => gives_throw

/-- A step whose refusal is reported comes to what it would have come to without the report. -/
theorem reporting_follows {σ α : Type} {R : Rule σ} {P : Call → Prop} {s : σ}
    {Q : σ → Except Fault α → Prop} {w : Work α} (step : Step) (past : R.Overlooks P)
    (log : ∀ text, P (.log .error text)) (h : Task.Follows R Q w.run s)
    (refused : ∀ s e e', Q s (.error e) → Q s (.error e')) :
    Task.Follows R Q (reporting step w).run s := by
  refine follows_handle h (fun _ _ hq => hq) ?_ fun _ _ hq _ => hq
  intro s e hq _
  have raises : (refuse step e : Work α).Gives P fun _ => False :=
    gives_then (gives_log (log _)) fun _ => gives_throw
  refine (raises.unnoted past s).mono ?_
  rintro _ (e' | a) ⟨rfl, never⟩
  · exact refused _ e e' hq
  · exact (never a rfl).elim

theorem ensureEngine_gives : ensureEngine.Gives Call.Prepares fun _ => True := by
  refine gives_then (gives_ask trivial) fun _ => gives_ite ?_ (gives_pure trivial)
  exact gives_then Client.connect_gives fun _ => gives_ite (gives_ask trivial) gives_throw

theorem ensureNetwork_gives (name : String) :
    (ensureNetwork name).Gives Call.Prepares fun _ => True := by
  refine gives_then (gives_ask trivial) fun _ => gives_ite ?_ (gives_pure trivial)
  have ensured := reporting_gives (.network name) (Client.ensureNetwork_gives name)
  exact gives_then (ensured fun _ => trivial) fun _ => gives_ask trivial

/-- A container is created with the label of the session, and the capability that is recorded
removes it. -/
theorem create_gives (p : Provisioner) (service : Service) (network : Option String)
    (spec : Engine.ContainerSpec) :
    (p.create service network spec).Gives (Call.Makes p.session) fun c =>
      c.action = .remove := by
  refine gives_then (gives_prepares ensureEngine_gives) fun _ =>
    gives_then (gives_prepares (ensureNetwork_gives _)) fun _ =>
      gives_then (gives_ask trivial) fun id => gives_then (gives_handle ?_ ?_) fun containerId => ?_
  · exact Client.createContainer_gives (List.mem_cons_self ..)
  · exact fun _ => gives_ite gives_throw (gives_then (gives_log trivial) fun _ => gives_throw)
  · exact gives_then (gives_ask trivial) fun identity => gives_then (gives_ask rfl) fun _ =>
      gives_then (gives_log trivial) fun _ => gives_pure rfl

theorem waitReady_gives (service : Service) (c : Capability) {probe : Work Bool}
    (h : probe.Gives Call.Probes fun _ => True) (timeout : Seconds) (description : String) :
    (waitReady service c probe timeout description).Gives Call.Waits fun _ => True := by
  have h : probe.Gives Call.Looks fun _ => True := h.weaken fun _ => Call.Probes.looks
  refine gives_then (gives_tryCatch (Readiness.await_gives h _ _ _ _ _) fun f => ?_) fun _ =>
    gives_pure trivial
  split
  · exact gives_throw
  · have status := (Client.containerStatus_gives c.containerId).weaken fun _ => Call.Looks.waits
    exact gives_then status fun _ => gives_then (gives_log trivial) fun _ => gives_throw

theorem ready_gives (service : Service) {c : Capability} (uri : String) (h : c.action = .remove) :
    (ready service c uri).Gives (Call.Makes session) Handle.Stoppable :=
  gives_then (gives_log trivial) fun _ => gives_pure ⟨c, rfl, h, rfl⟩

theorem existing_gives (service : Service) (what path : String) :
    (existing service what path).Gives Call.Looks fun _ => True :=
  gives_handle ⟨trivial, fun _ _ _ => trivial⟩ fun _ => gives_throw

theorem scriptMounts_gives (path : Option String) :
    (scriptMounts path).Gives Call.Looks fun _ => True := by
  unfold scriptMounts
  split
  · exact gives_pure trivial
  · refine gives_then (existing_gives _ _ _) fun _ => gives_then (gives_ask trivial) fun found => ?_
    exact gives_ite (gives_pure trivial) gives_throw

theorem readRealm_gives (path : String) :
    (readRealm path).Gives Call.Looks fun _ => True := by
  refine gives_then (existing_gives _ _ _) fun _ => gives_then (gives_ask trivial) fun found => ?_
  exact gives_handle ⟨trivial, fun _ _ _ => trivial⟩ fun _ => gives_throw

theorem copy_gives (c : Capability) (data : List UInt8) :
    (reporting (.copy .keycloak) (Client.putFile c.containerId realmTarget data 1000 0)).Gives
      Call.Serves fun _ => True :=
  reporting_gives _ (Client.putFile_gives _ _ _ _ _) fun _ => trivial

theorem start_gives (service : Service) (c : Capability) :
    (start service c).Gives Call.Serves fun _ => True :=
  reporting_gives _ (Client.startContainer_gives _) fun _ => trivial

theorem publishedPort_gives (service : Service) (c : Capability) (port : Nat) :
    (publishedPort service c port).Gives Call.Looks fun _ => True :=
  reporting_gives _ (Client.publishedPort_gives _ _) fun _ => trivial

/-! ## Starts in two parts -/

/-- The start of a database up to where its connection URI is known. -/
def openPostgres (p : Provisioner) (c : PostgresConfig) : Work (Capability × String × Int) := do
  Work.log Level.info "Creating Postgres container..."
  let mounts ← scriptMounts c.initScripts
  let capability ← p.create .postgres c.network {
    image := (given c.image).getD p.settings.postgresImage
    name := ""
    environment := [("POSTGRES_DB", c.database), ("POSTGRES_USER", c.user),
      ("POSTGRES_PASSWORD", c.password)]
    ports := [databasePort]
    mounts := mounts }
  start .postgres capability
  let host ← Client.hostAddress
  let port ← publishedPort .postgres capability databasePort
  pure (capability, host, port)

/-- The start of a database once its connection URI is known. -/
def closePostgres (p : Provisioner) (c : PostgresConfig) (k : Capability) (uri : String) :
    Work Handle := do
  waitReady .postgres k (Readiness.databaseAccepts uri)
    (boundOf c.startupTimeout p.settings.postgresStartupTimeout) s!"Postgres container {k.name}"
  let shown ← Work.ofExcept ((Uri.redact uri).mapError Client.uriFault)
  Work.log Level.debug s!"Postgres connection URL: {shown}"
  ready .postgres k uri

theorem startPostgres_eq (p : Provisioner) (c : PostgresConfig) :
    p.startPostgres c =
      p.openPostgres c >>= fun o => p.closePostgres c o.1 (databaseUri c o.2.1 o.2.2) := by
  simp only [startPostgres, openPostgres, closePostgres, bind_assoc, pure_bind]

/-- The start of an identity provider up to where its addresses are known: the host, the port of
its pages and the port of its health. -/
def openKeycloak (p : Provisioner) (c : KeycloakConfig) :
    Work (Capability × String × Int × Int) := do
  Work.log Level.info "Creating Keycloak container..."
  let realm ← readRealm c.realmFile
  let capability ← p.create .keycloak c.network {
    image := (given c.image).getD p.settings.keycloakImage
    name := ""
    command := some providerCommand
    environment := providerEnvironment c
    ports := [webPort, healthPort] }
  reporting (.copy .keycloak) (Client.putFile capability.containerId realmTarget realm 1000 0)
  start .keycloak capability
  let host ← Client.hostAddress
  let port ← publishedPort .keycloak capability webPort
  let health ← publishedPort .keycloak capability healthPort
  pure (capability, host, port, health)

/-- The start of an identity provider once its addresses are known. -/
def closeKeycloak (p : Provisioner) (c : KeycloakConfig) (k : Capability) (host : String)
    (port health : Int) : Work Handle := do
  waitReady .keycloak k (Readiness.pageAnswers s!"http://{host}:{health}{healthPath}")
    (boundOf c.startupTimeout p.settings.keycloakStartupTimeout) s!"Keycloak container {k.name}"
  let uri := s!"http://{host}:{port}"
  Work.log Level.debug s!"Keycloak connection URL: {uri}"
  ready .keycloak k uri

theorem startKeycloak_eq (p : Provisioner) (c : KeycloakConfig) :
    p.startKeycloak c =
      p.openKeycloak c >>= fun o => p.closeKeycloak c o.1 o.2.1 o.2.2.1 o.2.2.2 := by
  simp only [startKeycloak, openKeycloak, closeKeycloak, bind_assoc, pure_bind]

theorem openPostgres_gives (p : Provisioner) (c : PostgresConfig) :
    (p.openPostgres c).Gives (Call.Makes p.session) fun o => o.1.action = .remove := by
  refine gives_then (gives_log trivial) fun _ =>
    gives_then (gives_prepares (gives_looks (scriptMounts_gives _))) fun mounts =>
      gives_bind (p.create_gives _ _ _) fun k hk =>
        gives_then (gives_serves (start_gives _ k)) fun _ => ?_
  exact gives_then (gives_prepares (gives_looks Client.hostAddress_gives)) fun host =>
    gives_then (gives_prepares (gives_looks (publishedPort_gives _ k _))) fun port =>
      gives_pure hk

theorem openKeycloak_gives (p : Provisioner) (c : KeycloakConfig) :
    (p.openKeycloak c).Gives (Call.Makes p.session) fun o => o.1.action = .remove := by
  refine gives_then (gives_log trivial) fun _ =>
    gives_then (gives_prepares (gives_looks (readRealm_gives _))) fun realm =>
      gives_bind (p.create_gives _ _ _) fun k hk =>
        gives_then (gives_serves (copy_gives k realm)) fun _ =>
          gives_then (gives_serves (start_gives _ k)) fun _ => ?_
  exact gives_then (gives_prepares (gives_looks Client.hostAddress_gives)) fun host =>
    gives_then (gives_prepares (gives_looks (publishedPort_gives _ k _))) fun port =>
      gives_then (gives_prepares (gives_looks (publishedPort_gives _ k _))) fun health =>
        gives_pure hk

theorem closePostgres_gives (p : Provisioner) (c : PostgresConfig) {k : Capability} (uri : String)
    (hk : k.action = .remove) :
    (p.closePostgres c k uri).Gives (Call.Provisions session) Handle.Stoppable := by
  have waits := waitReady_gives .postgres k (Readiness.databaseAccepts_gives uri)
  refine gives_then (gives_quiet (gives_waits (waits _ _))) fun _ => ?_
  refine gives_then (gives_ofExcept fun _ _ => True.intro) fun shown => ?_
  exact gives_then (gives_log trivial) fun _ => gives_makes (ready_gives _ _ hk)

theorem closeKeycloak_gives (p : Provisioner) (c : KeycloakConfig) {k : Capability} (host : String)
    (port health : Int) (hk : k.action = .remove) :
    (p.closeKeycloak c k host port health).Gives (Call.Provisions session) Handle.Stoppable := by
  have waits := waitReady_gives .keycloak k
    (Readiness.pageAnswers_gives s!"http://{host}:{health}{healthPath}" 200)
  exact gives_then (gives_quiet (gives_waits (waits _ _))) fun _ =>
    gives_then (gives_log trivial) fun _ => gives_makes (ready_gives _ _ hk)

theorem startPostgres_gives (p : Provisioner) (c : PostgresConfig) :
    (p.startPostgres c).Gives (Call.Provisions p.session) Handle.Stoppable := by
  rw [startPostgres_eq]
  exact gives_bind (gives_makes (p.openPostgres_gives c)) fun _ hk => p.closePostgres_gives c _ hk

theorem startKeycloak_gives (p : Provisioner) (c : KeycloakConfig) :
    (p.startKeycloak c).Gives (Call.Provisions p.session) Handle.Stoppable := by
  rw [startKeycloak_eq]
  exact gives_bind (gives_makes (p.openKeycloak_gives c)) fun _ hk =>
    p.closeKeycloak_gives c _ _ _ hk

/-- Starting a service makes calls of the provisioner only, and hands over a handle that can be
stopped. -/
theorem startService_gives (p : Provisioner) (c : ServiceConfig) :
    (p.startService c).Gives (Call.Provisions p.session) Handle.Stoppable := by
  cases c with
  | postgres c => exact p.startPostgres_gives c
  | keycloak c => exact p.startKeycloak_gives c
  | unsupported t => exact gives_throw

end Provisioner
end Testbed
