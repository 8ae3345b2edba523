import Testbed.Proofs.Awaiting

/-!
# How a start fails

In a world that is fair a start comes to an end, and its passage tells which one.  An image that is
missing is a faulty configuration, any other refusal of the engine means that the engine is not
available, and a service that has not answered in time has timed out.  Errors of another kind are
raised in two cases only, which are named.
-/

namespace Testbed

namespace Passage

/-- The service has been waited for: its container runs and its ports have been found. -/
structure Waited (service : Service) (a : Passage) : Prop where
  waiting : a.part = .waiting
  started : a.started = true
  located : a.ports.length = service.ports.length

end Passage

/-- The connection URI of a database, as the passage makes it. -/
def PostgresConfig.uriAfter (c : PostgresConfig) (a : Passage) : String :=
  Provisioner.databaseUri c a.host (a.ports.headD 0)

/-- The connection URI can be shown in the log without its password. -/
def ServiceConfig.Shows (c : ServiceConfig) (a : Passage) : Prop :=
  match c with
  | .postgres c => ∃ text, Uri.redact (c.uriAfter a) = .ok text
  | _ => True

namespace Provisioner

/-- The kind of the provisioning error that has been raised. -/
def kind? (r : Except Fault Handle) : Option ProvisionKind :=
  match r with
  | .ok _ => none
  | .error f => f.provision?.map Prod.fst

/-- The ways in which a start can end after a passage. -/
inductive Ending (c : ServiceConfig) (service : Service) (a : Passage) :
    Except Fault Handle → Prop where
  | refused {f : Fault} (reported : a.Reported f) : Ending c service a (.error f)
  | expired {f : Fault} {name : Option String} (accepted : a.refusal = none)
      (waited : a.Waited service) (pending : a.Pending)
      (told : f.provision? = some (.timeout, name)) : Ending c service a (.error f)
  | cut {f : Fault} (accepted : a.refusal = none) (waited : a.Waited service) (cut : a.Cut)
      (cancelled : f.isCancelled = true) : Ending c service a (.error f)
  | unshown {f : Fault} (accepted : a.refusal = none) (waited : a.Waited service)
      (answered : a.Answered) (unshown : ¬ c.Shows a) (raised : f.provision? = none) :
      Ending c service a (.error f)
  | ready {h : Handle} (accepted : a.refusal = none) (waited : a.Waited service)
      (answered : a.Answered) (shown : c.Shows a) : Ending c service a (.ok h)

/-- The passage of a start tells what it ends with. -/
structure Classified (c : ServiceConfig) (service : Service) (a : Passage)
    (r : Except Fault Handle) : Prop where
  configInvalid : kind? r = some .configInvalid ↔ a.refusal = some .missing
  engineUnavailable : kind? r = some .engineUnavailable ↔ a.refusal = some .refused
  timeout : kind? r = some .timeout ↔ a.Waited service ∧ a.Pending
  handed : (∃ h, r = .ok h) ↔ a.Waited service ∧ a.Answered ∧ c.Shows a
  /-- An error of another kind is raised only if the service cancels who waits for it, or if the
  service is ready and its URI cannot be shown. -/
  otherwise : (∃ f, r = .error f ∧ f.provision? = none) ↔
    a.Waited service ∧ (a.Cut ∨ a.Answered ∧ ¬ c.Shows a)

variable {c : ServiceConfig} {service : Service} {files : Files} {a : Passage}
  {r : Except Fault Handle}

/-- The ways to end exclude each other. -/
theorem Ending.classified (h : Ending c service a r) : Classified c service a r := by
  cases h with
  | @refused f reported =>
    -- A refusal is reported before the service is waited for.
    rcases reported with ⟨early, x, name, refusal, told⟩
    have unwaited : ¬ a.Waited service := fun waited => early waited.waiting
    constructor
    · cases x <;> simp [kind?, told, refusal, Refusal.kind]
    · cases x <;> simp [kind?, told, refusal, Refusal.kind]
    · cases x <;> simp [kind?, told, Refusal.kind, unwaited]
    · simp [unwaited]
    · simp [told, unwaited]
  | expired accepted waited pending told =>
    constructor
    · simp [kind?, told, accepted]
    · simp [kind?, told, accepted]
    · simp [kind?, told, waited, pending]
    · simp [pending.1]
    · simp [told, pending.1, pending.2]
  | @cut f accepted waited cut cancelled =>
    -- A cancellation is no provisioning error.
    have told : f.provision? = none := by
      cases f with
      | environment e => cases cancelled
      | _ => rfl
    have unanswered : ¬ a.Answered := fun answered => answered.not_cut cut
    constructor
    · simp [kind?, told, accepted]
    · simp [kind?, told, accepted]
    · simp [kind?, told, Passage.Pending, cut]
    · simp [unanswered]
    · simp [told, waited, cut]
  | unshown accepted waited answered unshown raised =>
    constructor
    · simp [kind?, raised, accepted]
    · simp [kind?, raised, accepted]
    · simp [kind?, raised, Passage.Pending, answered]
    · simp [unshown]
    · simp [raised, waited, answered, unshown]
  | ready accepted waited answered shown =>
    constructor
    · simp [kind?, accepted]
    · simp [kind?, accepted]
    · simp [kind?, Passage.Pending, answered]
    · simp [waited, answered, shown]
    · simp [answered.not_cut, shown]

/-! ## The steps of a start -/

open Passage Work

/-- A step that is refused is reported; what is refused is not an image. -/
theorem reporting_ensures {α : Type} {step : Step} {body : Work α} {Q : Passage → α → Prop}
    {part : Part} (h : body.Ensures (reliance service files) Q (Refused part) a)
    (early : part ≠ .waiting) (made : part ≠ .creating) :
    (reporting step body).Ensures (reliance service files) Q Reported a := by
  refine Ensures.handle h ?_ ?_
  · intro a₁ f refused _
    have same : part.refusal f = .refused := Part.refusal_of_ne made
    exact log_then (refused.reported early (by rw [same]; rfl))
  · intro a₁ f refused other
    cases refused.engine.symm.trans other

theorem ensureEngine_ensures (preparing : a.part = .preparing) :
    ensureEngine.Ensures (reliance service files) (fun a' _ => Opens a a') Reported a := by
  have early : a.part ≠ .waiting := by simp [preparing]
  refine ask_then (fun _ => rfl) fun checked => ?_
  refine ensures_ite (fun _ => ?_) fun _ => .inl rfl
  refine Ensures.andThen (Client.connect_ensures early) (fun _ _ h => h.elim) ?_
  rintro a₁ (_ | _) answers
  · rcases answers with ⟨f, refused⟩
    have unreachable : Reported a₁ Problem.unreachable.fault :=
      refused.reported early (by rw [Part.refusal_of_ne (by simp [preparing])]; rfl)
    exact unreachable
  · obtain rfl : a₁ = a.opened := answers
    exact ensures_ask fun _ _ => .inr rfl

theorem ensureNetwork_ensures (preparing : a.part = .preparing) (name : String) :
    (ensureNetwork name).Ensures (reliance service files) (fun a' _ => Opens a a') Reported a := by
  have early : a.part ≠ .waiting := by simp [preparing]
  refine ask_then (fun _ => rfl) fun known => ?_
  refine ensures_ite (fun _ => ?_) fun _ => .inl rfl
  refine Ensures.bind (reporting_ensures (Client.ensureNetwork_ensures early name) early
    (by simp [preparing])) ?_
  rintro a₁ - rfl
  exact ensures_ask fun _ _ => .inr rfl

/-- Only an image that is missing when the container is made is a faulty configuration. -/
theorem create_ensures (p : Provisioner) (preparing : a.part = .preparing) (made : Service)
    (network : Option String) (spec : Engine.ContainerSpec) :
    (p.create made network spec).Ensures (reliance service files)
      (fun a' _ => a' = { a.opened with part := .running }) Reported a := by
  refine Ensures.bind (ensureEngine_ensures preparing) ?_
  rintro a₁ - opens₁
  have preparing₁ : a₁.part = .preparing := by rcases opens₁ with rfl | rfl <;> exact preparing
  refine Ensures.bind (ensureNetwork_ensures preparing₁ _) ?_
  rintro a₂ - opens₂
  -- Which of the steps has opened the client does not show once it is open.
  have same : a₂.opened = a.opened := by
    rcases opens₁ with rfl | rfl <;> rcases opens₂ with rfl | rfl <;> rfl
  refine ask_then (fun _ => rfl) fun id => ?_
  refine Ensures.bind (Q := fun a' _ => a' = { a₂.opened with part := .creating }) ?_ ?_
  · refine Ensures.handle (Client.createContainer_ensures (a := { a₂ with part := .creating })
      (by simp) _) ?_ ?_
    · -- The handler asks for the kind of error that the passage has noted.
      intro a₃ f refused _
      refine ensures_ite (fun lacks => ?_) fun has => ?_
      · have missing : Part.refusal .creating f = .missing := if_pos ⟨rfl, lacks⟩
        exact refused.reported (by simp) (by rw [missing]; rfl)
      · have other : Part.refusal .creating f = .refused := if_neg fun h => has h.2
        exact log_then (refused.reported (by simp) (by rw [other]; rfl))
    · intro a₃ f refused other
      cases refused.engine.symm.trans other
  rintro a₃ containerId rfl
  rw [same]
  refine ask_then (fun _ => rfl) fun identity => ?_
  refine ask_then (fun _ => rfl) fun _ => ?_
  exact log_then rfl

theorem copyRealm_ensures (running : a.part = .running) (k : Capability) (realm : List UInt8) :
    (reporting (.copy .keycloak)
      (Client.putFile k.containerId realmTarget realm 1000 0)).Ensures (reliance service files)
        (fun a' _ => a' = a.opened) Reported a := by
  have absolute : (Archive.relative realmTarget).isOk = true := by decide +kernel
  obtain ⟨names, named⟩ := exists_of_isOk absolute
  exact reporting_ensures (Client.putFile_ensures running named k.containerId realm 1000 0)
    (by simp [running]) (by simp [running])

theorem start_ensures (running : a.part = .running) (started : Service) (k : Capability) :
    (start started k).Ensures (reliance service files)
      (fun a' _ => a' = { a.opened with started := true }) Reported a :=
  reporting_ensures (Client.startContainer_ensures running k.containerId) (by simp [running])
    (by simp [running])

theorem publishedPort_ensures (locating : a.part = .locating) {port : Nat}
    (next : service.ports[a.ports.length]? = some port) (s : Service) (k : Capability) :
    (publishedPort s k port).Ensures (reliance service files)
      (fun a' n => a' = { a.opened with ports := a.ports ++ [n] }) Reported a :=
  reporting_ensures (Client.publishedPort_ensures locating next k.containerId)
    (by simp [locating]) (by simp [locating])

theorem existing_ensures {path : String} {q : Files.Place} (leads : files.Leads path (.ok q))
    (s : Service) (what : String) {E : Passage → Fault → Prop} :
    (existing s what path).Ensures (reliance service files) (fun a' place => a' = a ∧ place = q)
      E a := by
  have found : files.resolve path = .ok q := Files.resolve_eq leads
  refine Ensures.handle (E := fun _ _ => False) ?_ (fun _ _ h => h.elim) fun _ _ h => h.elim
  rintro r (granted : r = files.resolve path)
  rw [granted, found]
  exact ⟨rfl, rfl⟩

theorem scriptMounts_ensures {path : Option String}
    (offers : ∀ s, path = some s → files.Offers s .postgres) {E : Passage → Fault → Prop} :
    (scriptMounts path).Ensures (reliance service files) (fun a' _ => a' = a) E a := by
  cases path with
  | none => exact rfl
  | some path =>
    rcases offers path rfl with ⟨q, leads, directory⟩
    refine Ensures.bind (existing_ensures leads _ _) ?_
    rintro a₁ place ⟨rfl, rfl⟩
    refine Ensures.bind (Q := fun a' found => a' = a₁ ∧ found.1 = true) ?_ ?_
    · rintro r (granted : r = (files.isDirectory place, files.absolute place))
      rw [granted]
      exact ⟨rfl, directory⟩
    · rintro a₂ ⟨isDirectory, full⟩ ⟨rfl, is : isDirectory = true⟩
      rw [is]
      exact rfl

theorem readRealm_ensures {path : String} (offers : files.Offers path .keycloak)
    {E : Passage → Fault → Prop} :
    (readRealm path).Ensures (reliance service files) (fun a' _ => a' = a) E a := by
  rcases offers with ⟨q, content, leads, read⟩
  refine Ensures.bind (existing_ensures leads _ _) ?_
  rintro a₁ place ⟨rfl, rfl⟩
  refine ask_then (fun _ => rfl) fun found => ?_
  refine Ensures.handle (E := fun _ _ => False) ?_ (fun _ _ h => h.elim) fun _ _ h => h.elim
  rintro r (granted : r = files.read place)
  rw [granted, read]
  exact rfl

end Provisioner

/-! ## Whole starts -/

namespace Passage

/-- All that is left is to wait for the service. -/
structure Located (service : Service) (a : Passage) : Prop where
  accepted : a.refusal = none
  started : a.started = true
  located : a.ports.length = service.ports.length
  unasked : a.answer = none

variable {service : Service} {a a' : Passage}

theorem Located.pending (h : a.Located service) : a.Pending := by
  constructor
  · simp [Answered, h.unasked]
  · simp [Cut, h.unasked]

theorem Located.accepted_waits (h : a.Located service) (waits : Waits a a') :
    a'.refusal = none := by
  rcases waits with ⟨_, _, _, rfl⟩
  exact h.accepted

theorem Located.waited (h : a.Located service) (waits : Waits a a') : a'.Waited service := by
  rcases waits with ⟨_, _, _, rfl⟩
  exact ⟨rfl, h.started, h.located⟩

end Passage

namespace Provisioner

variable {c : ServiceConfig} {service : Service} {files : Files} {a : Passage}

open Passage Work

theorem waitReady_ending {probe : Work Bool} (located : a.Located service)
    (tells : Tells service files probe) (calls : probe.Gives Call.Probes fun _ => True)
    (k : Capability) (timeout : Seconds) (description : String) :
    (waitReady service k probe timeout description).Ensures (reliance service files)
      (fun a' _ => Waits a a' ∧ a'.Answered) (fun a' f => Ending c service a' (.error f)) a := by
  refine (waitReady_ensures tells calls k timeout description located.pending).mono
    (fun _ _ h => h) ?_
  rintro a' f ⟨waits, ⟨cancelled, cut⟩ | ⟨pending, told⟩⟩
  · exact .cut (located.accepted_waits waits) (located.waited waits) cut cancelled
  · exact .expired (located.accepted_waits waits) (located.waited waits) pending told

theorem startPostgres_ensures (p : Provisioner) (c : PostgresConfig)
    (offers : ∀ path, c.initScripts = some path → files.Offers path .postgres) :
    (p.startPostgres c).Ensures (reliance .postgres files)
      (fun a h => Ending (.postgres c) .postgres a (.ok h))
      (fun a f => Ending (.postgres c) .postgres a (.error f)) {} := by
  have reported (a : Passage) (f : Fault) (h : Reported a f) :
      Ending (.postgres c) .postgres a (.error f) := .refused h
  -- As long as the service is not waited for, only the engine can end the start.
  refine log_then ?_
  refine Ensures.bind (scriptMounts_ensures offers) ?_
  rintro a₁ mounts rfl
  refine Ensures.andThen (create_ensures p rfl _ _ _) reported ?_
  rintro a₂ k rfl
  refine Ensures.andThen (start_ensures rfl _ k) reported ?_
  rintro a₃ - rfl
  refine Ensures.bind (Client.hostAddress_ensures rfl) ?_
  rintro a₄ host rfl
  have first : Service.postgres.ports[0]? = some databasePort := rfl
  refine Ensures.andThen (publishedPort_ensures rfl first _ k) reported ?_
  rintro a₅ port found
  have located : a₅.Located .postgres := by
    rw [found]
    exact ⟨rfl, rfl, rfl, rfl⟩
  -- From here on the engine does not matter, and the probe only depends on the URI.
  generalize same : databaseUri c host port = uri
  have tells : Tells .postgres files (Readiness.databaseAccepts uri) :=
    Readiness.databaseAccepts_tells uri
  have waits := waitReady_ending (c := .postgres c) located tells
    (Readiness.databaseAccepts_gives uri) k
  refine Ensures.bind (waits _ _) ?_
  rintro a₆ - ⟨waits, answered⟩
  have accepted := located.accepted_waits waits
  have waited := located.waited waits
  -- What is shown is the URI that the passage makes.
  have made : c.uriAfter a₆ = uri := by
    rcases waits with ⟨_, _, _, rfl⟩
    rw [← same, found]
    rfl
  refine Ensures.bind (Q := fun a' text => a' = a₆ ∧ Uri.redact uri = .ok text)
    (ensures_mapError (fun text shown => ⟨rfl, shown⟩) ?_) ?_
  · intro problem failed
    have unshown : ¬ (ServiceConfig.postgres c).Shows a₆ := by
      rintro ⟨text, shown⟩
      rw [made, failed] at shown
      cases shown
    exact .unshown accepted waited answered unshown rfl
  · rintro a₇ text ⟨rfl, shown⟩
    refine log_then ?_
    refine log_then ?_
    exact .ready accepted waited answered ⟨text, made ▸ shown⟩

theorem startKeycloak_ensures (p : Provisioner) (c : KeycloakConfig)
    (offers : files.Offers c.realmFile .keycloak) :
    (p.startKeycloak c).Ensures (reliance .keycloak files)
      (fun a h => Ending (.keycloak c) .keycloak a (.ok h))
      (fun a f => Ending (.keycloak c) .keycloak a (.error f)) {} := by
  have reported (a : Passage) (f : Fault) (h : Reported a f) :
      Ending (.keycloak c) .keycloak a (.error f) := .refused h
  -- As long as the service is not waited for, only the engine can end the start.
  refine log_then ?_
  refine Ensures.bind (readRealm_ensures offers) ?_
  rintro a₁ realm rfl
  refine Ensures.andThen (create_ensures p rfl _ _ _) reported ?_
  rintro a₂ k rfl
  refine Ensures.andThen (copyRealm_ensures rfl k realm) reported ?_
  rintro a₃ - rfl
  refine Ensures.andThen (start_ensures rfl _ k) reported ?_
  rintro a₄ - rfl
  refine Ensures.bind (Client.hostAddress_ensures rfl) ?_
  rintro a₅ host rfl
  have first : Service.keycloak.ports[0]? = some webPort := rfl
  refine Ensures.andThen (publishedPort_ensures rfl first _ k) reported ?_
  rintro a₆ port rfl
  have second : Service.keycloak.ports[1]? = some healthPort := rfl
  refine Ensures.andThen (publishedPort_ensures rfl second _ k) reported ?_
  rintro a₇ health found
  -- From here on the engine does not matter, and the probe only depends on the page.
  generalize s!"http://{host}:{health}{healthPath}" = page
  have located : a₇.Located .keycloak := by
    rw [found]
    exact ⟨rfl, rfl, rfl, rfl⟩
  have tells : Tells .keycloak files (Readiness.pageAnswers page) :=
    Readiness.pageAnswers_tells page
  have waits := waitReady_ending (c := .keycloak c) located tells
    (Readiness.pageAnswers_gives page 200) k
  refine Ensures.bind (waits _ _) ?_
  rintro a₈ - ⟨waits, answered⟩
  refine log_then ?_
  refine log_then ?_
  exact .ready (located.accepted_waits waits) (located.waited waits) answered trivial

end Provisioner
end Testbed
