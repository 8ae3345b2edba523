import Testbed.Proofs.DeadEnds
import Testbed.Proofs.Ports
import Testbed.Proofs.Reliance

/-!
# The passage of a start

What is to be noted of the exchanges of a start in order to tell how it has to end: how far it has
come, what the engine has refused, and what the service has answered since it is waited for.  A
`Passage` is made of the exchanges alone; it does not look at what the program makes of them.
-/

namespace Testbed

/-- How far a start has come. -/
inductive Part where
  | preparing
  | creating
  | running
  | locating
  | waiting
  deriving Repr, DecidableEq

/-- In what way the engine has refused a start. -/
inductive Refusal where
  /-- It has no such image. -/
  | missing
  | refused
  deriving Repr, DecidableEq

/-- An image that the engine does not have is a fault of the configuration. -/
def Refusal.kind : Refusal → ProvisionKind
  | missing => .configInvalid
  | refused => .engineUnavailable

/-- An image can only be missing when a container is made of it. -/
def Part.refusal (p : Part) (f : Fault) : Refusal :=
  if p = .creating ∧ f.isA (· == .imageNotFound) = true then .missing else .refused

theorem Part.refusal_of_ne {p : Part} {f : Fault} (h : p ≠ .creating) : p.refusal f = .refused :=
  if_neg fun hc => h hc.1

/-- The ports of a container that a start looks up, in order. -/
def Service.ports : Service → List Nat
  | .postgres => [Provisioner.databasePort]
  | .keycloak => [Provisioner.webPort, Provisioner.healthPort]

/-- What is noted of the exchanges of a start. -/
structure Passage where
  part : Part := .preparing
  /-- The engine client has been opened. -/
  isOpen : Bool := false
  /-- The container has been started. -/
  started : Bool := false
  /-- The host under which ports are published. -/
  host : String := ""
  /-- The host ports that have been found. -/
  ports : List Int := []
  refusal : Option Refusal := none
  /-- What the last query of the database has answered. -/
  asked : Except Fault Json := .ok .null
  /-- What the service has answered last, if it has been asked. -/
  answer : Option (Except Fault Bool) := none

namespace Passage

/-- An error of the engine is a refusal unless the service is being waited for. -/
def fail (a : Passage) (f : Fault) : Passage :=
  if a.part = .waiting then a else { a with refusal := some (a.part.refusal f) }

/-- A look-up has found the container, whose data may name the port that is wanted next. -/
def find (service : Service) (a : Passage) (id : String) (found : Engine.Snapshot) : Passage :=
  if a.part = .locating then
    match service.ports[a.ports.length]? with
    | none => a
    | some port =>
      match Port.published id port found.attributes with
      | .ok n => { a with ports := a.ports ++ [n] }
      | .error f => a.fail f
  else a

/-- The engine has answered a request.  An image that is not found at first is looked for
elsewhere. -/
def request (service : Service) (a : Passage) :
    (r : Engine.Request) → Except Fault r.Reply → Passage
  | .findImage _, .error f => if f.isA (· == .imageNotFound) then a else a.fail f
  | .start _, .ok _ => { a with started := true }
  | .putArchive .., reply =>
    match (reply : Except Fault Bool) with
    | .ok true => a
    | .ok false => { a with refusal := some .refused }
    | .error f => a.fail f
  | .find id, .ok found => a.find service id found
  | _, .ok _ => a
  | _, .error f => a.fail f

/-- A call has got a reply. -/
def note (service : Service) (a : Passage) : (c : Call) → c.Reply → Passage
  | .openClient _, r =>
    match (r : Except Fault Unit) with
    | .ok _ => { a with isOpen := true }
    | .error f => a.fail f
  | .engine r, reply => a.request service r reply
  | .freshId, _ => { a with part := .creating }
  | .newIdentity, _ => { a with part := .running }
  | .viewClient, view =>
    { a with
      part := .locating
      host := (Client.hostOf (Client.ClientView.published view)).toOption.getD "" }
  | .processSettings, _ => { a with part := .waiting }
  | .connect _, r =>
    match (r : Except Fault Connection) with
    | .ok _ => a
    | .error f => { a with answer := some (.error f) }
  | .query _, r => { a with asked := r }
  | .disconnect _, r =>
    match (r : Except Fault Unit) with
    | .ok _ => { a with answer := some (a.asked.map fun value => Json.same value (.int 1)) }
    | .error f => { a with answer := some (.error f) }
  | .fetch _, r =>
    { a with answer := some ((r : Except Fault Response).map fun page => page.status == 200) }
  | _, _ => a

/-- What is relied on: the engine raises its own errors only and tells of ports as it should, its
address can be read, the files stay as they are, and the settings of the process are valid. -/
def grants (files : Files) (a : Passage) : (c : Call) → c.Reply → Prop
  | .openClient _, r => ∀ f, (r : Except Fault Unit) = .error f → Client.isEngineFault f = true
  | .engine r, reply => (∀ f, reply = .error f → Client.isEngineFault f = true) ∧
      match r, reply with
      | .find _, .ok found => Port.WellFormed found.attributes
      | _, _ => True
  | .viewClient, view =>
    a.isOpen = true → ∃ host, Client.hostOf (Client.ClientView.published view) = .ok host
  | .resolve path, r => r = files.resolve path
  | .inspect q, r => r = (files.isDirectory q, files.absolute q)
  | .readFile q, r => r = files.read q
  | .pause _, r => r = .ok ()
  | .processSettings, r => ∃ settings, (r : Except Fault Settings) = .ok settings
  | _, _ => True

/-- The reliance under which a passage is noted. -/
def reliance (service : Service) (files : Files) : Reliance Passage where
  grants := grants files
  note := note service

/-- The passage that some exchanges make. -/
def of (service : Service) (es : List Exchange) : Passage :=
  (reliance service {}).after {} es

/-- The passage once the client has been opened. -/
def opened (a : Passage) : Passage := { a with isOpen := true }

/-- The client may have been opened on the way. -/
def Opens (a a' : Passage) : Prop := a' = a ∨ a' = a.opened

/-- An error of the engine that has been noted as a refusal. -/
structure Refused (part : Part) (a : Passage) (f : Fault) : Prop where
  engine : Client.isEngineFault f = true
  part_eq : a.part = part
  refusal : a.refusal = some (part.refusal f)

/-- An error that reports a refusal. -/
structure Reported (a : Passage) (f : Fault) : Prop where
  early : a.part ≠ .waiting
  told : ∃ x service, a.refusal = some x ∧ f.provision? = some (x.kind, service)

variable {service : Service} {files : Files} {a a' : Passage} {f : Fault}

theorem fail_refused (h : a.part ≠ .waiting) (hf : Client.isEngineFault f = true) :
    Refused a.part (a.fail f) f := by
  rw [fail, if_neg h]
  exact ⟨hf, rfl, rfl⟩

theorem find_eq (other : a.part ≠ .locating) (id : String) (found : Engine.Snapshot) :
    a.find service id found = a :=
  if_neg other

/-- A refusal is reported by an error of the kind that it calls for. -/
theorem Refused.reported {part : Part} {g : Fault} {name : Option String} (h : Refused part a f)
    (early : part ≠ .waiting) (told : g.provision? = some ((part.refusal f).kind, name)) :
    Reported a g :=
  ⟨by rwa [h.part_eq], part.refusal f, name, h.refusal, told⟩

section

variable {α : Type} {Q : Passage → α → Prop} {E : Passage → Fault → Prop}

/-- A call whose replies are all noted in the same way, and what follows it. -/
theorem ask_then {c : Call} {f : c.Reply → Work α} (noted : ∀ r, a.note service c r = a')
    (h : ∀ r, (f r).Ensures (reliance service files) Q E a') :
    (Work.ask c >>= f).Ensures (reliance service files) Q E a := by
  intro r _
  have same : (reliance service files).note a c r = a' := noted r
  rw [same]
  exact h r

theorem log_then {level : Level} {text : String} {f : Unit → Work α}
    (h : (f ()).Ensures (reliance service files) Q E a) :
    (Work.log level text >>= f).Ensures (reliance service files) Q E a :=
  ask_then (fun _ => rfl) fun _ => h

end

end Passage

/-! ## The client -/

namespace Client

open Passage Work

variable {service : Service} {files : Files} {a : Passage}

theorem ensureOpen_ensures (early : a.part ≠ .waiting) (inWorker : Bool) :
    (ensureOpen inWorker).Ensures (reliance service files) (fun a' _ => a' = a.opened)
      (Refused a.part) a := by
  rintro (f | _) granted
  · exact fail_refused early (granted f rfl)
  · rfl

/-- A request whose errors are refusals. -/
theorem request_ensures {r : Engine.Request} {a' : Passage} (early : a.part ≠ .waiting)
    (ok : ∀ answer, a.request service r (.ok answer) = a')
    (error : ∀ f, a.request service r (.error f) = a.fail f) :
    (Work.engine r).Ensures (reliance service files) (fun a₁ _ => a₁ = a') (Refused a.part) a := by
  refine ensures_engine (fun answer _ => ok answer) fun f granted => ?_
  have refused := fail_refused early (granted.1 f rfl)
  rwa [← error f] at refused

theorem connect_ensures (early : a.part ≠ .waiting) :
    connect.Ensures (reliance service files)
      (fun a' answers => if answers then a' = a.opened else ∃ f, Refused a.part a' f)
      (fun _ _ => False) a := by
  refine Ensures.handle (E := Refused a.part) ?_ ?_ ?_
  · refine Ensures.bind (ensureOpen_ensures early true) ?_
    rintro a₁ - rfl
    refine Ensures.bind (request_ensures (a := a.opened) early (fun _ => rfl) fun _ => rfl) ?_
    rintro a₂ - rfl
    exact log_then rfl
  · intro a₁ f refused _
    refine log_then ?_
    exact ⟨f, refused⟩
  · intro a₁ f refused other
    cases refused.engine.symm.trans other

theorem ensureNetwork_ensures (early : a.part ≠ .waiting) (name : String) :
    (ensureNetwork name).Ensures (reliance service files) (fun a' _ => a' = a.opened)
      (Refused a.part) a := by
  refine Ensures.bind (ensureOpen_ensures early false) ?_
  rintro a₁ - rfl
  refine Ensures.bind (request_ensures (a := a.opened) early (fun _ => rfl) fun _ => rfl) ?_
  rintro a₂ known rfl
  refine ensures_ite (fun _ => ?_) fun _ => ?_
  · exact log_then rfl
  · refine Ensures.bind (request_ensures (a := a.opened) early (fun _ => rfl) fun _ => rfl) ?_
    rintro a₃ - rfl
    exact log_then rfl

/-- An image that is not found is pulled; only if that fails, too, it is refused. -/
theorem findImage_ensures (early : a.part ≠ .waiting) (image : String) :
    (Work.handle (fun f => f.isA (· == .imageNotFound))
      (do
        let _ ← Work.engine (.findImage image))
      fun _ => do
        Work.log Level.info s!"Pulling image {image}"
        let _ ← Work.engine (.pullImage image)).Ensures (reliance service files)
          (fun a' _ => a' = a) (Refused a.part) a := by
  refine Ensures.handle (E := fun a' f =>
    if f.isA (· == .imageNotFound) then a' = a else Refused a.part a' f) ?_ ?_ ?_
  · refine Ensures.bind (Q := fun a' _ => a' = a) (ensures_engine (fun _ _ => rfl) ?_)
      fun _ _ h => h
    intro f granted
    by_cases lacks : f.isA (· == .imageNotFound) = true
    · simp [reliance, note, request, lacks]
    · have refused := fail_refused early (granted.1 f rfl)
      simpa [reliance, note, request, lacks] using refused
  · intro a₁ f found lacks
    obtain rfl : a₁ = a := by rwa [if_pos lacks] at found
    refine log_then ?_
    exact Ensures.bind (request_ensures early (fun _ => rfl) fun _ => rfl) fun _ _ h => h
  · intro a₁ f refused other
    rwa [if_neg (by simp [other])] at refused

theorem createContainer_ensures (early : a.part ≠ .waiting) (spec : Engine.ContainerSpec) :
    (createContainer spec).Ensures (reliance service files) (fun a' _ => a' = a.opened)
      (Refused a.part) a := by
  refine Ensures.bind (ensureOpen_ensures early false) ?_
  rintro a₁ - rfl
  refine Ensures.bind (findImage_ensures (a := a.opened) early spec.image) ?_
  rintro a₂ - rfl
  refine Ensures.bind (request_ensures (a := a.opened) early (fun _ => rfl) fun _ => rfl) ?_
  rintro a₃ - rfl
  exact log_then rfl

/-- A look-up of a container that is no search for its ports. -/
theorem find_ensures (early : a.part ≠ .waiting) (other : a.part ≠ .locating) (id : String) :
    (Work.engine (.find id)).Ensures (reliance service files) (fun a' _ => a' = a)
      (Refused a.part) a :=
  request_ensures early (find_eq other id) fun _ => rfl

/-- A file is copied into a container that runs, under a path that has a name. -/
theorem putFile_ensures (running : a.part = .running) {path : String} {names : List String}
    (named : Archive.relative path = .ok names) (id : String) (data : List UInt8) (uid gid : Int) :
    (putFile id path data uid gid).Ensures (reliance service files)
      (fun a' _ => a' = a.opened) (Refused a.part) a := by
  have early : a.part ≠ .waiting := by simp [running]
  refine Ensures.bind (ensureOpen_ensures early false) ?_
  rintro a₁ - rfl
  refine Ensures.bind (Q := fun a' _ => a' = a.opened) ?_ ?_
  · rw [named]
    exact rfl
  rintro a₂ members rfl
  refine Ensures.bind (find_ensures (a := a.opened) early (by simp [opened, running]) id) ?_
  rintro a₃ - rfl
  refine Ensures.bind (Q := fun a' (accepted : Bool) =>
    if accepted then a' = a.opened else a' = { a.opened with refusal := some .refused }) ?_ ?_
  · refine ensures_engine ?_ fun f granted => fail_refused (a := a.opened) early (granted.1 f rfl)
    rintro (_ | _) - <;> rfl
  · rintro a₄ (accepted : Bool) after
    refine ensures_ite (fun yes => ?_) fun no => ?_
    · obtain rfl : a₄ = a.opened := by rwa [if_pos yes] at after
      exact ensures_ask fun _ _ => rfl
    · obtain rfl : a₄ = { a.opened with refusal := some .refused } := by rwa [if_neg no] at after
      refine ensures_throw ⟨rfl, rfl, ?_⟩
      simp [running, Part.refusal]

theorem startContainer_ensures (running : a.part = .running) (id : String) :
    (startContainer id).Ensures (reliance service files)
      (fun a' _ => a' = { a.opened with started := true }) (Refused a.part) a := by
  have early : a.part ≠ .waiting := by simp [running]
  refine Ensures.bind (ensureOpen_ensures early false) ?_
  rintro a₁ - rfl
  refine Ensures.bind (find_ensures (a := a.opened) early (by simp [opened, running]) id) ?_
  rintro a₂ found rfl
  refine Ensures.bind (request_ensures (a := a.opened) early (fun _ => rfl) fun _ => rfl) ?_
  rintro a₃ - rfl
  exact ensures_ask fun _ _ => rfl

/-- The host is found at an engine whose client is open. -/
theorem hostAddress_ensures (isOpen : a.isOpen = true) {E : Passage → Fault → Prop} :
    hostAddress.Ensures (reliance service files)
      (fun a' host => a' = { a with part := .locating, host := host }) E a := by
  intro (view : ClientView) granted
  rcases granted isOpen with ⟨host, found⟩
  have noted : a.note service .viewClient view = { a with part := .locating, host := host } := by
    simp [note, found, Except.toOption]
  refine ensures_ofExcept ?_ ?_
  · intro host' found'
    cases found.symm.trans found'
    exact noted
  · intro f none_found
    cases found.symm.trans none_found

/-- The port that is wanted next is found, or the engine is said not to have published it. -/
theorem publishedPort_ensures (locating : a.part = .locating) {port : Nat}
    (next : service.ports[a.ports.length]? = some port) (id : String) :
    (publishedPort id port).Ensures (reliance service files)
      (fun a' n => a' = { a.opened with ports := a.ports ++ [n] }) (Refused a.part) a := by
  have early : a.part ≠ .waiting := by simp [locating]
  refine Ensures.bind (ensureOpen_ensures early false) ?_
  rintro a₁ - rfl
  -- The container is looked up, and what it publishes is read off the answer.
  have looked (found : Engine.Snapshot) : a.opened.find service id found =
      match Port.published id port found.attributes with
      | .ok n => { a.opened with ports := a.ports ++ [n] }
      | .error f => a.opened.fail f := by
    have wanted : service.ports[a.opened.ports.length]? = some port := next
    rw [find, if_pos (by exact locating), wanted]
    rfl
  refine Ensures.bind (Q := fun a' found =>
    Port.WellFormed found.attributes ∧ a' = a.opened.find service id found) ?_ ?_
  · exact ensures_engine (fun found granted => ⟨granted.2, rfl⟩) fun f granted =>
      fail_refused (a := a.opened) early (granted.1 f rfl)
  · rintro a₂ found ⟨formed, rfl⟩
    rw [looked]
    rcases formed.published id port with ⟨n, bound⟩ | unbound
    · rw [bound]
      exact rfl
    · rw [unbound]
      exact fail_refused (a := a.opened) early rfl

end Client
end Testbed
