import Testbed.Proofs.Classification
import Testbed.Proofs.Containers
import Testbed.Proofs.Undisturbed

/-!
# Starts in an orderly world

A world is orderly if its engine raises only its own errors and tells of ports as it should, and
settings and address of the engine can be read.  Whatever the engine refuses and whatever the
service answers, a start then comes to an end that its passage classifies.
-/

namespace Testbed

/-- The worker threads take calls, the settings of the process are valid, the engine raises its own
errors only and tells of ports as it should, and its address can be split. -/
structure World.Orderly (w : World) : Prop where
  workers : w.workersOpen = true
  settings : ∃ s, w.process = .ok s
  faults : ∀ f, w.engine.Raises f → Client.isEngineFault f = true
  ports : w.engine.TellsPorts
  address : ∃ u, Uri.split w.engineAddress.toList = .ok u

/-- What a passage notes is so in the world, which stays orderly. -/
structure World.Tracks (files : Files) (w : World) (a : Passage) : Prop where
  orderly : w.Orderly
  files_eq : w.files = files
  isOpen : a.isOpen = true → w.clientOpen = true

theorem Engine.TellsPorts.alike {e e' : Engine} (h : e.TellsPorts) (same : e.Alike e') :
    e'.TellsPorts where
  attributes := fun j found => h.attributes j (same.attributes ▸ found)
  portMap := fun j found => h.portMap j (same.portMap ▸ found)

theorem Client.hostOf_ok {address : String} (h : ∃ u, Uri.split address.toList = .ok u) :
    ∃ host, Client.hostOf address = .ok host := by
  rcases h with ⟨u, split⟩
  unfold Client.hostOf
  rw [split]
  split
  · exact ⟨_, rfl⟩
  · simp only
    split
    · split <;> exact ⟨_, rfl⟩
    · exact ⟨_, rfl⟩

namespace World

variable {w w' : World} {files : Files} {a : Passage} {session : String} {service : Service}
  {c : Call}

theorem Orderly.alike {e : Engine} {isOpen : Bool} (h : w.Orderly) (same : w.engine.Alike e) :
    Orderly { w with engine := e, clientOpen := isOpen } where
  workers := h.workers
  settings := h.settings
  faults := by
    rintro f ⟨rule, mem, raises⟩
    exact h.faults f ⟨rule, same.faults ▸ mem, raises⟩
  ports := h.ports.alike same
  address := by
    have kept : engineAddress { w with engine := e, clientOpen := isOpen } = w.engineAddress := by
      simp only [engineAddress, same.baseUrl]
    rw [kept]
    exact h.address

/-- The calls of the provisioner leave a world orderly. -/
theorem Effect.orderly (h : Effect w c w') (calls : c.Provisions session) (o : w.Orderly) :
    w'.Orderly ∧ w'.files = w.files := by
  -- Only the engine and its client change in a way that could matter.
  cases h with
  | openClient inWorker isOpen host => exact ⟨o.alike (Engine.connect_alike _ _), rfl⟩
  | engine r ho => exact ⟨o.alike (Engine.perform_alike _ _), rfl⟩
  | shutdown => cases calls
  | _ => exact ⟨⟨o.workers, o.settings, o.faults, o.ports, o.address⟩, rfl⟩

theorem openClient_eq (o : w.Orderly) (inWorker : Bool) :
    w.perform (.openClient inWorker) = some w.openClient := by
  cases inWorker with
  | false => rfl
  | true =>
    have open_workers : w.viaWorkers openClient = w.openClient := if_pos o.workers
    exact congrArg some open_workers

theorem openClient_error {f : Fault} (h : w.openClient.1 = .error f) : w.engine.Raises f := by
  unfold openClient at h
  split at h
  · cases h
  · simp only at h
    split at h
    · cases h
    · rename_i failed
      cases h
      exact Engine.connect_error (congrArg Prod.fst failed)

theorem engine_eq (o : w.Orderly) (r : Engine.Request) :
    w.perform (.engine r) =
      some ((w.engine.perform r).1, { w with engine := (w.engine.perform r).2 }) :=
  congrArg some (if_pos o.workers)

/-- Only an attempt to open the client can leave it closed. -/
theorem clientOpen_of_perform {r : c.Reply} (calls : c.Provisions session) (o : w.Orderly)
    (reply : w.perform c = some (r, w')) (isOpen : w.clientOpen = true) :
    w'.clientOpen = true := by
  cases effect_of_perform reply with
  | openClient inWorker =>
    rw [openClient_eq o, openClient, if_pos isOpen] at reply
    have same := congrArg (fun r => r.2.clientOpen) (Option.some.inj reply)
    exact same.symm.trans isOpen
  | forgetClient => cases calls
  | shutdown => cases calls
  | _ => exact isOpen

/-- An orderly world gives the replies that are relied on. -/
theorem Tracks.granted {r : c.Reply} (t : w.Tracks files a) (calls : c.Provisions session)
    (reply : w.perform c = some (r, w')) : a.grants files c r := by
  have o := t.orderly
  -- The engine of an orderly world only raises errors that are relied on, and publishes ports;
  -- files and settings stay as they are.
  cases c with
  | openClient inWorker =>
    rintro f (failed : r = .error f)
    rw [openClient_eq o] at reply
    have raised : w.openClient.1 = .error f :=
      (congrArg Prod.fst (Option.some.inj reply)).trans failed
    exact o.faults f (openClient_error raised)
  | engine request =>
    rw [engine_eq o] at reply
    have answer : (w.engine.perform request).1 = r := congrArg Prod.fst (Option.some.inj reply)
    refine ⟨?_, ?_⟩
    · intro f failed
      rcases Engine.perform_error (answer.trans failed) with raised | own
      · exact o.faults f raised
      · exact own
    · split
      · rename_i found
        rcases Engine.find_snapshot answer with ⟨e, k, same, rfl⟩
        exact (o.ports.alike same).snapshot k
      · trivial
  | viewClient =>
    cases reply
    intro isOpen
    have address : Client.ClientView.published ⟨w.host, w.clientOpen, w.engineAddress⟩ =
        w.engineAddress := if_pos (t.isOpen isOpen)
    rw [address]
    exact Client.hostOf_ok o.address
  | resolve path =>
    cases reply
    exact congrArg (fun fs : Files => fs.resolve path) t.files_eq
  | inspect q =>
    cases reply
    exact congrArg (fun fs : Files => (fs.isDirectory q, fs.absolute q)) t.files_eq
  | readFile q =>
    have read : w.perform (.readFile q) = some (w.files.read q, w) :=
      congrArg some (if_pos o.workers)
    rw [read] at reply
    cases reply
    exact congrArg (fun fs : Files => fs.read q) t.files_eq
  | pause time =>
    rw [perform, if_pos o.workers] at reply
    cases reply
    exact rfl
  | processSettings =>
    cases reply
    exact o.settings
  | _ => trivial

/-- The calls of the provisioner are answered. -/
theorem perform_isSome_of_provisions (calls : c.Provisions session) :
    ∃ r w', w.perform c = some (r, w') := by
  cases c with
  | pause seconds =>
    by_cases workers : w.workersOpen = true
    · exact ⟨_, _, if_pos workers⟩
    · exact ⟨_, _, if_neg workers⟩
  | _ => first | exact ⟨_, _, rfl⟩ | exact False.elim calls

theorem openClient_opens (h : w.openClient.1 = .ok ()) : w.openClient.2.clientOpen = true := by
  unfold openClient at h ⊢
  split
  · assumption
  · simp only
    split
    · rfl
    · rename_i isClosed _ _ _ failed
      simp only [isClosed, failed] at h
      cases h

end World

namespace Passage

variable {service : Service} {a : Passage}

@[simp]
theorem fail_isOpen (f : Fault) : (a.fail f).isOpen = a.isOpen := by
  unfold fail
  split <;> rfl

/-- Only the opening of the client is noted as such. -/
theorem note_isOpen {c : Call} {r : c.Reply} (other : ∀ inWorker, c ≠ .openClient inWorker) :
    (a.note service c r).isOpen = a.isOpen := by
  cases c with
  | openClient inWorker => exact absurd rfl (other inWorker)
  | engine request =>
    rcases r with f | answer
    · cases request with
      | findImage image =>
        simp only [note, request]
        split <;> simp
      | _ => exact fail_isOpen f
    · cases request with
      | find id =>
        simp only [note, request, find]
        split
        · split
          · rfl
          · split <;> simp
        · rfl
      | putArchive id members => rcases answer with _ | _ <;> rfl
      | _ => rfl
  | connect dsn => rcases r with _ | _ <;> rfl
  | disconnect connection => rcases r with _ | _ <;> rfl
  | _ => rfl

end Passage

namespace World

variable {w : World} {files : Files} {a : Passage} {session : String} {service : Service}
  {c : Call}

theorem Tracks.step (t : w.Tracks files a) (calls : c.Provisions session) :
    ∃ r w', w.perform c = some (r, w') ∧ a.grants files c r ∧
      w'.Tracks files (a.note service c r) := by
  rcases perform_isSome_of_provisions (w := w) calls with ⟨r, w', reply⟩
  have o := t.orderly
  rcases (effect_of_perform reply).orderly calls o with ⟨orderly, files_eq⟩
  refine ⟨r, w', reply, t.granted calls reply, orderly, files_eq.trans t.files_eq, ?_⟩
  intro isOpen
  -- A client noted as open has been opened by this call, or was open and has stayed so.
  by_cases opens : ∃ inWorker, c = .openClient inWorker
  · rcases opens with ⟨inWorker, rfl⟩
    rcases r with f | _
    · have before : a.isOpen = true := (Passage.fail_isOpen f).symm.trans isOpen
      exact clientOpen_of_perform calls o reply (t.isOpen before)
    · rw [openClient_eq o] at reply
      have replied := Option.some.inj reply
      have opened := openClient_opens (congrArg Prod.fst replied)
      rwa [congrArg Prod.snd replied] at opened
  · have other : ∀ inWorker, c ≠ .openClient inWorker := fun b h => opens ⟨b, h⟩
    rw [Passage.note_isOpen other] at isOpen
    exact clientOpen_of_perform calls o reply (t.isOpen isOpen)

end World

namespace Provisioner

/-- Whatever the world is like, a start comes to an end. -/
theorem startService_ends (p : Provisioner) (c : ServiceConfig) (w : World) :
    ∃ es r w', Task.Ends (p.startService c) w es r w' := by
  have answered (w : World) (c : Call) (calls : c.Provisions p.session) :
      ∃ r w', w.perform c = some (r, w') := World.perform_isSome_of_provisions calls
  obtain ⟨es, r, w', ends, -⟩ := Task.Follows.ends (p.startService_gives c) answered w
  exact ⟨es, r, w', ends⟩

/-- In an orderly world every start comes to an end, and its passage tells to which. -/
theorem start_classified (p : Provisioner) (c : ServiceConfig) {service : Service} {w : World}
    (hs : c.service? = some service) (orderly : w.Orderly)
    (offers : ∀ path, c.path? = some path → w.files.Offers path service) :
    ∃ es r w', Task.Ends (p.startService c) w es r w' ∧
      Classified c service (Passage.of service es) r := by
  have ensured : Task.Ensures (Passage.reliance service w.files)
      (fun a r => Ending c service a r) (p.startService c) {} := by
    cases c with
    | postgres c =>
      cases hs
      refine Task.Ensures.mono (p.startPostgres_ensures c offers) ?_
      rintro a (f | h) ending <;> exact ending
    | keycloak c =>
      cases hs
      refine Task.Ensures.mono (p.startKeycloak_ensures c (offers c.realmFile rfl)) ?_
      rintro a (f | h) ending <;> exact ending
    | unsupported t => cases hs
  have tracks : w.Tracks w.files {} := ⟨orderly, rfl, nofun⟩
  rcases ensured.ends (p.startService_gives c) tracks fun w a c t calls => t.step calls with
    ⟨es, r, w', ends, ending⟩
  exact ⟨es, r, w', ends, ending.classified⟩

/-- A world with an engine that misses an image only when a container of it is started. -/
def misleadingWorld : World where
  engine := { faults := [{ call := "start", fault := some (.of .imageNotFound "gone") }] }

theorem misleadingWorld_orderly : misleadingWorld.Orderly where
  workers := rfl
  settings := ⟨{}, rfl⟩
  faults := by
    rintro f ⟨rule, mem, raises⟩
    obtain rfl := List.mem_singleton.1 mem
    cases raises
    rfl
  ports := ⟨nofun, nofun⟩
  address := Work.exists_of_isOk (by decide +kernel)

theorem start_classified_of_misleading_engine :
    misleadingWorld.Orderly ∧ ∃ es r w',
      Task.Ends ((⟨"s", {}⟩ : Provisioner).startService (.postgres {})) misleadingWorld es r w' ∧
        Classified (.postgres {}) .postgres (Passage.of .postgres es) r ∧
          (Passage.of .postgres es).refusal = some .refused := by
  have kind : kind? (World.run ((⟨"s", {}⟩ : Provisioner).startService (.postgres {}))
      misleadingWorld).1 = some .engineUnavailable := by decide +kernel
  rcases start_classified ⟨"s", {}⟩ (.postgres {}) rfl misleadingWorld_orderly nofun with
    ⟨es, r, w', ends, classified⟩
  rw [ends.run_eq] at kind
  exact ⟨misleadingWorld_orderly, es, r, w', ends, classified, classified.engineUnavailable.1 kind⟩

end Provisioner

/-! ## A service that is ready and not handed over -/

namespace Readiness

/-- How many attempts may follow the first one. -/
def furtherAttempts (p : Plan Float) : Nat := attemptBound p - 1

theorem attemptBound_eq (p : Plan Float) : attemptBound p = furtherAttempts p + 1 := by
  have positive : 0 < attemptBound p := by
    unfold attemptBound
    simp only
    generalize (if p.maxDelay < p.initialDelay then p.maxDelay else p.initialDelay) = least
    by_cases h : 0.0 < least
    · rw [if_pos h]
      omega
    · rw [if_neg h]
      decide
  simp only [furtherAttempts]
  omega

end Readiness

namespace Provisioner

/-- A world whose engine is reached under a bracketed address. -/
def bracketedWorld : World where
  host := some "tcp://[::1]:2375"

theorem bracketedWorld_orderly : bracketedWorld.Orderly where
  workers := rfl
  settings := ⟨{}, rfl⟩
  faults := by
    rintro f ⟨rule, mem, -⟩
    cases mem
  ports := ⟨nofun, nofun⟩
  address := Work.exists_of_isOk (by decide +kernel)

/-- The database is ready and its URI can be split, and yet there is neither a handle nor a
provisioning error. -/
theorem bracketed_address_raises_otherwise :
    bracketedWorld.Orderly ∧ ∃ es f w',
      Task.Ends ((⟨"s", {}⟩ : Provisioner).startService (.postgres {})) bracketedWorld es
        (.error f) w' ∧
          (Uri.split (PostgresConfig.uriAfter {} (Passage.of .postgres es)).toList).isOk = true ∧
            f.provision? = none := by
  have raises : (Task.given? (World.advance
      ((⟨"s", {}⟩ : Provisioner).startService (.postgres {})) bracketedWorld).1).map
        (fun r => (r.isOk, kind? r)) = some (false, none) := by
    -- The bound on attempts does not reduce; that one attempt is made is enough.
    simp only [startService, startPostgres, waitReady, Readiness.await, Readiness.attemptBound_eq]
    decide +kernel
  have splits : (Uri.split (PostgresConfig.uriAfter {} (Passage.of .postgres (Task.exchanges
      ((⟨"s", {}⟩ : Provisioner).startService (.postgres {})) bracketedWorld))).toList).isOk =
        true := by
    simp only [startService, startPostgres, waitReady, Readiness.await, Readiness.attemptBound_eq]
    decide +kernel
  rcases Option.map_eq_some_iff.1 raises with ⟨f | h, given, told⟩
  · have unclassified : f.provision?.map Prod.fst = none := congrArg Prod.snd told
    exact ⟨bracketedWorld_orderly, _, f, _, .of_given given, splits,
      Option.map_eq_none_iff.1 unclassified⟩
  · cases congrArg Prod.fst told

end Provisioner
end Testbed
