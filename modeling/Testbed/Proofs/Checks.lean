import Testbed.Proofs.Execution
import Testbed.Proofs.Provisioner

/-!
# What a start checks first

Before a start asks for a container it makes sure that the engine answers and that the network of
the container exists.  What earlier starts have found out is noted, so that it is not asked again;
only what the engine has confirmed is noted.
-/

namespace Testbed

/-- The network of the container that a configuration asks for. -/
def Provisioner.networkOf (p : Provisioner) : ServiceConfig → String
  | .postgres c => (given c.network).getD p.settings.networkName
  | .keycloak c => (given c.network).getD p.settings.networkName
  | .unsupported _ => p.settings.networkName

/-! ## Findings -/

/-- The call has nothing to do with the checks, nor with what they are made for. -/
def Call.Apart : Call → Prop
  | .engineChecked | .noteEngine | .networkKnown _ | .noteNetwork _ | .engine .ping
  | .engine (.listNetworks _) | .engine (.createNetwork _) | .engine (.create _) => False
  | _ => True

theorem Call.Waits.apart {c : Call} (h : c.Waits) : c.Apart := by
  cases c with
  | engine r => cases r <;> trivial
  | _ => trivial

theorem Call.Serves.apart {c : Call} (h : c.Serves) : c.Apart := by
  cases c with
  | engine r => cases r <;> trivial
  | _ => trivial

/-- The engine has answered a ping. -/
def Exchange.pings : Exchange → Bool
  | ⟨.engine .ping, .ok _⟩ => true
  | _ => false

namespace Call.Apart

variable {c : Call} (h : c.Apart)

include h

theorem silent (r : c.Reply) : Exchange.pings ⟨c, r⟩ = false := by
  cases c with
  | engine request => cases request <;> first | rfl | exact False.elim h
  | _ => rfl

theorem ne_noteEngine : c ≠ .noteEngine := by
  rintro rfl
  exact h

theorem ne_noteNetwork (n : String) : c ≠ .noteNetwork n := by
  rintro rfl
  exact h

theorem ne_createNetwork (n : String) : c ≠ .engine (.createNetwork n) := by
  rintro rfl
  exact h

end Call.Apart

/-- What a start knows of the engine, as its exchanges tell. -/
structure Findings where
  /-- The engine has been found to answer, now or before, or it has not been asked yet. -/
  checked : Option Bool := none
  /-- The engine has answered, which is not noted yet. -/
  owed : Bool := false
  /-- Networks that have been found to exist. -/
  sure : List String := []
  /-- The network that has been found not to exist. -/
  missing : Option String := none

namespace Findings

/-- The findings after one more exchange. -/
def learn (k : Findings) : (c : Call) → c.Reply → Findings
  | .engineChecked, checked => { k with checked := some checked }
  | .engine .ping, .ok _ => { k with checked := some true, owed := true }
  | .noteEngine, _ => { k with owed := false }
  | .networkKnown name, (known : Bool) => if known then { k with sure := name :: k.sure } else k
  | .engine (.listNetworks name), .ok (found : List String) =>
    if name ∈ found then { k with sure := name :: k.sure } else { k with missing := some name }
  | .engine (.createNetwork name), .ok _ => { k with sure := name :: k.sure, missing := none }
  | .engine (.createNetwork _), .error _ => { k with missing := none }
  | _, _ => k

/-- The findings justify a call of a start whose container is for the network `name`. -/
def Allows (name : String) (k : Findings) : Call → Prop
  | .engineChecked => k.owed = false
  | .engine .ping => k.checked = some false
  | .noteEngine => k.owed = true
  | .engine (.createNetwork n) => k.missing = some n
  | .noteNetwork n => n ∈ k.sure
  | .engine (.create spec) => k.checked = some true ∧ spec.network = some name ∧ name ∈ k.sure
  | _ => True

theorem learn_apart (k : Findings) {c : Call} (h : c.Apart) (r : c.Reply) : k.learn c r = k := by
  cases c with
  | engine request => cases request <;> first | rfl | exact False.elim h
  | _ => first | rfl | exact False.elim h

theorem learn_listed {n : String} {found : List String} (k : Findings) (h : n ∈ found) :
    k.learn (.engine (.listNetworks n)) (.ok found) = { k with sure := n :: k.sure } :=
  if_pos h

theorem learn_unlisted {n : String} {found : List String} (k : Findings) (h : n ∉ found) :
    k.learn (.engine (.listNetworks n)) (.ok found) = { k with missing := some n } :=
  if_neg h

end Findings

/-- The order in which the engine and the network are checked and the container is made. -/
def Rule.checks (name : String) : Rule Findings where
  allows := Findings.Allows name
  note := Findings.learn

theorem Rule.checks_overlooks (name : String) : (Rule.checks name).Overlooks Call.Apart where
  allowed := by
    intro k c h
    cases c with
    | engine request => cases request <;> trivial
    | _ => trivial
  unnoted := fun k _ r h => k.learn_apart h r

/-! ## The checks -/

open Work

section

variable {name : String} {k : Findings}

/-- The engine is asked, and it has answered if the reply is that it is there. -/
theorem Client.connect_checks :
    Task.Follows (Rule.checks name)
      (fun k r => r = .ok true ∧ k = { checked := some true, owed := true } ∨
        r ≠ .ok true ∧ k.owed = false)
      connect.run { checked := some false } := by
  refine follows_handle (P := fun k r =>
    r = .ok true ∧ k = { checked := some true, owed := true } ∨
      ∃ e, r = .error e ∧ k.owed = false) ?_ ?_ ?_ ?_
  · refine follows_past (Rule.checks_overlooks name) (gives_ensureOpen trivial) (fun _ => ?_)
      fun e => .inr ⟨e, rfl, rfl⟩
    refine ⟨rfl, ?_⟩
    rintro (e | _)
    · exact .inr ⟨e, rfl, rfl⟩
    · exact ⟨trivial, fun _ => .inl ⟨rfl, rfl⟩⟩
  · rintro k answer (answered | ⟨e, ⟨⟩, -⟩)
    exact .inl answered
  · rintro k e (⟨⟨⟩, -⟩ | ⟨_, -, nothing⟩) -
    exact ⟨trivial, fun _ => .inr ⟨nofun, nothing⟩⟩
  · rintro k e (⟨⟨⟩, -⟩ | ⟨_, -, nothing⟩) -
    exact .inr ⟨nofun, nothing⟩

namespace Provisioner

/-- The engine is asked unless it is noted that it has answered, and its answer is noted. -/
theorem ensureEngine_checks :
    Task.Follows (Rule.checks name)
      (fun k r => k.owed = false ∧ (r = .ok () → k = { checked := some true }))
      ensureEngine.run {} := by
  refine ⟨rfl, ?_⟩
  rintro (_ | _)
  · refine follows_bind Client.connect_checks ?_ ?_
    · rintro k there (⟨⟨⟩, rfl⟩ | ⟨away, nothing⟩)
      -- Between the answer and the note of it nothing can fail or be cancelled.
      · exact ⟨rfl, fun _ => ⟨rfl, fun _ => rfl⟩⟩
      · cases there with
        | true => exact absurd rfl away
        | false => exact ⟨nothing, nofun⟩
    · rintro k e (⟨⟨⟩, -⟩ | ⟨-, nothing⟩)
      exact ⟨nothing, nofun⟩
  · exact ⟨rfl, fun _ => rfl⟩

end Provisioner

/-- What is known of the engine stays, and work that succeeds has found the network `n`. -/
structure Findings.Finds {α : Type} (k : Findings) (n : String) (k' : Findings)
    (r : Except Fault α) : Prop where
  checked : k'.checked = k.checked
  owed : k'.owed = k.owed
  sure : r.isOk = true → n ∈ k'.sure

/-- A network is created only if the engine has just told that there is none of its name. -/
theorem Client.ensureNetwork_checks (n : String) :
    Task.Follows (Rule.checks name) (k.Finds n) (ensureNetwork n).run k := by
  refine follows_past (Rule.checks_overlooks name) (gives_ensureOpen trivial) (fun _ => ?_)
    fun e => ⟨rfl, rfl, nofun⟩
  refine ⟨trivial, ?_⟩
  rintro (e | (found : List String))
  · exact ⟨rfl, rfl, nofun⟩
  change Task.Follows _ _ (ExceptT.run (if found.contains n then _ else _))
    (k.learn (.engine (.listNetworks n)) (.ok found))
  split
  · rename_i known
    rw [k.learn_listed (List.contains_iff_mem.1 known)]
    exact ⟨trivial, fun _ => ⟨rfl, rfl, fun _ => List.mem_cons_self⟩⟩
  · rename_i unknown
    rw [k.learn_unlisted fun known => unknown (List.contains_iff_mem.2 known)]
    refine ⟨rfl, ?_⟩
    rintro (e | _)
    · exact ⟨rfl, rfl, nofun⟩
    · exact ⟨trivial, fun _ => ⟨rfl, rfl, fun _ => List.mem_cons_self⟩⟩

namespace Provisioner

/-- The network exists when the check has succeeded, and only then it is noted. -/
theorem ensureNetwork_checks (n : String) :
    Task.Follows (Rule.checks name) (k.Finds n) (ensureNetwork n).run k := by
  refine ⟨trivial, ?_⟩
  rintro (_ | _)
  · refine follows_bind (P := k.Finds n) ?_ ?_ ?_
    · exact reporting_follows _ (Rule.checks_overlooks name) (fun _ => trivial)
        (Client.ensureNetwork_checks n) fun _ _ _ finds => ⟨finds.checked, finds.owed, nofun⟩
    · intro k' _ finds
      have sure := finds.sure rfl
      exact ⟨sure, fun _ => ⟨finds.checked, finds.owed, fun _ => sure⟩⟩
    · exact fun _ _ finds => ⟨finds.checked, finds.owed, nofun⟩
  · exact ⟨rfl, rfl, fun _ => List.mem_cons_self⟩

end Provisioner

/-- Work apart from the checks finds nothing. -/
theorem apart_checks {α : Type} {w : Work α} (h : w.Gives Call.Apart fun _ => True) :
    Task.Follows (Rule.checks name) (fun k' _ => k' = k) w.run k :=
  (h.unnoted (Rule.checks_overlooks name) k).mono fun _ _ same => same.1

/-- Work apart from the checks can be passed over. -/
theorem follows_apart {α β : Type} {Q : Findings → Except Fault β → Prop} {w : Work α}
    {f : α → Work β} (h : w.Gives Call.Apart fun _ => True)
    (ok : ∀ a, Task.Follows (Rule.checks name) Q (f a).run k)
    (error : ∀ e, Q k (.error e)) : Task.Follows (Rule.checks name) Q (w >>= f).run k :=
  follows_past (Rule.checks_overlooks name) h ok error

/-! ## Starts -/

/-- A container is asked for when its network and the engine have been found. -/
theorem Client.createContainer_checks {spec : Engine.ContainerSpec}
    (allowed : k.Allows name (.engine (.create spec))) :
    Task.Follows (Rule.checks name) (fun k' _ => k' = k) (createContainer spec).run k := by
  refine follows_apart (gives_ensureOpen trivial) (fun _ => ?_) fun _ => rfl
  refine follows_apart (gives_handle ?_ fun _ => ?_) (fun _ => ?_) fun _ => rfl
  · exact gives_then (gives_engine trivial) fun _ => gives_pure trivial
  · exact gives_then (gives_log trivial) fun _ =>
      gives_then (gives_engine trivial) fun _ => gives_pure trivial
  · refine ⟨allowed, ?_⟩
    rintro (e | id)
    · exact rfl
    · exact ⟨trivial, fun _ => rfl⟩

namespace Provisioner

/-- The checks of a start are made and noted before its container is asked for. -/
theorem create_checks (p : Provisioner) (service : Service) (network : Option String)
    (spec : Engine.ContainerSpec) :
    Task.Follows (Rule.checks ((given network).getD p.settings.networkName))
      (fun k _ => k.owed = false) (p.create service network spec).run {} := by
  refine follows_bind ensureEngine_checks ?_ fun _ _ h => h.1
  rintro k _ ⟨-, answered⟩
  -- A start that has come this far knows that the engine is there, and nothing else.
  rcases answered rfl with rfl
  refine follows_bind (ensureNetwork_checks _) ?_ fun _ _ finds => finds.owed
  intro k _ finds
  have nothing : k.owed = false := finds.owed
  refine follows_apart (gives_ask trivial) (fun (fresh : String) => ?_) fun _ => nothing
  refine follows_bind (P := fun k' _ => k' = k) ?_ ?_ ?_
  · refine follows_handle (Client.createContainer_checks ⟨finds.checked, rfl, finds.sure rfl⟩)
      (fun _ _ h => h) ?_ fun _ _ h _ => h
    rintro _ e rfl -
    exact apart_checks (gives_ite gives_throw (gives_then (gives_log trivial) fun _ => gives_throw))
  · rintro _ id rfl
    refine follows_apart (gives_ask trivial) (fun (identity : Nat) => ?_) fun _ => nothing
    refine follows_apart (gives_ask trivial) (fun _ => ?_) fun _ => nothing
    refine follows_apart (gives_log trivial) (fun _ => ?_) fun _ => nothing
    exact nothing
  · rintro _ e rfl
    exact nothing

/-- A container that has been made is served apart from the checks. -/
theorem serves_apart {α : Type} {w : Work α} (h : w.Gives Call.Serves fun _ => True) :
    w.Gives Call.Apart fun _ => True :=
  h.weaken fun _ => Call.Serves.apart

theorem waits_apart {α : Type} {w : Work α} (h : w.Gives Call.Waits fun _ => True) :
    w.Gives Call.Apart fun _ => True :=
  h.weaken fun _ => Call.Waits.apart

theorem looks_apart {α : Type} {w : Work α} (h : w.Gives Call.Looks fun _ => True) :
    w.Gives Call.Apart fun _ => True :=
  h.weaken fun _ hc => hc.waits.apart

theorem startPostgres_checks (p : Provisioner) (c : PostgresConfig) :
    Task.Follows (Rule.checks (p.networkOf (.postgres c))) (fun k _ => k.owed = false)
      (p.startPostgres c).run {} := by
  refine follows_apart (gives_log trivial) (fun _ => ?_) fun _ => rfl
  refine follows_apart (looks_apart (scriptMounts_gives _)) (fun mounts => ?_) fun _ => rfl
  refine follows_bind (p.create_checks _ _ _) ?_ fun _ _ h => h
  intro k capability settled
  refine follows_apart (serves_apart (start_gives _ _)) (fun _ => ?_) fun _ => settled
  refine follows_apart (looks_apart Client.hostAddress_gives) (fun host => ?_) fun _ => settled
  refine follows_apart (looks_apart (publishedPort_gives _ _ _)) (fun port => ?_) fun _ => settled
  generalize databaseUri c host port = uri
  have waits := waitReady_gives .postgres capability (Readiness.databaseAccepts_gives uri)
  refine follows_apart (waits_apart (waits _ _)) (fun _ => ?_) fun _ => settled
  refine follows_apart (gives_ofExcept fun _ _ => True.intro) (fun shown => ?_) fun _ => settled
  refine follows_apart (gives_log trivial) (fun _ => ?_) fun _ => settled
  refine follows_apart (gives_log trivial) (fun _ => ?_) fun _ => settled
  exact settled

theorem startKeycloak_checks (p : Provisioner) (c : KeycloakConfig) :
    Task.Follows (Rule.checks (p.networkOf (.keycloak c))) (fun k _ => k.owed = false)
      (p.startKeycloak c).run {} := by
  refine follows_apart (gives_log trivial) (fun _ => ?_) fun _ => rfl
  refine follows_apart (looks_apart (readRealm_gives _)) (fun realm => ?_) fun _ => rfl
  refine follows_bind (p.create_checks _ _ _) ?_ fun _ _ h => h
  intro k capability settled
  refine follows_apart (serves_apart (copy_gives _ _)) (fun _ => ?_) fun _ => settled
  refine follows_apart (serves_apart (start_gives _ _)) (fun _ => ?_) fun _ => settled
  refine follows_apart (looks_apart Client.hostAddress_gives) (fun host => ?_) fun _ => settled
  refine follows_apart (looks_apart (publishedPort_gives _ _ _)) (fun port => ?_) fun _ => settled
  refine follows_apart (looks_apart (publishedPort_gives _ _ _)) (fun health => ?_)
    fun _ => settled
  have waits := waitReady_gives .keycloak capability
    (Readiness.pageAnswers_gives s!"http://{host}:{health}{healthPath}" 200)
  refine follows_apart (waits_apart (waits _ _)) (fun _ => ?_) fun _ => settled
  refine follows_apart (gives_log trivial) (fun _ => ?_) fun _ => settled
  refine follows_apart (gives_log trivial) (fun _ => ?_) fun _ => settled
  exact settled

/-- A start makes its checks and notes what they have found. -/
theorem startService_checks (p : Provisioner) (c : ServiceConfig) :
    Task.Follows (Rule.checks (p.networkOf c)) (fun k _ => k.owed = false)
      (p.startService c).run {} := by
  cases c with
  | postgres c => exact p.startPostgres_checks c
  | keycloak c => exact p.startKeycloak_checks c
  | unsupported t => rfl

end Provisioner

end

end Testbed
