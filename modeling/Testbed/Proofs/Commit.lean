import Testbed.Proofs.Containers
import Testbed.Proofs.Execution
import Testbed.Proofs.Ledger
import Testbed.Proofs.Provisioner

/-!
# Containers are recorded before they are used

A start records the capability of its container as soon as the engine has told it the id, before
it copies anything into the container or starts it.  This holds along every execution, wherever a
call fails or the start is cancelled.
-/

namespace Testbed

/-! ## What exchanges tell -/

namespace Call

/-- The engine is asked to create a container. -/
def creates : Call → Bool
  | .engine (.create _) => true
  | _ => false

/-- The engine is asked to start a container. -/
def boots : Call → Bool
  | .engine (.start _) => true
  | _ => false

end Call

namespace Exchange

/-- The id of the container that the engine has created. -/
def created? : Exchange → Option String
  | ⟨.engine (.create _), .ok id⟩ => some id
  | _ => none

/-- The id of the container into which a file has been copied. -/
def filled? : Exchange → Option String
  | ⟨.engine (.putArchive id _), .ok true⟩ => some id
  | _ => none

/-- The capability that has been recorded. -/
def recorded? : Exchange → Option Capability
  | ⟨.record c, _⟩ => some c
  | _ => none

end Exchange

/-- What the exchanges of a start have come to. -/
structure Account where
  creations : Nat := 0
  boots : Nat := 0
  created : List String := []
  filled : List String := []
  recorded : List Capability := []
  /-- The identity drawn last. -/
  drawn : Option Nat := none

namespace Account

/-- The account after one more exchange. -/
def enter (a : Account) (c : Call) (r : c.Reply) : Account where
  creations := a.creations + c.creates.toNat
  boots := a.boots + c.boots.toNat
  created := a.created ++ (Exchange.created? ⟨c, r⟩).toList
  filled := a.filled ++ (Exchange.filled? ⟨c, r⟩).toList
  recorded := a.recorded ++ (Exchange.recorded? ⟨c, r⟩).toList
  drawn :=
    match c, r with
    | .newIdentity, n => some n
    | _, _ => a.drawn

/-- A capability of a container is recorded. -/
def Covers (a : Account) (id : String) : Prop := ∃ c ∈ a.recorded, c.containerId = id

/-- The call keeps to the order in which containers are created, recorded and used; `fills` says
that the service needs a file in its container. -/
def Allows (fills : Bool) (a : Account) : Call → Prop
  | .engine (.create _) => a.creations = 0
  | .engine (.putArchive id _) => a.Covers id
  | .engine (.start id) => a.boots = 0 ∧ a.Covers id ∧ (fills = true → id ∈ a.filled)
  | .record c => a.recorded = [] ∧ a.created = [c.containerId] ∧ a.drawn = some c.identity
  | _ => True

/-- What has been created is recorded. -/
def Settled (a : Account) : Prop := a.recorded.map Capability.containerId = a.created

end Account

/-- The order in which containers are created, recorded and used. -/
def Rule.commit (fills : Bool) : Rule Account where
  allows := Account.Allows fills
  note := Account.enter

namespace Account

variable {fills : Bool} {a : Account} {c : Call} {k : Capability}

/-- Quiet calls do not change the account. -/
theorem enter_quiet (h : c.Quiet) (r : c.Reply) : a.enter c r = a := by
  have empty : c.creates = false ∧ c.boots = false ∧ Exchange.created? ⟨c, r⟩ = none ∧
      Exchange.filled? ⟨c, r⟩ = none ∧ Exchange.recorded? ⟨c, r⟩ = none := by
    cases c with
    | engine request =>
      cases request <;> first | exact False.elim h | exact ⟨rfl, rfl, rfl, rfl, rfl⟩
    | _ => first | exact False.elim h | exact ⟨rfl, rfl, rfl, rfl, rfl⟩
  have drawn : (a.enter c r).drawn = a.drawn := by
    cases c <;> first | rfl | cases h
  rcases empty with ⟨hc, hb, hi, hf, hr⟩
  cases a
  simp_all [enter]

theorem enter_newIdentity (n : Nat) : a.enter .newIdentity n = { a with drawn := some n } := by
  simp [enter, Call.creates, Call.boots, Exchange.created?, Exchange.filled?, Exchange.recorded?]

theorem enter_record (r : (Call.record k).Reply) :
    a.enter (.record k) r = { a with recorded := a.recorded ++ [k] } := by
  simp [enter, Call.creates, Call.boots, Exchange.created?, Exchange.filled?, Exchange.recorded?]

theorem allows_quiet (h : c.Quiet) : a.Allows fills c := by
  cases c with
  | engine request => cases request <;> first | exact False.elim h | trivial
  | _ => first | exact False.elim h | trivial

/-- The engine has been asked at most once to create a container, and at most once to start one. -/
def Once (a : Account) : Prop := a.creations ≤ 1 ∧ a.boots ≤ 1

theorem creations_add (h : a.Allows fills c) (once : a.Once) :
    a.creations + c.creates.toNat ≤ 1 := by
  cases hc : c.creates with
  | false => exact once.1
  | true =>
    have none_yet : a.creations = 0 := by
      cases c with
      | engine request => cases request <;> first | exact h | cases hc
      | _ => cases hc
    simp [none_yet]

theorem boots_add (h : a.Allows fills c) (once : a.Once) : a.boots + c.boots.toNat ≤ 1 := by
  cases hc : c.boots with
  | false => exact once.2
  | true =>
    have none_yet : a.boots = 0 := by
      cases c with
      | engine request => cases request <;> first | exact h.1 | cases hc
      | _ => cases hc
    simp [none_yet]

/-- The account of a start whose container has been created and recorded. -/
structure Holds (a : Account) (k : Capability) : Prop where
  created : a.created = [k.containerId]
  recorded : a.recorded = [k]

theorem Holds.enter {r : c.Reply} (h : a.Holds k) (created : Exchange.created? ⟨c, r⟩ = none)
    (recorded : Exchange.recorded? ⟨c, r⟩ = none) : (a.enter c r).Holds k where
  created := by simp [Account.enter, created, h.created]
  recorded := by simp [Account.enter, recorded, h.recorded]

theorem Holds.settled (h : a.Holds k) : a.Settled := by
  simp [Settled, h.created, h.recorded]

theorem Holds.covers (h : a.Holds k) : a.Covers k.containerId := by
  simp [Covers, h.recorded]

end Account

/-- The container of the service needs a file before it is started. -/
def ServiceConfig.fills : ServiceConfig → Bool
  | keycloak _ => true
  | _ => false

/-! ## The provisioner keeps the order -/

section

open Work

variable {fills : Bool} {a : Account} {k : Capability} {α β : Type}
  {Q : Account → Except Fault β → Prop}

theorem commit_overlooks : (Rule.commit fills).Overlooks Call.Quiet where
  allowed := fun _ _ hc => Account.allows_quiet hc
  unnoted := fun _ _ r hc => Account.enter_quiet hc r

/-- Quiet work leaves the account as it is. -/
theorem quiet_follows {P : α → Prop} {w : Work α} (h : w.Gives Call.Quiet P) (a : Account) :
    Task.Follows (Rule.commit fills) (fun a' r => a' = a ∧ ∀ x, r = .ok x → P x) w.run a :=
  h.unnoted commit_overlooks a

theorem follows_quiet {w : Work α} {f : α → Work β} (h : w.Gives Call.Quiet fun _ => True)
    (ok : ∀ x, Task.Follows (Rule.commit fills) Q (f x).run a)
    (error : ∀ e, Q a (.error e)) : Task.Follows (Rule.commit fills) Q (w >>= f).run a :=
  follows_past commit_overlooks h ok error

theorem follows_prepared {w : Work α} {f : α → Work β} (h : w.Gives Call.Prepares fun _ => True)
    (ok : ∀ x, Task.Follows (Rule.commit fills) Q (f x).run a)
    (error : ∀ e, Q a (.error e)) : Task.Follows (Rule.commit fills) Q (w >>= f).run a :=
  follows_quiet (Provisioner.gives_prepared h) ok error

theorem follows_newIdentity {f : Nat → Work β}
    (rest : ∀ n, Task.Follows (Rule.commit fills) Q (f n).run { a with drawn := some n }) :
    Task.Follows (Rule.commit fills) Q (Work.ask .newIdentity >>= f).run a := by
  refine ⟨trivial, fun (n : Nat) => ?_⟩
  have entered : Task.Follows (Rule.commit fills) Q (f n).run (a.enter .newIdentity n) := by
    rw [a.enter_newIdentity]
    exact rest n
  exact entered

theorem follows_record {f : Unit → Work β} (allowed : a.Allows fills (.record k))
    (rest : Task.Follows (Rule.commit fills) Q (f ()).run
      { a with recorded := a.recorded ++ [k] }) :
    Task.Follows (Rule.commit fills) Q (Work.ask (.record k) >>= f).run a := by
  refine ⟨allowed, fun r => ?_⟩
  have entered : Task.Follows (Rule.commit fills) Q (f ()).run (a.enter (.record k) r) := by
    rw [a.enter_record]
    exact rest
  exact entered

theorem follows_engine {r : Engine.Request} {f : r.Reply → Work β}
    (allowed : a.Allows fills (.engine r))
    (ok : ∀ x, Task.Follows (Rule.commit fills) Q (f x).run (a.enter (.engine r) (.ok x)))
    (error : ∀ e, Q (a.enter (.engine r) (.error e)) (.error e)) :
    Task.Follows (Rule.commit fills) Q (Work.engine r >>= f).run a := by
  refine ⟨allowed, ?_⟩
  rintro (e | x)
  · exact error e
  · exact ok x

/-- The engine is asked once for a container, and if that fails none has been created. -/
theorem Client.createContainer_commits (spec : Engine.ContainerSpec) :
    Task.Follows (Rule.commit fills)
      (fun a r => a.recorded = [] ∧ a.boots = 0 ∧ a.created = r.toOption.toList)
      (Client.createContainer spec).run {} := by
  have none_yet (e : Fault) : ({} : Account).recorded = [] ∧ ({} : Account).boots = 0 ∧
      ({} : Account).created = (Except.error e : Except Fault String).toOption.toList :=
    ⟨rfl, rfl, rfl⟩
  refine follows_quiet (gives_ensureOpen trivial) (fun _ => ?_) none_yet
  refine follows_quiet (gives_handle ?_ fun _ => ?_) (fun _ => ?_) none_yet
  · exact gives_then (gives_engine trivial) fun _ => gives_pure trivial
  · exact gives_then (gives_log trivial) fun _ =>
      gives_then (gives_engine trivial) fun _ => gives_pure trivial
  · -- Whatever the engine answers goes into the account.
    refine ⟨rfl, ?_⟩
    rintro (e | id)
    · exact ⟨rfl, rfl, rfl⟩
    · exact ⟨trivial, fun _ => ⟨rfl, rfl, rfl⟩⟩

namespace Provisioner

/-- A capability is recorded for what has been created. -/
theorem create_commits (p : Provisioner) (service : Service) (network : Option String)
    (spec : Engine.ContainerSpec) :
    Task.Follows (Rule.commit fills)
      (fun a r => a.Settled ∧ ∀ k, r = .ok k → a.Holds k ∧ a.boots = 0)
      (p.create service network spec).run {} := by
  have none_yet (e : Fault) : ({} : Account).Settled ∧
      ∀ k, (Except.error e : Except Fault Capability) = .ok k →
        ({} : Account).Holds k ∧ ({} : Account).boots = 0 :=
    ⟨rfl, fun _ h => nomatch h⟩
  refine follows_prepared ensureEngine_gives (fun _ => ?_) none_yet
  refine follows_prepared (ensureNetwork_gives _) (fun _ => ?_) none_yet
  refine follows_quiet (gives_ask trivial) (fun (fresh : String) => ?_) none_yet
  refine follows_bind (P := fun a r => a.recorded = [] ∧ a.boots = 0 ∧
    a.created = r.toOption.toList) ?_ ?_ ?_
  · refine follows_handle (Client.createContainer_commits _) (fun _ _ h => h) ?_ ?_
    · intro a e nothing _
      have raises : (if e.isA (· == .imageNotFound) then fail (.noImage service spec.image e)
          else refuse (.create service) e : Work String).Gives Call.Quiet fun _ => False :=
        gives_ite gives_throw (gives_then (gives_log trivial) fun _ => gives_throw)
      refine (quiet_follows raises a).mono ?_
      rintro _ (e' | x) ⟨rfl, never⟩
      · exact nothing
      · exact (never x rfl).elim
    · exact fun _ _ h _ => h
  · rintro a id ⟨recorded, boots, created⟩
    have created : a.created = [id] := created
    -- Between the answer of the engine and the record nothing can fail or be cancelled.
    refine follows_newIdentity fun identity => follows_record ⟨recorded, created, rfl⟩ ?_
    let k : Capability := ⟨identity, containerName service fresh, id, some service, .remove⟩
    have logged : (do
        Work.log Level.debug s!"Registered container {k.name} for teardown"
        pure k : Work Capability).Gives Call.Quiet (· = k) :=
      gives_then (gives_log trivial) fun _ => gives_pure rfl
    refine (quiet_follows logged _).mono ?_
    rintro _ r ⟨rfl, same⟩
    have holds : ({ a with drawn := some identity, recorded := a.recorded ++ [k] } :
        Account).Holds k := ⟨created, by simp [recorded]⟩
    refine ⟨holds.settled, ?_⟩
    intro k' hk
    rw [same k' hk]
    exact ⟨holds, boots⟩
  · rintro a e ⟨recorded, boots, created⟩
    have created : a.created = [] := created
    exact ⟨by simp [Account.Settled, created, recorded], fun _ h => nomatch h⟩

theorem copy_commits {k : Capability} (path : String) (data : List UInt8) (uid gid : Int)
    (h : a.Holds k) (fresh : a.boots = 0) :
    Task.Follows (Rule.commit fills)
      (fun a r => (a.Holds k ∧ a.boots = 0) ∧ ∀ x, r = .ok x → k.containerId ∈ a.filled)
      (reporting (.copy .keycloak) (Client.putFile k.containerId path data uid gid)).run a := by
  refine reporting_follows _ commit_overlooks (fun _ => trivial) ?_ fun _ _ _ hq => ⟨hq.1, nofun⟩
  refine follows_quiet (gives_ensureOpen trivial) (fun _ => ?_) fun _ => ⟨⟨h, fresh⟩, nofun⟩
  refine follows_quiet (gives_ofExcept fun _ _ => True.intro) (fun names => ?_)
    fun _ => ⟨⟨h, fresh⟩, nofun⟩
  refine follows_quiet (gives_engine trivial) (fun _ => ?_) fun _ => ⟨⟨h, fresh⟩, nofun⟩
  refine follows_engine h.covers ?_ fun e => ⟨⟨h.enter rfl rfl, fresh⟩, nofun⟩
  rintro (_ | _)
  · exact ⟨⟨h.enter rfl rfl, fresh⟩, nofun⟩
  · have logged : (Work.log Level.debug s!"Copied {data.length} bytes to {path}").Gives
        Call.Quiet fun _ => True := gives_log trivial
    refine (quiet_follows logged _).mono ?_
    rintro _ r ⟨rfl, -⟩
    refine ⟨⟨h.enter rfl rfl, fresh⟩, fun _ _ => ?_⟩
    simp [Account.enter, Exchange.filled?]

theorem start_commits {k : Capability} (service : Service) (h : a.Holds k) (fresh : a.boots = 0)
    (filled : fills = true → k.containerId ∈ a.filled) :
    Task.Follows (Rule.commit fills) (fun a _ => a.Holds k) (start service k).run a := by
  refine reporting_follows _ commit_overlooks (fun _ => trivial) ?_ fun _ _ _ hq => hq
  refine follows_quiet (gives_ensureOpen trivial) (fun _ => ?_) fun _ => h
  refine follows_quiet (gives_engine trivial) (fun found => ?_) fun _ => h
  refine follows_engine ⟨fresh, h.covers, filled⟩ ?_ fun e => h.enter rfl rfl
  intro started
  have logged : (Work.log Level.info s!"Started container {found.name}").Gives Call.Quiet
      fun _ => True := gives_log trivial
  refine (quiet_follows logged _).mono ?_
  rintro _ r ⟨rfl, -⟩
  exact h.enter rfl rfl

theorem startPostgres_commits (p : Provisioner) (c : PostgresConfig) :
    Task.Follows (Rule.commit false) (fun a _ => a.Settled) (p.startPostgres c).run {} := by
  refine follows_quiet (gives_log trivial) (fun _ => ?_) fun _ => rfl
  refine follows_prepared (gives_looks (scriptMounts_gives _)) (fun mounts => ?_) fun _ => rfl
  refine follows_bind (p.create_commits _ _ _) ?_ fun _ _ h => h.1
  intro a k h
  rcases h.2 k rfl with ⟨holds, fresh⟩
  refine follows_bind (start_commits _ holds fresh nofun) ?_ fun _ _ h => h.settled
  -- Once the container runs the rest is quiet.
  intro a _ holds
  have settled := holds.settled
  refine follows_prepared (gives_looks Client.hostAddress_gives) (fun host => ?_) fun _ => settled
  refine follows_prepared (gives_looks (publishedPort_gives _ _ _)) (fun port => ?_)
    fun _ => settled
  generalize databaseUri c host port = uri
  have waits := waitReady_gives .postgres k (Readiness.databaseAccepts_gives uri)
  refine follows_quiet (gives_waits (waits _ _)) (fun _ => ?_) fun _ => settled
  refine follows_quiet (gives_ofExcept fun _ _ => True.intro) (fun shown => ?_) fun _ => settled
  refine follows_quiet (gives_log trivial) (fun _ => ?_) fun _ => settled
  refine follows_quiet (gives_log trivial) (fun _ => ?_) fun _ => settled
  exact settled

theorem startKeycloak_commits (p : Provisioner) (c : KeycloakConfig) :
    Task.Follows (Rule.commit true) (fun a _ => a.Settled) (p.startKeycloak c).run {} := by
  refine follows_quiet (gives_log trivial) (fun _ => ?_) fun _ => rfl
  refine follows_prepared (gives_looks (readRealm_gives _)) (fun realm => ?_) fun _ => rfl
  refine follows_bind (p.create_commits _ _ _) ?_ fun _ _ h => h.1
  intro a k h
  rcases h.2 k rfl with ⟨holds, fresh⟩
  refine follows_bind (copy_commits _ _ _ _ holds fresh) ?_ fun _ _ h => h.1.1.settled
  rintro a _ ⟨⟨holds, fresh⟩, filled⟩
  refine follows_bind (start_commits _ holds fresh fun _ => filled () rfl) ?_
    fun _ _ h => h.settled
  intro a _ holds
  have settled := holds.settled
  refine follows_prepared (gives_looks Client.hostAddress_gives) (fun host => ?_) fun _ => settled
  refine follows_prepared (gives_looks (publishedPort_gives _ _ _)) (fun port => ?_)
    fun _ => settled
  refine follows_prepared (gives_looks (publishedPort_gives _ _ _)) (fun health => ?_)
    fun _ => settled
  have waits := waitReady_gives .keycloak k
    (Readiness.pageAnswers_gives s!"http://{host}:{health}{healthPath}" 200)
  refine follows_quiet (gives_waits (waits _ _)) (fun _ => ?_) fun _ => settled
  refine follows_quiet (gives_log trivial) (fun _ => ?_) fun _ => settled
  refine follows_quiet (gives_log trivial) (fun _ => ?_) fun _ => settled
  exact settled

theorem startService_commits (p : Provisioner) (c : ServiceConfig) :
    Task.Follows (Rule.commit c.fills) (fun a _ => a.Settled) (p.startService c).run {} := by
  cases c with
  | postgres c => exact p.startPostgres_commits c
  | keycloak c => exact p.startKeycloak_commits c
  | unsupported t => rfl

end Provisioner

end

/-! ## The account and the ledger -/

namespace Account

variable {fills : Bool} {a : Account} {w w₁ w₂ : World} {c : Call} {k : Capability}

/-- The ledger has grown by what is recorded in the account, which is new. -/
structure Matches (a : Account) (w w' : World) : Prop where
  entries : w'.ledger.entries = w.ledger.entries ++ a.recorded
  covers : a.recorded.map Capability.containerId <+: a.created
  fresh : ∀ k ∈ a.recorded, ∀ d ∈ w.ledger.entries, d.identity ≠ k.identity
  drawn : ∀ n, a.drawn = some n → ∀ d ∈ w.ledger.entries, d.identity ≠ n
  made : ∀ d ∈ w.ledger.entries, d.identity < w'.made

theorem Matches.aside (h : a.Matches w w₁) (others : w₁.Aside w₂) : a.Matches w w₂ where
  entries := by rw [others.ledger, h.entries]
  covers := h.covers
  fresh := h.fresh
  drawn := h.drawn
  made := fun d hd => Nat.lt_of_lt_of_le (h.made d hd) others.made

end Account

/-- Calls that record nothing are done aside of the ledger. -/
theorem World.aside_of_perform {w w' : World} {c : Call} {r : c.Reply}
    (h : w.perform c = some (r, w')) (hc : ∀ k, c ≠ .record k) : w.Aside w' := by
  have effect := effect_of_perform h
  constructor
  · rcases Lifecycle.effect_ledger effect with same | ⟨k, rfl, -⟩
    · exact same
    · exact absurd rfl (hc k)
  · cases effect
    case newIdentity => exact Nat.le_succ _
    case shutdown =>
      rcases closeRuntime_eq w with ⟨_, _, _, he⟩
      exact Nat.le_of_eq (congrArg World.made he).symm
    all_goals exact Nat.le_refl _

namespace Account

variable {fills : Bool} {a : Account} {w w₁ w₂ : World} {c : Call} {k : Capability}

theorem enter_recorded (hc : ∀ k, c ≠ .record k) (r : c.Reply) :
    (a.enter c r).recorded = a.recorded := by
  have recorded : Exchange.recorded? ⟨c, r⟩ = none := by
    cases c with
    | record k => exact absurd rfl (hc k)
    | _ => rfl
  simp [enter, recorded]

theorem enter_drawn (hc : c ≠ .newIdentity) (r : c.Reply) : (a.enter c r).drawn = a.drawn := by
  cases c with
  | newIdentity => exact absurd rfl hc
  | _ => rfl

/-- Calls other than those that draw an identity and record a capability. -/
theorem Matches.enter (h : a.Matches w w₁) (hr : ∀ k, c ≠ .record k) (hn : c ≠ .newIdentity)
    (others : w₁.Aside w₂) (r : c.Reply) : (a.enter c r).Matches w w₂ := by
  have recorded := a.enter_recorded hr r
  have moved := h.aside others
  refine ⟨?_, ?_, ?_, ?_, moved.made⟩
  · rw [recorded, moved.entries]
  · rw [recorded]
    exact h.covers.trans (List.prefix_append _ _)
  · rw [recorded]
    exact h.fresh
  · rw [a.enter_drawn hn r]
    exact h.drawn

/-- A new capability is recorded behind the others. -/
theorem Matches.record (h : a.Matches w w₁) (allowed : a.Allows fills (.record k))
    (r : (Call.record k).Reply) :
    (a.enter (.record k) r).Matches w { w₁ with ledger := w₁.ledger.record k } := by
  rcases allowed with ⟨none_yet, created, drawn⟩
  have entries : w₁.ledger.entries = w.ledger.entries := by simpa [none_yet] using h.entries
  have unknown : w₁.ledger.contains k = false := by
    have := h.drawn _ drawn
    simpa [Ledger.contains, entries] using this
  rw [a.enter_record, none_yet]
  refine ⟨?_, ?_, ?_, h.drawn, h.made⟩
  · simp [Ledger.record, unknown, entries]
  · simp [created]
  · simpa using h.drawn _ drawn

theorem Matches.perform {r : c.Reply} (h : a.Matches w w₁) (allowed : a.Allows fills c)
    (reply : w₁.perform c = some (r, w₂)) : (a.enter c r).Matches w w₂ := by
  by_cases record : ∃ k, c = .record k
  · rcases record with ⟨k, rfl⟩
    rcases congrArg Prod.snd (Option.some.inj reply) with rfl
    exact h.record allowed r
  · have hr : ∀ k, c ≠ .record k := fun k hk => record ⟨k, hk⟩
    have others := World.aside_of_perform reply hr
    by_cases hn : c = .newIdentity
    · subst hn
      -- The identity that is drawn is above all those that have been made.
      have above : ∀ d ∈ w.ledger.entries, d.identity ≠ w₁.made :=
        fun d hd => Nat.ne_of_lt (h.made d hd)
      rcases congrArg Prod.fst (Option.some.inj reply) with rfl
      have moved := h.aside others
      rw [a.enter_newIdentity]
      refine ⟨moved.entries, h.covers, h.fresh, ?_, moved.made⟩
      rintro n ⟨⟩
      exact above
    · exact h.enter hr hn others r

/-- A call that is cancelled records nothing, whether it lands or not. -/
theorem Matches.cancel {r : c.Reply} (h : a.Matches w w₁) (reply : c.cancelled? = some r)
    (landed : w₂ = w₁ ∨ c.inWorker = true ∧ ∃ r, w₁.perform c = some (r, w₂)) :
    (a.enter c r).Matches w w₂ := by
  have hr : ∀ k, c ≠ .record k := by
    rintro k rfl
    cases reply
  have hn : c ≠ .newIdentity := by
    rintro rfl
    cases reply
  have others : w₁.Aside w₂ := by
    rcases landed with rfl | ⟨-, r, lands⟩
    · exact ⟨rfl, Nat.le_refl _⟩
    · exact World.aside_of_perform lands hr
  exact h.enter hr hn others r

/-- The account of the exchanges matches the ledger at every moment of an execution. -/
theorem Matches.execution {α : Type} {t t' : Task α} {es : List Exchange}
    {Q : Account → α → Prop} (h : a.Matches w w₁)
    (follows : Task.Follows (Rule.commit fills) Q t a) (run : Task.Execution t w₁ es t' w₂) :
    ((Rule.commit fills).after a es).Matches w w₂ := by
  induction run generalizing a with
  | here => exact h
  | aside others _ ih => exact ih (h.aside others) follows
  | answered reply _ ih => exact ih (h.perform follows.1 reply) (follows.2 _)
  | cancelled reply landed _ ih => exact ih (h.cancel reply landed) (follows.2 _)

/-- The account adds up what the exchanges tell. -/
theorem after_eq (a : Account) (es : List Exchange) :
    ((Rule.commit fills).after a es).creations =
        a.creations + (es.map Exchange.call).countP Call.creates ∧
      ((Rule.commit fills).after a es).boots =
        a.boots + (es.map Exchange.call).countP Call.boots ∧
      ((Rule.commit fills).after a es).created = a.created ++ es.filterMap Exchange.created? ∧
      ((Rule.commit fills).after a es).filled = a.filled ++ es.filterMap Exchange.filled? := by
  -- By induction on the exchanges, for any account to begin with.
  induction es generalizing a with
  | nil => simp [Rule.after]
  | cons e es ih =>
    have count (b : Bool) (m n : Nat) : m + b.toNat + n = m + (n + if b = true then 1 else 0) := by
      cases b <;> simp +arith
    have entry (f : Exchange → Option String) (xs : List String) :
        xs ++ (f e).toList ++ es.filterMap f = xs ++ (e :: es).filterMap f := by
      cases he : f e <;> simp [he]
    rw [Rule.after_cons]
    rcases ih ((Rule.commit fills).note a e.call e.reply) with ⟨hc, hb, hi, hf⟩
    rw [hc, hb, hi, hf]
    refine ⟨?_, ?_, ?_, ?_⟩
    · rw [List.map_cons, List.countP_cons]
      exact count _ _ _
    · rw [List.map_cons, List.countP_cons]
      exact count _ _ _
    · exact entry Exchange.created? a.created
    · exact entry Exchange.filled? a.filled

end Account

/-! ## Starts -/

/-- The engine has told no more ids than it has been asked for. -/
theorem created_length_le (es : List Exchange) :
    (es.filterMap Exchange.created?).length ≤ (es.map Exchange.call).countP Call.creates := by
  induction es with
  | nil => exact Nat.le_refl 0
  | cons e es ih =>
    rw [List.map_cons, List.countP_cons, List.filterMap_cons]
    split
    · exact Nat.le_add_right_of_le ih
    · rename_i id created
      have asked : e.call.creates = true := by
        rcases e with ⟨c, r⟩
        cases c with
        | engine request => cases request <;> first | rfl | cases created
        | _ => cases created
      simpa [asked] using ih

/-- What a start of a service has done by the time that the exchanges `es` have taken it to `t'`. -/
structure Commits (c : ServiceConfig) (w : World) (es : List Exchange)
    (t' : Task (Except Fault Handle)) (w' : World) : Prop where
  /-- The ledger only grows by new capabilities of containers that have been created. -/
  grows : ∃ new : List Capability, w'.ledger.entries = w.ledger.entries ++ new ∧
    (∀ k ∈ new, ∀ d ∈ w.ledger.entries, d.identity ≠ k.identity) ∧
    new.map Capability.containerId <+: es.filterMap Exchange.created?
  /-- At the end it has grown by one capability if the engine has told an id, else not at all. -/
  ended : t'.call? = none →
    (es.filterMap Exchange.created? = [] ∧ w'.ledger = w.ledger) ∨
      ∃ id k, es.filterMap Exchange.created? = [id] ∧ k.containerId = id ∧
        (∀ d ∈ w.ledger.entries, d.identity ≠ k.identity) ∧
        w'.ledger.entries = w.ledger.entries ++ [k]
  /-- Files are copied and containers are started only when their capability is in the ledger. -/
  covered : ∀ id, t'.call? = some (.engine (.start id)) ∨
    (∃ ms, t'.call? = some (.engine (.putArchive id ms))) →
      ∃ k ∈ w'.ledger.entries, k.containerId = id
  /-- A container that needs a file has it when it is started. -/
  filled : c.fills = true → ∀ id, t'.call? = some (.engine (.start id)) →
    id ∈ es.filterMap Exchange.filled?
  creates_once : (Task.issued es t').countP Call.creates ≤ 1
  starts_once : (Task.issued es t').countP Call.boots ≤ 1

namespace Account

variable {a : Account} {es : List Exchange} {w w' : World}

/-- A call that the account allows is none too many. -/
theorem Once.issued {fills : Bool} {Q : Account → Except Fault Handle → Prop}
    {t : Task (Except Fault Handle)} (once : a.Once) (follows : t.Follows (Rule.commit fills) Q a)
    (creations : a.creations = (es.map Exchange.call).countP Call.creates)
    (boots : a.boots = (es.map Exchange.call).countP Call.boots) :
    (Task.issued es t).countP Call.creates ≤ 1 ∧ (Task.issued es t).countP Call.boots ≤ 1 := by
  cases t with
  | done r =>
    rw [Task.issued_done, ← creations, ← boots]
    exact once
  | call call next =>
    rw [Task.countP_issued, Task.countP_issued, ← creations, ← boots]
    exact ⟨a.creations_add follows.1 once, a.boots_add follows.1 once⟩

/-- No more than one container has been created, and it is recorded. -/
theorem Matches.settled (known : a.Matches w w') (once : a.Once) (settled : a.Settled)
    (creations : a.creations = (es.map Exchange.call).countP Call.creates)
    (created : a.created = es.filterMap Exchange.created?) :
    (es.filterMap Exchange.created? = [] ∧ w'.ledger = w.ledger) ∨
      ∃ id k, es.filterMap Exchange.created? = [id] ∧ k.containerId = id ∧
        (∀ d ∈ w.ledger.entries, d.identity ≠ k.identity) ∧
        w'.ledger.entries = w.ledger.entries ++ [k] := by
  have same : a.recorded.map Capability.containerId = es.filterMap Exchange.created? :=
    settled.trans created
  have bound : (es.filterMap Exchange.created?).length ≤ 1 := by
    calc (es.filterMap Exchange.created?).length
        ≤ (es.map Exchange.call).countP Call.creates := created_length_le es
      _ = a.creations := creations.symm
      _ ≤ 1 := once.1
  rcases recorded : a.recorded with _ | ⟨k, _ | ⟨k', rest⟩⟩
  · refine .inl ⟨by simp [← same, recorded], ?_⟩
    have entries : w'.ledger.entries = w.ledger.entries := by
      simpa [recorded] using known.entries
    exact congrArg Ledger.mk entries
  · refine .inr ⟨k.containerId, k, by simp [← same, recorded], rfl, ?_, ?_⟩
    · exact known.fresh k (by simp [recorded])
    · simpa [recorded] using known.entries
  · rw [← same, recorded] at bound
    simp at bound

end Account

/-- Wherever a start is, whatever has failed and however often it has been cancelled, what it has
created is in the ledger before it is used. -/
theorem commits_as_it_goes (p : Provisioner) (c : ServiceConfig) {w w' : World}
    {es : List Exchange} {t' : Task (Except Fault Handle)}
    (unmade : ∀ d ∈ w.ledger.entries, d.identity < w.made)
    (run : Task.Execution (p.startService c) w es t' w') : Commits c w es t' w' := by
  have follows := (p.startService_commits c).execution run
  have known : ((Rule.commit c.fills).after {} es).Matches w w' := by
    refine Account.Matches.execution (a := {}) ?_ (p.startService_commits c) run
    exact ⟨by simp, by simp, by simp, by simp, unmade⟩
  have once : ((Rule.commit c.fills).after {} es).Once := by
    refine (p.startService_commits c).invariant run ⟨Nat.zero_le 1, Nat.zero_le 1⟩ ?_
    exact fun a call r allowed once => ⟨a.creations_add allowed once, a.boots_add allowed once⟩
  -- What the account has noted is what the exchanges tell.
  have sums := @Account.after_eq c.fills {} es
  generalize (Rule.commit c.fills).after {} es = a at follows known once sums
  obtain ⟨creations, boots, created, filled⟩ : a.creations = (es.map Exchange.call).countP
      Call.creates ∧ a.boots = (es.map Exchange.call).countP Call.boots ∧
      a.created = es.filterMap Exchange.created? ∧ a.filled = es.filterMap Exchange.filled? := by
    simpa using sums
  have covers {id : String} (h : a.Covers id) : ∃ k ∈ w'.ledger.entries, k.containerId = id := by
    rcases h with ⟨k, hk, rfl⟩
    exact ⟨k, by simp [known.entries, hk], rfl⟩
  have counted := once.issued follows creations boots
  refine ⟨?_, ?_, ?_, ?_, counted.1, counted.2⟩
  · exact ⟨a.recorded, known.entries, known.fresh, created ▸ known.covers⟩
  · intro done
    have settled : a.Settled := by
      cases t' with
      | done r => exact follows
      | call call next => cases done
    exact known.settled once settled creations created
  · rintro id (next | ⟨ms, next⟩)
    · exact covers (follows.allows next).2.1
    · exact covers (follows.allows next)
  · intro needed id next
    have filled_first := (follows.allows next).2.2 needed
    rwa [filled] at filled_first

/-- A world in whose ledger a capability is recorded. -/
def stockedWorld : World where
  ledger := ⟨[⟨0, "older", "c0", some .keycloak, .remove⟩]⟩
  made := 1

/-- A start that is cancelled while the engine starts its container all the same. -/
def cancelledStart : Option (List Exchange × Task (Except Fault Handle) × World) :=
  Task.replay? (List.replicate 22 none ++ [some true])
    ((⟨"s", {}⟩ : Provisioner).startService (.postgres {})) stockedWorld

theorem commits_as_it_goes_of_cancelled_start :
    (∀ d ∈ stockedWorld.ledger.entries, d.identity < stockedWorld.made) ∧
      ∃ es t' w', cancelledStart = some (es, t', w') ∧ t'.call? = none ∧
        (es.filterMap Exchange.created?).length = 1 ∧
          Commits (.postgres {}) stockedWorld es t' w' := by
  have unmade : ∀ d ∈ stockedWorld.ledger.entries, d.identity < stockedWorld.made := by decide
  have facts : cancelledStart.map (fun r =>
      (r.2.1.call?.isNone, (r.1.filterMap Exchange.created?).length)) = some (true, 1) := by
    decide +kernel
  rcases Option.map_eq_some_iff.1 facts with ⟨⟨es, t', w'⟩, replayed, facts⟩
  simp only [Prod.mk.injEq, Option.isNone_iff_eq_none] at facts
  have run := Task.Execution.of_replay? replayed
  exact ⟨unmade, es, t', w', replayed, facts.1, facts.2, commits_as_it_goes _ _ unmade run⟩

end Testbed
