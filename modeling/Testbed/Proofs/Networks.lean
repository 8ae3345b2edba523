import Testbed.Proofs.Checks
import Testbed.Proofs.Containers

/-!
# Networks are created once

A provisioner starts one service after another.  Whatever the engine refuses, before or after the
effect of a call, and wherever a start is cancelled, a container is asked for only on a network
that exists, no network is created that exists already, and an engine that has answered is not
asked again.
-/

namespace Testbed

/-! ## The networks of an engine -/

theorem Text.dropPrefix?_self (text : List Char) : dropPrefix? text text = some [] := by
  induction text with
  | nil => rfl
  | cons c text ih => simpa [dropPrefix?] using ih

theorem Text.contains_self (text : List Char) : contains text text = true := by
  cases text with
  | nil => rfl
  | cons c text => simp [contains, dropPrefix?_self]

namespace Engine

variable {e e' e'' : Engine} {n : String}

/-- Networks have been created since, no name twice and none that had existed. -/
def Extends (e e' : Engine) : Prop :=
  ∃ new : List String, e'.networks = e.networks ++ new ∧ new.Nodup ∧ ∀ n ∈ new, n ∉ e.networks

theorem Extends.refl (e : Engine) : e.Extends e :=
  ⟨[], (List.append_nil _).symm, List.nodup_nil, nofun⟩

theorem Extends.of_eq (h : e.Extends e') (same : e''.networks = e'.networks) : e.Extends e'' := by
  rcases h with ⟨new, networks, once, fresh⟩
  exact ⟨new, same.trans networks, once, fresh⟩

theorem Extends.create (h : e.Extends e') (fresh : n ∉ e'.networks)
    (created : e''.networks = e'.networks ++ [n]) : e.Extends e'' := by
  rcases h with ⟨new, networks, once, unknown⟩
  rw [networks, List.mem_append, not_or] at fresh
  refine ⟨new ++ [n], ?_, ?_, ?_⟩
  · rw [created, networks, List.append_assoc]
  · have other : ∀ m ∈ new, m ≠ n := by
      rintro m hm rfl
      exact fresh.2 hm
    simpa [List.nodup_append, once] using other
  · intro m hm
    rcases List.mem_append.1 hm with hm | hm
    · exact unknown m hm
    · exact List.mem_singleton.1 hm ▸ fresh.1

theorem Recorded.networks {e₁ : Engine} (h : e.Recorded e₁) : e₁.networks = e.networks := by
  rcases h with ⟨calls, counts, elapsed, rfl⟩
  rfl

theorem connect_networks (e : Engine) (host : Option String) :
    (e.connect host).2.networks = e.networks :=
  struck_keeps (P := fun e' => e'.networks = e.networks) (fun _ he => he.networks) fun _ h => h

/-- Only the creation of a network changes what networks there are. -/
theorem perform_networks (e : Engine) {r : Request} (h : ∀ n, r ≠ .createNetwork n) :
    (e.perform r).2.networks = e.networks := by
  refine struck_keeps (P := fun e' => e'.networks = e.networks) (fun _ he => he.networks) ?_
  intro e₁ same
  cases r with
  | createNetwork n => exact absurd rfl (h n)
  | findImage image =>
    simp only [effect]
    split <;> exact same
  | pullImage image =>
    simp only [effect]
    split <;> exact same
  | find id =>
    simp only [effect]
    split <;> exact same
  | _ => exact same

/-- The creation of a network may fail with or without effect. -/
theorem perform_createNetwork (e : Engine) (n : String) :
    (e.perform (.createNetwork n)).2.networks = e.networks ++ [n] ∨
      (e.perform (.createNetwork n)).2.networks = e.networks ∧
        ∃ f, (e.perform (.createNetwork n)).1 = .error f := by
  rcases perform_cases e (.createNetwork n) with ⟨e₁, he, ⟨f, -, hs⟩ | hs | ⟨f, a, e₂, -, ha, hs⟩⟩
  · exact .inr ⟨by rw [hs]; exact he.networks, f, by rw [hs]⟩
  · refine .inl ?_
    rw [hs]
    exact congrArg (· ++ [n]) he.networks
  · refine .inl ?_
    cases ha
    rw [hs]
    exact congrArg (· ++ [n]) he.networks

/-- The networks whose names contain a name tell whether there is one of just this name. -/
theorem mem_of_listNetworks {found : List String}
    (h : (e.perform (.listNetworks n)).1 = .ok found) : n ∈ found ↔ n ∈ e.networks := by
  rcases perform_cases e (.listNetworks n) with ⟨e₁, he, ⟨f, -, hs⟩ | hs | ⟨f, a, e₂, -, -, hs⟩⟩
  · rw [hs] at h
    cases h
  · rw [hs] at h
    cases h
    rw [List.mem_filter, he.networks]
    exact and_iff_left (Text.contains_self n.toList)
  · rw [hs] at h
    cases h

end Engine

/-! ## What the checks are about -/

namespace World

variable {w w' : World} {c : Call}

/-- The networks of the engine are the same, and what is noted of the engine. -/
structure Unmoved (w w' : World) : Prop where
  networks : w'.engine.networks = w.engine.networks
  known : w'.networks = w.networks
  checked : w'.engineChecked = w.engineChecked

theorem Unmoved.refl (w : World) : w.Unmoved w := ⟨rfl, rfl, rfl⟩

theorem Effect.unmoved (h : Effect w c w') (engine : c ≠ .noteEngine)
    (noted : ∀ n, c ≠ .noteNetwork n) (created : ∀ n, c ≠ .engine (.createNetwork n)) :
    w.Unmoved w' := by
  cases h with
  | openClient inWorker isOpen host => exact ⟨Engine.connect_networks _ _, rfl, rfl⟩
  | engine r ho =>
    have kept : ∀ n, r ≠ .createNetwork n := fun n hr => created n (congrArg Call.engine hr)
    exact ⟨Engine.perform_networks _ kept, rfl, rfl⟩
  | noteEngine => exact absurd rfl engine
  | noteNetwork n => exact absurd rfl (noted n)
  | shutdown =>
    rcases closeRuntime_eq w with ⟨isOpen, closed, log, he⟩
    rw [he]
    exact ⟨rfl, rfl, rfl⟩
  | _ => exact ⟨rfl, rfl, rfl⟩

theorem mem_of_listNetworks {n : String} {found : List String}
    (h : w.perform (.engine (.listNetworks n)) = some (.ok found, w')) :
    n ∈ found ↔ n ∈ w.engine.networks := by
  rcases perform_engine h with ⟨answer, -⟩ | ⟨⟨⟩, -⟩
  exact Engine.mem_of_listNetworks answer.symm

/-- A network is created, or not. -/
theorem createNetwork_cases {n : String} {r : (Call.engine (.createNetwork n)).Reply}
    (h : w.perform (.engine (.createNetwork n)) = some (r, w')) :
    (w'.engine.networks = w.engine.networks ++ [n] ∨
      w'.engine.networks = w.engine.networks ∧ ∃ f, r = .error f) ∧
      w'.networks = w.networks ∧ w'.engineChecked = w.engineChecked := by
  rcases perform_engine h with ⟨rfl, rfl⟩ | ⟨rfl, rfl⟩
  · exact ⟨Engine.perform_createNetwork _ _, rfl, rfl⟩
  · exact ⟨.inr ⟨rfl, _, rfl⟩, rfl, rfl⟩

end World

/-! ## Findings that are so -/

namespace Findings

variable {name : String} {k : Findings} {c : Call} {w₀ w w' : World} {es : List Exchange}

/-- What a start has found out is so, what is noted is so, and networks have only been added. -/
structure Fits (k : Findings) (w₀ : World) (es : List Exchange) (w : World) : Prop where
  grown : w₀.engine.Extends w.engine
  known : ∀ n ∈ w.networks, n ∈ w.engine.networks
  /-- An answer of the engine is noted, or about to be. -/
  pinged : es.any Exchange.pings = (w.engineChecked || k.owed)
  checked : ∀ b, k.checked = some b → es.any Exchange.pings = b
  sure : ∀ n ∈ k.sure, n ∈ w.engine.networks
  missing : ∀ n, k.missing = some n → n ∉ w.engine.networks

/-- Others may act as long as they leave the networks alone. -/
theorem Fits.aside (h : k.Fits w₀ es w) (unmoved : w.Unmoved w') : k.Fits w₀ es w' where
  grown := h.grown.of_eq unmoved.networks
  known := by
    rw [unmoved.networks, unmoved.known]
    exact h.known
  pinged := by
    rw [unmoved.checked]
    exact h.pinged
  checked := h.checked
  sure := by
    rw [unmoved.networks]
    exact h.sure
  missing := by
    rw [unmoved.networks]
    exact h.missing

/-- An exchange in which the engine does not answer a ping. -/
theorem Fits.snoc {e : Exchange} (h : k.Fits w₀ es w) (silent : e.pings = false) :
    k.Fits w₀ (es ++ [e]) w := by
  have same : (es ++ [e]).any Exchange.pings = es.any Exchange.pings := by simp [silent]
  exact ⟨h.grown, h.known, same.trans h.pinged, fun b hb => same.trans (h.checked b hb),
    h.sure, h.missing⟩

/-- A new start knows nothing, and nothing is about to be noted. -/
theorem Fits.renew (h : k.Fits w₀ es w) (settled : k.owed = false) :
    Fits {} w₀ es w where
  grown := h.grown
  known := h.known
  pinged := by
    rw [h.pinged, settled]
  checked := nofun
  sure := nofun
  missing := nofun

/-! One lemma for each thing that can be learned or noted. -/

theorem Fits.looked (h : k.Fits w₀ es w) (settled : k.owed = false) :
    Fits { k with checked := some w.engineChecked } w₀ es w where
  grown := h.grown
  known := h.known
  pinged := h.pinged
  checked := by
    rintro b ⟨⟩
    rw [h.pinged, settled, Bool.or_false]
  sure := h.sure
  missing := h.missing

theorem Fits.answered {e : Exchange} (h : k.Fits w₀ es w) (answer : e.pings = true) :
    Fits { k with checked := some true, owed := true } w₀ (es ++ [e]) w := by
  have pinged : (es ++ [e]).any Exchange.pings = true := by simp [answer]
  refine ⟨h.grown, h.known, pinged.trans (Bool.or_true _).symm, ?_, h.sure, h.missing⟩
  rintro b ⟨⟩
  exact pinged

theorem Fits.noted (h : k.Fits w₀ es w) (answered : k.owed = true) :
    Fits { k with owed := false } w₀ es { w with engineChecked := true } where
  grown := h.grown
  known := h.known
  pinged := by
    rw [h.pinged, answered, Bool.or_true]
    rfl
  checked := h.checked
  sure := h.sure
  missing := h.missing

theorem Fits.found {n : String} (h : k.Fits w₀ es w) (hn : n ∈ w.engine.networks) :
    Fits { k with sure := n :: k.sure } w₀ es w :=
  ⟨h.grown, h.known, h.pinged, h.checked, List.forall_mem_cons.2 ⟨hn, h.sure⟩, h.missing⟩

theorem Fits.missed {n : String} (h : k.Fits w₀ es w) (hn : n ∉ w.engine.networks) :
    Fits { k with missing := some n } w₀ es w :=
  ⟨h.grown, h.known, h.pinged, h.checked, h.sure, fun _ hm => Option.some.inj hm ▸ hn⟩

theorem Fits.notedNetwork {n : String} (h : k.Fits w₀ es w) (hn : n ∈ k.sure) :
    k.Fits w₀ es { w with networks := n :: w.networks } :=
  ⟨h.grown, List.forall_mem_cons.2 ⟨h.sure n hn, h.known⟩, h.pinged, h.checked, h.sure, h.missing⟩

/-- A network is created, or not; either way it is no longer known to be missing. -/
theorem Fits.created {n : String} {e : Exchange} (h : k.Fits w₀ es w) (allowed : k.missing = some n)
    (added : w'.engine.networks = w.engine.networks ++ [n] ∨
      w'.engine.networks = w.engine.networks)
    (known : w'.networks = w.networks) (checked : w'.engineChecked = w.engineChecked)
    (silent : e.pings = false) : Fits { k with missing := none } w₀ (es ++ [e]) w' := by
  have kept : ∀ m ∈ w.engine.networks, m ∈ w'.engine.networks := by
    intro m hm
    rcases added with more | same
    · exact more ▸ List.mem_append_left _ hm
    · exact same ▸ hm
  have old := h.snoc silent
  refine ⟨?_, ?_, ?_, old.checked, fun m hm => kept m (h.sure m hm), nofun⟩
  · rcases added with more | same
    · exact h.grown.create (h.missing n allowed) more
    · exact h.grown.of_eq same
  · rw [known]
    exact fun m hm => kept m (h.known m hm)
  · rw [checked]
    exact old.pinged

/-- An exchange that teaches nothing. -/
theorem Fits.idle {r : c.Reply} (h : k.Fits w₀ es w) (unmoved : w.Unmoved w')
    (silent : Exchange.pings ⟨c, r⟩ = false) (learned : k.learn c r = k) :
    (k.learn c r).Fits w₀ (es ++ [⟨c, r⟩]) w' := by
  rw [learned]
  exact (h.aside unmoved).snoc silent

/-- What is noted of a network is so. -/
theorem Fits.recalled {n : String} (h : k.Fits w₀ es w) (known : Bool)
    (noted : known = true → n ∈ w.networks) :
    (k.learn (.networkKnown n) known).Fits w₀ (es ++ [⟨.networkKnown n, known⟩]) w := by
  cases known with
  | false => exact h.snoc rfl
  | true => exact (h.snoc rfl).found (h.known n (noted rfl))

/-- The engine tells whether there is a network of a name. -/
theorem Fits.listed {n : String} {r : (Call.engine (.listNetworks n)).Reply} (h : k.Fits w₀ es w)
    (reply : w.perform (.engine (.listNetworks n)) = some (r, w')) :
    (k.learn (.engine (.listNetworks n)) r).Fits w₀
      (es ++ [⟨.engine (.listNetworks n), r⟩]) w' := by
  have unmoved := (World.effect_of_perform reply).unmoved nofun nofun nofun
  rcases r with e | (found : List String)
  · exact h.idle unmoved rfl rfl
  have tells : n ∈ found ↔ n ∈ w'.engine.networks :=
    unmoved.networks ▸ World.mem_of_listNetworks reply
  have old := (h.aside unmoved).snoc (e := ⟨.engine (.listNetworks n), .ok found⟩) rfl
  by_cases known : n ∈ found
  · rw [k.learn_listed known]
    exact old.found (tells.1 known)
  · rw [k.learn_unlisted known]
    exact old.missed fun there => known (tells.2 there)

/-- What the engine replies when it is asked to create a network. -/
theorem Fits.founded {n : String} {r : (Call.engine (.createNetwork n)).Reply}
    (h : k.Fits w₀ es w) (allowed : k.missing = some n)
    (reply : w.perform (.engine (.createNetwork n)) = some (r, w')) :
    (k.learn (.engine (.createNetwork n)) r).Fits w₀
      (es ++ [⟨.engine (.createNetwork n), r⟩]) w' := by
  rcases World.createNetwork_cases reply with ⟨added, known, checked⟩
  have created := h.created (e := ⟨.engine (.createNetwork n), r⟩) allowed
    (added.imp_right And.left) known checked rfl
  cases r with
  | error e => exact created
  | ok u =>
    refine created.found ?_
    rcases added with more | ⟨-, f, ⟨⟩⟩
    rw [more]
    exact List.mem_append_right _ List.mem_cons_self

/-- The world's reply to a call that the findings justify leaves them true. -/
theorem Fits.perform {r : c.Reply} (h : k.Fits w₀ es w) (allowed : k.Allows name c)
    (reply : w.perform c = some (r, w')) : (k.learn c r).Fits w₀ (es ++ [⟨c, r⟩]) w' := by
  have effect := World.effect_of_perform reply
  by_cases apart : c.Apart
  · exact h.idle (effect.unmoved apart.ne_noteEngine apart.ne_noteNetwork apart.ne_createNetwork)
      (apart.silent r) (k.learn_apart apart r)
  -- What is left are the calls about notes and networks, each with a lemma of its own.
  cases c with
  | engineChecked =>
    cases reply
    exact (h.snoc rfl).looked allowed
  | noteEngine =>
    cases reply
    exact (h.snoc rfl).noted allowed
  | networkKnown n =>
    cases reply
    exact h.recalled _ List.contains_iff_mem.1
  | noteNetwork n =>
    cases reply
    exact (h.snoc rfl).notedNetwork allowed
  | engine request =>
    cases request with
    | ping =>
      have unmoved := effect.unmoved nofun nofun nofun
      cases r with
      | error e => exact h.idle unmoved rfl rfl
      | ok u => exact (h.aside unmoved).answered rfl
    | listNetworks n => exact h.listed reply
    | createNetwork n => exact h.founded allowed reply
    | create spec => exact h.idle (effect.unmoved nofun nofun nofun) rfl rfl
    | _ => exact absurd trivial apart
  | _ => exact absurd trivial apart

/-- A call that is cancelled teaches nothing, but a network may have been created all the same. -/
theorem Fits.cancel {r : c.Reply} (h : k.Fits w₀ es w) (allowed : k.Allows name c)
    (reply : c.cancelled? = some r)
    (landed : w' = w ∨ c.inWorker = true ∧ ∃ r, w.perform c = some (r, w')) :
    (k.learn c r).Fits w₀ (es ++ [⟨c, r⟩]) w' := by
  have unmoved (engine : c ≠ .noteEngine) (noted : ∀ n, c ≠ .noteNetwork n)
      (created : ∀ n, c ≠ .engine (.createNetwork n)) : w.Unmoved w' := by
    rcases landed with rfl | ⟨-, r, lands⟩
    · exact .refl w'
    · exact (World.effect_of_perform lands).unmoved engine noted created
  by_cases apart : c.Apart
  · exact h.idle (unmoved apart.ne_noteEngine apart.ne_noteNetwork apart.ne_createNetwork)
      (apart.silent r) (k.learn_apart apart r)
  cases c with
  | engine request =>
    cases reply
    cases request with
    | createNetwork n =>
      -- The engine may have created the network; the next start will see it in the list.
      rcases landed with rfl | ⟨-, r, lands⟩
      · exact h.created allowed (.inr rfl) rfl rfl rfl
      · rcases World.createNetwork_cases lands with ⟨added, known, checked⟩
        exact h.created allowed (added.imp_right And.left) known checked rfl
    | _ => exact h.idle (unmoved nofun nofun nofun) rfl rfl
  | _ => first | exact absurd trivial apart | cases reply

end Findings

/-! ## One start after another -/

/-- A provisioner makes one start after another, from a world in which nothing is noted yet: the
exchanges so far, the configuration of the start that is going on and what is left of it.  Others
may act in between as long as they leave the networks alone. -/
inductive Starts (p : Provisioner) (w₀ : World) :
    List Exchange → ServiceConfig → Task (Except Fault Handle) → World → Prop where
  | first (c : ServiceConfig) (unchecked : w₀.engineChecked = false) (unknown : w₀.networks = []) :
      Starts p w₀ [] c (p.startService c) w₀
  | next {es : List Exchange} {c : ServiceConfig} {r : Except Fault Handle} {w : World}
      (starts : Starts p w₀ es c (.done r) w) (c' : ServiceConfig) :
      Starts p w₀ es c' (p.startService c') w
  | aside {es : List Exchange} {c : ServiceConfig} {t : Task (Except Fault Handle)} {w w' : World}
      (starts : Starts p w₀ es c t w) (others : w.Unmoved w') : Starts p w₀ es c t w'
  | answered {es : List Exchange} {c : ServiceConfig} {w w' : World} {call : Call}
      {rest : call.Reply → Task (Except Fault Handle)} {r : call.Reply}
      (starts : Starts p w₀ es c (.call call rest) w) (reply : w.perform call = some (r, w')) :
      Starts p w₀ (es ++ [⟨call, r⟩]) c (rest r) w'
  | cancelled {es : List Exchange} {c : ServiceConfig} {w w' : World} {call : Call}
      {rest : call.Reply → Task (Except Fault Handle)} {r : call.Reply}
      (starts : Starts p w₀ es c (.call call rest) w) (reply : call.cancelled? = some r)
      (landed : w' = w ∨ call.inWorker = true ∧ ∃ r, w.perform call = some (r, w')) :
      Starts p w₀ (es ++ [⟨call, r⟩]) c (rest r) w'

namespace Starts

variable {p : Provisioner} {w₀ w w' : World} {es : List Exchange} {c : ServiceConfig}
  {t : Task (Except Fault Handle)}

/-- At every moment there are findings that are so and to which the rest of the start keeps. -/
theorem findings (h : Starts p w₀ es c t w) :
    ∃ k : Findings, k.Fits w₀ es w ∧
      Task.Follows (Rule.checks (p.networkOf c)) (fun k _ => k.owed = false) t k := by
  induction h with
  | first c unchecked unknown =>
    refine ⟨{}, ⟨.refl _, ?_, ?_, nofun, nofun, nofun⟩, p.startService_checks c⟩
    · rw [unknown]
      exact nofun
    · rw [unchecked]
      rfl
  | next starts c' ih =>
    -- What the start before has found out is either noted or forgotten.
    rcases ih with ⟨k, fits, settled⟩
    exact ⟨{}, fits.renew settled, p.startService_checks c'⟩
  | aside starts others ih =>
    rcases ih with ⟨k, fits, follows⟩
    exact ⟨k, fits.aside others, follows⟩
  | answered starts reply ih =>
    rcases ih with ⟨k, fits, follows⟩
    exact ⟨_, fits.perform follows.1 reply, follows.2 _⟩
  | cancelled starts reply landed ih =>
    rcases ih with ⟨k, fits, follows⟩
    exact ⟨_, fits.cancel follows.1 reply landed, follows.2 _⟩

theorem follow {es' : List Exchange} {t' : Task (Except Fault Handle)} {ds : List (Option Bool)}
    (h : Starts p w₀ es c t w) (replayed : Task.replay? ds t w = some (es', t', w')) :
    Starts p w₀ (es ++ es') c t' w' := by
  induction ds generalizing es t w es' with
  | nil =>
    cases replayed
    rwa [List.append_nil]
  | cons d ds ih =>
    rcases Task.replay?_cons replayed with ⟨call, next, r, w₁, es₁, rfl, rfl, moved, rest⟩
    rw [List.append_cons]
    rcases moved with reply | ⟨reply, landed⟩
    · exact ih (.answered h reply) rest
    · exact ih (.cancelled h reply landed) rest

end Starts

/-- What holds while a start of the configuration `c` has `t` left and the exchanges of all starts
are `es`. -/
structure Provisioner.Prudent (p : Provisioner) (w₀ : World) (es : List Exchange)
    (c : ServiceConfig) (t : Task (Except Fault Handle)) (w : World) : Prop where
  /-- A container is asked for when the engine has answered and its network exists. -/
  prepared : ∀ spec, t.call? = some (.engine (.create spec)) → es.any Exchange.pings = true ∧
    spec.network = some (p.networkOf c) ∧ p.networkOf c ∈ w.engine.networks
  /-- No network has been created twice, and none that existed. -/
  networks_once : w₀.engine.Extends w.engine
  /-- An engine that has answered is not asked again. -/
  pinged_once : es.any Exchange.pings = true → t.call? ≠ some (.engine .ping)

/-- A provisioner prepares for its containers once, whatever fails and however often it has to
start again. -/
theorem starts_prudent {p : Provisioner} {w₀ w : World} {es : List Exchange} {c : ServiceConfig}
    {t : Task (Except Fault Handle)} (starts : Starts p w₀ es c t w) :
    p.Prudent w₀ es c t w := by
  rcases starts.findings with ⟨k, fits, follows⟩
  refine ⟨?_, fits.grown, ?_⟩
  · intro spec next
    rcases follows.allows next with ⟨checked, network, sure⟩
    exact ⟨fits.checked _ checked, network, fits.sure _ sure⟩
  · intro answered next
    have unanswered := fits.checked _ (follows.allows next)
    rw [answered] at unanswered
    cases unanswered

/-- A world whose engine fails once after it has created a network, and whose other networks have
longer names. -/
def troubledWorld : World where
  engine := {
    networks := ["apps-old", "my-apps"]
    faults := [{
      call := "networks.create", nth := some 1, after := true
      fault := some (.of .engineApi "500 Server Error") }] }

/-- The provisioner whose containers are for the network `apps`. -/
def appsProvisioner : Provisioner := ⟨"s", { networkName := "apps" }⟩

/-- The network of the container that is asked for. -/
def Call.network? : Call → Option String
  | .engine (.create spec) => spec.network
  | _ => none

/-- The start of a database as far as a number of replies of the world take it. -/
def databaseStart (replies : Nat) (w : World) :
    Option (List Exchange × Task (Except Fault Handle) × World) :=
  Task.replay? (List.replicate replies none) (appsProvisioner.startService (.postgres {})) w

/-- A start fails when it has created its network, and the next one asks for its container. -/
theorem starts_prudent_of_repeated_start :
    ∃ es t w, Starts appsProvisioner troubledWorld es (.postgres {}) t w ∧
      t.call?.bind Call.network? = some "apps" ∧
      w.engine.networks = ["apps-old", "my-apps", "apps"] ∧
      appsProvisioner.Prudent troubledWorld es (.postgres {}) t w := by
  have facts : (databaseStart 11 troubledWorld).bind (fun failed =>
      (databaseStart 10 failed.2.2).map fun again => (failed.2.1.call?.isNone,
        again.2.1.call?.bind Call.network?, again.2.2.engine.networks)) =
      some (true, some "apps", ["apps-old", "my-apps", "apps"]) := by
    decide +kernel
  rcases Option.bind_eq_some_iff.1 facts with ⟨⟨es₁, t₁, w₁⟩, first, facts⟩
  rcases Option.map_eq_some_iff.1 facts with ⟨⟨es₂, t₂, w₂⟩, second, facts⟩
  simp only [Prod.mk.injEq, Option.isNone_iff_eq_none] at facts
  rcases facts with ⟨ended, asked, networks⟩
  have failed : Starts appsProvisioner troubledWorld es₁ (.postgres {}) t₁ w₁ :=
    (Starts.first (p := appsProvisioner) (.postgres {}) rfl rfl).follow first
  cases t₁ with
  | call c next => cases ended
  | done r =>
    have starts := (failed.next (.postgres {})).follow second
    exact ⟨es₁ ++ es₂, t₂, w₂, starts, asked, networks, starts_prudent starts⟩

end Testbed
