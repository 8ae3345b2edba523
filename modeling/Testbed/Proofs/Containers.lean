import Testbed.Proofs.Effect

/-!
# The containers of an engine

Only the creation of a container adds one.  Every other request leaves a subset of the containers
that stood before, with their labels, and only a removal takes some away.
-/

namespace Testbed
namespace Engine

variable {e e' e'' : Engine} {id : String}

/-- Every container stood before, with the same labels. -/
def Within (e' e : Engine) : Prop :=
  ∀ k' ∈ e'.containers, ∃ k ∈ e.containers, k.id = k'.id ∧ k.labels = k'.labels

/-- No container has an id. -/
def Lacks (e : Engine) (id : String) : Prop := ∀ k ∈ e.containers, k.id ≠ id

/-- A container with an id and a label stands. -/
def Holds (e : Engine) (id : String) (label : String × String) : Prop :=
  ∃ k ∈ e.containers, k.id = id ∧ label ∈ k.labels

theorem Within.refl (e : Engine) : e.Within e := fun k hk => ⟨k, hk, rfl, rfl⟩

theorem Within.of_eq (h : e'.containers = e.containers) : e'.Within e :=
  fun k hk => ⟨k, h ▸ hk, rfl, rfl⟩

theorem Within.trans (h : e''.Within e') (h' : e'.Within e) : e''.Within e := by
  intro k hk
  rcases h k hk with ⟨k', hk', hi, hl⟩
  rcases h' k' hk' with ⟨k'', hk'', hi', hl'⟩
  exact ⟨k'', hk'', hi'.trans hi, hl'.trans hl⟩

theorem Lacks.within (h : e.Lacks id) (hw : e'.Within e) : e'.Lacks id := by
  intro k hk hi
  rcases hw k hk with ⟨k', hk', hi', -⟩
  exact h k' hk' (hi'.trans hi)

theorem Holds.within {label : String × String} (h : e'.Holds id label) (hw : e'.Within e) :
    e.Holds id label := by
  rcases h with ⟨k, hk, hi, hl⟩
  rcases hw k hk with ⟨k', hk', hi', hl'⟩
  exact ⟨k', hk', hi'.trans hi, hl' ▸ hl⟩

theorem Holds.not_lacks {label : String × String} (h : e.Holds id label) : ¬ e.Lacks id := by
  intro hl
  rcases h with ⟨k, hk, hi, -⟩
  exact hl k hk hi

/-! ## Requests -/

/-- The fault is one that the rules of the engine raise. -/
def Raises (e : Engine) (f : Fault) : Prop := ∃ rule ∈ e.faults, rule.fault = some f

/-- Only the record of the calls is another one. -/
def Recorded (e e₁ : Engine) : Prop :=
  ∃ calls counts elapsed, e₁ = { e with calls := calls, counts := counts, elapsed := elapsed }

theorem Recorded.containers {e₁ : Engine} (h : e.Recorded e₁) : e₁.containers = e.containers := by
  rcases h with ⟨calls, counts, elapsed, rfl⟩
  rfl

/-- A call fails before its effect, succeeds with it, or fails after it. -/
theorem struck_cases {α : Type} (e : Engine) (name subject : String) (arguments : List Json)
    (act : Engine → Except Fault α × Engine) :
    ∃ e₁ : Engine, e.Recorded e₁ ∧
      ((∃ f, e.Raises f ∧ e.struck name subject arguments act = (.error f, e₁)) ∨
        e.struck name subject arguments act = act e₁ ∨
          ∃ f a e₂, e.Raises f ∧ act e₁ = (.ok a, e₂) ∧
            e.struck name subject arguments act = (.error f, e₂)) := by
  unfold struck
  simp only
  split
  · exact ⟨e.note name subject arguments, ⟨_, _, _, rfl⟩, .inr (.inl rfl)⟩
  · rename_i rule hrule
    have mem : rule ∈ e.faults := List.mem_of_find?_eq_some hrule
    -- The rule may only delay the call, or raise before or after its effect.
    refine ⟨{ e.note name subject arguments with
      elapsed := (e.note name subject arguments).elapsed + rule.delay }, ⟨_, _, _, rfl⟩, ?_⟩
    split
    · exact .inr (.inl rfl)
    · rename_i f hf _
      exact .inl ⟨f, ⟨rule, mem, hf⟩, rfl⟩
    · rename_i f hf _
      split
      · rename_i h
        exact .inr (.inl h.symm)
      · rename_i a e₂ h
        exact .inr (.inr ⟨f, a, e₂, ⟨rule, mem, hf⟩, h, rfl⟩)

/-- What holds just before a call and after its effect holds after the call, whatever strikes. -/
theorem struck_keeps {α : Type} {P : Engine → Prop} {name subject : String}
    {arguments : List Json} {act : Engine → Except Fault α × Engine}
    (before : ∀ e₁, e.Recorded e₁ → P e₁)
    (after : ∀ e₁, P e₁ → P (act e₁).2) : P (e.struck name subject arguments act).2 := by
  rcases struck_cases e name subject arguments act with
    ⟨e₁, he, ⟨f, -, hs⟩ | hs | ⟨f, a, e₂, -, ha, hs⟩⟩
  · rw [hs]
    exact before e₁ he
  · rw [hs]
    exact after e₁ (before e₁ he)
  · have h := after e₁ (before e₁ he)
    rw [ha] at h
    rw [hs]
    exact h

/-- A request fails before its effect, succeeds with it, or fails after it. -/
theorem perform_cases (e : Engine) (r : Request) :
    ∃ e₁ : Engine, e.Recorded e₁ ∧
      ((∃ f, e.Raises f ∧ e.perform r = (.error f, e₁)) ∨ e.perform r = e₁.effect r ∨
        ∃ f a e₂, e.Raises f ∧ e₁.effect r = (.ok a, e₂) ∧ e.perform r = (.error f, e₂)) :=
  struck_cases e r.name r.subject r.arguments fun e => e.effect r

/-- The effect of a request that does not create a container. -/
theorem effect_within (e : Engine) {r : Request} (h : ∀ spec, r ≠ .create spec) :
    (e.effect r).2.Within e := by
  cases r with
  | create spec => exact absurd rfl (h spec)
  | findImage image =>
    simp only [effect]
    split <;> exact .refl e
  | pullImage image =>
    simp only [effect]
    split <;> exact .of_eq rfl
  | find id =>
    simp only [effect]
    split <;> exact .refl e
  | start id =>
    intro k hk
    rcases List.mem_map.1 hk with ⟨k₀, hk₀, rfl⟩
    refine ⟨k₀, hk₀, ?_⟩
    split <;> exact ⟨rfl, rfl⟩
  | remove id force volumes =>
    intro k hk
    exact ⟨k, (List.mem_filter.1 hk).1, rfl, rfl⟩
  | _ => exact .of_eq rfl

/-- A request that does not create a container leaves containers that stood before. -/
theorem perform_within (e : Engine) {r : Request} (h : ∀ spec, r ≠ .create spec) :
    (e.perform r).2.Within e := by
  refine struck_keeps (P := fun e₁ => e₁.Within e) ?_ ?_
  · exact fun e₁ he => .of_eq he.containers
  · exact fun e₁ he => (effect_within e₁ h).trans he

/-- A removal that is answered without an error has taken place. -/
theorem remove_lacks {force volumes : Bool} {a : Unit}
    (h : (e.perform (.remove id force volumes)).1 = .ok a) :
    (e.perform (.remove id force volumes)).2.Lacks id := by
  obtain ⟨e₁, he, ⟨f, -, hs⟩ | hs | ⟨f, a, e₂, -, ha, hs⟩⟩ :=
    perform_cases e (.remove id force volumes)
  · rw [hs] at h
    cases h
  · rw [hs]
    intro k hk
    simpa using (List.mem_filter.1 hk).2
  · rw [hs] at h
    cases h

/-- Only the containers with the id of a removal are taken away. -/
theorem perform_holds {label : String × String} {r : Request} (h : e.Holds id label)
    (hr : ∀ force volumes, r ≠ .remove id force volumes) : (e.perform r).2.Holds id label := by
  -- Only a removal takes a container away, and it is about another one.
  have keeps (e₁ : Engine) (h : e₁.Holds id label) : (e₁.effect r).2.Holds id label := by
    rcases h with ⟨k, hk, hi, hl⟩
    cases r with
    | create spec => exact ⟨k, List.mem_append_left _ hk, hi, hl⟩
    | findImage image =>
      simp only [effect]
      split <;> exact ⟨k, hk, hi, hl⟩
    | pullImage image =>
      simp only [effect]
      split <;> exact ⟨k, hk, hi, hl⟩
    | find id =>
      simp only [effect]
      split <;> exact ⟨k, hk, hi, hl⟩
    | start id =>
      refine ⟨_, List.mem_map_of_mem hk, ?_⟩
      split <;> exact ⟨hi, hl⟩
    | remove id' force volumes =>
      refine ⟨k, List.mem_filter.2 ⟨hk, ?_⟩, hi, hl⟩
      have hne : id ≠ id' := by
        rintro rfl
        exact hr force volumes rfl
      simpa [hi] using hne
    | _ => exact ⟨k, hk, hi, hl⟩
  refine struck_keeps (P := fun e₁ => e₁.Holds id label) ?_ keeps
  intro e₁ he
  rcases h with ⟨k, hk, h⟩
  exact ⟨k, he.containers ▸ hk, h⟩

/-- A label query that is answered names all containers with the label. -/
theorem listLabelled_complete {filter : String} {ids : List String}
    (h : (e.perform (.listLabelled filter)).1 = .ok ids) {k : Container}
    (hk : k ∈ e.containers) (hl : matchesFilter filter k = true) : k.id ∈ ids := by
  obtain ⟨e₁, he, ⟨f, -, hs⟩ | hs | ⟨f, a, e₂, -, ha, hs⟩⟩ :=
    perform_cases e (.listLabelled filter)
  · rw [hs] at h
    cases h
  · rw [hs] at h
    cases h
    exact List.mem_map_of_mem (List.mem_filter.2 ⟨he.containers ▸ hk, hl⟩)
  · rw [hs] at h
    cases h

theorem connect_containers (e : Engine) (host : Option String) :
    (e.connect host).2.containers = e.containers :=
  struck_keeps (P := fun e₁ => e₁.containers = e.containers) (fun _ he => he.containers)
    fun _ h => h

/-- What an engine has been set up with is the same: its rules, its address and what it tells of
ports. -/
structure Alike (e e' : Engine) : Prop where
  faults : e'.faults = e.faults
  baseUrl : e'.baseUrl = e.baseUrl
  attributes : e'.attributes = e.attributes
  portMap : e'.portMap = e.portMap

theorem Alike.trans (h : e.Alike e') (h' : e'.Alike e'') : e.Alike e'' :=
  ⟨h'.faults.trans h.faults, h'.baseUrl.trans h.baseUrl, h'.attributes.trans h.attributes,
    h'.portMap.trans h.portMap⟩

theorem Recorded.alike {e₁ : Engine} (h : e.Recorded e₁) : e.Alike e₁ := by
  rcases h with ⟨calls, counts, elapsed, rfl⟩
  exact ⟨rfl, rfl, rfl, rfl⟩

theorem effect_alike (e : Engine) (r : Request) : e.Alike (e.effect r).2 := by
  cases r <;> simp only [Engine.effect] <;>
    first | exact ⟨rfl, rfl, rfl, rfl⟩ | split <;> exact ⟨rfl, rfl, rfl, rfl⟩

theorem perform_alike (e : Engine) (r : Request) : e.Alike (e.perform r).2 :=
  struck_keeps (P := e.Alike) (fun _ he => he.alike) fun e₁ h => h.trans (effect_alike e₁ r)

theorem connect_alike (e : Engine) (host : Option String) : e.Alike (e.connect host).2 :=
  struck_keeps (P := e.Alike) (fun _ he => he.alike) fun _ h => h

/-- The engine itself fails when an image or a container is missing. -/
theorem effect_error {r : Request} {f : Fault} (h : (e.effect r).1 = .error f) :
    f.isA Fault.Kind.isEngine = true := by
  cases r with
  | findImage image =>
    simp only [effect] at h
    split at h
    · cases h
    · cases h
      rfl
  | pullImage image =>
    simp only [effect] at h
    split at h
    · cases h
      rfl
    · cases h
  | find id =>
    simp only [effect] at h
    split at h
    · cases h
    · cases h
      rfl
  | _ => cases h

/-- An error of a request is raised by a rule or by the engine itself. -/
theorem perform_error {r : Request} {f : Fault} (h : (e.perform r).1 = .error f) :
    e.Raises f ∨ f.isA Fault.Kind.isEngine = true := by
  rcases perform_cases e r with ⟨e₁, -, ⟨g, hg, hs⟩ | hs | ⟨g, a, e₂, hg, -, hs⟩⟩
  · rw [hs] at h
    cases h
    exact .inl hg
  · rw [hs] at h
    exact .inr (effect_error h)
  · rw [hs] at h
    cases h
    exact .inl hg

theorem connect_error {host : Option String} {f : Fault} (h : (e.connect host).1 = .error f) :
    e.Raises f := by
  rcases struck_cases e "open" "" [.ofText? host] (fun e => ((.ok () : Except Fault Unit), e)) with
    ⟨e₁, -, ⟨g, hg, hs⟩ | hs | ⟨g, a, e₂, hg, -, hs⟩⟩
  · rw [connect, hs] at h
    cases h
    exact hg
  · rw [connect, hs] at h
    cases h
  · rw [connect, hs] at h
    cases h
    exact hg

/-- A look-up that is answered tells how a container is. -/
theorem find_snapshot {id : String} {a : Snapshot} (h : (e.perform (.find id)).1 = .ok a) :
    ∃ e₁ k, e.Alike e₁ ∧ a = e₁.snapshot k := by
  rcases perform_cases e (.find id) with ⟨e₁, he, ⟨g, -, hs⟩ | hs | ⟨g, b, e₂, -, -, hs⟩⟩
  · rw [hs] at h
    cases h
  · rw [hs] at h
    simp only [Engine.effect] at h
    split at h
    · cases h
      exact ⟨e₁, _, he.alike, rfl⟩
    · cases h
  · rw [hs] at h
    cases h

/-! ## Engines that tell the truth -/

/-- The request is about one container and fails if there is none. -/
def Request.Seeks (id : String) : Request → Prop
  | .find i | .remove i .. => i = id
  | _ => False

/-- The engine answers that a container is not found only if it does not exist. -/
def Honest (e : Engine) : Prop :=
  ∀ (r : Request) (id : String) (f : Fault), r.Seeks id → (e.perform r).1 = .error f →
    f.isA Fault.Kind.isNotFound = true → (e.perform r).2.Lacks id

/-- The rules never say that something was not found. -/
def Plain (e : Engine) : Prop :=
  ∀ rule ∈ e.faults, ∀ f, rule.fault = some f → f.isA Fault.Kind.isNotFound = false

theorem Plain.honest (h : e.Plain) : e.Honest := by
  intro r id f hr hf hn
  have raised {g : Fault} (hg : e.Raises g) : g.isA Fault.Kind.isNotFound = false := by
    rcases hg with ⟨rule, hrule, hg⟩
    exact h rule hrule g hg
  rcases perform_cases e r with ⟨e₁, he, ⟨g, hg, hs⟩ | hs | ⟨g, a, e₂, hg, ha, hs⟩⟩
  · rw [hs] at hf
    cases hf
    cases hn.symm.trans (raised hg)
  · -- No rule has struck, so that the answer is the engine's own.
    cases r with
    | find i =>
      obtain rfl : i = id := hr
      cases hc : e₁.container? i with
      | some c =>
        simp only [hs, Engine.effect, hc] at hf
        cases hf
      | none =>
        simp only [hs, Engine.effect, hc]
        intro k hk he
        simpa [he] using List.find?_eq_none.1 hc k hk
    | remove i force volumes =>
      rw [hs] at hf
      cases hf
    | _ => exact hr.elim
  · rw [hs] at hf
    cases hf
    cases hn.symm.trans (raised hg)

end Engine

/-! ## Calls -/

namespace World

variable {w w' : World} {id : String}

/-- The worker threads pass a request on to the engine unless they take no calls. -/
theorem perform_engine {r : Engine.Request} {a : Except Fault r.Reply}
    (h : w.perform (.engine r) = some (a, w')) :
    a = (w.engine.perform r).1 ∧ w' = { w with engine := (w.engine.perform r).2 } ∨
      a = .error noWorkers ∧ w' = w := by
  have he : w.viaWorkers (fun w =>
      ((w.engine.perform r).1, { w with engine := (w.engine.perform r).2 })) = (a, w') :=
    Option.some.inj h
  unfold viaWorkers at he
  split at he
  · cases he
    exact .inl ⟨rfl, rfl⟩
  · cases he
    exact .inr ⟨rfl, rfl⟩

/-- A call that does not create a container leaves containers that stood before. -/
theorem Effect.within {c : Call} (h : Effect w c w') (hc : ∀ spec, c ≠ .engine (.create spec)) :
    w'.engine.Within w.engine := by
  cases h with
  | openClient inWorker isOpen host => exact .of_eq (Engine.connect_containers w.engine host)
  | engine r ho =>
    refine Engine.perform_within w.engine fun spec hr => ?_
    exact hc spec (hr ▸ rfl)
  | shutdown =>
    rcases closeRuntime_eq w with ⟨isOpen, closed, log, he⟩
    exact .of_eq (by rw [he])
  | _ => exact .refl w.engine

/-- No call changes the rules of the engine. -/
theorem Effect.faults {c : Call} (h : Effect w c w') : w'.engine.faults = w.engine.faults := by
  cases h with
  | openClient inWorker isOpen host => exact (Engine.connect_alike w.engine host).faults
  | engine r ho => exact (Engine.perform_alike w.engine r).faults
  | shutdown =>
    rcases closeRuntime_eq w with ⟨isOpen, closed, log, he⟩
    rw [he]
  | _ => rfl

/-- A call that does not remove a container leaves it where it is. -/
theorem Effect.holds {c : Call} {label : String × String} (h : Effect w c w')
    (hw : w.engine.Holds id label) (hc : ∀ force volumes, c ≠ .engine (.remove id force volumes)) :
    w'.engine.Holds id label := by
  cases h with
  | openClient inWorker isOpen host =>
    rcases hw with ⟨k, hk, h⟩
    exact ⟨k, Engine.connect_containers w.engine host ▸ hk, h⟩
  | engine r ho =>
    refine Engine.perform_holds hw fun force volumes hr => ?_
    exact hc force volumes (hr ▸ rfl)
  | shutdown =>
    rcases closeRuntime_eq w with ⟨isOpen, closed, log, he⟩
    rw [he]
    exact hw
  | _ => exact hw

end World
end Testbed
