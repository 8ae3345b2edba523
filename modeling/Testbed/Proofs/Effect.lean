import Testbed.World.State

/-!
# What calls change

`Effect w c w'` lists what a call can do to a world.  Most calls only touch what lies outside of an
environment; the others are named one by one.  `effect_of_perform` is the only place where
`World.perform` is opened.
-/

namespace Testbed

/-- The call leaves alone everything that environments and the engine keep. -/
def Call.isOutside : Call → Bool
  | .openClient _ | .engine _ | .forgetClient | .noteEngine | .noteNetwork _ | .newIdentity
  | .record _ | .claim _ | .store .. | .shutdownRuntime => false
  | _ => true

namespace World

/-- What a call can do to a world. -/
inductive Effect (w : World) : Call → World → Prop where
  | outside (c : Call) (o : Outside) (clock : Float) (drawn : Nat) (log : List LogRecord)
      (trace : List (Except Fault Sight)) (pauses : List Float) (hc : c.isOutside = true) :
      Effect w c
        { w with
          outside := o, clock := clock, drawn := drawn, log := log, trace := trace
          pauses := pauses }
  | openClient (inWorker isOpen : Bool) (host : Option String) :
      Effect w (.openClient inWorker)
        { w with engine := (w.engine.connect host).2, clientOpen := isOpen }
  | openNothing (inWorker : Bool) : Effect w (.openClient inWorker) w
  | engine (r : Engine.Request) (ho : w.workersOpen = true) :
      Effect w (.engine r) { w with engine := (w.engine.perform r).2 }
  | engineClosed (r : Engine.Request) (ho : w.workersOpen = false) : Effect w (.engine r) w
  | forgetClient : Effect w .forgetClient { w with clientOpen := false }
  | noteEngine : Effect w .noteEngine { w with engineChecked := true }
  | noteNetwork (name : String) :
      Effect w (.noteNetwork name) { w with networks := name :: w.networks }
  | newIdentity : Effect w .newIdentity { w with made := w.made + 1 }
  | record (c : Capability) : Effect w (.record c) { w with ledger := w.ledger.record c }
  | claim (c : Capability) (hu : c.identity ∉ w.used) :
      Effect w (.claim c) { w with used := c.identity :: w.used }
  | claimInVain (c : Capability) (hu : c.identity ∈ w.used) : Effect w (.claim c) w
  | store (key : String) (value : Entry) {r : Registry} (log : List LogRecord)
      (hr : w.registry.set key value = .ok r) :
      Effect w (.store key value) { w with registry := r, log := log }
  | storeRefused (key : String) (value : Entry) : Effect w (.store key value) w
  | shutdown : Effect w .shutdownRuntime w.closeRuntime

variable {w w' : World}

/-- A shutdown of the runtime only touches the runtime and the log. -/
theorem closeRuntime_eq (w : World) : ∃ isOpen closed log,
    w.closeRuntime = { w with workersOpen := isOpen, runtimesClosed := closed, log := log } := by
  unfold closeRuntime
  split
  · exact ⟨false, _, _, rfl⟩
  · exact ⟨w.workersOpen, w.runtimesClosed, w.log, rfl⟩

theorem effect_of_viaWorkers {c : Call} {α : Type} {act : World → Except Fault α × World}
    (acts : w.workersOpen = true → Effect w c (act w).2)
    (closed : w.workersOpen = false → Effect w c w) : Effect w c (w.viaWorkers act).2 := by
  unfold viaWorkers
  split
  · rename_i h
    exact acts h
  · rename_i h
    exact closed (by simpa using h)

theorem effect_of_openClient (inWorker : Bool) :
    Effect w (.openClient inWorker) w.openClient.2 := by
  unfold World.openClient
  split
  · exact .openNothing inWorker
  · simp only
    split
    · rename_i h
      have := Effect.openClient (w := w) inWorker true (w.host.filter fun h => !h.isEmpty)
      rwa [h] at this
    · rename_i h
      have := Effect.openClient (w := w) inWorker w.clientOpen
        (w.host.filter fun h => !h.isEmpty)
      rwa [h] at this

/-- Every call does one of these things. -/
theorem effect_of_perform {c : Call} {r : c.Reply} (h : w.perform c = some (r, w')) :
    Effect w c w' := by
  have outside (hc : c.isOutside = true) (o clock drawn log trace pauses)
      (hw : { w with
        outside := o, clock := clock, drawn := drawn, log := log, trace := trace
        pauses := pauses } = w') : Effect w c w' :=
    hw ▸ .outside c o clock drawn log trace pauses hc
  cases c <;> simp only [perform] at h
  -- First the calls that touch what environments keep, one by one.
  case openClient inWorker =>
    cases inWorker with
    | true =>
      rcases congrArg Prod.snd (Option.some.inj h) with rfl
      exact effect_of_viaWorkers (fun _ => effect_of_openClient true) fun _ => .openNothing true
    | false =>
      rcases congrArg Prod.snd (Option.some.inj h) with rfl
      exact effect_of_openClient false
  case engine request =>
    rcases congrArg Prod.snd (Option.some.inj h) with rfl
    exact effect_of_viaWorkers (.engine request) (.engineClosed request)
  case forgetClient =>
    cases h
    exact .forgetClient
  case noteEngine =>
    cases h
    exact .noteEngine
  case noteNetwork name =>
    cases h
    exact .noteNetwork name
  case newIdentity =>
    cases h
    exact .newIdentity
  case record c =>
    cases h
    exact .record c
  case claim c =>
    split at h
    · rename_i hu
      cases h
      exact .claimInVain c (by simpa using hu)
    · rename_i hu
      cases h
      exact .claim c (by simpa using hu)
  case store key value =>
    split at h
    · rename_i hr
      cases h
      exact .store key value _ hr
    · cases h
      exact .storeRefused key value
  case shutdownRuntime =>
    cases h
    exact .shutdown
  case readFile p =>
    rcases congrArg Prod.snd (Option.some.inj h) with rfl
    exact effect_of_viaWorkers (fun _ => .outside _ _ _ _ _ _ _ rfl)
      fun _ => .outside _ _ _ _ _ _ _ rfl
  -- All others are outside calls, some of which may have to wait.
  all_goals
    try split at h
  all_goals
    try split at h
  all_goals
    first
      | exact outside rfl _ _ _ _ _ _ (Prod.mk.inj (Option.some.inj h)).2
      | simp at h

/-- What a program that moves on does to the world. -/
theorem next?_eq_some {α : Type} {t t' : Task α} (h : w.next? t = some (t', w')) :
    ∃ (c : Call) (next : c.Reply → Task α) (r : c.Reply),
      t = .call c next ∧ w.perform c = some (r, w') ∧ t' = next r := by
  cases t with
  | done a => simp [next?] at h
  | call c next =>
    have answered : ∃ a, w.perform c = some a ∧ (next a.1, a.2) = (t', w') :=
      Option.map_eq_some_iff.1 h
    rcases answered with ⟨⟨r, w₁⟩, hr, he⟩
    cases he
    exact ⟨c, next, r, rfl, hr, rfl⟩

/-- Worker threads answer what they are asked. -/
theorem perform_isSome_of_inWorker {c : Call} (h : c.inWorker = true) (w : World) :
    (w.perform c).isSome = true := by
  cases c <;> first | rfl | cases h

/-- What the cancellation of a program does to the world. -/
theorem cancel?_eq_some {α : Type} {t t' : Task α} {landed : Bool}
    (h : w.cancel? landed t = some (t', w')) :
    ∃ (c : Call) (next : c.Reply → Task α) (r : c.Reply),
      t = .call c next ∧ c.cancelled? = some r ∧ t' = next r ∧
        if landed = true ∧ c.inWorker = true then ∃ r, w.perform c = some (r, w')
        else w' = w := by
  cases t with
  | done a => simp [cancel?] at h
  | call c next =>
    rcases Option.map_eq_some_iff.1 h with ⟨r, hr, he⟩
    cases he
    refine ⟨c, next, r, rfl, hr, rfl, ?_⟩
    simp only [Bool.and_eq_true]
    -- A call in a worker thread may still land; its reply is lost either way.
    split
    · rename_i hl
      rcases Option.isSome_iff_exists.1 (perform_isSome_of_inWorker hl.2 w) with ⟨a, ha⟩
      exact ⟨a.1, by simp [ha]⟩
    · rfl

end World
end Testbed
