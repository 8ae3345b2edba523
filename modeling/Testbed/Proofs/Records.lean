import Testbed.Proofs.TwoRuns

/-!
# Other records

Engine and outside keep a record of what they have been asked, arguments included.  No reply
depends on it, nor on what the environment of a container is, nor on the address under which a
database is reached.
-/

namespace Testbed

namespace Engine

variable (e : Engine) (calls : List (String × String × List Json))

/-- The engine with another record of its calls. -/
def withCalls : Engine := { e with calls := calls }

/-- Neither the record of earlier calls nor the arguments of a call matter to its answer. -/
theorem struck_withCalls {α : Type} {name subject : String} {arguments arguments' : List Json}
    {act act' : Engine → Except Fault α × Engine}
    (h : ∀ e calls, act' (withCalls e calls) = ((act e).1, (act e).2.withCalls calls)) :
    ∃ calls', (e.withCalls calls).struck name subject arguments' act' =
      ((e.struck name subject arguments act).1,
        (e.struck name subject arguments act).2.withCalls calls') := by
  refine ⟨calls ++ [(subject, name, arguments')], ?_⟩
  -- The call is noted first, with the arguments; the faults to come are no part of the record.
  have noted : (e.withCalls calls).note name subject arguments' =
      (e.note name subject arguments).withCalls (calls ++ [(subject, name, arguments')]) := rfl
  have same (e : Engine) (calls) :
      (withCalls e calls).strike name subject = e.strike name subject := rfl
  unfold struck
  simp only [noted, same]
  generalize e.note name subject arguments = e
  generalize calls ++ [(subject, name, arguments')] = calls
  split
  · exact h e calls
  · rename_i rule _
    have slowed : { e.withCalls calls with elapsed := (e.withCalls calls).elapsed + rule.delay } =
        withCalls { e with elapsed := e.elapsed + rule.delay } calls := rfl
    rw [slowed]
    generalize { e with elapsed := e.elapsed + rule.delay } = e
    split
    · exact h e calls
    · rfl
    · rw [h e calls]
      rcases act e with ⟨_ | _, _⟩ <;> rfl

theorem effect_withCalls (r : Request) :
    (e.withCalls calls).effect r = ((e.effect r).1, (e.effect r).2.withCalls calls) := by
  have present (image : String) : (e.withCalls calls).hasImage image = e.hasImage image := rfl
  have unpullable : (e.withCalls calls).unpullable = e.unpullable := rfl
  have container (id : String) : (e.withCalls calls).container? id = e.container? id := rfl
  cases r with
  | findImage image | pullImage image | find id =>
    simp only [effect, present, unpullable, container]
    split <;> rfl
  | _ => rfl

theorem perform_withCalls (r : Request) : ∃ calls', (e.withCalls calls).perform r =
    ((e.perform r).1, (e.perform r).2.withCalls calls') :=
  struck_withCalls e calls fun e calls => effect_withCalls e calls r

/-- The environment of a container does not matter to its creation. -/
theorem perform_create_withCalls (spec : ContainerSpec) (environment : List (String × String)) :
    ∃ calls', (e.withCalls calls).perform (.create { spec with environment := environment }) =
      ((e.perform (.create spec)).1, (e.perform (.create spec)).2.withCalls calls') :=
  struck_withCalls e calls fun e calls => effect_withCalls e calls (.create spec)

theorem connect_withCalls (host : Option String) : ∃ calls', (e.withCalls calls).connect host =
    ((e.connect host).1, (e.connect host).2.withCalls calls') :=
  struck_withCalls e calls fun _ _ => rfl

end Engine

namespace World

variable (w : World) (calls : List (String × String × List Json)) (traffic : List Json)

/-- The world with other records of what the engine and the outside have been asked. -/
def withRecords : World :=
  { w with engine := w.engine.withCalls calls, outside := { w.outside with traffic := traffic } }

/-- The answer and the world after it, with other records. -/
def Resembles {α : Type} (x y : α × World) : Prop :=
  ∃ calls traffic, y = (x.1, x.2.withRecords calls traffic)

theorem Resembles.mapped {α : Type} {x y : α × World} (alike : Resembles x y) :
    ∃ calls traffic, some y = (some x).map fun x => (x.1, x.2.withRecords calls traffic) := by
  obtain ⟨calls, traffic, rfl⟩ := alike
  exact ⟨calls, traffic, rfl⟩

theorem viaWorkers_withRecords {α : Type} {act act' : World → Except Fault α × World}
    (h : Resembles (act w) (act' (w.withRecords calls traffic))) :
    Resembles (w.viaWorkers act) ((w.withRecords calls traffic).viaWorkers act') := by
  have workers : (w.withRecords calls traffic).workersOpen = w.workersOpen := rfl
  unfold viaWorkers
  rw [workers]
  split
  · exact h
  · exact ⟨calls, traffic, rfl⟩

theorem openClient_withRecords :
    Resembles w.openClient (w.withRecords calls traffic).openClient := by
  have isOpen : (w.withRecords calls traffic).clientOpen = w.clientOpen := rfl
  obtain ⟨calls', connected⟩ := w.engine.connect_withCalls calls (w.host.filter fun h => !h.isEmpty)
  have same : (w.withRecords calls traffic).engine.connect
      ((w.withRecords calls traffic).host.filter fun h => !h.isEmpty) = _ := connected
  unfold openClient
  rw [isOpen]
  split
  · exact ⟨calls, traffic, rfl⟩
  · refine ⟨calls', traffic, ?_⟩
    simp only [same]
    rcases w.engine.connect (w.host.filter fun h => !h.isEmpty) with ⟨_ | _, _⟩ <;> rfl

theorem closeRuntime_withRecords :
    (w.withRecords calls traffic).closeRuntime = w.closeRuntime.withRecords calls traffic := by
  have workers : (w.withRecords calls traffic).workersOpen = w.workersOpen := rfl
  unfold closeRuntime
  rw [workers]
  split <;> rfl

/-- Records of what has been asked do not matter to any reply. -/
theorem perform_withRecords (c : Call) : ∃ calls' traffic',
    (w.withRecords calls traffic).perform c =
      (w.perform c).map fun x => (x.1, x.2.withRecords calls' traffic') := by
  have workers : (w.withRecords calls traffic).workersOpen = w.workersOpen := rfl
  have gate : (w.withRecords calls traffic).gateOpen = w.gateOpen := rfl
  have registry : (w.withRecords calls traffic).registry = w.registry := rfl
  have used : (w.withRecords calls traffic).used = w.used := rfl
  cases c with
  | openClient inWorker =>
    have opens := openClient_withRecords w calls traffic
    cases inWorker with
    | true => exact Resembles.mapped (viaWorkers_withRecords _ _ _ opens)
    | false => exact Resembles.mapped opens
  | engine request =>
    obtain ⟨calls', answered⟩ := w.engine.perform_withCalls calls request
    exact Resembles.mapped (viaWorkers_withRecords _ _ _ ⟨calls', traffic, by
      simp only [withRecords, answered]⟩)
  | readFile p => exact Resembles.mapped (viaWorkers_withRecords _ _ _ ⟨calls, traffic, rfl⟩)
  | shutdownRuntime =>
    refine ⟨calls, traffic, ?_⟩
    simp only [perform, closeRuntime_withRecords]
    rfl
  | pause t | waitUntil t | hang | waitForGate | store key value | claim c =>
    refine ⟨calls, traffic, ?_⟩
    -- Each of these calls tests a field first, and none of the fields is a record.
    simp only [perform, workers, gate, registry, used]
    repeat' split
    all_goals rfl
  | _ => exact Resembles.mapped ⟨_, _, rfl⟩

/-- What the container is to find in its environment does not matter to the world. -/
theorem perform_create_withRecords (spec : Engine.ContainerSpec)
    (environment : List (String × String)) : ∃ calls' traffic',
      (w.withRecords calls traffic).perform
          (.engine (.create { spec with environment := environment })) =
        (w.perform (.engine (.create spec))).map fun x =>
          (x.1, x.2.withRecords calls' traffic') := by
  obtain ⟨calls', answered⟩ := w.engine.perform_create_withCalls calls spec environment
  refine Resembles.mapped (viaWorkers_withRecords _ _ _ ⟨calls', traffic, ?_⟩)
  simp only [withRecords, answered]
  rfl

/-- The database does not look at the address that it is reached under. -/
theorem perform_connect_withRecords (dsn dsn' : String) : ∃ calls' traffic',
    (w.withRecords calls traffic).perform (.connect dsn') =
      (w.perform (.connect dsn)).map fun x => (x.1, x.2.withRecords calls' traffic') :=
  ⟨_, _, rfl⟩

end World

/-! ## Two runs with other records -/

/-- The same call, but for the specification of a container and the address of a database. -/
def Call.Like : Call → Call → Prop
  | .engine (.create _), .engine (.create _) | .connect _, .connect _ => True
  | c, c' => c = c'

theorem Call.Like.refl (c : Call) : c.Like c := by
  cases c with
  | engine request => cases request <;> trivial
  | _ => trivial

/-- Two runs in worlds with other records. -/
def Likeness.unrecorded : Likeness where
  worlds w w' := ∃ calls traffic, w' = w.withRecords calls traffic
  calls := Call.Like
  covers _ := True
  clock := by
    rintro w _ ⟨calls, traffic, rfl⟩
    rfl

namespace Likeness

theorem unrecorded_keeps (c : Call) : unrecorded.Keeps c c Eq where
  calls := .refl c
  answers := by
    rintro w _ w₁ r ⟨calls, traffic, rfl⟩ - reply
    obtain ⟨calls', traffic', same⟩ := w.perform_withRecords calls traffic c
    exact ⟨r, _, by rw [same, reply]; rfl, ⟨calls', traffic', rfl⟩, rfl⟩

theorem unrecorded_keeps_create (spec : Engine.ContainerSpec)
    (environment : List (String × String)) : unrecorded.Keeps (.engine (.create spec))
      (.engine (.create { spec with environment := environment })) fun r r' => r = r' where
  calls := trivial
  answers := by
    rintro w _ w₁ r ⟨calls, traffic, rfl⟩ - reply
    obtain ⟨calls', traffic', same⟩ :=
      w.perform_create_withRecords calls traffic spec environment
    exact ⟨r, _, by rw [same, reply]; rfl, ⟨calls', traffic', rfl⟩, rfl⟩

theorem unrecorded_keeps_connect (dsn dsn' : String) :
    unrecorded.Keeps (.connect dsn) (.connect dsn') fun r r' => r = r' where
  calls := trivial
  answers := by
    rintro w _ w₁ r ⟨calls, traffic, rfl⟩ - reply
    obtain ⟨calls', traffic', same⟩ := w.perform_connect_withRecords calls traffic dsn dsn'
    exact ⟨r, _, by rw [same, reply]; rfl, ⟨calls', traffic', rfl⟩, rfl⟩

end Likeness

/-- Records do not matter to a program. -/
theorem Task.twins_unrecorded {α : Type} (t : Task α) : Twins .unrecorded Eq t t :=
  Twins.refl Likeness.unrecorded_keeps t

end Testbed
