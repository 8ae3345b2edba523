import Testbed.Proofs.Calls
import Testbed.Registry.Operation

/-!
# How the registry changes

`LetsThrough` says which reads the gate of a registry lets through.  Programs, and callers that
publish, only write to the registry; `Regulates` lists the three turns that change its state.

Reads are not actions of a run: they leave the registry as it is (`apply_read`), so a read at any
moment is a read of the state at that moment.
-/

namespace Testbed
namespace Registry

variable {r r₁ r₂ : Registry} {op : Operation}

/-! ## Reads -/

/-- The operations that read entries. -/
def Operation.isRead : Operation → Bool
  | .get _ | .container _ | .containerUri _ | .serviceUri _ | .keys | .token | .settings => true
  | _ => false

/-- The key that an operation shows at the gate.  A kind that is no service does not get there. -/
def Operation.gateKey : Operation → Except Fault (Option String)
  | .get key => .ok (some key)
  | .container kind | .containerUri kind | .serviceUri kind => (containerKey kind).map some
  | .token => .ok (some tokenKey)
  | .settings => .ok (some settingsKey)
  | _ => .ok none

/-- The operation is a read and the gate lets it through. -/
def LetsThrough (r : Registry) (op : Operation) : Prop :=
  op.isRead = true ∧ op.gateKey.bind r.requireSealed = .ok ()

theorem requireSealed_eq_ok {key : Option String} :
    r.requireSealed key = .ok () ↔ r.state = .sealed := by
  unfold requireSealed
  cases h : r.state <;> simp

/-- The gate only lets reads of a sealed registry through. -/
theorem LetsThrough.sealed (h : r.LetsThrough op) : r.state = .sealed := by
  have passed : op.gateKey.bind r.requireSealed = .ok () := h.2
  cases hk : op.gateKey with
  | error f =>
    rw [hk] at passed
    cases passed
  | ok key =>
    rw [hk] at passed
    exact requireSealed_eq_ok.1 passed

/-- A sealed registry lets all reads through that get as far as the gate. -/
theorem letsThrough_of_sealed {key : Option String} (read : op.isRead = true)
    (hk : op.gateKey = .ok key) (h : r.state = .sealed) : r.LetsThrough op := by
  refine ⟨read, ?_⟩
  rw [hk]
  exact requireSealed_eq_ok.2 h

theorem get_refused {key : String} {f : Fault} (h : r.requireSealed (some key) = .error f) :
    r.get key = .error f := by
  rw [get, h]
  rfl

theorem container_refused {kind : Json} {f : Fault}
    (h : ((containerKey kind).map some).bind r.requireSealed = .error f) :
    r.container kind = .error f := by
  cases hk : containerKey kind with
  | error g =>
    rw [hk] at h
    cases h
    rw [container, hk]
    rfl
  | ok key =>
    rw [hk] at h
    rw [container, hk]
    simp only [bind, Except.bind, get_refused h]

/-- A read that the gate refuses is answered with an error. -/
theorem reading_refused {f : Fault} (read : op.isRead = true)
    (h : op.gateKey.bind r.requireSealed = .error f) : ∃ g, r.reading op = .error g := by
  cases op with
  | get key =>
    have refused : r.get key = .error f := get_refused h
    exact ⟨f, by rw [reading, refused]; rfl⟩
  | keys =>
    have refused : r.requireSealed none = .error f := h
    exact ⟨f, by rw [reading, keys, refused]; rfl⟩
  | token =>
    have refused : r.get tokenKey = .error f := get_refused h
    exact ⟨f, by rw [reading, token, refused]; rfl⟩
  | settings =>
    have refused : r.get settingsKey = .error f := get_refused h
    exact ⟨f, by rw [reading, settings, refused]; rfl⟩
  | container kind =>
    have refused : r.container kind = .error f := container_refused h
    exact ⟨f, by rw [reading, refused]; rfl⟩
  | containerUri kind =>
    have refused : r.containerUri kind = .error f := by
      rw [containerUri, container_refused h]
      rfl
    exact ⟨f, by rw [reading, refused]; rfl⟩
  | serviceUri kind =>
    have refused : r.containerUri kind = .error f := by
      rw [containerUri, container_refused h]
      rfl
    -- The refusal becomes a skipped test, which is an error as well.
    cases hf : isUsageFault f with
    | true => exact ⟨_, by rw [reading, serviceUri, refused]; simp only [hf]; rfl⟩
    | false => exact ⟨f, by rw [reading, serviceUri, refused]; simp only [hf]; rfl⟩
  | _ => cases read

theorem letsThrough_of_reading {a : Answer} (read : op.isRead = true)
    (h : r.reading op = .ok a) : r.LetsThrough op := by
  refine ⟨read, ?_⟩
  cases hg : op.gateKey.bind r.requireSealed with
  | ok u => rfl
  | error f =>
    rcases reading_refused read hg with ⟨g, hr⟩
    cases h.symm.trans hr

/-- Reads leave the registry as it is. -/
theorem apply_read (read : op.isRead = true) : (r.apply op).2.1 = r := by
  cases op <;> first | rfl | cases read

/-! ## Writes -/

/-- What writing does: the state stays, and unless the registry is open the entries stay as well. -/
structure Writes (r r' : Registry) : Prop where
  state : r'.state = r.state
  entries : r.state ≠ .opened → r'.entries = r.entries

theorem Writes.refl (r : Registry) : r.Writes r := ⟨rfl, fun _ => rfl⟩

theorem Writes.trans (h₁ : r.Writes r₁) (h₂ : r₁.Writes r₂) : r.Writes r₂ where
  state := h₂.state.trans h₁.state
  entries := by
    intro closed
    have closed₁ : r₁.state ≠ .opened := h₁.state ▸ closed
    exact (h₂.entries closed₁).trans (h₁.entries closed)

theorem Writes.cleared (h : r.Writes r₁) (empty : r.state = .cleared → r.entries = [])
    (hc : r₁.state = .cleared) : r₁.entries = [] := by
  -- An entry can only be new in a registry that is open.
  have before : r.state = .cleared := h.state.symm.trans hc
  have closed : r.state ≠ .opened := by simp [before]
  exact (h.entries closed).trans (empty before)

theorem writes_of_set {key : String} {value : Entry} (h : r.set key value = .ok r₁) :
    r.Writes r₁ := by
  rcases of_set h with ⟨opened, rfl⟩
  exact ⟨rfl, fun closed => absurd opened closed⟩

end Registry

theorem World.effect_registry {w w' : World} {c : Call} (h : World.Effect w c w') :
    w.registry.Writes w'.registry := by
  cases h with
  | store key value log hr => exact Registry.writes_of_set hr
  | shutdown =>
    rcases w.closeRuntime_eq with ⟨isOpen, closed, log, he⟩
    rw [he]
    exact .refl _
  | _ => exact .refl _

theorem World.next?_registry {α : Type} {w w' : World} {t t' : Task α}
    (h : w.next? t = some (t', w')) : w.registry.Writes w'.registry := by
  rcases World.next?_call h with ⟨c, -, he⟩
  exact World.effect_registry he

namespace Lifecycle

variable {l n : Lifecycle} {a : Action} {s s' : Stage} {m : Move} {w w' : World}

theorem store_registry (w : World) (key : String) (value : Entry) :
    w.registry.Writes (store w key value).2.registry := by
  unfold store
  split
  · rename_i r hr
    exact Registry.writes_of_set hr
  · exact .refl _

theorem Stores.registry {es : List (String × Entry)} {o : Except Fault Unit}
    (h : Stores w es o w') : w.registry.Writes w'.registry := by
  induction h with
  | nil => exact .refl _
  | refused => exact .refl _
  | stored log hr rest ih => exact (Registry.writes_of_set hr).trans ih

theorem Takes.registry {seen : List Service} {hs : List Handle} {o : Except Fault Unit}
    (h : Takes w seen hs o w') : w.registry.Writes w'.registry := by
  induction h with
  | nil => exact .refl _
  | twice => exact takeOver_registry .. ▸ .refl _
  | refused => exact takeOver_registry .. ▸ .refl _
  | taken log new hr rest ih => exact (Registry.writes_of_set hr).trans ih

theorem publish_registry {d : Delivery} {o : Except Fault EnvironmentSettings}
    (h : publish w d = (o, w')) : w.registry.Writes w'.registry := by
  cases publishes_of_publish h with
  | untyped => exact .refl _
  | failed hd handles => exact handles.registry
  | refused hd handles rest => exact handles.registry.trans rest.registry
  | done hd handles rest => exact handles.registry.trans rest.registry

/-! ## Turns -/

/-- How a registry changes when a caller moves from one stage to another. -/
inductive Regulates (r : Registry) : Stage → Stage → Registry → Prop where
  | writes {s s' : Stage} {r' : Registry} (h : r.Writes r') : Regulates r s s' r'
  | seals {r' : Registry} (h : r.sealEntries = .ok r') : Regulates r .sealing .entering r'
  | drains (strict : Bool) :
      Regulates r (.quieting strict) (.draining (.teardown strict)) r.beginDrain
  | clears (p : Purpose) (o : Except Fault TeardownReport) :
      Regulates r (.clearing p o) (.closing p o) r.clear

theorem Regulates.sealed {r r' : Registry} (h : Regulates r s s' r')
    (shut : r'.state = .sealed) : r.state = .sealed ∨ s = .sealing := by
  cases h with
  | writes w => exact .inl (w.state.symm.trans shut)
  | seals hr => exact .inr rfl
  | drains strict =>
    unfold Registry.beginDrain at shut
    split at shut
    · exact .inl shut
    · cases shut
  | clears p o => cases shut

theorem Regulates.closed {r r' : Registry} (h : Regulates r s s' r') (hr : r.state ≠ .opened) :
    r'.state ≠ .opened := by
  cases h with
  | writes w => exact w.state.symm ▸ hr
  | seals ho =>
    unfold Registry.sealEntries at ho
    split at ho <;> cases ho
    exact nofun
  | drains strict =>
    unfold Registry.beginDrain
    split
    · exact hr
    · exact nofun
  | clears p o => exact nofun

theorem Regulates.cleared {r r' : Registry} (h : Regulates r s s' r')
    (empty : r.state = .cleared → r.entries = []) (hc : r'.state = .cleared) :
    r'.entries = [] := by
  cases h with
  | writes w => exact w.cleared empty hc
  | seals hr =>
    unfold Registry.sealEntries at hr
    split at hr <;> cases hr
    cases hc
  | drains strict =>
    unfold Registry.beginDrain at hc ⊢
    split
    · rename_i hb
      exact empty hb
    · rename_i hb
      split at hc
      · exact absurd hc hb
      · cases hc
  | clears p o => rfl

theorem Turn.registry (h : Turn l s m s' n) :
    Regulates l.world.registry s s' n.world.registry := by
  -- Four turns regulate the registry; all others at most write.
  cases h
  case «seal» h => exact .seals h
  case quiet strict k log => exact .drains strict
  case clearFailure f r k log => exact .clears _ _
  case clear p r k log h => exact .clears _ _
  all_goals
    refine .writes ?_
  case init ht => exact World.next?_registry ht
  case finish ht => exact World.next?_registry ht
  case publishFailed hp => exact publish_registry hp
  case publishLast hp _ => exact publish_registry hp
  case publishThen hp _ _ =>
    have written := publish_registry hp
    exact written
  case publishClosed hp _ =>
    have written := publish_registry hp
    exact written
  case passGoes ht =>
    rcases StopPass.turn?_world ht with ⟨log, rfl⟩
    exact .refl _
  case passEnds ht =>
    rcases StopPass.turn?_world ht with ⟨log, rfl⟩
    exact .refl _
  case passSteps ht =>
    rcases StopPass.step?_call ht with ⟨c, -, he⟩
    exact World.effect_registry he
  case disconnectSteps ht => exact World.next?_registry ht
  case victimDies ht => exact World.next?_registry ht
  case victimGoes ht => exact World.next?_registry ht
  case victimCancelled ht =>
    rcases World.cancel?_call ht with rfl | ⟨c, -, -, -, he⟩
    · exact .refl _
    · exact World.effect_registry he
  case haltedFailing => exact World.effect_registry .shutdown
  case halted => exact World.effect_registry .shutdown
  all_goals exact .refl _

/-- Only the turn of a caller does more than write. -/
theorem Change.registry (h : Change l a n) :
    l.world.registry.Writes n.world.registry ∨
      ∃ (i : Nat) (s s' : Stage), l.callers[i]? = some s ∧ n.callers[i]? = some s' ∧
        Regulates l.world.registry s s' n.world.registry := by
  cases a with
  | caller i m =>
    cases h with
    | caller i hs turn =>
      refine .inr ⟨i, _, _, hs, ?_, turn.registry⟩
      simp [(List.getElem?_eq_some_iff.1 hs).1]
  | leftover i k =>
    -- Work that was left behind only runs programs, and these only write.
    rcases h.of_leftover with ⟨-, w, os, rfl, ⟨log, rfl⟩ | ⟨c, -, he⟩⟩
    · exact .inl (.refl _)
    · exact .inl (World.effect_registry he)
  | _ =>
    cases h
    exact .inl (.refl _)

end Lifecycle
end Testbed
