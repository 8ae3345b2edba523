import Testbed.Proofs.Access
import Testbed.Proofs.Calls
import Testbed.Proofs.Entries

/-!
# What a setup publishes

The first part of a plan hands over handles and settings; they are published, and the second part
may write over what is published.  `Filled` says, stage by stage, what a setup has written to the
registry so far.  A registry that is sealed keeps it, so that readers find the last value that was
written to a key, else what was published under it.
-/

namespace Testbed

/-- What is published of a handle, with its key. -/
def Handle.published (h : Handle) : String × Entry := (h.service.key, .handle h.detached)

theorem Service.key_injective {s t : Service} (h : s.key = t.key) : s = t := by
  cases s <;> cases t <;> first | rfl | exact absurd h (by decide)

theorem Service.key_ne (s : Service) :
    s.key ≠ Registry.settingsKey ∧ s.key ≠ Registry.tokenKey := by
  cases s <;> decide

theorem Service.ofWord?_word (s : Service) : ofWord? s.word = some s := by
  cases s <;> decide

namespace Registry

/-! ## Publications -/

/-- The writes by which handles and settings are published. -/
def publication (hs : List Handle) (s : EnvironmentSettings) : List (String × Entry) :=
  hs.map Handle.published ++
    [(settingsKey, .settings { s with frozen := true }), (tokenKey, .json (.str ""))]

section

variable {key : String} {v : Entry} {ws : List (String × Entry)} {hs : List Handle}
  {s : EnvironmentSettings} {h : Handle}

/-- Where each key is written once, the last value of a key is its only one. -/
theorem lastWritten_of_mem (once : (ws.map Prod.fst).Nodup) (hm : (key, v) ∈ ws) :
    lastWritten key ws = some v := by
  induction ws with
  | nil => cases hm
  | cons w ws ih =>
    rw [List.map_cons, List.nodup_cons] at once
    have split : lastWritten key (w :: ws) = (lastWritten key ws).or (lastWritten key [w]) :=
      lastWritten_append key [w] ws
    rw [split]
    rcases List.mem_cons.1 hm with rfl | hm
    · have later : lastWritten key ws = none := by
        rw [lastWritten_eq_none_iff]
        intro w' hw' he
        exact once.1 (List.mem_map.2 ⟨w', hw', he⟩)
      simp [later, lastWritten_singleton]
    · rw [ih once.2 hm]
      rfl

theorem nodup_keys_publication (distinct : (hs.map Handle.service).Nodup) :
    ((publication hs s).map Prod.fst).Nodup := by
  have keys : (hs.map Handle.published).map Prod.fst = (hs.map Handle.service).map Service.key := by
    simp [Handle.published]
  have handles : ((hs.map Handle.service).map Service.key).Nodup :=
    distinct.map fun _ _ => Service.key_injective
  rw [publication, List.map_append, keys, List.nodup_append]
  refine ⟨handles, by simp [settingsKey, tokenKey], ?_⟩
  intro a ha b hb
  rcases List.mem_map.1 ha with ⟨t, -, rfl⟩
  rcases List.mem_pair.1 hb with rfl | rfl
  · exact t.key_ne.1
  · exact t.key_ne.2

theorem published_handle (distinct : (hs.map Handle.service).Nodup) (hm : h ∈ hs) :
    lastWritten h.service.key (publication hs s) = some (.handle { h with stop := none }) :=
  lastWritten_of_mem (nodup_keys_publication distinct)
    (List.mem_append_left _ (List.mem_map.2 ⟨h, hm, rfl⟩))

theorem published_settings (distinct : (hs.map Handle.service).Nodup) :
    lastWritten settingsKey (publication hs s) = some (.settings { s with frozen := true }) :=
  lastWritten_of_mem (nodup_keys_publication distinct) (by simp [publication])

theorem published_token (distinct : (hs.map Handle.service).Nodup) :
    lastWritten tokenKey (publication hs s) = some (.json (.str "")) :=
  lastWritten_of_mem (nodup_keys_publication distinct) (by simp [publication])

theorem published_nothing (handles : ∀ h ∈ hs, h.service.key ≠ key)
    (other : key ≠ settingsKey ∧ key ≠ tokenKey) : lastWritten key (publication hs s) = none := by
  rw [lastWritten_eq_none_iff]
  intro w hw
  rcases List.mem_append.1 hw with hw | hw
  · rcases List.mem_map.1 hw with ⟨h, hh, rfl⟩
    exact handles h hh
  · rcases List.mem_pair.1 hw with rfl | rfl
    · exact other.1.symm
    · exact other.2.symm

end

/-! ## What readers find -/

/-- The token that a value stands for: a value that is no text counts as none. -/
def tokenText : Entry → String
  | .json (.str t) => t
  | _ => ""

/-- Reads of a registry after a setup: `hs` and `s` are what the first part of its plan has handed
over, `first` and `second` are what the two parts have written themselves. -/
structure Serves (hs : List Handle) (s : EnvironmentSettings) (first second : List (String × Entry))
    (r : Registry) : Prop where
  /-- A key that the second part has written gives the value that it has written last. -/
  rewritten : ∀ key v, lastWritten key second = some v → r.get key = .ok (some v)
  /-- The key of a service gives the handle without its capability. -/
  handle : ∀ h ∈ hs, lastWritten h.service.key second = none →
    r.get h.service.key = .ok (some (.handle { h with stop := none })) ∧
      r.container (.str h.service.word) = .ok (.handle { h with stop := none })
  /-- The key of the settings gives the frozen copy. -/
  settings : lastWritten settingsKey second = none →
    r.get settingsKey = .ok (some (.settings { s with frozen := true })) ∧
      r.settings = .ok (.settings { s with frozen := true })
  token : lastWritten tokenKey second = none → r.get tokenKey = .ok (some (.json (.str "")))
  /-- Any other key gives what the first part may have written, and nothing if it has not. -/
  other : ∀ key, (∀ h ∈ hs, h.service.key ≠ key) → key ≠ settingsKey → key ≠ tokenKey →
    lastWritten key second = none → r.get key = .ok (lastWritten key first)
  uri : ∀ h ∈ hs, lastWritten h.service.key second = none →
    r.containerUri (.str h.service.word) = .ok h.uri
  uri_rewritten : ∀ (k : Service) (h : Handle), lastWritten k.key second = some (.handle h) →
    r.containerUri (.str k.word) = .ok h.uri
  uri_missing : ∀ k : Service, (∀ h ∈ hs, h.service ≠ k) → lastWritten k.key second = none →
    lastWritten k.key first = none → r.containerUri (.str k.word) =
      .error (usage s!"No container registered for '{k.word}'" (some k.key) none)
  token_text : r.token =
    .ok (tokenText ((lastWritten tokenKey second).getD (.json (.str ""))))

section

variable {r : Registry} {k : Service} {e : Entry} {v : Option Entry} {key : String}
  {hs : List Handle} {s : EnvironmentSettings} {first second : List (String × Entry)}

theorem container_of_get (h : r.get k.key = .ok v) : r.container (.str k.word) =
    match present v with
    | some e => .ok e
    | none => .error (usage s!"No container registered for '{k.word}'" (some k.key) none) := by
  have key : containerKey (.str k.word) = .ok k.key := by
    simp [containerKey, Json.str?, Service.ofWord?_word]
  simp only [container, key, bind, Except.bind, h]
  rfl

theorem containerUri_of_handle {h : Handle} (hg : r.get k.key = .ok (some (.handle h))) :
    r.containerUri (.str k.word) = .ok h.uri := by
  rw [containerUri, container_of_get hg]
  rfl

theorem token_of_get (h : r.get tokenKey = .ok (some e)) : r.token = .ok (tokenText e) := by
  rw [token, h]
  cases e with
  | json j => cases j <;> rfl
  | _ => rfl

theorem containerUri_of_none (hg : r.get k.key = .ok none) : r.containerUri (.str k.word) =
    .error (usage s!"No container registered for '{k.word}'" (some k.key) none) := by
  rw [containerUri, container_of_get hg]
  rfl

/-- What is read of a sealed registry was written last, after, by or before a publication. -/
theorem get_of_written (shut : r.state = .sealed)
    (entries : r.entries = written [] (first ++ publication hs s ++ second)) (key : String) :
    r.get key = .ok ((lastWritten key second).or
      ((lastWritten key (publication hs s)).or (lastWritten key first))) := by
  calc
    r.get key = .ok (Json.lookup key r.entries) := by
      rw [Registry.get, requireSealed_eq_ok.2 shut]
      rfl
    _ = .ok ((lastWritten key (first ++ publication hs s ++ second)).or none) := by
      rw [entries, lookup_written]
      rfl
    _ = _ := by rw [Option.or_none, lastWritten_append, lastWritten_append]

/-- A sealed registry with what was written before, by and after a publication. -/
theorem serves_of_written (shut : r.state = .sealed) (distinct : (hs.map Handle.service).Nodup)
    (entries : r.entries = written [] (first ++ publication hs s ++ second)) :
    r.Serves hs s first second := by
  have get := get_of_written shut entries
  -- Every read is answered by the last write under its key.
  have untouched {key : String} (h : lastWritten key second = none) : r.get key =
      .ok ((lastWritten key (publication hs s)).or (lastWritten key first)) := by
    rw [get, h]
    rfl
  have handle {h : Handle} (hm : h ∈ hs) (hn : lastWritten h.service.key second = none) :
      r.get h.service.key = .ok (some (.handle { h with stop := none })) := by
    rw [untouched hn, published_handle distinct hm]
    rfl
  have settled (hn : lastWritten settingsKey second = none) :
      r.get settingsKey = .ok (some (.settings { s with frozen := true })) := by
    rw [untouched hn, published_settings distinct]
    rfl
  have other (key : String) (handles : ∀ h ∈ hs, h.service.key ≠ key) (hs' : key ≠ settingsKey)
      (ht : key ≠ tokenKey) (hn : lastWritten key second = none) :
      r.get key = .ok (lastWritten key first) := by
    rw [untouched hn, published_nothing handles ⟨hs', ht⟩]
    rfl
  have token : r.get tokenKey =
      .ok (some ((lastWritten tokenKey second).getD (.json (.str "")))) := by
    rw [get, published_token distinct]
    cases lastWritten tokenKey second <;> rfl
  have rewritten (key : String) (v : Entry) (h : lastWritten key second = some v) :
      r.get key = .ok (some v) := by
    rw [get, h]
    rfl
  exact
    { rewritten := rewritten
      handle := by
        intro h hm hn
        refine ⟨handle hm hn, ?_⟩
        rw [container_of_get (handle hm hn)]
        rfl
      settings := by
        intro hn
        refine ⟨settled hn, ?_⟩
        rw [Registry.settings, settled hn]
        rfl
      token := by
        intro hn
        rw [token, hn]
        rfl
      other := other
      uri := by
        intro h hm hn
        exact containerUri_of_handle (h := h.detached) (handle hm hn)
      uri_rewritten := by
        intro k h hw
        exact containerUri_of_handle (rewritten k.key _ hw)
      uri_missing := by
        intro k handles hn hf
        have distinct : ∀ h ∈ hs, h.service.key ≠ k.key :=
          fun h hm he => handles h hm (Service.key_injective he)
        have absent : r.get k.key = .ok none :=
          (other k.key distinct k.key_ne.1 k.key_ne.2 hn).trans (congrArg _ hf)
        exact containerUri_of_none absent
      token_text := token_of_get token }

end

end Registry

/-- What a call writes to a registry that is open. -/
def Call.write? : Call → Option (String × Entry)
  | .store key value => some (key, value)
  | _ => none

theorem World.effect_keeps_registry {w w' : World} {c : Call} (h : World.Effect w c w')
    (hc : c.write? = none) : w'.registry = w.registry := by
  cases h with
  | store key value log hr => cases hc
  | shutdown =>
    rcases w.closeRuntime_eq with ⟨isOpen, closed, log, he⟩
    rw [he]
  | _ => rfl

/-- A program writes what its call says. -/
theorem World.next?_entries {α : Type} {w w' : World} {t t' : Task α}
    (opened : w.registry.state = .opened) (h : w.next? t = some (t', w')) :
    w'.registry.entries =
      Registry.written w.registry.entries (t.call?.bind Call.write?).toList := by
  rcases World.next?_eq_some h with ⟨c, next, r, rfl, hr, rfl⟩
  cases hc : c.write? with
  | none =>
    rw [World.effect_keeps_registry (World.effect_of_perform hr) hc]
    simp [Program.call?, hc, Registry.written]
  | some kv =>
    cases c with
    | store key value =>
      simp only [World.perform, Registry.set, opened] at hr
      cases hr
      rfl
    | _ => cases hc

namespace Lifecycle

/-! ## The publishing step -/

section

variable {w w' : World} {hs : List Handle} {seen : List Service} {d : Delivery}

theorem entries_of_set {r r' : Registry} {key : String} {value : Entry}
    (h : r.set key value = .ok r') : r'.entries = Registry.written r.entries [(key, value)] := by
  rcases Registry.of_set h with ⟨-, rfl⟩
  rfl

theorem Stores.entries {es : List (String × Entry)} (h : Stores w es (.ok ()) w') :
    w'.registry.entries = Registry.written w.registry.entries es := by
  generalize ho : (Except.ok () : Except Fault Unit) = o at h
  induction h with
  | nil => rfl
  | refused => cases ho
  | @stored w w' key value es r o log hr rest ih =>
    have rest := ih ho
    rw [entries_of_set hr, ← Registry.written_append] at rest
    exact rest

/-- Handles are only published if no service is provided twice. -/
theorem Takes.entries (h : Takes w seen hs (.ok ()) w') :
    w'.registry.entries = Registry.written w.registry.entries (hs.map Handle.published) ∧
      (hs.map Handle.service).Nodup ∧ ∀ h ∈ hs, h.service ∉ seen := by
  -- The result is an index of the induction, so it is named before.
  generalize ho : (Except.ok () : Except Fault Unit) = o at h
  induction h with
  | nil => exact ⟨rfl, .nil, by simp⟩
  | twice => cases ho
  | refused => cases ho
  | @taken w w' seen x hs r o log new hr rest ih =>
    rcases ih ho with ⟨entries, distinct, fresh⟩
    refine ⟨?_, ?_, ?_⟩
    · calc
        w'.registry.entries
            = Registry.written r.entries (hs.map Handle.published) := entries
        _ = Registry.written (Registry.written w.registry.entries [x.published])
            (hs.map Handle.published) := by
          rw [entries_of_set hr, Handle.published]
        _ = Registry.written w.registry.entries ((x :: hs).map Handle.published) := by
          rw [← Registry.written_append, List.singleton_append, List.map_cons]
    · rw [List.map_cons, List.nodup_cons]
      refine ⟨?_, distinct⟩
      intro hm
      rcases List.mem_map.1 hm with ⟨h, hh, he⟩
      exact fresh h hh (he ▸ List.mem_cons_self)
    · intro h hh
      rcases List.mem_cons.1 hh with rfl | hh
      · exact new
      · exact fun hm => fresh h hh (List.mem_cons_of_mem _ hm)

theorem publish_ok {frozen : EnvironmentSettings} (h : publish w d = (.ok frozen, w')) :
    ∃ s, d.settings = .settings s ∧ (d.handles.map Handle.service).Nodup ∧
      w'.registry.entries =
        Registry.written w.registry.entries (Registry.publication d.handles s) := by
  cases publishes_of_publish h with
  | @done s w₁ w' hd handles rest =>
    rcases handles.entries with ⟨entries, distinct, -⟩
    refine ⟨s, hd, distinct, ?_⟩
    rw [rest.entries, entries, ← Registry.written_append]
    rfl

end

/-! ## What a setup has written so far -/

end Lifecycle

/-- The first part of a plan runs. -/
def Stage.inFirstPart : Stage → Bool
  | .initializing .. => true
  | _ => false

/-- The second part of a plan runs. -/
def Stage.inSecondPart : Stage → Bool
  | .finishing _ => true
  | _ => false

/-- What the first part of a plan has handed over when it comes to its end. -/
def Stage.delivers? : Stage → Option Delivery
  | .initializing _ (.done (.ok d)) => some d
  | _ => none

/-- A setup is on its way, and has not failed. -/
def Stage.fills : Stage → Bool
  | .starting _ | .initializing .. | .publishing .. | .finishing _ | .sealing | .entering => true
  | _ => false

theorem Stage.drives?_of_fills {s : Stage} (h : s.fills = true) :
    s.drives? = some .initializing := by
  cases s <;> first | rfl | cases h

namespace Lifecycle

variable {l l' n : Lifecycle} {a : Action} {s s' : Stage} {m : Move} {i : Nat}
  {tr : List Moment} {x : Moment} {ds : List Delivery} {es : List (String × Entry)}

/-- What the caller that moves writes at a moment, if it runs the given part of a plan. -/
def Moment.writesIn (part : Stage → Bool) (x : Moment) : List (String × Entry) :=
  if x.stage?.any part then (x.call?.bind Call.write?).toList else []

/-- All that a part of a plan writes. -/
def writesIn (part : Stage → Bool) (tr : List Moment) : List (String × Entry) :=
  tr.flatMap (Moment.writesIn part)

/-- All that the first part of a plan hands over. -/
def deliveries (tr : List Moment) : List Delivery :=
  tr.filterMap fun x => x.stage?.bind Stage.delivers?

/-- No program of a plan moves. -/
def Moment.Quiet (x : Moment) : Prop :=
  ∀ s, x.stage? = some s → s.inFirstPart = false ∧ s.inSecondPart = false

/-- The first part of a plan has handed something over, or nothing yet, and nothing has been
published. -/
structure Unpublished (ds : List Delivery) (tr : List Moment) (es : List (String × Entry)) :
    Prop where
  deliveries : deliveries tr = ds
  second : writesIn Stage.inSecondPart tr = []
  entries : es = Registry.written [] (writesIn Stage.inFirstPart tr)

/-- What the first part of a plan has handed over has been published. -/
def HasPublished (tr : List Moment) (es : List (String × Entry)) : Prop :=
  ∃ (d : Delivery) (s : EnvironmentSettings), deliveries tr = [d] ∧ d.settings = .settings s ∧
    (d.handles.map Handle.service).Nodup ∧ es = Registry.written []
      (writesIn Stage.inFirstPart tr ++ Registry.publication d.handles s ++
        writesIn Stage.inSecondPart tr)

/-- What a setup has written when its caller is at a stage. -/
def Filled (tr : List Moment) (es : List (String × Entry)) : Stage → Prop
  | .starting _ | .initializing .. => Unpublished [] tr es
  | .publishing _ d => Unpublished [d] tr es
  | .finishing _ | .sealing | .entering => HasPublished tr es
  | _ => True

theorem writesIn_append (part : Stage → Bool) (tr : List Moment) (x : Moment) :
    writesIn part (tr ++ [x]) = writesIn part tr ++ x.writesIn part := by
  simp [writesIn]

theorem deliveries_append (tr : List Moment) (x : Moment) :
    deliveries (tr ++ [x]) = deliveries tr ++ (x.stage?.bind Stage.delivers?).toList := by
  simp only [deliveries, List.filterMap_append, List.filterMap_cons, List.filterMap_nil]
  cases x.stage?.bind Stage.delivers? <;> rfl

theorem Moment.quiet_of_idle (h : ∀ s, x.stage? = some s → s.drives? = none) : x.Quiet := by
  intro s hs
  have none := h s hs
  cases s <;> first | exact ⟨rfl, rfl⟩ | cases none

theorem Moment.Quiet.writesIn (h : x.Quiet) :
    x.writesIn Stage.inFirstPart = [] ∧ x.writesIn Stage.inSecondPart = [] := by
  unfold Moment.writesIn
  cases hs : x.stage? with
  | none => exact ⟨rfl, rfl⟩
  | some s =>
    rcases h s hs with ⟨first, second⟩
    simp [first, second]

theorem Moment.Quiet.delivers? (h : x.Quiet) : x.stage?.bind Stage.delivers? = none := by
  cases hs : x.stage? with
  | none => rfl
  | some s =>
    have first := (h s hs).1
    cases s <;> first | rfl | cases first

theorem Unpublished.quiet (h : Unpublished ds tr es) (hx : x.Quiet) :
    Unpublished ds (tr ++ [x]) es where
  deliveries := by
    rw [deliveries_append, hx.delivers?, h.deliveries]
    exact List.append_nil _
  second := by rw [writesIn_append, hx.writesIn.2, h.second, List.append_nil]
  entries := by rw [writesIn_append, hx.writesIn.1, List.append_nil, h.entries]

theorem HasPublished.quiet (h : HasPublished tr es) (hx : x.Quiet) :
    HasPublished (tr ++ [x]) es := by
  rcases h with ⟨d, s, hd, hs, distinct, entries⟩
  refine ⟨d, s, ?_, hs, distinct, ?_⟩
  · rw [deliveries_append, hx.delivers?, hd]
    exact List.append_nil _
  · rw [writesIn_append, writesIn_append, hx.writesIn.1, hx.writesIn.2, List.append_nil,
      List.append_nil]
    exact entries

theorem Filled.quiet (h : Filled tr es s) (fills : s.fills = true) (hx : x.Quiet) :
    Filled (tr ++ [x]) es s := by
  cases s <;> first
    | cases fills; done
    | exact Unpublished.quiet h hx
    | exact HasPublished.quiet h hx

/-- A moment at which the first part of a plan moves, and ends if it hands something over. -/
theorem Unpublished.first {p : Plan} {t : Task (Except Fault Delivery)}
    (h : Unpublished [] tr es) (hx : x.stage? = some (.initializing p t)) :
    Unpublished (Stage.delivers? (.initializing p t)).toList (tr ++ [x])
      (Registry.written es (x.call?.bind Call.write?).toList) where
  deliveries := by rw [deliveries_append, h.deliveries, hx]; rfl
  second := by
    rw [writesIn_append, h.second]
    simp [Moment.writesIn, hx, Stage.inSecondPart]
  entries := by
    rw [writesIn_append, Registry.written_append, ← h.entries]
    simp [Moment.writesIn, hx, Stage.inFirstPart]

/-- A moment at which the second part of a plan moves. -/
theorem HasPublished.second {t : Task (Except Fault Unit)} (h : HasPublished tr es)
    (hx : x.stage? = some (.finishing t)) :
    HasPublished (tr ++ [x]) (Registry.written es (x.call?.bind Call.write?).toList) := by
  rcases h with ⟨d, s, hd, hs, distinct, entries⟩
  refine ⟨d, s, ?_, hs, distinct, ?_⟩
  · rw [deliveries_append, hd, hx]
    rfl
  · have first : x.writesIn Stage.inFirstPart = [] := by
      simp [Moment.writesIn, hx, Stage.inFirstPart]
    have second : x.writesIn Stage.inSecondPart = (x.call?.bind Call.write?).toList := by
      simp [Moment.writesIn, hx, Stage.inSecondPart]
    rw [writesIn_append, writesIn_append, first, second, List.append_nil, ← List.append_assoc,
      Registry.written_append, ← entries]

/-! ## Turns and changes -/

/-- A turn of the caller that sets up keeps account of what it writes. -/
theorem Filled.turn (h : Filled tr l.world.registry.entries s)
    (opened : ∀ r, s.registry? = some r → l.world.registry.state = r) (hx : x.stage? = some s)
    (hc : x.call? = s.call? m) (turn : Turn l s m s' n) (before : s.fills = true)
    (after : s'.fills = true) :
    Filled (tr ++ [x]) n.world.registry.entries s' ∧ n.leftovers = l.leftovers := by
  have quiet (hp : s.inFirstPart = false ∧ s.inSecondPart = false) : x.Quiet := by
    intro t ht
    cases hx.symm.trans ht
    exact hp
  have published {p : Plan} {d : Delivery} {frozen : EnvironmentSettings} {w : World}
      (hs : s = .publishing p d) (hp : publish l.world d = (.ok frozen, w)) :
      HasPublished (tr ++ [x]) w.registry.entries := by
    subst hs
    have handed : Unpublished [d] (tr ++ [x]) l.world.registry.entries :=
      Unpublished.quiet h (quiet ⟨rfl, rfl⟩)
    rcases publish_ok hp with ⟨s, settings, distinct, entries⟩
    refine ⟨d, s, handed.deliveries, settings, distinct, ?_⟩
    rw [handed.second, List.append_nil, Registry.written_append, ← handed.entries]
    exact entries
  -- Only the two parts of the plan and publishing write; all other turns of the setup are quiet.
  cases turn
  case launch => exact ⟨Unpublished.quiet h (quiet ⟨rfl, rfl⟩), rfl⟩
  case init p k t t' w hn =>
    refine ⟨?_, rfl⟩
    have moved := Unpublished.first h hx
    rcases World.next?_eq_some hn with ⟨c, next, r, rfl, -, -⟩
    rw [hc] at moved
    rw [World.next?_entries (opened _ rfl) hn]
    exact moved
  case initDone p k d =>
    have moved := Unpublished.first h hx
    rw [hc] at moved
    exact ⟨moved, rfl⟩
  case publishLast hp _ => exact ⟨published rfl hp, rfl⟩
  case publishThen hp _ _ =>
    have after := published rfl hp
    exact ⟨after, rfl⟩
  case finish k t t' w hn =>
    have moved := HasPublished.second h hx
    rw [hc] at moved
    refine ⟨?_, rfl⟩
    rw [World.next?_entries (opened _ rfl) hn]
    exact moved
  case finishDone =>
    have moved := HasPublished.second h hx
    rw [hc] at moved
    exact ⟨moved, rfl⟩
  case «seal» k r log hs =>
    refine ⟨?_, rfl⟩
    have same : r.entries = l.world.registry.entries := by
      simp only [Registry.sealEntries, opened _ rfl] at hs
      cases hs
      rfl
    have published := HasPublished.quiet h (quiet ⟨rfl, rfl⟩)
    rw [← same] at published
    exact published
  all_goals first | (cases before; done) | cases after

theorem Turn.bystander (turn : Turn l s m s' n) (hs : s.drives? = none) :
    n.world.registry = l.world.registry ∧ n.leftovers = l.leftovers := by
  cases turn <;> first | exact ⟨rfl, rfl⟩ | cases hs

/-- What happens while nobody who drives moves. -/
theorem Change.bystander (hc : Change l a n) (left : l.leftovers = [])
    (idle : ∀ i m s, a = .caller i m → l.callers[i]? = some s → s.drives? = none) :
    n.world.registry = l.world.registry ∧ n.leftovers = [] ∧ (⟨l, a, n⟩ : Moment).Quiet := by
  have quiet : (⟨l, a, n⟩ : Moment).Quiet := by
    refine Moment.quiet_of_idle ?_
    intro s hs
    rcases Moment.stage?_eq_some.1 hs with ⟨i, m, ha, hi⟩
    exact idle i m s ha hi
  rcases hc.turn_or_none_left left with ⟨i, m, s, s', n', rfl, hs, turn, rfl⟩ | ⟨-, none, same⟩
  · rcases turn.bystander (idle i m s rfl hs) with ⟨registry, leftovers⟩
    exact ⟨registry, leftovers.trans left, quiet⟩
  · exact ⟨same, none, quiet⟩

/-! ## Runs -/

/-- Nobody drives an environment of which nothing has been asked, or that is ready. -/
theorem Sound.nobody_drives (sound : l.Sound) (hp : l.phase = .uninitialized ∨ l.phase = .ready)
    (hs : l.callers[i]? = some s) : s.drives? = none := by
  cases hd : s.drives? with
  | none => rfl
  | some q =>
    have phase : l.phase = q := sound.phase_eq hs hd
    rcases hp with hp | hp
    · exact absurd (phase.symm.trans hp) (drives?_ne hd).1
    · exact absurd (phase.symm.trans hp) (drives?_ne hd).2

theorem Regulates.writes_of_idle {r r' : Registry} (h : Regulates r s s' r')
    (hs : s.drives? = none) : r.Writes r' := by
  cases h with
  | writes written => exact written
  | _ => cases hs

/-- A registry that is sealed keeps its entries while nobody drives. -/
theorem Change.entries_of_sealed (hc : Change l a n) (shut : l.world.registry.state = .sealed)
    (idle : ∀ (i : Nat) (s : Stage), l.callers[i]? = some s → s.drives? = none) :
    n.world.registry.entries = l.world.registry.entries := by
  have closed : l.world.registry.state ≠ .opened := by simp [shut]
  rcases hc.registry with written | ⟨i, s, s', hs, -, reg⟩
  · exact written.entries closed
  · exact (reg.writes_of_idle (idle i s hs)).entries closed

/-- Nothing is in the registry but what the setup has written. -/
structure Attributed (tr : List Moment) (l : Lifecycle) : Prop where
  idle : l.phase = .uninitialized →
    Unpublished [] tr l.world.registry.entries ∧ l.leftovers = []
  stages : ∀ {i : Nat} {s : Stage}, l.callers[i]? = some s → s.fills = true →
    Filled tr l.world.registry.entries s ∧ l.leftovers = []
  ready : l.phase = .ready → HasPublished tr l.world.registry.entries

theorem Attributed.fresh (fresh : l.Fresh) (empty : l.world.registry.entries = []) :
    Attributed [] l where
  idle := fun _ => ⟨⟨rfl, rfl, empty⟩, fresh.leftovers⟩
  stages := by simp [fresh.callers]
  ready := by
    rw [fresh.phase_eq]
    exact nofun

/-- Nothing is written while nothing has been asked of the environment. -/
theorem Attributed.stays_idle (h : Attributed tr l) (sound : l.Sound) (hc : Change l a n)
    (hp : n.phase = .uninitialized) :
    Unpublished [] (tr ++ [⟨l, a, n⟩]) n.world.registry.entries ∧ n.leftovers = [] := by
  have still : l.phase = .uninitialized := by
    have le := hc.rank_le
    rw [hp] at le
    cases hl : l.phase <;> rw [hl] at le <;> first | rfl | exact absurd le (by decide)
  rcases h.idle still with ⟨untouched, left⟩
  rcases hc.bystander left fun i m s _ hs => sound.nobody_drives (.inl still) hs with
    ⟨registry, left', quiet⟩
  exact ⟨registry ▸ untouched.quiet quiet, left'⟩

/-- The setup moves: it begins, or writes on. -/
theorem Attributed.moves (h : Attributed tr l) (gated : l.Gated) (hs : l.callers[i]? = some s)
    (turn : Turn l s m s' n) (fills : s'.fills = true) :
    Filled (tr ++ [⟨l, .caller i m, { n with callers := l.callers.set i s' }⟩])
      n.world.registry.entries s' ∧ n.leftovers = [] := by
  cases before : s.fills with
  | true =>
    rcases h.stages hs before with ⟨filled, left⟩
    have called : l.call? (.caller i m) = s.call? m := by simp [call?, hs]
    have step := filled.turn (x := ⟨l, .caller i m, { n with callers := l.callers.set i s' }⟩)
      (fun r => gated.stages hs) hs called turn before fills
    exact ⟨step.1, step.2.trans left⟩
  | false =>
    -- A setup begins in an environment of which nothing has been asked yet.
    cases turn
    case begin p k log hp =>
      rcases h.idle hp with ⟨untouched, left⟩
      refine ⟨Unpublished.quiet untouched ?_, left⟩
      intro t ht
      cases hs.symm.trans ht
      exact ⟨rfl, rfl⟩
    all_goals first | (cases before; done) | cases fills

/-- Somebody else moves than the setup, and nobody else drives. -/
theorem Attributed.waits (h : Attributed tr l) (sound : l.Sound) (hc : Change l a n)
    (hs : l.callers[i]? = some s) (fills : s.fills = true) (other : ∀ m, a ≠ .caller i m) :
    Filled (tr ++ [⟨l, a, n⟩]) n.world.registry.entries s ∧ n.leftovers = [] := by
  have nobody : ∀ j m t, a = .caller j m → l.callers[j]? = some t → t.drives? = none := by
    intro j m t ha ht
    cases hd : t.drives? with
    | none => rfl
    | some q =>
      have same := sound.unique ht hs hd (Stage.drives?_of_fills fills)
      exact absurd (same ▸ ha) (other m)
  rcases h.stages hs fills with ⟨filled, left⟩
  rcases hc.bystander left nobody with ⟨registry, left', quiet⟩
  exact ⟨registry ▸ filled.quiet fills quiet, left'⟩

/-- While the environment is ready, nobody drives and its sealed registry keeps its entries. -/
theorem Attributed.stays_ready (h : Attributed tr l) (sound : l.Sound) (gated : l.Gated)
    (hc : Change l a n) (still : l.phase = .ready) :
    HasPublished (tr ++ [⟨l, a, n⟩]) n.world.registry.entries := by
  have idle (i : Nat) (s : Stage) (hs : l.callers[i]? = some s) : s.drives? = none :=
    sound.nobody_drives (.inr still) hs
  have shut : l.world.registry.state = .sealed := gated.phases (still ▸ rfl)
  rw [hc.entries_of_sealed shut idle]
  refine (h.ready still).quiet (Moment.quiet_of_idle ?_)
  intro s hs
  rcases Moment.stage?_eq_some.1 hs with ⟨i, m, -, hi⟩
  exact idle i s hi

/-- Every action leaves in the registry only what the setup has written. -/
theorem Attributed.change (h : Attributed tr l) (sound : l.Sound) (gated : l.Gated)
    (hc : Change l a n) : Attributed (tr ++ [⟨l, a, n⟩]) n where
  idle := h.stays_idle sound hc
  stages := by
    intro j t ht fills
    rcases hc.callers ht with hl | ⟨d, -, rfl⟩ | ⟨m, s, n', rfl, hs, turn, rfl⟩
    · rcases hc.goes hl with ⟨other, -⟩ | ⟨m, t', n', rfl, turn, rfl, hj⟩
      · exact h.waits sound hc hl fills other
      · cases hj.symm.trans ht
        exact h.moves gated hl turn fills
    · cases fills
    · exact h.moves gated hs turn fills
  ready := by
    intro hp
    rcases hc.turn_or_same with ⟨i, m, s, s', n', rfl, hs, turn, rfl⟩ | ⟨hh, -⟩
    · rcases turn.history with hh | ⟨q, -, hh, enters⟩
      · exact h.stays_ready sound gated hc ((phase_of_history_eq hh).symm.trans hp)
      · -- The phase is entered by a setup that has sealed what it has published.
        have entered : q = .ready := (phase_of_history hh).symm.trans hp
        cases enters with
        | ready =>
          have filled := (h.stages hs rfl).1
          have quiet : (⟨l, .caller i m, { n' with callers := l.callers.set i .announcingReady }⟩ :
              Moment).Quiet := by
            intro t ht
            cases hs.symm.trans ht
            exact ⟨rfl, rfl⟩
          cases turn
          exact HasPublished.quiet filled quiet
        | close p r => cases p <;> cases entered
        | _ => cases entered
    · exact h.stays_ready sound gated hc ((phase_of_history_eq hh).symm.trans hp)

theorem Run.attributed (fresh : l.Fresh) (new : l.world.registry = {}) (run : Run l tr l') :
    Attributed tr l' := by
  have opened : l.world.registry.state = .opened := by rw [new]
  induction run with
  | refl => exact .fresh fresh (by rw [new])
  | tail run h ih =>
    exact ih.change (run.sound fresh) (run.gated fresh opened) (change_of_act? h)

end Lifecycle
end Testbed
