import Testbed.Proofs.Entries
import Testbed.Proofs.Regulation

/-!
# Transcripts of a registry

Each operation on a registry is one step under its lock, so whatever its users do at the same time
is a sequence of operations.  The transcript of a sequence has the answer of each operation, what it
logs, and the registry before and after it.

`Does` lists what an operation can do.  It does not say who makes it: operations carry no owner.
-/

namespace Testbed

/-- The place of a state in the order in which a registry goes through them. -/
def RegistryState.rank : RegistryState → Nat
  | .opened => 0
  | .sealed => 1
  | .draining => 2
  | .cleared => 3

namespace Registry

/-- An operation with its answer, its log, and the registry before and after it. -/
structure Exchange where
  before : Registry
  op : Operation
  answer : Except Fault Answer
  log : List LogRecord
  after : Registry

/-- What happens when an operation is made. -/
def exchange (r : Registry) (op : Operation) : Exchange :=
  ⟨r, op, (r.apply op).1, (r.apply op).2.2, (r.apply op).2.1⟩

/-- What happens when operations are made one after another. -/
def transcript (r : Registry) : List Operation → List Exchange
  | [] => []
  | op :: ops => r.exchange op :: transcript (r.exchange op).after ops

namespace Exchange

/-- The operation was rejected. -/
def Rejected (x : Exchange) : Prop := ∃ f, x.answer = .error f

/-- The operation is a read, and the gate was asked and let it through. -/
def Passes (x : Exchange) : Prop := x.before.LetsThrough x.op

/-- The operation is a read that the gate was asked about and did not let through. -/
def TurnedAway (x : Exchange) : Prop :=
  x.op.isRead = true ∧ ∃ key f, x.op.gateKey = .ok key ∧ x.before.requireSealed key = .error f

/-- What was written, if the operation is a write that succeeded. -/
def write? (x : Exchange) : Option (String × Entry) :=
  match x.op, x.answer with
  | .set key value, .ok _ => some (key, value)
  | _, _ => none

end Exchange

/-- The operation asks for something that a registry grants in some state only. -/
def Operation.isGated : Operation → Bool
  | .set .. | .sealEntries => true
  | op => op.isRead

/-- All writes that succeeded, in order. -/
def writes (tr : List Exchange) : List (String × Entry) := tr.filterMap Exchange.write?

variable {r r' : Registry} {op : Operation} {ops : List Operation} {x y z : Exchange}
  {u v : List Exchange} {answer : Except Fault Answer}

/-! ## One operation -/

/-- What an operation can answer and do. -/
inductive Does (r : Registry) : Operation → Except Fault Answer → Registry → Prop where
  | stores (key : String) (value : Entry) (h : r.state = .opened) :
      Does r (.set key value) (.ok .nothing)
        { r with entries := Json.setField key value r.entries }
  | storesNothing (key : String) (value : Entry) (f : Fault) (h : r.state ≠ .opened) :
      Does r (.set key value) (.error f) r
  | seals (h : r.state = .opened) :
      Does r .sealEntries (.ok .nothing) { r with state := .sealed }
  | sealsNothing (f : Fault) (h : r.state ≠ .opened) : Does r .sealEntries (.error f) r
  | drains (h : r.state ≠ .cleared) :
      Does r .beginDrain (.ok .nothing) { r with state := .draining }
  | drainsNothing (h : r.state = .cleared) : Does r .beginDrain (.ok .nothing) r
  | clears : Does r .clear (.ok .nothing) ⟨.cleared, []⟩
  | reads (op : Operation) (h : op.isRead = true ∨ op = .state) : Does r op (r.reading op) r

theorem sealEntries_eq (r : Registry) :
    (r.state = .opened ∧ r.sealEntries = .ok { r with state := .sealed }) ∨
    r.state ≠ .opened ∧ ∃ f, r.sealEntries = .error f := by
  unfold sealEntries
  cases h : r.state with
  | opened => exact .inl ⟨rfl, rfl⟩
  | _ => exact .inr ⟨nofun, _, rfl⟩

theorem does_apply (r : Registry) (op : Operation) : Does r op (r.apply op).1 (r.apply op).2.1 := by
  cases op with
  | set key value =>
    rcases r.set_eq key value with ⟨h, hr⟩ | ⟨h, f, hr⟩
    · simp only [apply, hr]
      exact .stores key value h
    · simp only [apply, hr]
      exact .storesNothing key value f h
  | sealEntries =>
    rcases r.sealEntries_eq with ⟨h, hr⟩ | ⟨h, f, hr⟩
    · simp only [apply, hr]
      exact .seals h
    · simp only [apply, hr]
      exact .sealsNothing f h
  | beginDrain =>
    simp only [apply, beginDrain]
    split
    · rename_i h
      exact .drainsNothing h
    · rename_i h
      exact .drains h
  | clear => exact .clears
  | state => exact .reads _ (.inr rfl)
  | _ => exact .reads _ (.inl rfl)

theorem Does.rank_le (h : Does r op answer r') :
    r.state.rank ≤ r'.state.rank := by
  cases h with
  | seals hs =>
    rw [hs]
    exact Nat.zero_le _
  | drains hs =>
    -- Everything but a cleared registry comes before a draining one.
    cases hr : r.state with
    | cleared => exact absurd hr hs
    | opened => exact Nat.zero_le _
    | sealed => exact Nat.le_succ _
    | draining => exact Nat.le_refl _
  | clears =>
    cases r.state <;> decide
  | _ => exact Nat.le_refl _

/-- Rejection leaves the registry alone, and there is no log of it. -/
theorem rejected_unchanged (h : (r.exchange op).Rejected) :
    (r.exchange op).after = r ∧ (r.exchange op).log = [] := by
  rcases h with ⟨f, hf⟩
  cases op with
  | set key value =>
    rcases r.set_eq key value with ⟨-, hr⟩ | ⟨-, g, hr⟩
    · simp [exchange, apply, hr] at hf
    · simp [exchange, apply, hr]
  | sealEntries =>
    rcases r.sealEntries_eq with ⟨-, hr⟩ | ⟨-, g, hr⟩
    · simp [exchange, apply, hr] at hf
    · simp [exchange, apply, hr]
  | beginDrain => cases hf
  | clear => cases hf
  | _ => exact ⟨rfl, rfl⟩

/-! ## Gates -/

/-- What is granted in the open state only is rejected in all others. -/
theorem granted_iff (h : Does r op answer r')
    (hop : (∃ key value, op = .set key value) ∨ op = .sealEntries) :
    (∃ a, answer = .ok a) ↔ r.state = .opened := by
  cases h with
  | stores key value hs => simp [hs]
  | storesNothing key value f hs => simp [hs]
  | seals hs => simp [hs]
  | sealsNothing f hs => simp [hs]
  | reads op hr =>
    -- Reads are neither writes nor attempts to seal.
    rcases hop with ⟨key, value, rfl⟩ | rfl
    · rcases hr with hr | hr <;> cases hr
    · rcases hr with hr | hr <;> cases hr
  | _ => rcases hop with ⟨key, value, he⟩ | he <;> cases he

theorem letsThrough_iff (read : op.isRead = true) :
    r.LetsThrough op ↔ r.state = .sealed ∧ ∃ key, op.gateKey = .ok key := by
  constructor
  · intro h
    refine ⟨h.sealed, ?_⟩
    cases hk : op.gateKey with
    | ok key => exact ⟨key, rfl⟩
    | error f =>
      have passed : op.gateKey.bind r.requireSealed = .ok () := h.2
      rw [hk] at passed
      cases passed
  · rintro ⟨shut, key, hk⟩
    exact letsThrough_of_sealed read hk shut

theorem Exchange.TurnedAway.not_sealed (h : x.TurnedAway) : x.before.state ≠ .sealed := by
  rcases h with ⟨-, key, f, -, hf⟩
  intro shut
  cases hf.symm.trans (requireSealed_eq_ok.2 shut)

/-- A read that the gate does not let through is rejected. -/
theorem rejected_of_not_passes (read : op.isRead = true) (h : ¬ r.LetsThrough op) :
    (r.exchange op).Rejected := by
  have kept : (r.exchange op).answer = r.reading op := by
    cases op <;> first | rfl | cases read
  cases hr : r.reading op with
  | error f => exact ⟨f, kept.trans hr⟩
  | ok a => exact absurd (letsThrough_of_reading read hr) h

/-- A draining or cleared registry grants nothing. -/
theorem rejected_of_late (late : 2 ≤ r.state.rank) (gated : op.isGated = true) :
    (r.exchange op).Rejected := by
  have not_open : r.state ≠ .opened := by
    intro h
    simp [h, RegistryState.rank] at late
  have refused (hop : (∃ key value, op = .set key value) ∨ op = .sealEntries) :
      (r.exchange op).Rejected := by
    cases ha : (r.exchange op).answer with
    | error f => exact ⟨f, ha⟩
    | ok a => exact absurd ((granted_iff (r.does_apply op) hop).1 ⟨a, ha⟩) not_open
  have unread (read : op.isRead = true) : (r.exchange op).Rejected := by
    refine rejected_of_not_passes read ?_
    intro h
    simp [h.sealed, RegistryState.rank] at late
  cases op with
  | set key value => exact refused (.inl ⟨key, value, rfl⟩)
  | sealEntries => exact refused (.inr rfl)
  | beginDrain => cases gated
  | clear => cases gated
  | state => cases gated
  | _ => exact unread rfl

/-! ## Sequences -/

theorem exchange_of_mem (h : x ∈ transcript r ops) : x = x.before.exchange x.op := by
  induction ops generalizing r with
  | nil => cases h
  | cons op ops ih =>
    rcases List.mem_cons.1 h with rfl | h
    · rfl
    · exact ih h

/-- No operation takes the registry back. -/
theorem forward_of_mem (h : x ∈ transcript r ops) :
    x.before.state.rank ≤ x.after.state.rank := by
  rw [exchange_of_mem h]
  exact (x.before.does_apply x.op).rank_le

theorem rank_le_of_mem (h : x ∈ transcript r ops) :
    r.state.rank ≤ x.before.state.rank := by
  induction ops generalizing r with
  | nil => cases h
  | cons op ops ih =>
    rcases List.mem_cons.1 h with rfl | h
    · exact Nat.le_refl _
    · exact Nat.le_trans (r.does_apply op).rank_le (ih h)

/-- Later operations meet a registry that is at least as far. -/
theorem pairwise_rank (r : Registry) (ops : List Operation) :
    (transcript r ops).Pairwise fun x y =>
      x.after.state.rank ≤ y.before.state.rank := by
  induction ops generalizing r with
  | nil => exact .nil
  | cons op ops ih =>
    refine .cons ?_ (ih _)
    intro y hy
    exact rank_le_of_mem hy

/-- While a registry can be written or read, its entries are those that were written. -/
structure Stands (tr : List Exchange) (r : Registry) : Prop where
  entries : r.state.rank ≤ 1 → r.entries = written [] (writes tr)

theorem Stands.exchange {tr : List Exchange} (h : Stands tr r) (op : Operation) :
    Stands (tr ++ [r.exchange op]) (r.exchange op).after := by
  have does := r.does_apply op
  -- An operation that writes nothing and stays where entries count leaves them as they are.
  have idle (hw : (r.exchange op).write? = none)
      (he : (r.exchange op).after.state.rank ≤ 1 →
        (r.exchange op).after.entries = r.entries) :
      Stands (tr ++ [r.exchange op]) (r.exchange op).after := by
    refine ⟨fun hr => ?_⟩
    have earlier : r.state.rank ≤ 1 := Nat.le_trans does.rank_le hr
    rw [he hr, h.entries earlier]
    simp [writes, hw]
  generalize ha : (r.apply op).1 = answer at does
  generalize hn : (r.apply op).2.1 = after at does
  have answered : (r.exchange op).answer = answer := ha
  have became : (r.exchange op).after = after := hn
  cases does with
  | stores key value hs =>
    refine ⟨fun _ => ?_⟩
    have wrote : (r.exchange (.set key value)).write? = some (key, value) := by
      simp [Exchange.write?, Registry.exchange, ha]
    have before : r.entries = written [] (writes tr) := h.entries (by simp [hs, RegistryState.rank])
    calc
      (r.exchange (.set key value)).after.entries
          = Json.setField key value r.entries := by rw [became]
      _ = Json.setField key value (written [] (writes tr)) := by rw [before]
      _ = written [] (writes tr ++ [(key, value)]) :=
          (written_append [] (writes tr) [(key, value)]).symm
      _ = written [] (writes (tr ++ [r.exchange (.set key value)])) := by simp [writes, wrote]
  | storesNothing key value f hs =>
    refine idle ?_ ?_
    · simp [Exchange.write?, answered]
    · intro _
      rw [became]
  | clears =>
    refine idle rfl ?_
    intro hr
    rw [became] at hr
    exact absurd hr (by decide)
  | reads op hr =>
    refine idle ?_ ?_
    · rcases hr with hr | rfl
      · cases op <;> first | rfl | cases hr
      · rfl
    · intro _
      rw [became]
  | _ =>
    refine idle rfl ?_
    intro _
    rw [became]

/-- At each operation the registry stands on those before it. -/
theorem stands_before {tr : List Exchange} (h : Stands tr r)
    (he : transcript r ops = u ++ x :: v) : Stands (tr ++ u) x.before := by
  induction ops generalizing r tr u with
  | nil => simp [transcript] at he
  | cons op ops ih =>
    unfold transcript at he
    cases u with
    | nil =>
      rcases List.cons.inj he with ⟨rfl, -⟩
      rw [List.append_nil]
      exact h
    | cons y u =>
      rcases List.cons.inj he with ⟨rfl, rest⟩
      have next : Stands (tr ++ [r.exchange op] ++ u) x.before := ih (h.exchange op) rest
      simpa using next

/-! ## Every sequence -/

/-- The same from a registry that is new. -/
theorem stands_of_new (he : transcript {} ops = u ++ x :: v) : Stands u x.before := by
  have new : Stands [] ({} : Registry) := ⟨fun _ => rfl⟩
  have stands := stands_before new he
  rwa [List.nil_append] at stands

/-- What the users of a registry can rely on, whatever they do. -/
structure KeepsOrder (tr : List Exchange) : Prop where
  /-- The state only moves forward, during an operation and between any two of them. -/
  during : ∀ x ∈ tr, x.before.state.rank ≤ x.after.state.rank
  between : tr.Pairwise fun x y =>
    x.after.state.rank ≤ y.before.state.rank
  /-- Writes, and attempts to seal, succeed in the open state and in no other. -/
  writes : ∀ x ∈ tr, (∃ key value, x.op = .set key value) ∨ x.op = .sealEntries →
    ((∃ a, x.answer = .ok a) ↔ x.before.state = .opened)
  /-- Reads that name something that can be read pass the gate of a sealed registry and of no
  other; a read that does not pass is rejected. -/
  passes : ∀ x ∈ tr, x.op.isRead = true →
    (x.Passes ↔ x.before.state = .sealed ∧ ∃ key, x.op.gateKey = .ok key)
  turned : ∀ x ∈ tr, x.op.isRead = true → ¬ x.Passes → x.Rejected
  /-- In the sealed period a key has the value that was written to it last, if any was. -/
  gets : ∀ u x v key, tr = u ++ x :: v → x.op = .get key → x.before.state = .sealed →
    x.answer = .ok (.entry (lastWritten key (Registry.writes u)))
  /-- The keys that were written are listed in ascending order, each of them once. -/
  keys : ∀ u x v, tr = u ++ x :: v → x.op = .keys → x.before.state = .sealed →
    ∃ ks, x.answer = .ok (.texts ks) ∧ ks.Pairwise (· < ·) ∧
      ∀ key, key ∈ ks ↔ ∃ value, (key, value) ∈ Registry.writes u
  /-- A rejected operation changes nothing. -/
  rejected : ∀ x ∈ tr, x.Rejected → x.after = x.before ∧ x.log = []
  /-- Once a read has been turned away after another one has passed, no read, write or attempt to
  seal ever succeeds again. -/
  closed : ∀ x y z, [x, y, z].Sublist tr → x.Passes → y.TurnedAway → z.op.isGated = true →
    z.Rejected

theorem get_of_sealed (shut : r.state = .sealed) (key : String) :
    r.get key = .ok (Json.lookup key r.entries) := by
  have passed : r.requireSealed (some key) = .ok () := requireSealed_eq_ok.2 shut
  rw [get, passed]
  rfl

theorem keys_of_sealed (shut : r.state = .sealed) :
    r.keys = .ok ((r.entries.map Prod.fst).mergeSort keyLe) := by
  have passed : r.requireSealed none = .ok () := requireSealed_eq_ok.2 shut
  rw [keys, passed]
  rfl

theorem Stands.entries_of_sealed (h : Stands u r) (shut : r.state = .sealed) :
    r.entries = written [] (writes u) :=
  h.entries (by simp [shut, RegistryState.rank])

/-- A sealed registry gives for a key what was written to it last. -/
theorem Stands.get (h : Stands u r) (shut : r.state = .sealed) (key : String) :
    (r.exchange (.get key)).answer = .ok (.entry (lastWritten key (writes u))) := by
  calc
    (r.exchange (.get key)).answer
        = (r.get key).map .entry := rfl
    _ = .ok (.entry (Json.lookup key r.entries)) := by
        rw [get_of_sealed shut]
        rfl
    _ = .ok (.entry (lastWritten key (writes u))) := by
        rw [h.entries_of_sealed shut, lookup_written]
        simp [Json.lookup]

/-- A sealed registry lists the keys that were written, in order. -/
theorem Stands.keys (h : Stands u r) (shut : r.state = .sealed) :
    ∃ ks, (r.exchange .keys).answer = .ok (.texts ks) ∧ ks.Pairwise (· < ·) ∧
      ∀ key, key ∈ ks ↔ ∃ value, (key, value) ∈ writes u := by
  have answered : (r.exchange .keys).answer =
      .ok (.texts ((r.entries.map Prod.fst).mergeSort keyLe)) := by
    show r.keys.map Answer.texts = _
    rw [keys_of_sealed shut]
    rfl
  have entries := h.entries_of_sealed shut
  refine ⟨_, answered, ?_, ?_⟩
  · rw [entries]
    exact pairwise_sorted_keys (nodup_names_written List.nodup_nil)
  · intro key
    rw [List.mem_mergeSort, entries, mem_names_written]
    simp

/-- A read that is turned away once another one has passed meets a registry that is past its sealed
period. -/
theorem late_of_turnedAway (passes : x.Passes) (turned : y.TurnedAway)
    (order : x.before.state.rank ≤ y.before.state.rank) : 2 ≤ y.before.state.rank := by
  rw [passes.sealed] at order
  have other := turned.not_sealed
  cases hs : y.before.state with
  | sealed => exact absurd hs other
  | opened => simp [hs, RegistryState.rank] at order
  | _ => decide

/-- Whatever operations are made on a new registry, and by whomever, it keeps order. -/
theorem registry_keeps_order (ops : List Operation) : KeepsOrder (transcript {} ops) where
  during := fun _ => forward_of_mem
  between := pairwise_rank {} ops
  writes := by
    intro x hx hop
    rw [exchange_of_mem hx]
    exact granted_iff (x.before.does_apply x.op) hop
  passes := by
    intro x _ read
    exact letsThrough_iff read
  turned := by
    intro x hx read h
    rw [exchange_of_mem hx]
    exact rejected_of_not_passes read h
  gets := by
    intro u x v key he hop shut
    have hx : x = x.before.exchange x.op := exchange_of_mem (by rw [he]; simp)
    rw [hx, hop]
    exact (stands_of_new he).get shut key
  keys := by
    intro u x v he hop shut
    have hx : x = x.before.exchange x.op := exchange_of_mem (by rw [he]; simp)
    rw [hx, hop]
    exact (stands_of_new he).keys shut
  rejected := by
    intro x hx h
    have hx := exchange_of_mem hx
    rw [hx] at h ⊢
    exact rejected_unchanged h
  closed := by
    intro x y z order passes turned gated
    have member : ∀ w ∈ [x, y, z], w ∈ transcript {} ops := fun w hw => order.subset hw
    -- States only go forward from one of the three exchanges to the next.
    have ranks := (pairwise_rank {} ops).sublist order
    have first : x.after.state.rank ≤ y.before.state.rank :=
      (List.pairwise_cons.1 ranks).1 y (by simp)
    have second : y.after.state.rank ≤ z.before.state.rank :=
      (List.pairwise_cons.1 (List.pairwise_cons.1 ranks).2).1 z (by simp)
    have late : 2 ≤ y.before.state.rank :=
      late_of_turnedAway passes turned (Nat.le_trans (forward_of_mem (member x (by simp))) first)
    have later : 2 ≤ z.before.state.rank :=
      Nat.le_trans late (Nat.le_trans (forward_of_mem (member y (by simp))) second)
    rw [exchange_of_mem (member z (by simp))]
    exact rejected_of_late later gated

end Registry
end Testbed
