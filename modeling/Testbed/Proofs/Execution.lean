import Testbed.Proofs.Conduct

/-!
# Executions

What a program does in a world, as the list of the exchanges between the two.  `Task.Ends` is a run
that nothing disturbs; `Task.Execution` is any beginning of a run in which calls may also be
cancelled and others may act in between.
-/

namespace Testbed

/-- A call and the reply with which a program goes on. -/
structure Exchange where
  call : Call
  reply : call.Reply

/-- Others act meanwhile.  They leave the ledger alone, and identities are only ever drawn. -/
structure World.Aside (w w' : World) : Prop where
  ledger : w'.ledger = w.ledger
  made : w.made ≤ w'.made

namespace Task

variable {α β : Type} {w w₁ w₂ w' : World} {es es' : List Exchange}

/-! ## Undisturbed runs -/

/-- A program that nothing disturbs ends with a value. -/
inductive Ends {α : Type} : Task α → World → List Exchange → α → World → Prop where
  | done (a : α) (w : World) : Ends (.done a) w [] a w
  | call {c : Call} {next : c.Reply → Task α} {w w₁ w' : World} {r : c.Reply}
      {es : List Exchange} {a : α} (reply : w.perform c = some (r, w₁))
      (rest : Ends (next r) w₁ es a w') : Ends (.call c next) w (⟨c, r⟩ :: es) a w'

theorem Ends.bind {t : Task α} {f : α → Task β} {a : α} {b : β} (h : Ends t w es a w₁)
    (hf : Ends (f a) w₁ es' b w₂) : Ends (t.bind f) w (es ++ es') b w₂ := by
  induction h with
  | done => exact hf
  | call reply _ ih => exact .call reply (ih hf)

theorem Ends.bind_done {t : Task α} {f : α → Task β} {a : α} {b : β} (h : Ends t w es a w₁)
    (hf : f a = .done b) : Ends (t.bind f) w es b w₁ := by
  induction h with
  | done =>
    rw [Program.bind, hf]
    exact .done b _
  | call reply _ ih => exact .call reply (ih hf)

theorem Ends.advance_eq {t : Task α} {a : α} (h : Ends t w es a w') :
    World.advance t w = (.done a, w') := by
  induction h with
  | done => rfl
  | call reply _ ih =>
    unfold World.advance
    rw [reply]
    exact ih

/-- The exchanges of a program up to its end, or to a call that has to wait. -/
def exchanges {α : Type} : Task α → World → List Exchange
  | .done _, _ => []
  | .call c next, w =>
    match w.perform c with
    | some (r, w') => ⟨c, r⟩ :: exchanges (next r) w'
    | none => []

/-- What a program that is done has given. -/
def given? {α : Type} : Task α → Option α
  | .done a => some a
  | .call .. => none

theorem Ends.of_given {t : Task α} {a : α} (h : given? (World.advance t w).1 = some a) :
    Ends t w (exchanges t w) a (World.advance t w).2 := by
  induction t generalizing w with
  | done b =>
    cases h
    exact .done a w
  | call c next ih =>
    unfold World.advance at h ⊢
    unfold exchanges
    cases reply : w.perform c with
    | none =>
      rw [reply] at h
      cases h
    | some r =>
      rw [reply] at h
      exact .call reply (ih r.1 h)

/-- A run that ends is what running the work gives. -/
theorem Ends.run_eq {work : Work α} {r : Except Fault α} (h : Ends work w es r w') :
    World.run work w = (r, w') := by
  rw [World.run, h.advance_eq]

section

variable {work : Work α} {f : α → Work β} {a : α} {e : Fault} {r : Except Fault β}
  {caught : Fault → Bool} {handler : Fault → Work α} {r' : Except Fault α}

theorem Ends.andThen (h : Ends work.run w es (.ok a) w₁) (hf : Ends (f a).run w₁ es' r w₂) :
    Ends (work >>= f).run w (es ++ es') r w₂ :=
  Ends.bind h hf

theorem Ends.handled (h : Ends work.run w es (.error e) w₁) (hc : caught e = true)
    (hh : Ends (handler e).run w₁ es' r' w₂) :
    Ends (Work.handle caught work handler).run w (es ++ es') r' w₂ := by
  refine Ends.bind h ?_
  simp only [hc, if_true]
  exact hh

/-- Work that raises nothing is not handled. -/
theorem Ends.unhandled_ok {a : α} (h : Ends work.run w es (.ok a) w₁) :
    Ends (Work.handle caught work handler).run w es (.ok a) w₁ :=
  Ends.bind_done h rfl

end

/-! ## Disturbed runs -/

/-- A program has come as far as another one.  What a worker thread does for a cancelled call may
have landed all the same. -/
inductive Execution {α : Type} : Task α → World → List Exchange → Task α → World → Prop where
  | here (t : Task α) (w : World) : Execution t w [] t w
  | aside {t t' : Task α} {w w₁ w' : World} {es : List Exchange} (others : w.Aside w₁)
      (rest : Execution t w₁ es t' w') : Execution t w es t' w'
  | answered {c : Call} {next : c.Reply → Task α} {t' : Task α} {w w₁ w' : World} {r : c.Reply}
      {es : List Exchange} (reply : w.perform c = some (r, w₁))
      (rest : Execution (next r) w₁ es t' w') : Execution (.call c next) w (⟨c, r⟩ :: es) t' w'
  | cancelled {c : Call} {next : c.Reply → Task α} {t' : Task α} {w w₁ w' : World} {r : c.Reply}
      {es : List Exchange} (reply : c.cancelled? = some r)
      (landed : w₁ = w ∨ c.inWorker = true ∧ ∃ r, w.perform c = some (r, w₁))
      (rest : Execution (next r) w₁ es t' w') : Execution (.call c next) w (⟨c, r⟩ :: es) t' w'

theorem Ends.execution {t : Task α} {a : α} (h : Ends t w es a w') :
    Execution t w es (.done a) w' := by
  induction h with
  | done a w => exact .here _ w
  | call reply _ ih => exact .answered reply ih

end Task

/-! ## Rules along executions -/

variable {σ α : Type} {R : Rule σ} {s : σ} {t t' : Task α} {w w' : World} {es : List Exchange}

/-- The note after some exchanges. -/
def Rule.after (R : Rule σ) (s : σ) (es : List Exchange) : σ :=
  es.foldl (fun s e => R.note s e.call e.reply) s

/-- A program that has come some way still follows its rule, whatever has disturbed it. -/
theorem Task.Follows.execution {Q : σ → α → Prop} (h : Follows R Q t s)
    (run : Execution t w es t' w') : Follows R Q t' (R.after s es) := by
  induction run generalizing s with
  | here => exact h
  | aside _ _ ih => exact ih h
  | answered _ _ ih => exact ih (h.2 _)
  | cancelled _ _ _ ih => exact ih (h.2 _)

/-- What every allowed exchange keeps of the note holds at every moment of an execution. -/
theorem Task.Follows.invariant {Q : σ → α → Prop} {I : σ → Prop} (h : Follows R Q t s)
    (run : Execution t w es t' w') (init : I s)
    (step : ∀ s c (r : c.Reply), R.allows s c → I s → I (R.note s c r)) : I (R.after s es) := by
  induction run generalizing s with
  | here => exact init
  | aside _ _ ih => exact ih h init
  | answered _ _ ih => exact ih (h.2 _) (step _ _ _ h.1 init)
  | cancelled _ _ _ ih => exact ih (h.2 _) (step _ _ _ h.1 init)

/-- The calls that have been made, the one that has no reply yet included. -/
def Task.issued (es : List Exchange) (t' : Task α) : List Call :=
  es.map Exchange.call ++ t'.call?.toList

theorem Task.issued_done (es : List Exchange) (a : α) :
    Task.issued es (.done a : Task α) = es.map Exchange.call := by
  simp [issued, Program.call?]

theorem Task.countP_issued (P : Call → Bool) (es : List Exchange) (c : Call)
    (next : c.Reply → Task α) :
    (issued es (.call c next)).countP P = (es.map Exchange.call).countP P + (P c).toNat := by
  cases h : P c <;> simp [issued, Program.call?, h]

theorem Rule.after_cons (R : Rule σ) (s : σ) (e : Exchange) (es : List Exchange) :
    R.after s (e :: es) = R.after (R.note s e.call e.reply) es :=
  rfl

/-! ## Replaying executions -/

namespace Task

/-- Replays a program, given for each call whether it is cancelled and, if so, whether what a
worker thread does for it lands all the same. -/
def replay? {α : Type} :
    List (Option Bool) → Task α → World → Option (List Exchange × Task α × World)
  | [], t, w => some ([], t, w)
  | _ :: _, .done _, _ => none
  | none :: ds, .call c next, w => do
    let (r, w) ← w.perform c
    let (es, last) ← replay? ds (next r) w
    some (⟨c, r⟩ :: es, last)
  | some landed :: ds, .call c next, w => do
    let r ← c.cancelled?
    let w := if landed && c.inWorker then ((w.perform c).map Prod.snd).getD w else w
    let (es, last) ← replay? ds (next r) w
    some (⟨c, r⟩ :: es, last)

/-- The first step of a replay: a reply of the world, or a cancellation. -/
theorem replay?_cons {d : Option Bool} {ds : List (Option Bool)}
    (h : replay? (d :: ds) t w = some (es, t', w')) :
    ∃ (c : Call) (next : c.Reply → Task α) (r : c.Reply) (w₁ : World) (es₁ : List Exchange),
      t = .call c next ∧ es = ⟨c, r⟩ :: es₁ ∧
        (w.perform c = some (r, w₁) ∨ c.cancelled? = some r ∧
          (w₁ = w ∨ c.inWorker = true ∧ ∃ r, w.perform c = some (r, w₁))) ∧
        replay? ds (next r) w₁ = some (es₁, t', w') := by
  -- A program that has ended makes no more steps; each other step is a reply or a cancellation.
  cases t with
  | done a => cases d <;> cases h
  | call c next =>
    cases d with
    | none =>
      rcases Option.bind_eq_some_iff.1 h with ⟨⟨r, w₁⟩, reply, h⟩
      rcases Option.bind_eq_some_iff.1 h with ⟨⟨es₁, last⟩, rest, h⟩
      cases h
      exact ⟨c, next, r, w₁, es₁, rfl, rfl, .inl reply, rest⟩
    | some landed =>
      rcases Option.bind_eq_some_iff.1 h with ⟨r, reply, h⟩
      rcases Option.bind_eq_some_iff.1 h with ⟨⟨es₁, last⟩, rest, h⟩
      cases h
      refine ⟨c, next, r, _, es₁, rfl, rfl, .inr ⟨reply, ?_⟩, rest⟩
      split
      · rename_i hl
        have worker : c.inWorker = true := (Bool.and_eq_true_iff.1 hl).2
        rcases Option.isSome_iff_exists.1 (World.perform_isSome_of_inWorker worker w) with
          ⟨⟨r', w₁⟩, lands⟩
        exact .inr ⟨worker, r', by simp [lands]⟩
      · exact .inl rfl

theorem Execution.of_replay? {ds : List (Option Bool)}
    (h : replay? ds t w = some (es, t', w')) : Execution t w es t' w' := by
  induction ds generalizing t w es with
  | nil =>
    cases h
    exact .here _ _
  | cons d ds ih =>
    rcases replay?_cons h with ⟨c, next, r, w₁, es₁, rfl, rfl, moved, rest⟩
    rcases moved with reply | ⟨reply, landed⟩
    · exact .answered reply (ih rest)
    · exact .cancelled reply landed (ih rest)

end Task
end Testbed
