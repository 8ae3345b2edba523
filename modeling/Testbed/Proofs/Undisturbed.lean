import Testbed.Proofs.Execution

/-!
# Undisturbed runs

How a run that nothing disturbs is put together and taken apart.  There is at most one such run
of a program in a world; a run of one program after another is a run of the first and then one of
the second, and work that ends well has ended well in each of its parts.
-/

namespace Testbed

namespace Task

variable {α β : Type} {w w' w₁ w₂ : World} {es es₁ es₂ : List Exchange}

/-! ## Single calls -/

theorem Ends.perform {c : Call} {r : c.Reply} (reply : w.perform c = some (r, w')) :
    Ends (Program.perform c) w [⟨c, r⟩] r w' :=
  .call reply (.done r w')

theorem Ends.ask {c : Call} {r : c.Reply} (reply : w.perform c = some (r, w')) :
    Ends (Work.ask c).run w [⟨c, r⟩] (.ok r) w' :=
  .call reply (.done _ w')

theorem Ends.log (level : Level) (text : String) (w : World) :
    Ends (Work.log level text).run w [⟨.log level text, ()⟩] (.ok ()) (w.say level text) :=
  .ask rfl

theorem Ends.ofExcept (r : Except Fault α) (w : World) : Ends (Work.ofExcept r).run w [] r w :=
  .done r w

/-- A program all of whose calls are answered comes to an end. -/
theorem Follows.ends {P : Call → Prop} {Q : Unit → α → Prop} {t : Task α}
    (h : Follows (Rule.only P) Q t ())
    (answered : ∀ (w : World) (c : Call), P c → ∃ r w', w.perform c = some (r, w')) (w : World) :
    ∃ es a w', Ends t w es a w' ∧ Q () a := by
  induction t generalizing w with
  | done a => exact ⟨[], a, w, .done a w, h⟩
  | call c next ih =>
    obtain ⟨r, w₁, reply⟩ := answered w c h.1
    obtain ⟨es, a, w', ends, fits⟩ := ih r (h.2 r) w₁
    exact ⟨_, a, w', .call reply ends, fits⟩

/-! ## Inversion -/

/-- A run of one program after another is a run of both. -/
theorem Ends.split {t : Task α} {f : α → Task β} {b : β} (h : Ends (t.bind f) w es b w') :
    ∃ es₁ a w₁ es₂, es = es₁ ++ es₂ ∧ Ends t w es₁ a w₁ ∧ Ends (f a) w₁ es₂ b w' := by
  induction t generalizing w es with
  | done a => exact ⟨[], a, w, es, rfl, .done a w, h⟩
  | call c next ih =>
    cases h with
    | call reply rest =>
      obtain ⟨es₁, a, w₁, es₂, rfl, first, second⟩ := ih _ rest
      exact ⟨_ :: es₁, a, w₁, es₂, rfl, .call reply first, second⟩

theorem Ends.eq_done {a b : α} (h : Ends (.done a) w es b w') : es = [] ∧ b = a ∧ w' = w := by
  cases h
  exact ⟨rfl, rfl, rfl⟩

theorem Ends.of_call {c : Call} {next : c.Reply → Task α} {a : α}
    (h : Ends (.call c next) w es a w') :
    ∃ r w₁ rest, es = ⟨c, r⟩ :: rest ∧ w.perform c = some (r, w₁) ∧ Ends (next r) w₁ rest a w' := by
  cases h with
  | call reply rest => exact ⟨_, _, _, rfl, reply, rest⟩

/-- There is one undisturbed run at most. -/
theorem Ends.unique {t : Task α} {a b : α} (h : Ends t w es₁ a w₁) (h' : Ends t w es₂ b w₂) :
    es₁ = es₂ ∧ a = b ∧ w₁ = w₂ := by
  -- By induction on the run: a call has one reply in one world.
  induction h generalizing es₂ with
  | done => exact ⟨h'.eq_done.1.symm, h'.eq_done.2.1.symm, h'.eq_done.2.2.symm⟩
  | call reply _ ih =>
    obtain ⟨r, w', rest, rfl, reply', h'⟩ := h'.of_call
    cases reply.symm.trans reply'
    obtain ⟨rfl, same⟩ := ih h'
    exact ⟨rfl, same⟩

section

variable {work : Work α} {f : α → Work β} {r : Except Fault β} {b : β}

/-- Work that ends well has ended well in both of its parts. -/
theorem Ends.peel (h : Ends (work >>= f).run w es (.ok b) w') :
    ∃ es₁ a w₁ es₂, es = es₁ ++ es₂ ∧ Ends work.run w es₁ (.ok a) w₁ ∧
      Ends (f a).run w₁ es₂ (.ok b) w' := by
  obtain ⟨es₁, a, w₁, es₂, rfl, first, second⟩ := h.split
  cases a with
  | ok a => exact ⟨es₁, a, w₁, es₂, rfl, first, second⟩
  | error e => cases second.eq_done.2.1

theorem Ends.of_ask {c : Call} {a : c.Reply} (h : Ends (Work.ask c).run w es (.ok a) w') :
    es = [⟨c, a⟩] ∧ w.perform c = some (a, w') := by
  obtain ⟨r, w₁, rest, rfl, reply, h⟩ := h.of_call
  obtain ⟨rfl, same, rfl⟩ := h.eq_done
  cases same
  exact ⟨rfl, reply⟩

theorem Ends.of_ofExcept {r r' : Except Fault α} (h : Ends (Work.ofExcept r).run w es r' w') :
    es = [] ∧ r' = r ∧ w' = w :=
  h.eq_done

theorem Ends.of_engine {request : Engine.Request} {a : Except Fault request.Reply}
    (h : Ends (Work.engine request).run w es a w') : es = [⟨.engine request, a⟩] := by
  obtain ⟨r, w₁, rest, rfl, -, h⟩ := h.of_call
  obtain ⟨rfl, rfl, -⟩ := h.eq_done
  rfl

/-- Work that ends well with its errors handled has ended well itself, or in the handler. -/
theorem Ends.of_handle {work : Work α} {caught : Fault → Bool} {handler : Fault → Work α} {a : α}
    (h : Ends (Work.handle caught work handler).run w es (.ok a) w') :
    Ends work.run w es (.ok a) w' ∨
      ∃ f es₁ w₁ es₂, es = es₁ ++ es₂ ∧ Ends work.run w es₁ (.error f) w₁ ∧ caught f = true ∧
        Ends (handler f).run w₁ es₂ (.ok a) w' := by
  obtain ⟨es₁, r, w₁, es₂, rfl, first, second⟩ := h.split
  cases r with
  | ok b =>
    obtain ⟨rfl, same, rfl⟩ := second.eq_done
    cases same
    rw [List.append_nil]
    exact .inl first
  | error f =>
    cases hc : caught f with
    | true =>
      simp only [hc, if_true] at second
      exact .inr ⟨f, es₁, w₁, es₂, rfl, first, hc, second⟩
    | false =>
      simp only [hc, Bool.false_eq_true, if_false] at second
      cases second.eq_done.2.1

end
end Task
end Testbed
