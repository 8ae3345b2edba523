import Testbed.Fault.Basic

/-!
# Programs

A program either is done with a value or makes a call and goes on with the reply.  The type of a
reply depends on the call.  What calls do is fixed elsewhere: a program can be run against a world,
cut off at a deadline or cancelled without being changed.
-/

namespace Testbed

/-- A program that makes calls and ends with a value. -/
inductive Program (Call : Type) (Reply : Call → Type) (α : Type) : Type where
  | done (value : α)
  | call (c : Call) (next : Reply c → Program Call Reply α)

namespace Program

variable {Call : Type} {Reply : Call → Type} {α β γ : Type}

/-- One program after another. -/
def bind : Program Call Reply α → (α → Program Call Reply β) → Program Call Reply β
  | done a, f => f a
  | call c next, f => call c fun r => (next r).bind f

instance : Monad (Program Call Reply) where
  pure := done
  bind := bind

theorem bind_done (t : Program Call Reply α) : t.bind done = t := by
  induction t with
  | done a => rfl
  | call c next ih => exact congrArg (call c) (funext ih)

theorem bind_assoc (t : Program Call Reply α) (f : α → Program Call Reply β)
    (g : β → Program Call Reply γ) : (t.bind f).bind g = t.bind fun a => (f a).bind g := by
  induction t with
  | done a => rfl
  | call c next ih => exact congrArg (call c) (funext ih)

instance : LawfulMonad (Program Call Reply) :=
  .mk' _ bind_done (fun _ _ => rfl) bind_assoc

/-- The program that makes one call. -/
def perform (c : Call) : Program Call Reply (Reply c) := call c done

end Program
end Testbed
