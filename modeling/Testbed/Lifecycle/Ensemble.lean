import Testbed.Lifecycle.Step

/-!
# Environments that share a registry

The environments of a process can be built on one registry, and by default they are.  Each has a
runtime, a ledger and phases of its own (`Holdings`), and nothing in the registry says whose an
entry is.  They move in any order; and whoever has the registry can store a value.
-/

namespace Testbed

/-- Environments that share a world, and with it the registry. -/
structure Ensemble where
  world : World
  members : List Lifecycle

namespace Ensemble

/-- What happens next: one of the environments takes an action, or somebody else stores a value. -/
inductive Event where
  | act (i : Nat) (a : Lifecycle.Action)
  | store (key : String) (value : Entry)

/-- The i-th environment, in the world that it shares. -/
def member? (g : Ensemble) (i : Nat) : Option Lifecycle :=
  g.members[i]?.map fun l => l.adopt g.world

/-- The ensemble after an event; none if the event cannot happen. -/
def next? (g : Ensemble) : Event → Option Ensemble
  | .act i a => do
    let l ← g.member? i
    let n ← l.act? a
    pure ⟨n.world, g.members.set i n⟩
  | .store key value => some { g with world := (Lifecycle.store g.world key value).2 }

end Ensemble
end Testbed
