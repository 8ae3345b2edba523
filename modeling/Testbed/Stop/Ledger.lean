import Testbed.Stop.Capability

/-!
# The stop ledger

The capabilities of all containers that teardown has to stop, in the order in which they were
recorded, and the identities of those that have been used.  Draining hands them over newest first.
-/

namespace Testbed

/-- The recorded capabilities, oldest first. -/
structure Ledger where
  entries : List Capability := []
  deriving Repr

namespace Ledger

/-- The capability is recorded. -/
def contains (l : Ledger) (c : Capability) : Bool :=
  l.entries.any fun e => e.identity == c.identity

/-- The ledger with a capability recorded; a capability is recorded once. -/
def record (l : Ledger) (c : Capability) : Ledger :=
  if l.contains c then l else ⟨l.entries ++ [c]⟩

/-- All capabilities, newest first, and the empty ledger. -/
def drain (l : Ledger) : List Capability × Ledger := (l.entries.reverse, ⟨[]⟩)

/-- The names of the recorded capabilities. -/
def names (l : Ledger) : List String := l.entries.map Capability.name

/-- The number of recorded capabilities. -/
def size (l : Ledger) : Nat := l.entries.length

end Ledger
end Testbed
