import Testbed.Fault.Basic

/-!
# Lifecycle phases

The phases of an environment and the transitions between them.  `advance` refuses every transition
outside the table.
-/

namespace Testbed

/-- A phase of the lifecycle. -/
inductive Phase where
  | uninitialized
  | initializing
  | ready
  | tearingDown
  | stopped
  | failed
  deriving Repr, DecidableEq

namespace Phase

/-- All phases. -/
def all : List Phase := [uninitialized, initializing, ready, tearingDown, stopped, failed]

/-- The word for a phase. -/
def word : Phase → String
  | uninitialized => "uninitialized"
  | initializing => "initializing"
  | ready => "ready"
  | tearingDown => "tearing_down"
  | stopped => "stopped"
  | failed => "failed"

/-- The phase that a word stands for. -/
def ofWord? (w : String) : Option Phase := all.find? fun p => p.word == w

/-- The phases that may follow. -/
def next : Phase → List Phase
  | uninitialized => [initializing]
  | initializing => [ready, failed]
  | ready => [tearingDown]
  | tearingDown => [stopped]
  | stopped | failed => []

/-- No phase follows. -/
def isTerminal : Phase → Bool
  | stopped | failed => true
  | _ => false

/-- The error of a refused transition. -/
def refused (source target : Phase) : Fault :=
  .environment { cause := .invalidTransition (some source.word) (some target.word) }

end Phase

/-- The current phase and all phases so far. -/
structure PhaseHistory where
  phase : Phase := .uninitialized
  visited : List Phase := [.uninitialized]
  deriving Repr, DecidableEq

namespace PhaseHistory

/-- The history after a transition, if the table allows it. -/
def advance (h : PhaseHistory) (target : Phase) : Except Fault PhaseHistory :=
  if h.phase.next.contains target then .ok ⟨target, h.visited ++ [target]⟩
  else .error (Phase.refused h.phase target)

/-- The log text of a transition. -/
def notice (h : PhaseHistory) (target : Phase) : String :=
  s!"Phase {h.phase.word} -> {target.word}"

end PhaseHistory
end Testbed
