import Mathlib.Tactic

/-!
# Shared runtime types

The status codes and component states used across the platform, and the identities that stand for
the addresses of its long-lived objects.
-/

namespace CodexNos

/-- Result codes of the platform calls (`nos_status_t`). -/
inductive Status
  | ok
  | err
  | errNomem
  | errNotFound
  | errBusy
  | errTimeout
  deriving DecidableEq, Repr

/-- Life-cycle state of a component instance (`nos_comp_status_t`). -/
inductive CompStatus
  | loaded
  | inited
  | active
  | stopped
  | error
  deriving DecidableEq, Repr

/-- Address of a component instance. -/
abbrev CompRef := Nat

/-- Address of a scheduler thread. -/
abbrev ThreadRef := Nat

/-- Address of a timer object. -/
abbrev TimerRef := Nat

/-- Number of places of a message queue (`MAX_QUEUE_SIZE`). -/
def maxQueueSize : Nat := 1024

theorem maxQueueSize_pos : 0 < maxQueueSize := by decide

/-- Number of components that fit on a thread (`MAX_COMP_PER_THREAD`). -/
def maxCompPerThread : Nat := 32

end CodexNos
