import KernelDispatch.Board.Basic
import KernelDispatch.Number.Scalar
import KernelDispatch.Queue.Phase

/-!
# Execution queues

A queue runs the tasks of one kernel in the order in which it accepted them,
one at a time. It is a value: what its clients do and what its worker does are
functions from a queue to the next one, and any mixture of them is a sequence
of such steps.

This module holds what clients do. A client appends tasks, rebinds the program
for the tasks not yet taken, and asks the queue to close: with `drain` the
backlog is run first, with `discard` it is dropped. None of these moves the
phase; that is the worker's part.

## Main definitions

* `ExecutionQueue` — the state of a queue.
* `ExecutionQueue.enqueue` — acceptance or refusal of a task.
* `ExecutionQueue.burden` — a bound on the moves the worker still has.
-/

namespace KernelDispatch

/-- How a queue is asked to close. -/
inductive Shutdown where
  /-- Run the backlog first. -/
  | drain
  /-- Drop the backlog. -/
  | discard
deriving DecidableEq, Inhabited

/-- What the worker of a queue has in its hands. -/
inductive Hand where
  | empty
  /-- A task taken off the backlog, and the program that was bound then. -/
  | taken (task : Task) (program : String)
  /-- A launched task, and the notice that is awaited. -/
  | launched (task : Task) (notice : Notice)
  /-- A completed task whose callback is running. -/
  | reporting (task : Task)
deriving DecidableEq, Inhabited

/-- The in-order queue of one kernel. -/
structure ExecutionQueue where
  kernel : String
  /-- The queue's number on the device. -/
  deviceQueue : Nat
  /-- The configuration that tasks taken from now on are made against. -/
  program : String
  phase : Phase := .idle
  pending : List Task := []
  hand : Hand := .empty
  shutdown : Option Shutdown := none
  /-- Each task counts at most once here or in `dropped`, so words and numbers are the same
  until the queue has taken 2⁶⁴ tasks. The counters of `Metrics` can be told any number, and
  are words. -/
  completed : Nat := 0
  dropped : Nat := 0
  /-- The report of the error that stopped the worker, if one did. -/
  fault : Option String := none
deriving DecidableEq, Inhabited

namespace ExecutionQueue

/-- A new queue, bound to a program. -/
def start (kernel : String) (deviceQueue : Nat) (program : String) : ExecutionQueue :=
  { kernel, deviceQueue, program }

/-- Whether the queue takes no more tasks. -/
def isClosing (q : ExecutionQueue) : Bool :=
  q.shutdown.isSome || q.phase == .closed

/-- The queue with a task at its end, unless it is closing or closed. -/
def enqueue (q : ExecutionQueue) (t : Task) : Result ExecutionQueue :=
  if q.isClosing then .error (.queueClosed q.kernel)
  else .ok { q with pending := q.pending ++ [t] }

/-- The queue bound to another program. Tasks already taken keep theirs. -/
def setProgram (q : ExecutionQueue) (program : String) : ExecutionQueue :=
  { q with program }

/-- The queue asked to close after its backlog; a request made before stands. -/
def requestDrain (q : ExecutionQueue) : ExecutionQueue :=
  { q with shutdown := some (q.shutdown.getD .drain) }

/-- The queue asked to close and drop its backlog, whatever was asked before. -/
def requestDiscard (q : ExecutionQueue) : ExecutionQueue :=
  { q with shutdown := some .discard }

/-- Whether the report of a launch is kept back. -/
def holdsNotice (q : ExecutionQueue) : Bool :=
  match q.hand with
  | .launched _ notice => notice.held
  | _ => false

/-- The queue with the report of its launch let through. -/
def release (q : ExecutionQueue) : ExecutionQueue :=
  match q.hand with
  | .launched task notice => { q with hand := .launched task { notice with held := false } }
  | _ => q

/-- Tasks not yet completed: those pending, and the one in hand. -/
def size (q : ExecutionQueue) : Nat :=
  q.pending.length + if q.phase.isBusy then 1 else 0

/-- Whether nothing is pending and nothing is in hand. -/
def isIdle (q : ExecutionQueue) : Bool := q.pending.isEmpty && !q.phase.isBusy

/-- The cost of the pending tasks, added up in their order. -/
def pendingCost (q : ExecutionQueue) (cost : Task → Float32) : Float32 :=
  Scalar.sum (q.pending.map cost)

/-- A bound on the moves that the worker still has without further tasks: four
for each pending task, those ahead of the task in hand, and one to close. -/
def burden (q : ExecutionQueue) : Nat :=
  4 * q.pending.length + q.phase.movesLeft + if q.phase = .closed then 0 else 1

/-- A description of a queue. -/
def describe (q : ExecutionQueue) : String :=
  Text.fields "ExecutionQueue"
    [("kernel_name", Text.quoted q.kernel), ("state", q.phase.name),
     ("pending", toString q.pending.length), ("program", Text.quoted q.program),
     ("completed", toString q.completed)]

end ExecutionQueue

end KernelDispatch
