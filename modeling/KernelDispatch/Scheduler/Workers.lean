import KernelDispatch.Scheduler.Basic

/-!
# The workers of a scheduler

Every queue has a worker, and any worker may take its next step at any time. A
step that completes a task also enters it into the books; steps of different
queues touch nothing else in common but the board.

The operations that wait are built from such steps. `settle` lets one worker
step until it has none left, `wait` lets all of them run their backlogs out and
collects the faults, and `reset` cancels every queue and begins anew.

## Main definitions

* `Scheduler.step` — the next step of one worker.
* `Scheduler.settle` — one worker at rest.
* `Scheduler.wait`, `Scheduler.finish`, `Scheduler.reset`.
-/

namespace KernelDispatch.Scheduler

/-- The scheduler in which a step of a kernel's worker is entered: the board and
the queue after it, and the books with the task that it completed. -/
def entered (s : Scheduler) (kernel : String) (board : Board) (queue : ExecutionQueue)
    (done : Option Task) : Scheduler :=
  { s with
    board
    queues := s.queues.insert kernel queue
    books := match done with
      | none => s.books
      | some t => s.books.complete t }

/-- The scheduler after the next step of a kernel's worker, if it has one. -/
def step (s : Scheduler) (kernel : String) : Option Scheduler :=
  match s.queues.get? kernel with
  | none => none
  | some queue =>
      match queue.step s.board with
      | none => none
      | some (board, queue, done) => some (s.entered kernel board queue done)

/-- A bound on the steps of a kernel's worker. -/
def burden (s : Scheduler) (kernel : String) : Nat :=
  ((s.queues.get? kernel).map ExecutionQueue.burden).getD 0

/-- Each step of a worker lowers the burden of its kernel. -/
theorem burden_lt_of_step {s s' : Scheduler} {kernel : String} (h : s.step kernel = some s') :
    s'.burden kernel < s.burden kernel := by
  unfold step at h
  split at h
  · simp at h
  · rename_i queue hqueue
    split at h
    · simp at h
    · rename_i board queue' done hstep
      injection h with h
      subst h
      simpa [burden, entered, hqueue] using ExecutionQueue.burden_lt_of_step hstep

/-- The scheduler with a kernel's worker at rest. -/
def settle (s : Scheduler) (kernel : String) : Scheduler :=
  match _h : s.step kernel with
  | none => s
  | some next => settle next kernel
termination_by s.burden kernel
decreasing_by exact burden_lt_of_step ‹_›

/-- The scheduler with these workers at rest, one after the other. -/
def settleAll (s : Scheduler) (kernels : List String) : Scheduler :=
  kernels.foldl settle s

/-- The scheduler with every worker at rest. -/
def settled (s : Scheduler) : Scheduler := s.settleAll s.kernels

/-- The scheduler with the queue of a kernel changed, if it has one. -/
def updateQueue (s : Scheduler) (kernel : String) (f : ExecutionQueue → ExecutionQueue) :
    Scheduler :=
  match s.queues.get? kernel with
  | some queue => { s with queues := s.queues.insert kernel (f queue) }
  | none => s

/-! ## Notices that are kept back -/

/-- New launches have their notices kept back, or not. -/
def hold (s : Scheduler) (on : Bool) : Scheduler :=
  { s with board := { s.board with holding := on } }

/-- Whether the notice of a kernel's launch is kept back. -/
def holdsNotice (s : Scheduler) (kernel : String) : Bool :=
  ((s.queues.get? kernel).map ExecutionQueue.holdsNotice).getD false

/-- The notice of a kernel's launch let through; whether there was one. -/
def release (s : Scheduler) (kernel : String) : Bool × Scheduler :=
  (s.holdsNotice kernel, (s.updateQueue kernel ExecutionQueue.release).settle kernel)

/-- The backlog of a kernel run with no notice kept back. -/
def runBacklog (s : Scheduler) (kernel : String) : Scheduler :=
  let held := s.board.holding
  (((s.hold false).updateQueue kernel ExecutionQueue.release).settle kernel).hold held

/-- The backlogs of all kernels with a notice kept back, run one after the
other. -/
def releaseAll (s : Scheduler) : Scheduler :=
  (s.kernels.filter s.holdsNotice).foldl runBacklog s

/-! ## Operations that wait -/

/-- Runs every backlog out, then removes the queues that a fault has stopped and
reports them. -/
def wait (s : Scheduler) : List Error × Scheduler := s.releaseAll.settled.collectFaults

/-- Cancels the queue of a kernel: its backlog is dropped, and the launch in
flight is let through. -/
def cancel (s : Scheduler) (kernel : String) : Scheduler :=
  (s.updateQueue kernel fun q => q.requestDiscard.release).settle kernel

/-- The scheduler without queues and measurements, numbering tasks from zero
again. What the queues have dropped enters the metrics; registered
configurations and the current one stay. -/
def clear (s : Scheduler) : Scheduler :=
  let dropped := s.queues.total ExecutionQueue.dropped
  let books := s.books.freshModels s.configurationNames
  { s with
    queues := .empty
    nextId := 0
    books := { books with metrics := books.metrics.recordDropped (UInt64.ofNat dropped) } }

/-- Cancels every queue and begins anew. -/
def reset (s : Scheduler) : Scheduler := (s.kernels.foldl cancel s).clear

/-- Waits and resets, whatever the waiting has reported. -/
def finish (s : Scheduler) : List Error × Scheduler :=
  let (faults, s) := s.wait
  (faults, s.reset)

/-- What a list of faults means for the caller: the first of them. -/
def verdict : List Error → Result Unit
  | [] => .ok ()
  | e :: _ => .error e

end KernelDispatch.Scheduler
