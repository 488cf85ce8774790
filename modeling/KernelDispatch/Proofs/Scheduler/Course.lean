import KernelDispatch.Proofs.Queue.Course
import KernelDispatch.Scheduler.Blueprint
import Mathlib.Data.List.DropRight

/-!
# The course of a scheduler

The calls of clients come one after another; between any two of them, and while
one of them waits, the workers of the queues take their steps in any order. A
course is a scheduler together with what has been seen of it, and it is played by
a list of moves. Any list will do: a move that cannot be made leaves the course
as it is.

Calls that wait are not made of steps of workers. A call to wait, or the first
part of a call to finish, is one move that can be made when every queue is idle,
and the order in which it visits the queues is part of the move. A reset begins
with one move, then queues are asked to discard and their workers step until all
are closed, and one more move ends it. What asks for the queues while a reset is
under way has to wait for its end, so it is not possible in between.

## Main definitions

* `Scheduler.Move`, `Scheduler.Event` — what can be done and what is seen.
* `Scheduler.Course.play`, `Scheduler.Course.run` — the moves played.
* `Scheduler.met`, `Scheduler.recent`, `Scheduler.sinceCleared` — questions about
  the past.
-/

namespace KernelDispatch.Scheduler

/-- What clients, workers and the device may do. -/
inductive Move where
  | addConfiguration (name : String)
  | insertConfiguration (name : String) (image : ByteArray)
  | setConfiguration (name : String)
  | addTask (task : Task)
  /-- The queues are visited in this order. -/
  | wait (visit : List String)
  | finish (visit : List String)
  /-- A reset begins. -/
  | reset
  /-- The reset under way asks a queue to discard its backlog. -/
  | cancel (kernel : String)
  /-- The reset under way ends. -/
  | clear
  /-- The worker of a kernel takes its next step. -/
  | work (kernel : String)
  /-- New launches have their notices kept back, or not. -/
  | hold (on : Bool)
  /-- A notice that is kept back is let through. -/
  | release (kernel : String)
  /-- Every later launch of an entry point faults. -/
  | failKernel (entryPoint : String)
  | refuseQueues (on : Bool)
  | resetMetrics

/-- Whether a reset is under way, and which finish it belongs to: one whose
waiting has reported these faults, or none. -/
inductive Stage where
  | serving
  | resetting (finish : Option (List Error))

/-- What is seen of a scheduler. -/
inductive Event where
  | accepted (task : Task)
  | refused (task : Task)
  /-- A step of a worker, and the record of the task that it completed. -/
  | worked (kernel : String) (deed : ExecutionQueue.Deed) (record : Option CompletionRecord)
  /-- Faults were collected, with these reports. -/
  | waited (reports : List Error)
  /-- A reset has ended, be it on its own or as the end of a finish. -/
  | cleared (finish : Option (List Error))

/-- A scheduler, what it is busy with, and what has been seen of it, oldest
first. -/
structure Course where
  scheduler : Scheduler
  stage : Stage := .serving
  past : List Event := []

namespace Course

/-- Whether no reset is under way. -/
def serves (c : Course) : Bool :=
  match c.stage with
  | .serving => true
  | .resetting _ => false

/-- Whether a call that waits can go on, visiting the queues in this order. -/
def isReady (c : Course) (visit : List String) : Bool :=
  c.serves && c.scheduler.queues.values.all ExecutionQueue.isIdle &&
    visit.isPerm c.scheduler.kernels

/-- Whether every worker is gone. -/
def isClosed (c : Course) : Bool :=
  c.scheduler.queues.values.all fun q => q.phase == .closed

/-- The faults of the stopped queues, visited in this order. -/
def reports (c : Course) (visit : List String) : List Error :=
  (c.scheduler.collect (c.scheduler.faultedAmong visit)).1

/-- The course after the faults were collected. -/
def collected (c : Course) (visit : List String) (stage : Stage) : Course where
  scheduler := (c.scheduler.collect (c.scheduler.faultedAmong visit)).2
  stage
  past := c.past ++ [.waited (c.reports visit)]

/-- The course after a task was offered. -/
def offer (c : Course) (t : Task) : Course :=
  match c.scheduler.addTask t with
  | (.ok acceptance, s) =>
      { c with
        scheduler := s
        past := c.past ++ [.accepted { t with id := some acceptance.id }] }
  | (.error _, s) => { c with scheduler := s, past := c.past ++ [.refused t] }

/-- The course after the next step of a kernel's worker. -/
def work (c : Course) (kernel : String) : Course :=
  match c.scheduler.queues.get? kernel with
  | none => c
  | some queue =>
      match queue.step c.scheduler.board with
      | none => c
      | some (board, next, done) =>
          { c with
            scheduler := c.scheduler.entered kernel board next done
            past := c.past ++ [.worked kernel (queue.deed next)
              (done.bind fun t => (c.scheduler.books.conclude t).1)] }

/-- The course after a move. -/
def play (c : Course) : Move → Course
  | .addConfiguration name => { c with scheduler := (c.scheduler.addConfiguration name).2 }
  | .insertConfiguration name image =>
      { c with scheduler := (c.scheduler.insertConfiguration name image).2 }
  | .setConfiguration name =>
      if c.serves then { c with scheduler := (c.scheduler.setConfiguration name).2 } else c
  | .addTask task => if c.serves then c.offer task else c
  | .wait visit => if c.isReady visit then c.collected visit .serving else c
  | .finish visit =>
      if c.isReady visit then c.collected visit (.resetting (some (c.reports visit))) else c
  | .reset => if c.serves then { c with stage := .resetting none } else c
  | .cancel kernel =>
      if c.serves then c
      else { c with scheduler := c.scheduler.updateQueue kernel ExecutionQueue.requestDiscard }
  | .clear =>
      match c.stage with
      | .serving => c
      | .resetting finish =>
          if c.isClosed then ⟨c.scheduler.clear, .serving, c.past ++ [.cleared finish]⟩ else c
  | .work kernel => c.work kernel
  | .hold on => { c with scheduler := c.scheduler.hold on }
  | .release kernel =>
      { c with scheduler := c.scheduler.updateQueue kernel ExecutionQueue.release }
  | .failKernel entryPoint => { c with scheduler := c.scheduler.failKernel entryPoint }
  | .refuseQueues on => { c with scheduler := c.scheduler.refuseQueues on }
  | .resetMetrics => { c with scheduler := c.scheduler.resetMetrics }

/-- The course after these moves. -/
def run (c : Course) (moves : List Move) : Course := moves.foldl play c

theorem run_append (c : Course) (moves moves' : List Move) :
    c.run (moves ++ moves') = (c.run moves).run moves' := List.foldl_append

/-- The course of a new scheduler. -/
def ofBlueprint (p : Blueprint) (device : Device) (directory : Directory)
    (moves : List Move) : Course :=
  run { scheduler := p.assemble device directory } moves

end Course

/-! ## Questions about the past -/

/-- The tasks that meet a fate in an event, in their order. -/
def Event.tasks : ExecutionQueue.Fate → Event → List Task
  | .accepted, .accepted task => [task]
  | fate, .worked _ deed _ => deed.tasks fate
  | _, _ => []

/-- The tasks that have met a fate on any queue, in the order in which they met
it. -/
def met (fate : ExecutionQueue.Fate) (past : List Event) : List Task :=
  past.flatMap (Event.tasks fate)

/-- The queue that a fault has stopped in an event, by its kernel, and the tasks
that were dropped by it. -/
def Event.stop? : Event → Option (String × List Task)
  | .worked kernel deed _ => deed.stop?.map fun dropped => (kernel, dropped)
  | _ => none

/-- The queues that faults have stopped, and what they have dropped. -/
def stops (past : List Event) : List (String × List Task) := past.filterMap Event.stop?

/-- Whether faults are collected, or queues thrown away, in an event. -/
def Event.collects : Event → Bool
  | .waited _ | .cleared _ => true
  | _ => false

/-- Whether everything begins anew with an event. -/
def Event.clears : Event → Bool
  | .cleared _ => true
  | _ => false

/-- What has been seen since faults were collected or queues thrown away. -/
def recent (past : List Event) : List Event := past.rtakeWhile fun e => !e.collects

/-- What has been seen since the last reset. -/
def sinceCleared (past : List Event) : List Event := past.rtakeWhile fun e => !e.clears

@[simp] theorem met_snoc (fate : ExecutionQueue.Fate) (past : List Event) (e : Event) :
    met fate (past ++ [e]) = met fate past ++ e.tasks fate := by
  simp [met]

@[simp] theorem stops_snoc (past : List Event) (e : Event) :
    stops (past ++ [e]) = stops past ++ e.stop?.toList := by
  cases h : e.stop? <;> simp [stops, h]

@[simp] theorem recent_snoc (past : List Event) (e : Event) :
    recent (past ++ [e]) = if e.collects then [] else recent past ++ [e] := by
  unfold recent
  rw [List.rtakeWhile_concat]
  cases e.collects <;> rfl

@[simp] theorem sinceCleared_snoc (past : List Event) (e : Event) :
    sinceCleared (past ++ [e]) = if e.clears then [] else sinceCleared past ++ [e] := by
  unfold sinceCleared
  rw [List.rtakeWhile_concat]
  cases e.clears <;> rfl

end KernelDispatch.Scheduler
