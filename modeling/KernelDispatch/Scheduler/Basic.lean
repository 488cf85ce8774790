import KernelDispatch.Queue.Worker
import KernelDispatch.Scheduler.Books
import KernelDispatch.Settings

/-!
# The scheduler

A scheduler keeps one queue for each kernel name that it was given tasks for,
the configurations that are loaded, the one of them that is current, and the
books. Its operations are functions from one scheduler to the next. They fall
in two groups: what clients ask for, here, and what the workers of the queues
do, in `Scheduler.Workers`.

Registration is for ever. The first configuration loaded under a name keeps the
name, and the very first becomes the current one. Making another one current
rebinds every queue, and with them all tasks that no worker has taken yet.

Numbers are given to tasks in the order in which they are offered while there is
a current configuration, whether or not the task is taken in the end.

## Main definitions

* `Scheduler` — the state.
* `Scheduler.addConfiguration`, `Scheduler.setConfiguration` — registration.
* `Scheduler.addTask` — acceptance or refusal of a task.
* `Scheduler.collectFaults` — the removal of queues that a fault has stopped.
-/

namespace KernelDispatch

/-- Queues by kernel, loaded configurations, and the books. -/
structure Scheduler where
  settings : Settings
  board : Board
  /-- The configuration that new tasks are made against. -/
  current : Option String := none
  queues : NameMap ExecutionQueue := .empty
  /-- The number of the next task. It grows by one for each task that is offered, so a word
  and a number are the same until 2⁶⁴ tasks have been offered since the last reset. -/
  nextId : Nat := 0
  books : Books

namespace Scheduler

/-! ## Registration -/

/-- The scheduler with a configuration registered under its name, which becomes
the current one if there was none. -/
def register (s : Scheduler) (c : Configuration) : Scheduler :=
  { s with
    board := s.board.keep c
    current := some (s.current.getD c.name)
    books := s.books.withModel c.name }

/-- Loads the image that is kept for a name, unless the name is registered. -/
def addConfiguration (s : Scheduler) (name : String) : Result Unit × Scheduler :=
  if s.board.configurations.contains name then (.ok (), s)
  else
    let path := s.settings.imagePath name
    match s.books.directory.read? path with
    | none => (.error (.configuration s!"cannot read {path}"), s)
    | some image =>
        match s.board.load name image with
        | .error e => (.error e, s)
        | .ok (c, board) => (.ok (), { s with board }.register c)

/-- Registers an image under a name and answers with the configuration that the
name now has: an earlier one stays. -/
def insertConfiguration (s : Scheduler) (name : String) (image : ByteArray) :
    Result Configuration × Scheduler :=
  match s.board.load name image with
  | .error e => (.error e, s)
  | .ok (c, board) =>
      match board.configurations.get? name with
      | some earlier => (.ok earlier, { s with board })
      | none => (.ok c, { s with board }.register c)

/-- Makes a registered configuration the current one and binds every queue to
it. -/
def setConfiguration (s : Scheduler) (name : String) : Result Unit × Scheduler :=
  if s.board.configurations.contains name then
    (.ok (),
      { s with
        current := some name
        queues := s.queues.map fun q => q.setProgram name })
  else (.error (.unknownConfiguration name), s)

/-- The names of the registered configurations, in order. -/
def configurationNames (s : Scheduler) : List String := s.board.configurations.names

/-- A registered configuration. -/
def configuration? (s : Scheduler) (name : String) : Option Configuration :=
  s.board.configurations.get? name

/-! ## Tasks -/

/-- The cost of all pending tasks by the model of a configuration. -/
def queuedCostUnder (s : Scheduler) (configuration : String) : Float32 :=
  let model := s.books.model configuration
  Scalar.sum <| s.queues.values.map fun q =>
    q.pendingCost fun t => model.cost t.kernel t.workItems

/-- The cost of all pending tasks by the current model. -/
def queuedCost (s : Scheduler) : Float32 :=
  match s.current with
  | some name => s.queuedCostUnder name
  | none => 0.0

/-- The queue of a kernel, made now if there is none. -/
def queueFor (s : Scheduler) (kernel program : String) : Result (ExecutionQueue × Scheduler) :=
  match s.queues.get? kernel with
  | some queue => .ok (queue, s)
  | none =>
      s.board.device.createQueue.map fun (number, device) =>
        let queue := ExecutionQueue.start kernel number program
        (queue, { s with board := { s.board with device }, queues := s.queues.insert kernel queue })

/-- An accepted task: its number, and the queued cost if costs are logged. -/
structure Acceptance where
  id : Nat
  loggedCost : Option Float32

/-- Numbers a task and puts it on the queue of its kernel. -/
def addTask (s : Scheduler) (t : Task) : Result Acceptance × Scheduler :=
  match s.current with
  | none => (.error .noConfiguration, s)
  | some program =>
      let id := s.nextId
      let s := { s with nextId := s.nextId + 1 }
      match s.queueFor t.kernel program with
      | .error e => (.error e, s)
      | .ok (queue, s) =>
          match queue.enqueue { t with id := some id } with
          | .error e => (.error e, s)
          | .ok queue =>
              let s :=
                { s with
                  queues := s.queues.insert t.kernel queue
                  books := { s.books with metrics := s.books.metrics.recordSubmitted } }
              let loggedCost :=
                if s.settings.logCosts then some (s.queuedCostUnder program) else none
              (.ok { id, loggedCost }, s)

/-! ## Faults -/

/-- What is reported of a queue that a fault has stopped. -/
def stopReport (kernel fault : String) : Error :=
  .device s!"queue {kernel} stopped: {fault}"

/-- The queues of these kernels that a fault has stopped, with the reports of
their faults. -/
def faultedAmong (s : Scheduler) (kernels : List String) :
    List (String × ExecutionQueue × String) :=
  kernels.filterMap fun kernel =>
    (s.queues.get? kernel).bind fun queue => queue.fault.map fun fault => (kernel, queue, fault)

/-- The queues that a fault has stopped, in the order of their kernels. -/
def faulted (s : Scheduler) : List (String × ExecutionQueue × String) :=
  s.faultedAmong s.queues.names

/-- The scheduler without a queue that a fault has stopped; the fault and the
tasks dropped by it enter the metrics. -/
def removeFaulted (s : Scheduler) (kernel : String) (queue : ExecutionQueue) : Scheduler :=
  let metrics := s.books.metrics.recordDeviceFault.recordDropped (UInt64.ofNat queue.dropped)
  { s with queues := s.queues.erase kernel, books := { s.books with metrics } }

/-- The reports of stopped queues, and the scheduler without them. -/
def collect (s : Scheduler) (stopped : List (String × ExecutionQueue × String)) :
    List Error × Scheduler :=
  (stopped.map fun (kernel, _, fault) => stopReport kernel fault,
    stopped.foldl (fun s (kernel, queue, _) => s.removeFaulted kernel queue) s)

/-- Removes every queue that a fault has stopped and reports them in the order
of their kernels. -/
def collectFaults (s : Scheduler) : List Error × Scheduler := s.collect s.faulted

/-! ## Outside intervention -/

/-- Every later launch of an entry point faults. -/
def failKernel (s : Scheduler) (entryPoint : String) : Scheduler :=
  { s with board := s.board.failKernel entryPoint }

/-- The device makes no further queue, or makes them again. -/
def refuseQueues (s : Scheduler) (on : Bool) : Scheduler :=
  { s with board := { s.board with device := { s.board.device with refusesQueues := on } } }

/-- All accounts begin anew. -/
def resetMetrics (s : Scheduler) : Scheduler :=
  { s with books := { s.books with metrics := Metrics.startingAt 0 } }

/-! ## Questions -/

/-- The model of the current configuration. -/
def currentModel (s : Scheduler) : Result CostModel :=
  match s.current with
  | some name => .ok (s.books.model name)
  | none => .error .noConfiguration

/-- The cost of a task under the current configuration. -/
def cost (s : Scheduler) (t : Task) : Result Float32 :=
  s.currentModel.map fun m => m.cost t.kernel t.workItems

/-- The estimates for a task under the current configuration. -/
def predict (s : Scheduler) (t : Task) : Result (Prediction Float) :=
  s.currentModel.map fun m => m.predict t.kernel t.workItems

/-- The line through the measurements of a kernel under the current
configuration. -/
def line (s : Scheduler) (kernel : String) : Result (Line Float) :=
  match s.currentModel with
  | .ok m => m.line kernel
  | .error e => .error e

/-- How many measurements of a kernel the current configuration has. -/
def sampleCount (s : Scheduler) (kernel : String) : Nat :=
  match s.currentModel with
  | .ok m => (m.samples kernel).length
  | .error _ => 0

/-- The text of the measurement log, if one is written and it is a text. -/
def logText? (s : Scheduler) : Option String := do
  let path ← s.settings.measurementLog
  let bytes ← s.books.directory.read? path
  String.fromUTF8? bytes

/-- The records of the measurement log, or why they cannot be had. -/
def logRecords (s : Scheduler) : Result (List CompletionRecord) :=
  MeasurementLog.read s.books.directory (s.settings.measurementLog.getD "")

/-- The kernels that have a queue, in order. -/
def kernels (s : Scheduler) : List String := s.queues.names

/-- Tasks pending or in hand, over all queues. -/
def pending (s : Scheduler) : Nat := s.queues.total ExecutionQueue.size

/-- A description of the scheduler. -/
def describe (s : Scheduler) : String :=
  Text.fields "Scheduler"
    [("configurations", Text.listing (s.configurationNames.map Text.quoted)),
     ("current", Text.optional (s.current.map Text.quoted)),
     ("queues", toString s.queues.size),
     ("observers", toString s.books.observers.length)]

end Scheduler

end KernelDispatch
