import KernelDispatch.Board.Program
import KernelDispatch.Launch.Geometry
import KernelDispatch.Text.Fields

/-!
# The simulated device

The device keeps a clock for each of its queues. A launch starts when the queue
is free and takes a time that follows from its work items alone. Entry points
can be marked as failing: a launch submitted after that takes its time, but
leaves no execution behind and reports a fault.

## Main definitions

* `Timing.span` — how long a launch takes.
* `Ending` — how a launch reports back, and `Ending.await` what that means.
* `Launch` — a launch that was submitted, and `Device.bind` what is bound to it then.
* `Device.perform` — what the queue makes of it.
* `Device.submit` — a launch submitted and run to its end.
* `Device.executions` — the launches that left a trace.
-/

namespace KernelDispatch

/-- The time of a launch: a fixed part and a part for each work item, in
nanoseconds. -/
structure Timing where
  base : Nat
  perItem : Nat
deriving DecidableEq, Inhabited

/-- The longest span of time that can be told, in nanoseconds. -/
def longestSpan : Nat := (UInt64.size - 1) * 1000000000 + 999999999

/-- The time of so many work items. It is multiplied in 128 bits, held at their
largest number, and then held at the largest word. -/
def Timing.scaled (t : Timing) (items : UInt64) : Nat :=
  let wide := min (t.perItem * items.toNat) 0xFFFFFFFFFFFFFFFFFFFFFFFFFFFFFFFF
  if wide < UInt64.size then wide else maxWord.toNat

/-- How long a launch of so many work items takes. -/
def Timing.span (t : Timing) (items : UInt64) : Nat :=
  min (t.base + t.scaled items) longestSpan

/-- How a launch reports back: once, by success, by a failure with its reason,
or by a signal that is dropped without a word. -/
inductive Ending where
  | complete
  | fail (reason : String)
  | dropped
deriving DecidableEq, Inhabited

/-- What the report of a launch means for the one who waits for it. -/
def Ending.await : Ending → Result Unit
  | .complete => .ok ()
  | .fail reason => .error (.device reason)
  | .dropped => .error (.device "completion signal dropped")

/-- A finished launch as the device saw it. -/
structure Execution where
  queue : Nat
  program : String
  entryPoint : String
  args : List UInt64
  workItems : UInt64
  started : Nat
  finished : Nat
deriving DecidableEq

/-- A launch that was submitted to a queue, with all that was bound to it then. -/
structure Launch where
  queue : Nat
  kernel : Kernel
  workItems : UInt64
  span : Nat
  /-- Whether it is going to fault. -/
  faults : Bool
deriving DecidableEq

/-- How a launch reports back. -/
def Launch.ending (l : Launch) : Ending :=
  if l.faults then .fail s!"{l.kernel.entryPoint} faulted on device" else .complete

theorem Launch.ending_of_faults {l : Launch} (h : l.faults = true) :
    l.ending = .fail s!"{l.kernel.entryPoint} faulted on device" := if_pos h

theorem Launch.ending_of_runs {l : Launch} (h : l.faults = false) : l.ending = .complete :=
  if_neg (by simp [h])

/-- The execution of a launch that its queue has started at some time. -/
def Launch.execution (l : Launch) (started : Nat) : Execution :=
  { queue := l.queue, program := l.kernel.program, entryPoint := l.kernel.entryPoint
    args := l.kernel.args, workItems := l.workItems, started, finished := started + l.span }

/-- The simulated device. -/
structure Device where
  timing : Timing
  /-- Entry points whose launches fault from now on. -/
  failing : List String := []
  /-- Finished launches, oldest first. -/
  log : List Execution := []
  /-- When each queue is free again, by the number of the queue. -/
  clocks : List Nat := []
  programsLoaded : Nat := 0
  /-- No further queue can be had while this is set. -/
  refusesQueues : Bool := false

namespace Device

/-- A device on which nothing has happened yet. -/
def withTiming (timing : Timing) : Device := { timing }

instance : Inhabited Device := ⟨withTiming default⟩

/-- How many queues were created. They are numbered from zero. -/
def queuesCreated (d : Device) : Nat := d.clocks.length

/-- Every later launch of an entry point faults. -/
def failKernel (d : Device) (entryPoint : String) : Device :=
  { d with failing := entryPoint :: d.failing }

/-- One more program is loaded. -/
def countProgram (d : Device) : Device :=
  { d with programsLoaded := d.programsLoaded + 1 }

/-- The program of an image, which is counted if there is one. -/
def load (d : Device) (name : String) (image : ByteArray) : Result Program × Device :=
  match Program.load name image with
  | .ok program => (.ok program, d.countProgram)
  | .error e => (.error e, d)

/-- The number of a new queue. -/
def createQueue (d : Device) : Result (Nat × Device) :=
  if d.refusesQueues then .error (.device "no more queues")
  else .ok (d.queuesCreated, { d with clocks := d.clocks ++ [0] })

/-- When a queue is free. -/
def clock (d : Device) (queue : Nat) : Nat := d.clocks.getD queue 0

/-- What is bound to a launch when it is submitted. Whether it faults is settled by
what is marked then. -/
def bind (d : Device) (queue : Nat) (kernel : Kernel) (items : UInt64) : Launch :=
  { queue, kernel, workItems := items, span := d.timing.span items
    faults := d.failing.contains kernel.entryPoint }

/-- The device after a launch that its queue has run to its end. One that faults takes
its time, but leaves no execution. -/
def perform (d : Device) (l : Launch) : Device :=
  let started := d.clock l.queue
  { d with
    clocks := d.clocks.set l.queue (started + l.span)
    log := if l.faults then d.log else d.log ++ [l.execution started] }

theorem log_perform_of_faults (d : Device) {l : Launch} (h : l.faults = true) :
    (d.perform l).log = d.log := if_pos h

theorem log_perform_of_runs (d : Device) {l : Launch} (h : l.faults = false) :
    (d.perform l).log = d.log ++ [l.execution (d.clock l.queue)] := if_neg (by simp [h])

/-- A launch submitted and run to its end: how it reports back, how long it took, and
the device after it. -/
def submit (d : Device) (queue : Nat) (kernel : Kernel) (items : UInt64) :
    Ending × Nat × Device :=
  let l := d.bind queue kernel items
  (l.ending, l.span, d.perform l)

/-- A launch that is asked of a queue, from program and entry point to the amount
of work. -/
structure Submission where
  queue : Nat
  program : Program
  entryPoint : String
  args : List UInt64
  workItems : UInt64

/-- What becomes of a submission: it is refused if its entry point does not
compile, and else it is launched and awaited. -/
def run (d : Device) (s : Submission) : Result Unit × Device :=
  match s.program.compile s.entryPoint with
  | .error e => (.error e, d)
  | .ok kernel =>
      let (ending, _, d) := d.submit s.queue (kernel.bind s.args) s.workItems
      (ending.await, d)

/-- What becomes of these submissions, one after the other. -/
def runAll (d : Device) : List Submission → List (Result Unit) × Device
  | [] => ([], d)
  | s :: rest =>
      let (result, d) := d.run s
      let (results, d) := d.runAll rest
      (result :: results, d)

/-- The finished launches of one queue. -/
def executionsOf (d : Device) (queue : Nat) : List Execution :=
  d.log.filter fun execution => execution.queue = queue

/-- Executions of one queue are seen among those of this queue only. -/
theorem executionsOf_append {d d' : Device} {logged : List Execution} {queue : Nat}
    (hlog : d'.log = d.log ++ logged) (hqueue : ∀ e ∈ logged, e.queue = queue) (number : Nat) :
    d'.executionsOf number = d.executionsOf number ++ if queue = number then logged else [] := by
  unfold executionsOf
  rw [hlog, List.filter_append]
  congr 1
  split
  · rename_i hnumber
    exact List.filter_eq_self.2 fun e he => by simp [hqueue e he, hnumber]
  · rename_i hnumber
    exact List.filter_eq_nil_iff.2 fun e he => by simp [hqueue e he, hnumber]

/-- The finished launches, queue by queue. -/
def executions (d : Device) : List Execution :=
  (List.range d.queuesCreated).flatMap d.executionsOf

/-- A description of a queue. -/
def describeQueue (queue : Nat) : String :=
  Text.fields "SimQueue" [("id", toString queue)]

end Device

end KernelDispatch
