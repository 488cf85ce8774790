import KernelDispatch.Json.Writer
import KernelDispatch.Number.Time
import KernelDispatch.Telemetry.Histogram
import KernelDispatch.Telemetry.Record

/-!
# Metrics

Counters, the histogram of durations and the summed errors of the estimates,
since the start or the last reset. Counters are machine words and wrap.

A completed task is counted before its duration is looked at. A duration that no
span can hold stops there: the task stays counted, and nothing else moves.

## Main definitions

* `Metrics` — what is kept.
* `Metrics.recordCompletion` — the account of one completed task.
* `Metrics.snapshot` — everything that is reported, at one moment.
-/

namespace KernelDispatch

/-- The summed distance of one kind of estimate from what was observed. -/
structure ErrorSum where
  total : Float := 0.0

/-- The sum with the distance between an estimate and what was observed. -/
def ErrorSum.add (s : ErrorSum) (estimate actual : Float) : ErrorSum :=
  ⟨s.total + (estimate - actual).abs⟩

/-- The mean of a sum over `n` tasks, if there are any. -/
def ErrorSum.mean (s : ErrorSum) (n : UInt64) : Option Float :=
  if n = 0 then none else some (s.total / n.toFloat)

/-- What is kept about a run. -/
structure Metrics where
  submitted : UInt64 := 0
  completed : UInt64 := 0
  dropped : UInt64 := 0
  deviceFaults : UInt64 := 0
  durations : Histogram := {}
  onlineError : ErrorSum := {}
  offlineError : ErrorSum := {}
  hybridError : ErrorSum := {}
  /-- How many completed tasks had an estimate on the line. -/
  onlineSamples : UInt64 := 0
  /-- The moment from which time is counted, in nanoseconds. -/
  startedAt : Nat := 0

namespace Metrics

/-- Metrics of a run that starts now. -/
def startingAt (now : Nat) : Metrics := { startedAt := now }

instance : Inhabited Metrics := ⟨startingAt 0⟩

/-- One more accepted task. -/
def recordSubmitted (m : Metrics) : Metrics := { m with submitted := m.submitted + 1 }

/-- So many more discarded tasks. -/
def recordDropped (m : Metrics) (count : UInt64) : Metrics :=
  { m with dropped := m.dropped + count }

/-- One more queue stopped by a fault. -/
def recordDeviceFault (m : Metrics) : Metrics :=
  { m with deviceFaults := m.deviceFaults + 1 }

/-- The largest number of nanoseconds that a counter holds. -/
def longestNanos : Nat := UInt64.size - 1

/-- One more completed task. The second part is false where its duration is too
long for a span. -/
def recordCompletion (m : Metrics) (r : CompletionRecord) : Metrics × Bool :=
  let m := { m with completed := m.completed + 1 }
  match Number.nanosOfSeconds? r.actual with
  | none => (m, false)
  | some nanos =>
      let m :=
        { m with
          durations := m.durations.record (min nanos longestNanos)
          offlineError := m.offlineError.add r.offline r.actual
          hybridError := m.hybridError.add r.hybrid r.actual }
      match r.online with
      | none => (m, true)
      | some online =>
          ({ m with
             onlineError := m.onlineError.add online r.actual
             onlineSamples := m.onlineSamples + 1 }, true)

/-- Whether a duration is kept is a matter of the duration alone. -/
theorem snd_recordCompletion (m : Metrics) (r : CompletionRecord) :
    (m.recordCompletion r).2 = (Number.nanosOfSeconds? r.actual).isSome := by
  unfold recordCompletion
  cases Number.nanosOfSeconds? r.actual with
  | none => rfl
  | some nanos => cases r.online <;> rfl

/-- Everything that is reported, at one moment. -/
structure Snapshot where
  /-- Nanoseconds since the start. -/
  uptime : Nat
  submitted : UInt64
  completed : UInt64
  dropped : UInt64
  deviceFaults : UInt64
  meanDuration : Nat
  p50Duration : Nat
  p95Duration : Nat
  p99Duration : Nat
  maxDuration : Nat
  onlineError : Option Float
  offlineError : Option Float
  hybridError : Option Float

/-- Everything that is reported, at the moment `now`. -/
def snapshot (m : Metrics) (now : Nat) : Snapshot where
  uptime := now - m.startedAt
  submitted := m.submitted
  completed := m.completed
  dropped := m.dropped
  deviceFaults := m.deviceFaults
  meanDuration := m.durations.mean
  p50Duration := m.durations.quantile 0.50
  p95Duration := m.durations.quantile 0.95
  p99Duration := m.durations.quantile 0.99
  maxDuration := m.durations.highest
  onlineError := m.onlineError.mean m.onlineSamples
  offlineError := m.offlineError.mean m.completed
  hybridError := m.hybridError.mean m.completed

namespace Snapshot

/-- Completed tasks in a second; zero before any time has passed. -/
def tasksPerSecond (s : Snapshot) : Float :=
  let seconds := Number.secondsOfNanos s.uptime
  if seconds == 0.0 then 0.0 else s.completed.toFloat / seconds

/-- The difference of two counters, and never less than zero. -/
def remaining (a b : UInt64) : UInt64 := if b ≤ a then a - b else 0

/-- Accepted tasks that were neither completed nor dropped. -/
def outstanding (s : Snapshot) : UInt64 :=
  remaining (remaining s.submitted s.completed) s.dropped

/-- A span as an object of whole seconds and the nanoseconds left over. -/
def spanJson (nanos : Nat) : List Char :=
  Json.writeObject
    [("secs", Json.writeNat (nanos / Number.nanosPerSecond)),
     ("nanos", Json.writeNat (nanos % Number.nanosPerSecond))]

/-- A snapshot as an object. -/
def toJson (s : Snapshot) : String :=
  String.ofList <| Json.writeObject
    [("uptime", spanJson s.uptime),
     ("submitted", Json.writeNat s.submitted.toNat),
     ("completed", Json.writeNat s.completed.toNat),
     ("dropped", Json.writeNat s.dropped.toNat),
     ("device_faults", Json.writeNat s.deviceFaults.toNat),
     ("mean_duration_ns", Json.writeNat s.meanDuration),
     ("p50_duration_ns", Json.writeNat s.p50Duration),
     ("p95_duration_ns", Json.writeNat s.p95Duration),
     ("p99_duration_ns", Json.writeNat s.p99Duration),
     ("max_duration_ns", Json.writeNat s.maxDuration),
     ("online_mae", Json.writeFloat? s.onlineError),
     ("offline_mae", Json.writeFloat? s.offlineError),
     ("hybrid_mae", Json.writeFloat? s.hybridError)]

end Snapshot

end Metrics

end KernelDispatch
