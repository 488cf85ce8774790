import KernelDispatch.Forecast.CostModel
import KernelDispatch.Launch.Task
import KernelDispatch.Number.Time
import KernelDispatch.Telemetry.MeasurementLog
import KernelDispatch.Telemetry.Metrics

/-!
# The books of a scheduler

Everything that a completed task leaves behind is kept in the books: its
measurement in the model of the configuration that its kernel was made against,
its account in the metrics, and its record with each of the observers. The
record is made after the measurement has been added, so a task's own duration
already counts in the estimates that are written down with it.

Observers are told in turn. One that gives up keeps those after it from being
told, and nothing else.

## Main definitions

* `Books.complete` — the books after a completed task.
-/

namespace KernelDispatch

/-- Who is told of a completed task. -/
inductive Observer where
  /-- Keeps the record in memory. -/
  | collects
  /-- Gives up on the tasks with these numbers. -/
  | panicsOn (ids : List Nat)
  /-- Announces the record in the program's own log. -/
  | announces
  /-- Appends the record to a measurement log. -/
  | logs (path : String)
deriving DecidableEq

/-- What completed tasks leave behind. -/
structure Books where
  table : CalibrationTable
  prior : Float
  /-- Cost models by configuration. -/
  models : NameMap CostModel := .empty
  metrics : Metrics := {}
  observers : List Observer := []
  /-- Records kept in memory, oldest first. -/
  collected : List CompletionRecord := []
  directory : Directory

namespace Books

/-- A model without measurements. -/
def newModel (b : Books) (configuration : String) : CostModel :=
  { configuration, table := b.table, prior := b.prior }

/-- The model of a configuration. -/
def model (b : Books) (configuration : String) : CostModel :=
  (b.models.get? configuration).getD (b.newModel configuration)

/-- The books in which a configuration has a model. -/
def withModel (b : Books) (configuration : String) : Books :=
  if b.models.contains configuration then b
  else { b with models := b.models.insert configuration (b.newModel configuration) }

/-- The books in which exactly these configurations have a model, and no model
has a measurement. -/
def freshModels (b : Books) (configurations : List String) : Books :=
  { b with
    models :=
      configurations.foldl (fun models name => models.insert name (b.newModel name)) .empty }

/-- The books after the observers were told of a record. -/
def notify (b : Books) (r : CompletionRecord) : List Observer → Books
  | [] => b
  | .collects :: rest => notify { b with collected := b.collected ++ [r] } r rest
  | .panicsOn ids :: rest => if ids.contains r.taskId then b else notify b r rest
  | .announces :: rest => notify b r rest
  | .logs path :: rest =>
      notify { b with directory := MeasurementLog.append b.directory path r } r rest

/-- The record of a task of known configuration and duration, and the books in
which its measurement has been added. -/
def measure (b : Books) (t : Task) (configuration : String) (nanos : Nat) :
    CompletionRecord × Books :=
  let actual := Number.secondsOfNanos nanos
  let model := b.model configuration
  let (model, _) := model.learn t.kernel ⟨model.operations t.kernel t.workItems, actual⟩
  (CompletionRecord.make (t.id.getD 0) configuration t.kernel
      (model.predict t.kernel t.workItems) actual,
    { b with models := b.models.insert configuration model })

/-- The books in which a record is accounted for. The observers are told of it
unless its duration is too long for a span. -/
def enter (b : Books) (r : CompletionRecord) : Books :=
  match b.metrics.recordCompletion r with
  | (metrics, true) => { b with metrics }.notify r b.observers
  | (metrics, false) => { b with metrics }

/-- The record that a completed task leaves, and the books after it. -/
def conclude (b : Books) (t : Task) : Option CompletionRecord × Books :=
  match t.configuration, t.duration with
  | some configuration, some nanos =>
      let (record, b) := b.measure t configuration nanos
      (some record, b.enter record)
  | _, _ => (none, b)

/-- The books after a completed task. -/
def complete (b : Books) (t : Task) : Books := (b.conclude t).2

end Books

end KernelDispatch
