import KernelDispatch.Scheduler.Workers

/-!
# How a scheduler is set up

A blueprint gathers what a scheduler is built from: settings, calibrations and
observers. Building checks the settings first. It then adds the observers that
the settings ask for, the announcements before the measurement log, and opens
the log.
-/

namespace KernelDispatch

namespace Settings

/-- A description of the settings. -/
def describe (s : Settings) : String :=
  Text.fields "Config"
    [("kernels_dir", Text.quoted s.kernelsDirectory),
     ("binary_extension", Text.quoted s.imageExtension),
     ("thread_name_prefix", Text.quoted s.threadNamePrefix),
     ("stack_size", Text.optional (s.stackSize.map toString)),
     ("hybrid_prior", Number.Layout.described.float s.hybridPrior),
     ("log_completions", Text.switch s.logCompletions),
     ("log_costs", Text.switch s.logCosts),
     ("measurement_log", Text.optional (s.measurementLog.map Text.quoted))]

end Settings

/-- What a scheduler is built from. -/
structure Blueprint where
  settings : Settings := .standard
  table : CalibrationTable := .calibrated
  observers : List Observer := []

namespace Blueprint

/-- The observers that the settings ask for. -/
def settingsObservers (s : Settings) : List Observer :=
  (if s.logCompletions then [.announces] else []) ++
    match s.measurementLog with
    | some path => [.logs path]
    | none => []

/-- The directory with the measurement log opened, if the settings ask for
one. -/
def openLog (s : Settings) (d : Directory) : Result Directory :=
  match s.measurementLog with
  | some path => MeasurementLog.openAt d path
  | none => .ok d

/-- The scheduler of a blueprint on a device and with a directory, before any
task. -/
def assemble (p : Blueprint) (device : Device) (directory : Directory) : Scheduler where
  settings := p.settings
  board := { device }
  books :=
    { table := p.table
      prior := p.settings.hybridPrior
      observers := p.observers ++ settingsObservers p.settings
      directory }

/-- The scheduler of a blueprint, if its settings can be used and its log can be
opened. -/
def build (p : Blueprint) (device : Device) (directory : Directory) : Result Scheduler := do
  p.settings.check
  let directory ← openLog p.settings directory
  pure (p.assemble device directory)

/-- A description of a blueprint. -/
def describe (p : Blueprint) : String :=
  Text.fields "SchedulerBuilder"
    [("config", p.settings.describe),
     ("kernels", toString p.table.size),
     ("observers", toString p.observers.length)]

end Blueprint

end KernelDispatch
