/-!
# Errors

Every operation that can be refused answers with one of these causes. The
constructors say *who* refused — the loaded image, the compiler, the device, a
closed queue, the settings — and carry the words that only that party knows.
`Error.message` is the one place where the wording of a report is decided, so
two reports with the same cause never read differently.
-/

namespace KernelDispatch

/-- Why an operation was refused. -/
inductive Error where
  /-- An image could not be read or made into a configuration. -/
  | configuration (detail : String)
  /-- A program does not have the requested entry point. -/
  | compile (detail : String)
  /-- The device refused or failed a launch. -/
  | device (detail : String)
  /-- The queue of this kernel accepts no more tasks. -/
  | queueClosed (kernel : String)
  /-- A dispatch phase was asked for a move that it does not have. -/
  | invalidTransition (phase signal : String)
  /-- No configuration of this name is loaded. -/
  | unknownConfiguration (name : String)
  /-- Nothing is loaded, so there is no current configuration. -/
  | noConfiguration
  /-- The measurements of a kernel do not determine a line. -/
  | underflow (kernel : String) (samples : Nat)
  /-- A setting, or a workload description, is out of range. -/
  | config (detail : String)
  /-- A file could not be opened or is not text. -/
  | file (detail : String)
  /-- A line of a measurement log is not a record. -/
  | serialization (detail : String)
  /-- Anything a task's own code reports. -/
  | other (detail : String)
deriving DecidableEq, Inhabited

namespace Error

/-- The text of a report. -/
def message : Error → String
  | configuration detail => s!"configuration error: {detail}"
  | compile detail => s!"kernel compile error: {detail}"
  | device detail => s!"device error: {detail}"
  | queueClosed kernel => s!"execution queue closed: {kernel}"
  | invalidTransition phase signal => s!"invalid queue transition: {signal} in state {phase}"
  | unknownConfiguration name => s!"unknown configuration: {name}"
  | noConfiguration => "no configuration loaded"
  | underflow kernel samples =>
      s!"model underflow for kernel {kernel}: {samples} usable samples"
  | config detail => s!"config error: {detail}"
  | file detail => s!"I/O error: {detail}"
  | serialization detail => s!"serialization error: {detail}"
  | other detail => detail

/-- Whether the device, rather than the caller, is to blame. -/
def isDevice : Error → Bool
  | device _ => true
  | _ => false

end Error

/-- The answer of an operation that can be refused. -/
abbrev Result := Except Error

end KernelDispatch
