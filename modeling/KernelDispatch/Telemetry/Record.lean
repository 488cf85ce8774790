import KernelDispatch.Forecast.Prediction

/-!
# Completion records

A completed task leaves a record of what was expected of it and how long it
took. The record names the configuration that the kernel was built against,
which may no longer be the current one.
-/

namespace KernelDispatch

/-- Expected and observed duration of one completed task, in seconds. -/
structure CompletionRecord where
  taskId : Nat
  configuration : String
  kernel : String
  work : Float
  online : Option Float
  offline : Float
  hybrid : Float
  actual : Float
deriving BEq

namespace CompletionRecord

/-- The record of a task whose estimates were these. -/
def make (taskId : Nat) (configuration kernel : String) (p : Prediction Float)
    (actual : Float) : CompletionRecord :=
  ⟨taskId, configuration, kernel, p.work, p.online, p.offline, p.hybrid, actual⟩

/-- Records in the order of their kernels; those of one kernel stay as they
are. -/
def byKernel (records : List CompletionRecord) : List CompletionRecord :=
  records.mergeSort fun a b => !decide (b.kernel < a.kernel)

end CompletionRecord

end KernelDispatch
