import KernelDispatch.Error
import KernelDispatch.Forecast.Prediction
import KernelDispatch.NameMap

/-!
# Cost models

A cost model belongs to one configuration. It keeps the measurements of each
kernel in the order in which they were made and answers every question from
them afresh, so its answers depend on nothing but those lists, the calibrations
and the prior.

## Main definitions

* `CostModel` — the measurements of one configuration.
* `CostModel.predict` — the estimates for a launch.
* `CostModel.cost` — the estimate that queues are compared by.
-/

namespace KernelDispatch

/-- The measurements of one configuration and what they are weighed against. -/
structure CostModel where
  configuration : String
  table : CalibrationTable
  prior : Float := 4.0
  measurements : NameMap (List (Sample Float)) := .empty

namespace CostModel

/-- The measurements of a kernel, oldest first. -/
def samples (m : CostModel) (kernel : String) : List (Sample Float) :=
  (m.measurements.get? kernel).getD []

/-- The model with one more measurement of a kernel. -/
def record (m : CostModel) (kernel : String) (sample : Sample Float) : CostModel :=
  { m with measurements := m.measurements.insert kernel (m.samples kernel ++ [sample]) }

/-- The model without measurements. -/
def clear (m : CostModel) : CostModel := { m with measurements := .empty }

/-- The calibration of a kernel. -/
def calibration (m : CostModel) (kernel : String) : Calibration :=
  m.table.getOrAssumed m.configuration kernel

/-- The operations of a launch of `n` items. -/
def operations (m : CostModel) (kernel : String) (n : UInt64) : Float :=
  (m.calibration kernel).operations n

/-- The calibrated estimate of a launch of `n` items. -/
def offlineTime (m : CostModel) (kernel : String) (n : UInt64) : Float :=
  (m.calibration kernel).offlineTime n

/-- Names the kernel whose samples do not determine a line. -/
def named {α : Type} (kernel : String) : Except Nat (Line α) → Result (Line α)
  | .ok line => .ok line
  | .error samples => .error (.underflow kernel samples)

/-- The line through the measurements of a kernel. -/
def line (m : CostModel) (kernel : String) : Result (Line Float) :=
  named kernel (Line.fit (m.samples kernel))

/-- The line through the origin and the measurements of a kernel. -/
def lineThroughOrigin (m : CostModel) (kernel : String) : Result (Line Float) :=
  named kernel (Line.fitThroughOrigin (m.samples kernel))

/-- The model with one more measurement, and the line if there is one now. -/
def learn (m : CostModel) (kernel : String) (sample : Sample Float) :
    CostModel × Option (Line Float) :=
  let m := m.record kernel sample
  (m, (m.line kernel).toOption)

/-- The estimates for a launch of `n` items. -/
def predict (m : CostModel) (kernel : String) (n : UInt64) : Prediction Float :=
  Prediction.make m.prior (m.samples kernel) (m.operations kernel n) (m.offlineTime kernel n)

/-- The estimate on the line for a launch of `n` items. -/
def onlineTime (m : CostModel) (kernel : String) (n : UInt64) : Option Float :=
  (m.predict kernel n).online

/-- Seconds as a cost: in single precision, and zero where they are not above
zero or not a number. -/
def costOfSeconds (seconds : Float) : Float32 :=
  if 0.0 < seconds then seconds.toFloat32 else 0.0

/-- The estimate that queues are compared by. -/
def cost (m : CostModel) (kernel : String) (n : UInt64) : Float32 :=
  costOfSeconds (m.predict kernel n).best

/-- The cost of several launches, added up in their order. -/
def totalCost (m : CostModel) (launches : List (String × UInt64)) : Float32 :=
  Scalar.sum (launches.map fun (kernel, n) => m.cost kernel n)

end CostModel

end KernelDispatch
