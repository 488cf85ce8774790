import KernelDispatch.Number.Layout
import KernelDispatch.Number.Scalar
import KernelDispatch.Text.Fields

/-!
# Calibrated rates

Before anything has been measured, the duration of a kernel is estimated from
how many floating-point operations it does and how many the board sustains per
second. How operations follow from the number of work items is a law of the
kernel; the sustained rate and the fixed cost of a launch are calibrated by
hand, per configuration and kernel.

## Main definitions

* `WorkLaw` — how the operations of a kernel grow with its work items.
* `Calibration` — law, rate and fixed cost of one kernel.
* `CalibrationTable` — calibrations by configuration and kernel.
-/

namespace KernelDispatch

/-- How the operations of a kernel grow with its work items. -/
inductive WorkLaw where
  /-- The product of square matrices, one item to an element. -/
  | matrixProduct
  /-- A multiplication and an addition for each element. -/
  | vectorTriad
  /-- The fast Fourier transform. -/
  | transform
  /-- One operation for each item. -/
  | perItem
deriving DecidableEq, Inhabited

/-- The operations of a launch with `n` items. -/
def WorkLaw.operations (law : WorkLaw) (n : UInt64) : Float :=
  let items := n.toFloat
  match law with
  | .matrixProduct =>
      let side := items.sqrt
      2.0 * side * side * side
  | .vectorTriad => 2.0 * items
  | .transform => if n < 2 then 0.0 else 5.0 * items * items.log2
  | .perItem => items

/-- The time of `operations` at a sustained rate after a fixed cost. A rate that
is not above zero says nothing, and only the fixed cost is left. -/
def ratedTime {α : Type} [Scalar α] (rate fixed operations : α) : α :=
  if Scalar.atMost rate Scalar.zero then fixed else fixed + operations / rate

/-- Law, sustained rate and fixed cost of one kernel on one configuration. -/
structure Calibration where
  /-- Operations per second. -/
  rate : Float
  /-- Seconds per launch. -/
  fixed : Float := 0.0
  law : WorkLaw := .perItem

namespace Calibration

/-- One thousand million operations per second. -/
def gigaflops : Float := 1000000000.0

/-- What is assumed of a kernel that nobody has calibrated. -/
def assumed : Calibration := ⟨gigaflops, 0.0, .perItem⟩

instance : Inhabited Calibration := ⟨assumed⟩

/-- The operations of a launch with `n` items. -/
def operations (c : Calibration) (n : UInt64) : Float := c.law.operations n

/-- The estimated seconds of a launch with `n` items. -/
def offlineTime (c : Calibration) (n : UInt64) : Float :=
  ratedTime c.rate c.fixed (c.operations n)

/-- A description of rate and fixed cost. -/
def describe (c : Calibration) : String :=
  Text.fields "KernelParams"
    [("max_flops", Number.Layout.described.float c.rate),
     ("alpha", Number.Layout.described.float c.fixed)]

end Calibration

/-- Calibrations by configuration and kernel. -/
structure CalibrationTable where
  entries : List ((String × String) × Calibration) := []

namespace CalibrationTable

instance : Inhabited CalibrationTable := ⟨{}⟩

/-- The table without entries. -/
def empty : CalibrationTable := {}

/-- The table in which a kernel of a configuration has this calibration. -/
def insert (t : CalibrationTable) (configuration kernel : String) (c : Calibration) :
    CalibrationTable :=
  ⟨((configuration, kernel), c) ::
    t.entries.filter fun entry => entry.1 ≠ (configuration, kernel)⟩

/-- The calibration of a kernel on a configuration, if there is one. -/
def get? (t : CalibrationTable) (configuration kernel : String) : Option Calibration :=
  t.entries.lookup (configuration, kernel)

/-- The calibration of a kernel on a configuration, or what is assumed. -/
def getOrAssumed (t : CalibrationTable) (configuration kernel : String) : Calibration :=
  (t.get? configuration kernel).getD .assumed

/-- How many kernels are calibrated, counted once for each configuration. -/
def size (t : CalibrationTable) : Nat := t.entries.length

/-- The rates measured by hand for the matrix products. -/
def calibrated : CalibrationTable :=
  let product (factor : Float) : Calibration :=
    ⟨factor * Calibration.gigaflops, 0.0, .matrixProduct⟩
  empty
    |>.insert "mmult_f_d" "matrixMult" (product 120.0)
    |>.insert "mmult_f_d" "matrixMultD" (product 63.0)
    |>.insert "mmult_f_d2" "matrixMult" (product 35.0)
    |>.insert "mmult_f_d2" "matrixMultD" (product 72.0)

end CalibrationTable

end KernelDispatch
