import KernelDispatch.Forecast.Calibration
import KernelDispatch.Forecast.Line

/-!
# Predictions

A task has up to three estimates: the calibrated one, the one on the line
through its kernel's measurements, and a blend. In the blend the line counts as
much as it has measurements behind it, and the calibrated estimate as much as a
fixed number of them, the prior; so the calibration leads at first and fades.

## Main definitions

* `blend` — the blend of the two estimates.
* `Prediction.make` — all estimates for an amount of work.
-/

namespace KernelDispatch

/-- The estimates for one task, in seconds. -/
structure Prediction (α : Type) where
  /-- The operations of the task. -/
  work : α
  /-- On the line through the measurements, if they determine one. -/
  online : Option α
  /-- From the calibration. -/
  offline : α
  hybrid : α

/-- The estimate between the two that weighs `count` measurements against a
prior. -/
def blend {α : Type} [Scalar α] (prior : α) (count : Nat) (online offline : α) : α :=
  let n : α := Scalar.ofCount count
  let weight := n / (n + prior)
  weight * online + (Scalar.one - weight) * offline

/-- All estimates for an amount of work, given the calibrated one and the
measurements of the kernel. -/
def Prediction.make {α : Type} [Scalar α] (prior : α) (samples : List (Sample α))
    (work offline : α) : Prediction α :=
  match Line.fit samples with
  | .ok line =>
      { work
        online := some (line.timeOf work)
        offline
        hybrid := blend prior samples.length (line.timeOf work) offline }
  | .error _ => { work, online := none, offline, hybrid := offline }

/-- The estimate that decides: on the line where there is one, else the
calibrated one. -/
def Prediction.best {α : Type} (p : Prediction α) : α := p.online.getD p.offline

end KernelDispatch
