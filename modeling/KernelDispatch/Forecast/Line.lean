import KernelDispatch.Number.Scalar

/-!
# Lines through measurements

The duration of a kernel is taken to be a line in the work that it does: a
fixed cost and a cost per operation. `Line.fit` is the line of least squares
through the measurements, and `Line.fitThroughOrigin` the same without a fixed
cost.

A line needs two different amounts of work. Where the measurements offer fewer,
or where rounding leaves nothing to divide by, there is no line, and the answer
is the number of measurements that could be told apart.

## Main definitions

* `Sample` — one measurement.
* `Line.fit`, `Line.fitThroughOrigin` — the lines of least squares.
-/

namespace KernelDispatch

/-- One measurement: the work of a task and how long it took. -/
structure Sample (α : Type) where
  work : α
  time : α
deriving DecidableEq

/-- The line `intercept + slope * work`. -/
structure Line (α : Type) where
  intercept : α
  slope : α
deriving DecidableEq

namespace Sample

variable {α : Type} [Scalar α]

/-- How many amounts of work the samples tell apart. -/
def distinctWork (samples : List (Sample α)) : Nat :=
  (samples.map Sample.work).eraseDups.length

/-- The mean of one side of the samples. -/
def mean (side : Sample α → α) (samples : List (Sample α)) : α :=
  Scalar.sum (samples.map side) / Scalar.ofCount samples.length

end Sample

namespace Line

variable {α : Type} [Scalar α]

/-- The time that the line gives to an amount of work. -/
def timeOf (l : Line α) (work : α) : α := l.intercept + l.slope * work

/-- Whether a sum of squares can be divided by. -/
def divides (squares : α) : Bool :=
  !Scalar.atMost squares Scalar.zero && Scalar.finite squares

/-- The line of least squares, or how many amounts of work there were to tell
apart. The sums are taken around the means, so that large amounts of work that
differ little lose as few digits as possible. -/
def fit (samples : List (Sample α)) : Except Nat (Line α) :=
  if samples.length < 2 then .error samples.length
  else
    let workMean := Sample.mean Sample.work samples
    let timeMean := Sample.mean Sample.time samples
    let products := Scalar.sum <|
      samples.map fun s => (s.work - workMean) * (s.time - timeMean)
    let squares := Scalar.sum <|
      samples.map fun s => (s.work - workMean) * (s.work - workMean)
    if !divides squares then .error (Sample.distinctWork samples)
    else
      let slope := products / squares
      let intercept := timeMean - slope * workMean
      if Scalar.finite intercept && Scalar.finite slope then .ok ⟨intercept, slope⟩
      else .error (Sample.distinctWork samples)

/-- The line of least squares through the origin, or the number of samples. -/
def fitThroughOrigin (samples : List (Sample α)) : Except Nat (Line α) :=
  let squares := Scalar.sum (samples.map fun s => s.work * s.work)
  let products := Scalar.sum (samples.map fun s => s.work * s.time)
  if !divides squares then .error samples.length
  else .ok ⟨Scalar.zero, products / squares⟩

end Line

end KernelDispatch
