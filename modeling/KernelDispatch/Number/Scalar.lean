/-!
# Arithmetic of estimates

Estimates are computed in doubles, but what they *mean* is said in exact
fractions: a fitted line minimises a sum of squares only where addition does
not round. The formulas are therefore written once, over any type that offers
the four operations, comparison and whole numbers, and used with both readings.

## Main definitions

* `Scalar` — the operations that estimates need.
* the instances for `Float`, `Float32` and `Rat`.
-/

namespace KernelDispatch

/-- The operations that estimates need. -/
class Scalar (α : Type) extends Add α, Sub α, Mul α, Div α, BEq α where
  /-- A whole number, rounded if need be. -/
  ofCount : Nat → α
  /-- Whether the first number is below the second. -/
  less : α → α → Bool
  /-- Whether the first number is at most the second. -/
  atMost : α → α → Bool
  /-- Whether the value is a number at all, and not beyond all of them. -/
  finite : α → Bool

namespace Scalar

/-- Zero. -/
def zero {α : Type} [Scalar α] : α := ofCount 0

/-- One. -/
def one {α : Type} [Scalar α] : α := ofCount 1

/-- The sum of a list, added up from its front. -/
def sum {α : Type} [Scalar α] (xs : List α) : α := xs.foldl (· + ·) zero

/-- The distance of a number from zero. -/
def magnitude {α : Type} [Scalar α] (x : α) : α := if less x zero then zero - x else x

end Scalar

/-- Doubles, rounded to nearest after each operation. -/
instance : Scalar Float where
  ofCount n := (UInt64.ofNat n).toFloat
  less x y := x < y
  atMost x y := x ≤ y
  finite x := x.isFinite

/-- Singles, rounded to nearest after each operation. -/
instance : Scalar Float32 where
  ofCount n := (UInt64.ofNat n).toFloat32
  less x y := x < y
  atMost x y := x ≤ y
  finite x := x.isFinite

/-- Fractions, which never round. -/
instance : Scalar Rat where
  ofCount n := n
  less x y := x < y
  atMost x y := x ≤ y
  finite _ := true

end KernelDispatch
