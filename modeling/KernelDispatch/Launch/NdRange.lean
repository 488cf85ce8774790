/-!
# Index ranges

A launch covers a line, a plane or a volume of work items. The rank is part of
the shape, so a line of eight items and a plane of eight by one are different
ranges although they hold the same number of items.

Sizes are machine words. Their product is formed one factor at a time and stays
at the largest word once it has left the range of words; a factor zero still
brings it back to zero, since nothing times zero is too large.

## Main definitions

* `NdRange` — the three shapes.
* `NdRange.product` — the number of items, held at the largest word.
-/

namespace KernelDispatch

/-- The largest 64-bit word. -/
def maxWord : UInt64 := 0xFFFFFFFFFFFFFFFF

/-- The product of two words, or the largest word where it does not fit. -/
def mulSaturating (a b : UInt64) : UInt64 :=
  if a.toNat * b.toNat < UInt64.size then a * b else maxWord

/-- A range of one, two or three dimensions. -/
inductive NdRange where
  | line (x : UInt64)
  | plane (x y : UInt64)
  | volume (x y z : UInt64)
deriving DecidableEq, Inhabited

namespace NdRange

/-- The sizes of the dimensions that the range has, first dimension first. -/
def sizes : NdRange → List UInt64
  | line x => [x]
  | plane x y => [x, y]
  | volume x y z => [x, y, z]

/-- The number of dimensions. -/
def rank (r : NdRange) : Nat := r.sizes.length

/-- The size of a dimension; a dimension that the range lacks has one item. -/
def get (r : NdRange) (dim : Nat) : UInt64 := r.sizes.getD dim 1

/-- The number of items, or the largest word if that is more than a word holds. -/
def product (r : NdRange) : UInt64 := r.sizes.foldl mulSaturating 1

/-- The sizes in brackets, as in `[32, 32]`. -/
def text (r : NdRange) : String :=
  "[" ++ ", ".intercalate (r.sizes.map fun size => toString size.toNat) ++ "]"

end NdRange

end KernelDispatch
