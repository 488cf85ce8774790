import KernelDispatch.Launch.NdRange

/-!
# Launch geometry

The geometry of a launch is its global range, the range of one work group and
the offset at which the global range begins. Only the global range counts as
work; group and offset tell the device how to walk it.
-/

namespace KernelDispatch

/-- Global range, work-group range and offset of one launch. -/
structure Geometry where
  global : NdRange
  group : NdRange
  offset : NdRange
deriving DecidableEq

namespace Geometry

/-- A line of `x` items, one item to a group. -/
def line (x : UInt64) : Geometry :=
  ⟨.line x, .line 1, .line 0⟩

/-- A plane of items in groups of `gx` by `gy`. -/
def plane (x y gx gy : UInt64) : Geometry :=
  ⟨.plane x y, .plane gx gy, .plane 0 0⟩

/-- A volume of items in groups of `gx` by `gy` by `gz`. -/
def volume (x y z gx gy gz : UInt64) : Geometry :=
  ⟨.volume x y z, .volume gx gy gz, .volume 0 0 0⟩

/-- A single item: the kernel runs once. -/
def single : Geometry := line 1

instance : Inhabited Geometry := ⟨single⟩

/-- The same launch started at another offset. -/
def withOffset (g : Geometry) (offset : NdRange) : Geometry :=
  { g with offset }

/-- The amount of work, which is the number of items of the global range. -/
def workItems (g : Geometry) : UInt64 := g.global.product

end Geometry

end KernelDispatch
