import KernelDispatch.Number.Binary

/-!
# The histogram of durations

Durations are counted in buckets, so that a long run needs no more memory than
a short one. Below 2048 nanoseconds every value has a bucket of its own; above,
a bucket is a power of two wide and as wide as keeps eleven leading bits apart,
which is three decimal digits. The histogram is laid out for an hour at most. A
value beyond its last bucket is recorded as that hour.

Statistics speak about buckets, not values: a quantile is the highest value of
its bucket, the mean is taken over the middles.

## Main definitions

* `Histogram` — the counts, in the order of the buckets.
* `Histogram.record` — the histogram with one more value.
* `Histogram.quantile`, `Histogram.highest`, `Histogram.mean`.
-/

namespace KernelDispatch

/-- The number of bits that a whole number needs. -/
def bitLength (n : Nat) : Nat := if n = 0 then 0 else n.log2 + 1

/-- One bucket: its lowest value, and how many values fell into it. -/
structure Bucket where
  low : Nat
  count : Nat
deriving DecidableEq

/-- The counts of durations, in the order of the buckets. -/
structure Histogram where
  buckets : List Bucket := []

namespace Histogram

/-- An hour in nanoseconds. -/
def hour : Nat := 3600000000000

/-- The first value beyond the last bucket. -/
def limit : Nat := 4398046511104

/-- The width of the bucket that a value lies in. -/
def widthAt (value : Nat) : Nat :=
  if value < 2048 then 1 else Nat.pow 2 (bitLength value - 11)

/-- The lowest value of the bucket that a value lies in. -/
def lowAt (value : Nat) : Nat := value - value % widthAt value

/-- The value that is recorded for a value. -/
def recorded (value : Nat) : Nat := if value < limit then value else hour

/-- Buckets with one more value in the one that begins at `low`. -/
def count (low : Nat) : List Bucket → List Bucket
  | [] => [⟨low, 1⟩]
  | bucket :: rest =>
      if low < bucket.low then ⟨low, 1⟩ :: bucket :: rest
      else if low = bucket.low then { bucket with count := bucket.count + 1 } :: rest
      else bucket :: count low rest

/-- The histogram with one more value. -/
def record (h : Histogram) (value : Nat) : Histogram :=
  ⟨count (lowAt (recorded value)) h.buckets⟩

/-- How many values were recorded. -/
def size (h : Histogram) : Nat := h.buckets.foldr (fun bucket total => bucket.count + total) 0

end Histogram

namespace Bucket

/-- The highest value of a bucket. -/
def high (b : Bucket) : Nat := b.low + Histogram.widthAt b.low - 1

/-- The middle of a bucket. -/
def middle (b : Bucket) : Nat := b.low + Histogram.widthAt b.low / 2

end Bucket

namespace Histogram

/-- The highest value of the first bucket at which `rank` values are reached. -/
def valueAtRank (rank : Nat) : List Bucket → Nat
  | [] => 0
  | bucket :: rest =>
      if rank ≤ bucket.count then bucket.high else valueAtRank (rank - bucket.count) rest

/-- The rank that a quantile asks for among `n` values: at least the first. -/
def rankOf (q : Float) (n : Nat) : Nat :=
  max 1 (Number.ceilNat (q * (UInt64.ofNat n).toFloat))

/-- The value that a share `q` of the values does not exceed; zero if there are
none. -/
def quantile (h : Histogram) (q : Float) : Nat :=
  valueAtRank (rankOf q h.size) h.buckets

/-- The highest value of the last bucket; zero if there is none. -/
def highest (h : Histogram) : Nat := (h.buckets.getLast?.map Bucket.high).getD 0

/-- The mean of the middles, in whole nanoseconds; zero if there are no
values. -/
def mean (h : Histogram) : Nat :=
  let n := (UInt64.ofNat h.size).toFloat
  let share (b : Bucket) : Float :=
    (UInt64.ofNat b.middle).toFloat * (UInt64.ofNat b.count).toFloat / n
  Number.floorNat (h.buckets.foldl (fun total b => total + share b) 0.0)

end Histogram

end KernelDispatch
