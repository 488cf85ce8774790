import KernelDispatch.Proofs.Telemetry.Histogram
import Mathlib.Algebra.Group.Nat.Defs

/-!
# Quantiles

A quantile is the highest value of one bucket: of the first by which enough values are counted.
So it is determined by how many values are counted up to each place, and where fewer are counted
up to every place, no quantile is lower. The highest value is the quantile of all values.

Places are in the order of the values, as far as the buckets go. A value beyond the last bucket
is counted at the place of an hour, which is not the last place.

## Main definitions

* `Histogram.upTo` — how many values are counted up to a place.
* `Histogram.afterHour` — the first value beyond the bucket of an hour.

## Main results

* `Histogram.placeOf_lt_iff` — when a larger value is counted at a lower place.
* `Histogram.valueAtRank_spec` — the bucket that a quantile is of.
* `Histogram.valueAtRank_mono` — where fewer values are counted, quantiles are not lower.
-/

namespace KernelDispatch.Histogram

/-! ## Places -/

section Places

variable {value value' : Nat}

theorem widthAt_of_lt (h : value < 2048) : widthAt value = 1 := if_pos h

theorem widthAt_of_le (h : 2048 ≤ value) : widthAt value = 2 ^ (value.log2 - 10) := by
  rw [widthAt, if_neg (Nat.not_lt.2 h), bitLength, if_neg (by omega), Nat.pow_eq]
  congr 1

theorem log2_le_of_le (h : 2048 ≤ value) : 11 ≤ value.log2 := (Nat.le_log2 (by omega)).2 h

theorem log2_mono (hpos : value ≠ 0) (h : value ≤ value') : value.log2 ≤ value'.log2 :=
  (Nat.le_log2 (by omega)).2 (Nat.le_trans (Nat.log2_self_le hpos) h)

theorem widthAt_pos (value : Nat) : 0 < widthAt value := by
  rcases Nat.lt_or_ge value 2048 with h | h
  · rw [widthAt_of_lt h]
    exact Nat.one_pos
  · rw [widthAt_of_le h]
    exact Nat.two_pow_pos _

/-- Buckets get no narrower. -/
theorem widthAt_mono (h : value ≤ value') : widthAt value ≤ widthAt value' := by
  rcases Nat.lt_or_ge value 2048 with hsmall | hlarge
  · rw [widthAt_of_lt hsmall]
    exact widthAt_pos value'
  · rw [widthAt_of_le hlarge, widthAt_of_le (Nat.le_trans hlarge h)]
    exact Nat.pow_le_pow_right (by decide) (Nat.sub_le_sub_right (log2_mono (by omega) h) 10)

theorem lowAt_eq (value : Nat) : lowAt value = widthAt value * (value / widthAt value) := by
  have hsplit := Nat.div_add_mod value (widthAt value)
  rw [lowAt]
  omega

theorem lowAt_le (value : Nat) : lowAt value ≤ value := Nat.sub_le _ _

/-- A bucket does not reach below the power of two that its values have in common. -/
theorem two_pow_log2_le_lowAt (h : 2048 ≤ value) : 2 ^ value.log2 ≤ lowAt value := by
  have hlog := log2_le_of_le h
  have hsplit : 2 ^ value.log2 = 2 ^ (value.log2 - 10) * 2 ^ 10 := by
    rw [← Nat.pow_add, Nat.sub_add_cancel (by omega)]
  rw [lowAt_eq, widthAt_of_le h]
  conv_lhs => rw [hsplit]
  refine Nat.mul_le_mul_left _ ?_
  rw [Nat.le_div_iff_mul_le (Nat.two_pow_pos _), Nat.mul_comm, ← hsplit]
  exact Nat.log2_self_le (by omega)

/-- A larger value is not in a lower bucket. -/
theorem lowAt_mono (h : value ≤ value') : lowAt value ≤ lowAt value' := by
  rcases Nat.lt_or_ge value' 2048 with hsmall' | hlarge'
  · rw [lowAt_eq value, lowAt_eq value', widthAt_of_lt hsmall', widthAt_of_lt (by omega)]
    simpa using h
  · by_cases hsame : 2048 ≤ value ∧ value.log2 = value'.log2
    · obtain ⟨hlarge, hlog⟩ := hsame
      rw [lowAt_eq value, lowAt_eq value', widthAt_of_le hlarge, widthAt_of_le hlarge', hlog]
      exact Nat.mul_le_mul_left _ (Nat.div_le_div_right h)
    · have hbelow : value < 2 ^ value'.log2 := by
        have hlog' := log2_le_of_le hlarge'
        by_cases hlarge : 2048 ≤ value
        · have hlog := log2_mono (by omega) h
          exact Nat.lt_of_lt_of_le Nat.lt_log2_self (Nat.pow_le_pow_right (by decide) (by omega))
        · exact Nat.lt_of_lt_of_le (Nat.lt_of_not_le hlarge)
            (Nat.pow_le_pow_right (n := 2) (i := 11) (by decide) hlog')
      have hlower := two_pow_log2_le_lowAt hlarge'
      have hle := lowAt_le value
      omega

/-- The first value beyond the bucket of an hour. -/
def afterHour : Nat := lowAt hour + widthAt hour

theorem lowAt_hour_lt_iff : lowAt hour < lowAt value ↔ afterHour ≤ value := by
  have hnext : lowAt hour < lowAt afterHour := by decide +kernel
  have hlast : lowAt (afterHour - 1) = lowAt hour := by decide +kernel
  constructor
  · intro hlt
    by_contra hbefore
    have hle : lowAt value ≤ lowAt (afterHour - 1) := lowAt_mono (by omega)
    omega
  · intro hle
    exact Nat.lt_of_lt_of_le hnext (lowAt_mono hle)

/-- A larger value is counted at a lower place if it is beyond the last bucket and the other
one is not, but beyond the bucket of an hour. -/
theorem placeOf_lt_iff (h : value ≤ value') :
    placeOf value' < placeOf value ↔ afterHour ≤ value ∧ value < limit ∧ limit ≤ value' := by
  unfold placeOf recorded
  rcases Nat.lt_or_ge value' limit with hwithin' | hbeyond'
  · rw [if_pos hwithin', if_pos (by omega)]
    exact iff_of_false (Nat.not_lt.2 (lowAt_mono h)) (by omega)
  · rw [if_neg (by omega)]
    rcases Nat.lt_or_ge value limit with hwithin | hbeyond
    · rw [if_pos hwithin, lowAt_hour_lt_iff]
      exact ⟨fun hafter => ⟨hafter, hwithin, hbeyond'⟩, And.left⟩
    · rw [if_neg (by omega)]
      exact iff_of_false (Nat.lt_irrefl _) (by omega)

end Places

/-! ## How many values are counted up to a place -/

section Counting

variable {buckets buckets' : List Bucket} {bucket : Bucket} {place rank : Nat}

/-- How many values are counted up to a place. -/
def upTo (place : Nat) : List Bucket → Nat
  | [] => 0
  | bucket :: rest => (if bucket.low ≤ place then bucket.count else 0) + upTo place rest

theorem upTo_count (place low : Nat) (buckets : List Bucket) :
    upTo place (count low buckets) = upTo place buckets + if low ≤ place then 1 else 0 := by
  induction buckets with
  | nil => simp [count, upTo]
  | cons first rest ih =>
      unfold count
      split
      · simp only [upTo]
        omega
      · split
        · rename_i heq
          simp only [upTo, ← heq]
          split <;> omega
        · simp only [upTo, ih]
          omega

theorem upTo_ofValues (place : Nat) (values : List Nat) :
    upTo place (ofValues values).buckets = values.countP fun value => placeOf value ≤ place := by
  induction values using List.reverseRecOn with
  | nil => simp [ofValues, upTo]
  | append_singleton values value ih =>
      rw [← record_ofValues, record, upTo_count, ih, List.countP_append, List.countP_singleton]
      simp only [decide_eq_true_eq]
      rfl

theorem upTo_eq_zero (h : ∀ bucket ∈ buckets, place < bucket.low) : upTo place buckets = 0 := by
  induction buckets with
  | nil => rfl
  | cons first rest ih =>
      rw [upTo, if_neg (Nat.not_le.2 (h first List.mem_cons_self)),
        ih fun bucket hbucket => h bucket (List.mem_cons_of_mem _ hbucket)]

/-! ## The value at a rank -/

/-- The value at a rank is the highest of the bucket at which so many values are reached, and
before which they are not. -/
theorem valueAtRank_spec (h : Ordered buckets) (hpos : 0 < rank) (hrank : rank ≤ size ⟨buckets⟩) :
    ∃ bucket ∈ buckets, valueAtRank rank buckets = bucket.high ∧
      rank ≤ upTo bucket.low buckets ∧ ∀ place < bucket.low, upTo place buckets < rank := by
  induction buckets generalizing rank with
  | nil => exact absurd hrank (Nat.not_le.2 hpos)
  | cons first rest ih =>
      have hlows := (List.pairwise_cons.1 h.lows).1
      rw [valueAtRank]
      split
      · rename_i hfirst
        refine ⟨first, List.mem_cons_self, rfl, ?_, fun place hplace => ?_⟩
        · rw [upTo, if_pos (Nat.le_refl _)]
          omega
        · rw [upTo_eq_zero]
          · exact hpos
          · intro bucket hbucket
            rcases List.mem_cons.1 hbucket with rfl | hbucket
            · exact hplace
            · exact Nat.lt_trans hplace (hlows bucket hbucket)
      · rename_i hmore
        have hsize : size ⟨first :: rest⟩ = first.count + size ⟨rest⟩ := rfl
        obtain ⟨bucket, hbucket, hvalue, hreached, hbefore⟩ :=
          ih h.tail (show 0 < rank - first.count by omega) (by omega)
        refine ⟨bucket, List.mem_cons_of_mem _ hbucket, hvalue, ?_, fun place hplace => ?_⟩
        · rw [upTo, if_pos (Nat.le_of_lt (hlows bucket hbucket))]
          omega
        · have hless := hbefore place hplace
          rw [upTo]
          split <;> omega

/-- There is nothing at a rank beyond all values. -/
theorem valueAtRank_of_size_lt (h : size ⟨buckets⟩ < rank) : valueAtRank rank buckets = 0 := by
  induction buckets generalizing rank with
  | nil => rfl
  | cons first rest ih =>
      have hsize : size ⟨first :: rest⟩ = first.count + size ⟨rest⟩ := rfl
      rw [valueAtRank, if_neg (by omega)]
      exact ih (by omega)

theorem high_mono {bucket' : Bucket} (h : bucket.low ≤ bucket'.low) : bucket.high ≤ bucket'.high := by
  have hwidth := widthAt_mono h
  have hpos := widthAt_pos bucket.low
  rw [Bucket.high, Bucket.high]
  omega

/-- Where no more values are counted up to any place, no value at a rank is lower. -/
theorem valueAtRank_mono (h : Ordered buckets) (h' : Ordered buckets')
    (hsize : size ⟨buckets⟩ = size ⟨buckets'⟩)
    (hcount : ∀ place, upTo place buckets' ≤ upTo place buckets) (hpos : 0 < rank) :
    valueAtRank rank buckets ≤ valueAtRank rank buckets' := by
  rcases Nat.lt_or_ge (size ⟨buckets⟩) rank with hbeyond | hwithin
  · rw [valueAtRank_of_size_lt hbeyond]
    exact Nat.zero_le _
  · obtain ⟨bucket, -, hvalue, -, hbefore⟩ := valueAtRank_spec h hpos hwithin
    obtain ⟨bucket', -, hvalue', hreached', -⟩ := valueAtRank_spec h' hpos (by omega)
    rw [hvalue, hvalue']
    refine high_mono ?_
    by_contra hlt
    have hless := hbefore bucket'.low (Nat.lt_of_not_le hlt)
    have hmore := hcount bucket'.low
    omega

/-- The highest value is the one at the last rank. -/
theorem highest_eq (h : Ordered buckets) :
    highest ⟨buckets⟩ = valueAtRank (size ⟨buckets⟩) buckets := by
  induction buckets with
  | nil => rfl
  | cons first rest ih =>
      have hsize : size ⟨first :: rest⟩ = first.count + size ⟨rest⟩ := rfl
      cases rest with
      | nil =>
          rw [hsize, valueAtRank, if_pos (by simp [size])]
          rfl
      | cons second rest =>
          have hfilled := h.tail.filled second List.mem_cons_self
          have hrest : size ⟨second :: rest⟩ = second.count + size ⟨rest⟩ := rfl
          rw [hsize, valueAtRank, if_neg (by omega), Nat.add_sub_cancel_left, ← ih h.tail]
          simp [highest]

end Counting

/-! ## Lists of values -/

section Values

variable {values values' : List Nat}

/-- As many values as before, and no more of them up to any place. -/
structure Raised (values values' : List Nat) : Prop where
  length : values'.length = values.length
  count : ∀ place, (values'.countP fun value => placeOf value ≤ place) ≤
    values.countP fun value => placeOf value ≤ place

theorem Raised.valueAtRank_le (h : Raised values values') {rank : Nat} (hpos : 0 < rank) :
    valueAtRank rank (ofValues values).buckets ≤ valueAtRank rank (ofValues values').buckets := by
  refine valueAtRank_mono (ordered_ofValues values) (ordered_ofValues values') ?_ ?_ hpos
  · show (ofValues values).size = (ofValues values').size
    rw [size_ofValues, size_ofValues, h.length]
  · intro place
    rw [upTo_ofValues, upTo_ofValues]
    exact h.count place

/-- No quantile gets lower. -/
theorem Raised.quantile_le (h : Raised values values') (q : Float) :
    (ofValues values).quantile q ≤ (ofValues values').quantile q := by
  rw [quantile, quantile, size_ofValues, size_ofValues, h.length]
  exact h.valueAtRank_le (Nat.lt_of_lt_of_le Nat.one_pos (Nat.le_max_left _ _))

/-- Neither does the highest value. -/
theorem Raised.highest_le (h : Raised values values') :
    (ofValues values).highest ≤ (ofValues values').highest := by
  have hhighest : ∀ values, (ofValues values).highest =
      valueAtRank values.length (ofValues values).buckets := fun values => by
    rw [← size_ofValues values]
    exact highest_eq (ordered_ofValues values)
  rw [hhighest, hhighest, h.length]
  rcases Nat.eq_zero_or_pos values.length with hnone | hpos
  · obtain rfl := List.length_eq_zero_iff.1 hnone
    simp [ofValues, valueAtRank]
  · exact h.valueAtRank_le hpos

/-- One value that is counted at a higher place raises all. -/
theorem raised_replace (before after : List Nat) {value value' : Nat}
    (h : placeOf value ≤ placeOf value') :
    Raised (before ++ value :: after) (before ++ value' :: after) := by
  refine ⟨by simp, fun place => ?_⟩
  simp only [List.countP_append, List.countP_cons, decide_eq_true_eq]
  split
  · refine Nat.le_of_eq ?_
    rw [if_pos (by omega)]
  · omega

end Values

end KernelDispatch.Histogram
