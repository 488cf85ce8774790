import KernelDispatch.Telemetry.Histogram
import Mathlib.Data.List.Dedup
import Mathlib.Data.List.Induction

/-!
# The histogram of a list of values

A histogram is made by recording one value after the other, each into the bucket
that it belongs to. What has become of it in the end can be said at once, and
without an order: there is a bucket for each place at which a value was counted,
the buckets stand in the order of their lowest values, and each counts the values
that belong to it. So two histograms are the same if they count alike, and the
order in which values were recorded leaves no trace.

## Main definitions

* `Histogram.countAt` — what the bucket at a place has counted.
* `Histogram.ofValues` — the histogram of a list of values.

## Main results

* `Histogram.ext_countAt` — histograms that count alike are alike.
* `Histogram.foldl_record` — recording the values one by one makes `ofValues`.
* `Histogram.ofValues_perm` — the order of the values plays no part.
-/

namespace KernelDispatch.Histogram

/-- The place that a value is counted at, which is the lowest value of its bucket. -/
def placeOf (value : Nat) : Nat := lowAt (recorded value)

/-- What the bucket at a place has counted. -/
def countAt (place : Nat) : List Bucket → Nat
  | [] => 0
  | bucket :: rest => if bucket.low = place then bucket.count else countAt place rest

/-- Buckets in their order, none of which is empty. -/
structure Ordered (buckets : List Bucket) : Prop where
  lows : buckets.Pairwise fun a b => a.low < b.low
  filled : ∀ bucket ∈ buckets, 0 < bucket.count

/-- The histogram of a list of values. -/
def ofValues (values : List Nat) : Histogram where
  buckets := ((values.map placeOf).dedup.mergeSort (· ≤ ·)).map fun place =>
    { low := place, count := (values.map placeOf).count place }

section Buckets

variable {buckets buckets' : List Bucket} {bucket : Bucket} {place low : Nat}

/-! ## One more value -/

theorem countAt_eq_zero (h : ∀ bucket ∈ buckets, bucket.low ≠ place) :
    countAt place buckets = 0 := by
  induction buckets with
  | nil => rfl
  | cons first rest ih =>
      have hfirst := h first List.mem_cons_self
      rw [countAt, if_neg hfirst]
      exact ih fun bucket hbucket => h bucket (List.mem_cons_of_mem _ hbucket)

/-- Below the first bucket nothing was counted. -/
theorem countAt_eq_zero_of_lt (h : Ordered (bucket :: buckets)) (hplace : place < bucket.low) :
    countAt place (bucket :: buckets) = 0 := by
  apply countAt_eq_zero
  intro other hother
  rcases List.mem_cons.1 hother with rfl | hother
  · omega
  · have hlow := (List.pairwise_cons.1 h.lows).1 other hother
    omega

theorem Ordered.tail (h : Ordered (bucket :: buckets)) : Ordered buckets :=
  ⟨(List.pairwise_cons.1 h.lows).2, fun other hother =>
    h.filled other (List.mem_cons_of_mem _ hother)⟩

/-- A bucket stands where the new value is counted or where one stood before. -/
theorem low_of_mem_count (h : bucket ∈ count low buckets) :
    bucket.low = low ∨ ∃ other ∈ buckets, bucket.low = other.low := by
  induction buckets with
  | nil =>
      simp only [count, List.mem_singleton] at h
      exact .inl (by rw [h])
  | cons first rest ih =>
      unfold count at h
      split at h
      · rcases List.mem_cons.1 h with rfl | h
        · exact .inl rfl
        · exact .inr ⟨bucket, h, rfl⟩
      · split at h
        · rename_i heq
          rcases List.mem_cons.1 h with rfl | h
          · exact .inl heq.symm
          · exact .inr ⟨bucket, List.mem_cons_of_mem _ h, rfl⟩
        · rcases List.mem_cons.1 h with rfl | h
          · exact .inr ⟨bucket, List.mem_cons_self, rfl⟩
          · rcases ih h with hlow | ⟨other, hother, hlow⟩
            · exact .inl hlow
            · exact .inr ⟨other, List.mem_cons_of_mem _ hother, hlow⟩

theorem Ordered.cons (h : Ordered buckets) (hfilled : 0 < bucket.count)
    (hlow : ∀ other ∈ buckets, bucket.low < other.low) : Ordered (bucket :: buckets) := by
  refine ⟨List.pairwise_cons.2 ⟨hlow, h.lows⟩, ?_⟩
  intro other hother
  rcases List.mem_cons.1 hother with rfl | hother
  · exact hfilled
  · exact h.filled other hother

/-- One more value leaves the buckets in their order. -/
theorem Ordered.count (h : Ordered buckets) (low : Nat) :
    Ordered (Histogram.count low buckets) := by
  induction buckets with
  | nil => exact h.cons (by simp) (by simp)
  | cons first rest ih =>
      have hrest := (List.pairwise_cons.1 h.lows).1
      unfold Histogram.count
      split
      · refine h.cons (by simp) ?_
        intro other hother
        rcases List.mem_cons.1 hother with rfl | hother
        · assumption
        · have hlow := hrest other hother
          show low < other.low
          omega
      · split
        · exact h.tail.cons (Nat.succ_pos _) hrest
        · refine (ih h.tail).cons (h.filled first List.mem_cons_self) ?_
          intro other hother
          rcases low_of_mem_count hother with hlow | ⟨before, hbefore, hlow⟩
          · omega
          · rw [hlow]
            exact hrest before hbefore

/-- One more value is counted once, at its own place. -/
theorem countAt_count (h : Ordered buckets) (low place : Nat) :
    countAt place (count low buckets) = countAt place buckets + if low = place then 1 else 0 := by
  induction buckets with
  | nil => simp [count, countAt]
  | cons first rest ih =>
      unfold count
      split
      · rename_i hlt
        by_cases hplace : low = place
        · subst hplace
          rw [countAt_eq_zero_of_lt h hlt]
          simp [countAt]
        · rw [countAt, if_neg hplace, if_neg hplace]
          rfl
      · split
        · rename_i heq
          by_cases hplace : low = place
          · simp [countAt, ← heq, hplace]
          · have hfirst : first.low ≠ place := fun hfirst => hplace (heq.trans hfirst)
            simp [countAt, hfirst, hplace]
        · have hrest := ih h.tail
          by_cases hfirst : first.low = place
          · have hlow : low ≠ place := by omega
            simp [countAt, hfirst, hlow]
          · simp only [countAt, if_neg hfirst, hrest]

/-! ## Histograms that count alike -/

theorem countAt_self (bucket : Bucket) (buckets : List Bucket) :
    countAt bucket.low (bucket :: buckets) = bucket.count := if_pos rfl

/-- The first bucket is where counting begins, so it is the first one of every
histogram that counts alike. -/
theorem low_le_of_countAt (h : Ordered (bucket :: buckets)) {other : Bucket}
    (h' : Ordered (other :: buckets'))
    (halike : ∀ place, countAt place (bucket :: buckets) = countAt place (other :: buckets')) :
    other.low ≤ bucket.low := by
  by_contra hlt
  have hzero := countAt_eq_zero_of_lt h' (Nat.lt_of_not_le hlt)
  have hcount := halike bucket.low
  have hfilled := h.filled bucket List.mem_cons_self
  rw [hzero, countAt_self] at hcount
  omega

theorem Ordered.ext (h : Ordered buckets) (h' : Ordered buckets')
    (halike : ∀ place, countAt place buckets = countAt place buckets') : buckets = buckets' := by
  induction buckets generalizing buckets' with
  | nil =>
      cases buckets' with
      | nil => rfl
      | cons other rest' =>
          have hcount := halike other.low
          have hfilled := h'.filled other List.mem_cons_self
          rw [countAt_self, countAt] at hcount
          omega
  | cons first rest ih =>
      cases buckets' with
      | nil =>
          have hcount := halike first.low
          have hfilled := h.filled first List.mem_cons_self
          rw [countAt_self, countAt] at hcount
          omega
      | cons other rest' =>
          have hlow : first.low = other.low :=
            Nat.le_antisymm (low_le_of_countAt h' h fun place => (halike place).symm)
              (low_le_of_countAt h h' halike)
          have hcount : first.count = other.count := by
            have hself := halike first.low
            rw [countAt_self, hlow, countAt_self] at hself
            exact hself
          have hfirst : first = other := by
            cases first
            cases other
            simp_all
          subst hfirst
          congr 1
          apply ih h.tail h'.tail
          intro place
          by_cases hplace : first.low = place
          · rw [countAt_eq_zero, countAt_eq_zero]
            · intro bucket hbucket
              have := (List.pairwise_cons.1 h'.lows).1 bucket hbucket
              omega
            · intro bucket hbucket
              have := (List.pairwise_cons.1 h.lows).1 bucket hbucket
              omega
          · have hrest := halike place
            rwa [countAt, countAt, if_neg hplace, if_neg hplace] at hrest

end Buckets

/-- Histograms that count alike are alike. -/
theorem ext_countAt {h h' : Histogram} (hordered : Ordered h.buckets)
    (hordered' : Ordered h'.buckets)
    (halike : ∀ place, countAt place h.buckets = countAt place h'.buckets) : h = h' := by
  cases h
  cases h'
  exact congrArg Histogram.mk (hordered.ext hordered' halike)

/-! ## Lists of values -/

/-- Buckets that are laid out by places count what was put there. -/
theorem countAt_map (f : Nat → Nat) (places : List Nat) (place : Nat) :
    countAt place (places.map fun place => { low := place, count := f place }) =
      if place ∈ places then f place else 0 := by
  induction places with
  | nil => rfl
  | cons first rest ih =>
      rw [List.map_cons, countAt, ih]
      by_cases hplace : first = place
      · subst hplace
        simp
      · simp [hplace, Ne.symm hplace]

theorem countAt_ofValues (values : List Nat) (place : Nat) :
    countAt place (ofValues values).buckets = (values.map placeOf).count place := by
  show countAt place (List.map _ _) = _
  rw [countAt_map]
  by_cases hplace : place ∈ values.map placeOf
  · have hmem : place ∈ (values.map placeOf).dedup.mergeSort (· ≤ ·) := by
      rw [List.mem_mergeSort, List.mem_dedup]
      exact hplace
    rw [if_pos hmem]
  · have hmem : place ∉ (values.map placeOf).dedup.mergeSort (· ≤ ·) := by
      rw [List.mem_mergeSort, List.mem_dedup]
      exact hplace
    rw [if_neg hmem, List.count_eq_zero_of_not_mem hplace]

theorem ordered_ofValues (values : List Nat) : Ordered (ofValues values).buckets := by
  constructor
  · have hsorted : ((values.map placeOf).dedup.mergeSort (· ≤ ·)).Pairwise
        fun a b => decide (a ≤ b) = true :=
      List.pairwise_mergeSort
        (fun a b c hab hbc => by simp only [decide_eq_true_eq] at *; omega)
        (fun a b => by simp only [Bool.or_eq_true, decide_eq_true_eq]; omega) _
    have hnodup : ((values.map placeOf).dedup.mergeSort (· ≤ ·)).Nodup :=
      (List.mergeSort_perm _ _).nodup_iff.2 (List.nodup_dedup _)
    refine List.pairwise_map.2 ((hsorted.and hnodup).imp ?_)
    rintro a b ⟨hle, hne⟩
    simp only [decide_eq_true_eq] at hle
    exact Nat.lt_of_le_of_ne hle hne
  · intro bucket hbucket
    obtain ⟨place, hplace, rfl⟩ := List.mem_map.1 hbucket
    rw [List.mem_mergeSort, List.mem_dedup] at hplace
    exact List.count_pos_iff.2 hplace

/-- Recording values one by one counts each of them once, at its place. -/
theorem countAt_foldl_record (values : List Nat) {h : Histogram} (hordered : Ordered h.buckets) :
    Ordered (values.foldl record h).buckets ∧
      ∀ place, countAt place (values.foldl record h).buckets =
        countAt place h.buckets + (values.map placeOf).count place := by
  induction values generalizing h with
  | nil => exact ⟨hordered, fun place => rfl⟩
  | cons value rest ih =>
      obtain ⟨hfinal, hcount⟩ := ih (h := h.record value) (hordered.count _)
      refine ⟨hfinal, fun place => ?_⟩
      have hone : countAt place (h.record value).buckets =
          countAt place h.buckets + if placeOf value = place then 1 else 0 :=
        countAt_count hordered _ place
      rw [List.foldl_cons, hcount, hone, List.map_cons, List.count_cons]
      simp only [beq_iff_eq]
      omega

/-- Recording the values of a list one by one makes the histogram of the list. -/
theorem foldl_record (values : List Nat) : values.foldl record {} = ofValues values := by
  obtain ⟨hordered, hcount⟩ := countAt_foldl_record values (h := {}) ⟨.nil, by simp⟩
  apply ext_countAt hordered (ordered_ofValues values)
  intro place
  rw [hcount, countAt_ofValues]
  exact Nat.zero_add _

theorem record_ofValues (values : List Nat) (value : Nat) :
    (ofValues values).record value = ofValues (values ++ [value]) := by
  rw [← foldl_record, ← foldl_record, List.foldl_concat]

/-- In which order values are recorded plays no part. -/
theorem ofValues_perm {values values' : List Nat} (h : values.Perm values') :
    ofValues values = ofValues values' := by
  apply ext_countAt (ordered_ofValues values) (ordered_ofValues values')
  intro place
  rw [countAt_ofValues, countAt_ofValues]
  exact (h.map placeOf).count_eq place

/-! ## How many values there are -/

theorem size_count (low : Nat) (buckets : List Bucket) :
    size ⟨count low buckets⟩ = size ⟨buckets⟩ + 1 := by
  unfold size
  induction buckets with
  | nil => rfl
  | cons first rest ih =>
      unfold count
      split
      · simp only [List.foldr_cons]
        omega
      · split
        · simp only [List.foldr_cons]
          omega
        · simp only [List.foldr_cons] at ih ⊢
          omega

theorem size_ofValues (values : List Nat) : (ofValues values).size = values.length := by
  induction values using List.reverseRecOn with
  | nil => simp [ofValues, size]
  | append_singleton values value ih =>
      rw [← record_ofValues, record, size_count, List.length_append, List.length_singleton]
      exact congrArg (· + 1) ih

end KernelDispatch.Histogram
