import KernelDispatch.Forecast.CostModel
import Mathlib

/-!
# Lines of least squares

Over fractions, where nothing is rounded, `Line.fit` is the line of least squares: of all
lines it is the one whose squared distances from the measurements have the least sum, and no
other line comes as near. `Line.fitThroughOrigin` is the same among the lines without a fixed
cost.

Both follow from one remark. The distances from the line that was found are orthogonal to
every line of its kind, so the squares of any other line are those of the line that was found
and, on top of them, the squares of the distance between the two lines. That distance is zero
at every measurement only where both are one line, if the measurements have two sizes, or one
that is not zero for lines through the origin.

## Main definitions

* `Sample.sizes` — the amounts of work that were measured.
* `Line.misfit` — the sum of the squared distances from a line.
* `Line.Closest` — the one line of its kind with the least misfit.
* `Line.LeastSquares` — what measurements say about both lines.

## Main results

* `Line.misfit_eq` — the misfit of another line.
* `Line.closest_of_orthogonal` — orthogonal distances are the least ones.
* `Line.least_squares` — which lines there are, and that they are the closest ones.
-/

namespace KernelDispatch

theorem Scalar.sum_rat (xs : List Rat) : Scalar.sum xs = xs.sum := List.sum_eq_foldl.symm

namespace Sample

variable {samples : List (Sample Rat)}

/-! ## Sizes -/

/-- The amounts of work that were measured. -/
def sizes (samples : List (Sample Rat)) : Finset Rat := (samples.map Sample.work).toFinset

theorem mem_sizes {x : Rat} : x ∈ sizes samples ↔ ∃ s ∈ samples, s.work = x := by
  simp [sizes]

/-- What is left when repetitions are erased counts every number once. -/
theorem length_eraseDups (xs : List Rat) : xs.eraseDups.length = xs.toFinset.card := by
  induction hn : xs.length using Nat.strong_induction_on generalizing xs with
  | _ n ih =>
      cases xs with
      | nil => simp
      | cons x xs =>
          have hshorter : (xs.filter fun y => !y == x).length < n := by
            have := List.length_filter_le (fun y => !y == x) xs
            rw [List.length_cons] at hn
            omega
          have hothers := ih _ hshorter (xs.filter fun y => !y == x) rfl
          have hsame : (x :: xs).toFinset =
              insert x (xs.filter fun y => !y == x).toFinset := by
            ext y
            by_cases hy : y = x <;> simp [hy]
          have hnot : x ∉ (xs.filter fun y => !y == x).toFinset := by simp
          rw [List.eraseDups_cons, List.length_cons, hothers, hsame,
            Finset.card_insert_of_notMem hnot]

theorem distinctWork_eq (samples : List (Sample Rat)) :
    distinctWork samples = (sizes samples).card :=
  length_eraseDups _

/-- Sorted, equal amounts stand side by side, so it is enough to compare neighbours. -/
theorem length_destutter_sorted (samples : List (Sample Rat)) :
    (((samples.map Sample.work).mergeSort (· ≤ ·)).destutter (· ≠ ·)).length =
      (sizes samples).card := by
  have hsorted : ((samples.map Sample.work).mergeSort (· ≤ ·)).Pairwise (· ≤ ·) := by
    have htrans : ∀ x y z : Rat, decide (x ≤ y) = true → decide (y ≤ z) = true →
        decide (x ≤ z) = true := by
      intro x y z hxy hyz
      rw [decide_eq_true_iff] at hxy hyz ⊢
      exact le_trans hxy hyz
    have htotal : ∀ x y : Rat, (decide (x ≤ y) || decide (y ≤ x)) = true := by
      intro x y
      simpa using le_total x y
    exact (List.pairwise_mergeSort htrans htotal (samples.map Sample.work)).imp (by simp)
  have hsame := List.mergeSort_perm (samples.map Sample.work) (fun x y : Rat => decide (x ≤ y))
  rw [hsorted.destutter_eq_dedup, ← List.card_toFinset, sizes, List.toFinset_eq_of_perm _ _ hsame]

theorem card_sizes_le_length (samples : List (Sample Rat)) :
    (sizes samples).card ≤ samples.length := by
  have := List.toFinset_card_le (samples.map Sample.work)
  rwa [List.length_map] at this

/-- With fewer than two sizes all measurements are of one. -/
theorem work_eq_of_card_lt {s t : Sample Rat} (h : (sizes samples).card < 2) (hs : s ∈ samples)
    (ht : t ∈ samples) : s.work = t.work :=
  Finset.card_le_one.1 (Nat.le_of_lt_succ h) _ (mem_sizes.2 ⟨s, hs, rfl⟩) _
    (mem_sizes.2 ⟨t, ht, rfl⟩)

theorem exists_work_ne (h : 2 ≤ (sizes samples).card) :
    ∃ s ∈ samples, ∃ t ∈ samples, s.work ≠ t.work := by
  obtain ⟨x, hx, y, hy, hne⟩ := Finset.one_lt_card.1 h
  obtain ⟨s, hs, rfl⟩ := mem_sizes.1 hx
  obtain ⟨t, ht, rfl⟩ := mem_sizes.1 hy
  exact ⟨s, hs, t, ht, hne⟩

/-! ## Means -/

theorem mean_rat (side : Sample Rat → Rat) (samples : List (Sample Rat)) :
    mean side samples = (samples.map side).sum / samples.length := by
  rw [← Scalar.sum_rat]
  rfl

theorem sum_map_sub_mul (c : Rat) (f g : Sample Rat → Rat) (samples : List (Sample Rat)) :
    (samples.map fun s => f s - c * g s).sum = (samples.map f).sum - c * (samples.map g).sum := by
  induction samples with
  | nil => simp
  | cons s samples ih =>
      simp only [List.map_cons, List.sum_cons, ih]
      ring

theorem sum_map_sub_const (side : Sample Rat → Rat) (c : Rat) (samples : List (Sample Rat)) :
    (samples.map fun s => side s - c).sum = (samples.map side).sum - samples.length * c := by
  induction samples with
  | nil => simp
  | cons s samples ih =>
      simp only [List.map_cons, List.sum_cons, ih, List.length_cons, Nat.cast_add, Nat.cast_one]
      ring

/-- The distances from the mean cancel out. -/
theorem sum_map_sub_mean (side : Sample Rat → Rat) (hne : samples ≠ []) :
    (samples.map fun s => side s - mean side samples).sum = 0 := by
  have hlength : (samples.length : Rat) ≠ 0 := by simpa using hne
  rw [sum_map_sub_const, mean_rat, mul_div_cancel₀ _ hlength, sub_self]

/-- The sum of the squared distances of the amounts of work from their mean. -/
def spread (samples : List (Sample Rat)) : Rat :=
  (samples.map fun s => (s.work - mean work samples) * (s.work - mean work samples)).sum

/-- How the distances of work and time from their means go together. -/
def covariation (samples : List (Sample Rat)) : Rat :=
  (samples.map fun s => (s.work - mean work samples) * (s.time - mean time samples)).sum

/-- A sum of squares is zero only where everything that is squared is. -/
theorem sum_squares_pos {f : Sample Rat → Rat} (h : ∃ s ∈ samples, f s ≠ 0) :
    0 < (samples.map fun s => f s * f s).sum := by
  have hnonneg : ∀ x ∈ samples.map fun s => f s * f s, 0 ≤ x := by
    intro x hx
    obtain ⟨s, -, rfl⟩ := List.mem_map.1 hx
    exact mul_self_nonneg _
  obtain ⟨s, hs, hne⟩ := h
  refine lt_of_le_of_ne (List.sum_nonneg hnonneg) fun hzero => hne ?_
  have hsquare := List.all_zero_of_le_zero_le_of_sum_eq_zero hnonneg hzero.symm
    (List.mem_map.2 ⟨s, hs, rfl⟩)
  exact mul_self_eq_zero.1 hsquare

theorem sum_squares_eq_zero {f : Sample Rat → Rat} (h : ∀ s ∈ samples, f s = 0) :
    (samples.map fun s => f s * f s).sum = 0 := by
  apply List.sum_eq_zero
  intro x hx
  obtain ⟨s, hs, rfl⟩ := List.mem_map.1 hx
  rw [h s hs, mul_zero]

theorem spread_pos (h : 2 ≤ (sizes samples).card) : 0 < spread samples := by
  apply sum_squares_pos
  obtain ⟨s, hs, t, ht, hne⟩ := exists_work_ne h
  -- the mean cannot be both amounts
  by_cases hmean : s.work = mean work samples
  · exact ⟨t, ht, fun hzero => hne (hmean.trans (sub_eq_zero.1 hzero).symm)⟩
  · exact ⟨s, hs, sub_ne_zero.2 hmean⟩

theorem spread_eq_zero (h : (sizes samples).card < 2) : spread samples = 0 := by
  apply sum_squares_eq_zero
  intro s hs
  have hne : samples ≠ [] := List.ne_nil_of_mem hs
  have hlength : (samples.length : Rat) ≠ 0 := by simpa using hne
  have hsum := sum_map_sub_const work s.work samples
  have hzero : (samples.map fun t => t.work - s.work).sum = 0 := by
    apply List.sum_eq_zero
    intro x hx
    obtain ⟨t, ht, rfl⟩ := List.mem_map.1 hx
    exact sub_eq_zero.2 (work_eq_of_card_lt h ht hs)
  rw [hzero] at hsum
  rw [mean_rat, sub_eq_zero.1 hsum.symm, mul_div_cancel_left₀ _ hlength, sub_self]

end Sample

namespace Line

variable {samples : List (Sample Rat)} {l : Line Rat} {kind : Line Rat → Prop}

/-! ## The closest line -/

/-- How far above a line a measurement lies. -/
def residual (l : Line Rat) (s : Sample Rat) : Rat := s.time - l.timeOf s.work

/-- The sum of the squared distances from a line. -/
def misfit (l : Line Rat) (samples : List (Sample Rat)) : Rat :=
  (samples.map fun s => l.residual s * l.residual s).sum

/-- The difference of the times that two lines give to the work of a measurement. -/
def gap (l other : Line Rat) (s : Sample Rat) : Rat := l.timeOf s.work - other.timeOf s.work

theorem gap_eq (l other : Line Rat) (s : Sample Rat) :
    l.gap other s = (l.intercept - other.intercept) + (l.slope - other.slope) * s.work := by
  show l.intercept + l.slope * s.work - (other.intercept + other.slope * s.work) = _
  ring

/-- The misfit of another line: that of the first, the squares of what lies between the two,
and a sum that vanishes where residuals and lines are orthogonal. -/
theorem misfit_eq (l other : Line Rat) (samples : List (Sample Rat)) :
    other.misfit samples = l.misfit samples +
      (2 * (samples.map fun s => l.residual s * l.gap other s).sum +
        (samples.map fun s => l.gap other s * l.gap other s).sum) := by
  induction samples with
  | nil => simp [misfit]
  | cons s samples ih =>
      have hresidual : other.residual s = l.residual s + l.gap other s := by
        rw [residual, residual, gap]
        ring
      simp only [misfit, List.map_cons, List.sum_cons] at ih ⊢
      rw [ih, hresidual]
      ring

/-- The one line of its kind with the least misfit. -/
structure Closest (kind : Line Rat → Prop) (samples : List (Sample Rat)) (l : Line Rat) :
    Prop where
  of_kind : kind l
  least : ∀ other, kind other → l.misfit samples ≤ other.misfit samples
  unique : ∀ other, kind other → other.misfit samples ≤ l.misfit samples → other = l

/-- A line whose residuals are orthogonal to the lines of its kind is the closest of them, if
the measurements tell them apart. -/
theorem closest_of_orthogonal (hkind : kind l)
    (horthogonal : ∀ other, kind other →
      (samples.map fun s => l.residual s * l.gap other s).sum = 0)
    (happart : ∀ other, kind other → (∀ s ∈ samples, l.gap other s = 0) → other = l) :
    Closest kind samples l where
  of_kind := hkind
  least other hother := by
    have hgap : 0 ≤ (samples.map fun s => l.gap other s * l.gap other s).sum := by
      apply List.sum_nonneg
      intro x hx
      obtain ⟨s, -, rfl⟩ := List.mem_map.1 hx
      exact mul_self_nonneg _
    rw [misfit_eq l other, horthogonal other hother]
    linarith
  unique other hother hle := by
    rw [misfit_eq l other, horthogonal other hother] at hle
    by_contra hne
    have hsome : ∃ s ∈ samples, l.gap other s ≠ 0 := by
      by_contra hnone
      push Not at hnone
      exact hne (happart other hother hnone)
    have hpos := Sample.sum_squares_pos hsome
    linarith

namespace Closest

theorem eq {other : Line Rat} (h : Closest kind samples l) (hother : Closest kind samples other) :
    other = l :=
  h.unique other hother.of_kind (hother.least l h.of_kind)

/-- The order of the measurements does not matter. -/
theorem perm {others : List (Sample Rat)} (hperm : samples.Perm others)
    (h : Closest kind samples l) : Closest kind others l := by
  have hmisfit : ∀ other : Line Rat, other.misfit others = other.misfit samples := fun other =>
    (hperm.map fun s => other.residual s * other.residual s).sum_eq.symm
  refine ⟨h.of_kind, fun other hother => ?_, fun other hother hle => ?_⟩
  · rw [hmisfit, hmisfit]
    exact h.least other hother
  · rw [hmisfit, hmisfit] at hle
    exact h.unique other hother hle

/-- Nothing is closer than a line on which all measurements lie. -/
theorem eq_of_through {other : Line Rat} (h : Closest kind samples l) (hkind : kind other)
    (hthrough : ∀ s ∈ samples, s.time = other.timeOf s.work) : other = l := by
  have hzero : other.misfit samples = 0 :=
    Sample.sum_squares_eq_zero fun s hs => sub_eq_zero.2 (hthrough s hs)
  have hnonneg : 0 ≤ l.misfit samples := by
    apply List.sum_nonneg
    intro x hx
    obtain ⟨s, -, rfl⟩ := List.mem_map.1 hx
    exact mul_self_nonneg _
  exact h.unique other hkind (hzero.trans_le hnonneg)

end Closest

/-- A sum of residuals against a line splits into its two normal equations. -/
theorem sum_residual_gap (l other : Line Rat) (samples : List (Sample Rat)) :
    (samples.map fun s => l.residual s * l.gap other s).sum =
      (l.intercept - other.intercept) * (samples.map l.residual).sum +
        (l.slope - other.slope) * (samples.map fun s => l.residual s * s.work).sum := by
  induction samples with
  | nil => simp
  | cons s samples ih =>
      simp only [List.map_cons, List.sum_cons] at ih ⊢
      rw [ih, gap_eq]
      ring

/-- Lines that agree at two sizes are one. -/
theorem eq_of_gap_eq_zero {other : Line Rat} (h : 2 ≤ (Sample.sizes samples).card)
    (hgap : ∀ s ∈ samples, l.gap other s = 0) : other = l := by
  obtain ⟨s, hs, t, ht, hne⟩ := Sample.exists_work_ne h
  have hats := hgap s hs
  have hatt := hgap t ht
  rw [gap_eq] at hats hatt
  have hproduct : (l.slope - other.slope) * (s.work - t.work) = 0 := by linarith
  have hslope : l.slope - other.slope = 0 :=
    (mul_eq_zero.1 hproduct).resolve_right (sub_ne_zero.2 hne)
  rw [hslope, zero_mul, add_zero] at hats
  have hintercept := (sub_eq_zero.1 hats).symm
  have hslopes := (sub_eq_zero.1 hslope).symm
  cases l
  cases other
  simp_all

/-! ## The line with a fixed cost -/

/-- The line through the means whose slope is that of the covariation. -/
def throughMeans (samples : List (Sample Rat)) : Line Rat :=
  let slope := Sample.covariation samples / Sample.spread samples
  ⟨Sample.mean Sample.time samples - slope * Sample.mean Sample.work samples, slope⟩

theorem divides_rat (squares : Rat) : divides squares = decide (0 < squares) := by
  show (!decide (squares ≤ 0) && true) = _
  rw [Bool.and_true, ← decide_not]
  exact decide_eq_decide.2 not_le

theorem fit_eq (hlength : ¬ samples.length < 2) :
    fit samples =
      if 0 < Sample.spread samples then .ok (throughMeans samples)
      else .error (Sample.sizes samples).card := by
  have hspread : (Scalar.sum (samples.map fun s =>
      (s.work - Sample.mean Sample.work samples) * (s.work - Sample.mean Sample.work samples))) =
      Sample.spread samples := Scalar.sum_rat _
  have hcovariation : (Scalar.sum (samples.map fun s =>
      (s.work - Sample.mean Sample.work samples) * (s.time - Sample.mean Sample.time samples))) =
      Sample.covariation samples := Scalar.sum_rat _
  rw [fit, if_neg hlength]
  dsimp only
  rw [hspread, hcovariation, divides_rat, Sample.distinctWork_eq]
  by_cases hpos : 0 < Sample.spread samples
  · simp only [hpos, decide_true, Bool.not_true, if_true]
    rfl
  · simp [hpos]

theorem fit_of_two (h : 2 ≤ (Sample.sizes samples).card) :
    fit samples = .ok (throughMeans samples) := by
  have hlength := Sample.card_sizes_le_length samples
  rw [fit_eq (by omega), if_pos (Sample.spread_pos h)]

theorem fit_of_fewer (h : (Sample.sizes samples).card < 2) :
    fit samples = .error (Sample.sizes samples).card := by
  by_cases hlength : samples.length < 2
  · -- no or one measurement has no or one size
    have hcard : (Sample.sizes samples).card = samples.length := by
      match samples, hlength with
      | [], _ => rfl
      | [s], _ => rfl
    rw [fit, if_pos hlength, hcard]
  · rw [fit_eq hlength, if_neg (by rw [Sample.spread_eq_zero h]; exact lt_irrefl 0)]

/-- The distance of a measurement from the line through the means, around the means. -/
theorem residual_throughMeans (samples : List (Sample Rat)) (s : Sample Rat) :
    (throughMeans samples).residual s =
      (s.time - Sample.mean Sample.time samples) -
        Sample.covariation samples / Sample.spread samples *
          (s.work - Sample.mean Sample.work samples) := by
  show s.time - (Sample.mean Sample.time samples -
      Sample.covariation samples / Sample.spread samples * Sample.mean Sample.work samples +
        Sample.covariation samples / Sample.spread samples * s.work) = _
  ring

theorem sum_residual_throughMeans (hne : samples ≠ []) :
    (samples.map (throughMeans samples).residual).sum = 0 := by
  rw [List.map_congr_left fun s _ => residual_throughMeans samples s, Sample.sum_map_sub_mul,
    Sample.sum_map_sub_mean Sample.time hne, Sample.sum_map_sub_mean Sample.work hne, mul_zero,
    sub_zero]

theorem sum_residual_mul_work_throughMeans (hne : samples ≠ [])
    (hspread : Sample.spread samples ≠ 0) :
    (samples.map fun s => (throughMeans samples).residual s * s.work).sum = 0 := by
  have hcentred : ∀ s ∈ samples, (throughMeans samples).residual s * s.work =
      ((s.work - Sample.mean Sample.work samples) * (s.time - Sample.mean Sample.time samples) -
        Sample.covariation samples / Sample.spread samples *
          ((s.work - Sample.mean Sample.work samples) *
            (s.work - Sample.mean Sample.work samples))) -
        -Sample.mean Sample.work samples * (throughMeans samples).residual s := by
    intro s _
    rw [residual_throughMeans]
    ring
  have hslope : Sample.covariation samples -
      Sample.covariation samples / Sample.spread samples * Sample.spread samples = 0 := by
    rw [div_mul_cancel₀ _ hspread, sub_self]
  rw [List.map_congr_left hcentred, Sample.sum_map_sub_mul, Sample.sum_map_sub_mul,
    sum_residual_throughMeans hne, mul_zero, sub_zero]
  exact hslope

theorem closest_throughMeans (h : 2 ≤ (Sample.sizes samples).card) :
    Closest (fun _ => True) samples (throughMeans samples) := by
  have hne : samples ≠ [] := by
    rintro rfl
    simp [Sample.sizes] at h
  have hspread : Sample.spread samples ≠ 0 := ne_of_gt (Sample.spread_pos h)
  refine closest_of_orthogonal trivial ?_ fun other _ hgap => eq_of_gap_eq_zero h hgap
  intro other _
  rw [sum_residual_gap, sum_residual_throughMeans hne,
    sum_residual_mul_work_throughMeans hne hspread, mul_zero, mul_zero, add_zero]

/-! ## The line without a fixed cost -/

/-- The line through the origin whose slope is that of the products. -/
def throughOrigin (samples : List (Sample Rat)) : Line Rat :=
  ⟨0, (samples.map fun s => s.work * s.time).sum / (samples.map fun s => s.work * s.work).sum⟩

theorem fitThroughOrigin_eq (samples : List (Sample Rat)) :
    fitThroughOrigin samples =
      if 0 < (samples.map fun s => s.work * s.work).sum then .ok (throughOrigin samples)
      else .error samples.length := by
  have hsquares : Scalar.sum (samples.map fun s => s.work * s.work) =
      (samples.map fun s => s.work * s.work).sum := Scalar.sum_rat _
  have hproducts : Scalar.sum (samples.map fun s => s.work * s.time) =
      (samples.map fun s => s.work * s.time).sum := Scalar.sum_rat _
  rw [fitThroughOrigin, hsquares, hproducts, divides_rat]
  by_cases hpos : 0 < (samples.map fun s => s.work * s.work).sum
  · simp only [hpos, decide_true, Bool.not_true, if_true]
    rfl
  · simp [hpos]

theorem sum_residual_mul_work_throughOrigin
    (hsquares : (samples.map fun s => s.work * s.work).sum ≠ 0) :
    (samples.map fun s => (throughOrigin samples).residual s * s.work).sum = 0 := by
  have hsplit : ∀ s ∈ samples, (throughOrigin samples).residual s * s.work =
      s.work * s.time - (throughOrigin samples).slope * (s.work * s.work) := by
    intro s _
    show (s.time - (0 + (throughOrigin samples).slope * s.work)) * s.work = _
    ring
  rw [List.map_congr_left hsplit, Sample.sum_map_sub_mul]
  exact sub_eq_zero.2 (div_mul_cancel₀ _ hsquares).symm

theorem closest_throughOrigin (h : ∃ s ∈ samples, s.work ≠ 0) :
    Closest (fun other => other.intercept = 0) samples (throughOrigin samples) := by
  have hsquares : (samples.map fun s => s.work * s.work).sum ≠ 0 :=
    ne_of_gt (Sample.sum_squares_pos h)
  refine closest_of_orthogonal rfl ?_ ?_
  · intro other hother
    rw [sum_residual_gap, sum_residual_mul_work_throughOrigin hsquares, mul_zero, add_zero,
      hother]
    exact mul_eq_zero_of_left (sub_self 0) _
  · intro other hother hgap
    obtain ⟨s, hs, hwork⟩ := h
    have hat := hgap s hs
    rw [gap_eq, hother] at hat
    have hslope : (throughOrigin samples).slope - other.slope = 0 := by
      have hproduct : ((throughOrigin samples).slope - other.slope) * s.work = 0 := by
        simpa [throughOrigin] using hat
      exact (mul_eq_zero.1 hproduct).resolve_right hwork
    cases other
    simp_all [throughOrigin, sub_eq_zero]

theorem fitThroughOrigin_of_zero (h : ∀ s ∈ samples, s.work = 0) :
    fitThroughOrigin samples = .error samples.length := by
  rw [fitThroughOrigin_eq, if_neg]
  rw [Sample.sum_squares_eq_zero h]
  exact lt_irrefl 0

theorem fitThroughOrigin_of_ne_zero (h : ∃ s ∈ samples, s.work ≠ 0) :
    fitThroughOrigin samples = .ok (throughOrigin samples) := by
  rw [fitThroughOrigin_eq, if_pos (Sample.sum_squares_pos h)]

/-! ## Both lines -/

/-- What measurements say about the line with a fixed cost and the line without one. -/
structure LeastSquares (kernel : String) (samples : List (Sample Rat)) : Prop where
  /-- Two sizes have a line, and it is the closest of all lines. -/
  fitted : 2 ≤ (Sample.sizes samples).card →
    ∃ l, CostModel.named kernel (fit samples) = .ok l ∧ Closest (fun _ => True) samples l
  /-- Fewer have none, and it is reported how many there are. -/
  refused : (Sample.sizes samples).card < 2 →
    CostModel.named kernel (fit samples) = .error (.underflow kernel (Sample.sizes samples).card)
  /-- They can be counted by sorting them and leaving out repetitions. -/
  sorted : (((samples.map Sample.work).mergeSort (· ≤ ·)).destutter (· ≠ ·)).length =
    (Sample.sizes samples).card
  /-- One size that is not zero has a line through the origin, the closest of these. -/
  fittedThroughOrigin : (∃ s ∈ samples, s.work ≠ 0) →
    ∃ slope, CostModel.named kernel (fitThroughOrigin samples) = .ok ⟨0, slope⟩ ∧
      Closest (fun l => l.intercept = 0) samples ⟨0, slope⟩
  /-- Otherwise there is none, and it is reported how many measurements there are. -/
  refusedThroughOrigin : (∀ s ∈ samples, s.work = 0) →
    CostModel.named kernel (fitThroughOrigin samples) = .error (.underflow kernel samples.length)
  /-- Neither depends on the order of the measurements. -/
  unordered : ∀ others, samples.Perm others →
    fit others = fit samples ∧ fitThroughOrigin others = fitThroughOrigin samples
  /-- A line on which all measurements lie is found. -/
  recovered : 2 ≤ (Sample.sizes samples).card →
    ∀ l : Line Rat, (∀ s ∈ samples, s.time = l.timeOf s.work) → fit samples = .ok l
  /-- So is a line through the origin. -/
  recoveredThroughOrigin : (∃ s ∈ samples, s.work ≠ 0) →
    ∀ slope, (∀ s ∈ samples, s.time = (⟨0, slope⟩ : Line Rat).timeOf s.work) →
      fitThroughOrigin samples = .ok ⟨0, slope⟩

theorem fit_perm {others : List (Sample Rat)} (h : samples.Perm others) :
    fit others = fit samples := by
  have hsizes : Sample.sizes others = Sample.sizes samples :=
    List.toFinset_eq_of_perm _ _ (h.symm.map Sample.work)
  by_cases htwo : 2 ≤ (Sample.sizes samples).card
  · have htwo' : 2 ≤ (Sample.sizes others).card := by rwa [hsizes]
    rw [fit_of_two htwo, fit_of_two htwo',
      ((closest_throughMeans htwo).perm h).eq (closest_throughMeans htwo')]
  · have hfewer : (Sample.sizes samples).card < 2 := by omega
    rw [fit_of_fewer hfewer, fit_of_fewer (by rwa [hsizes]), hsizes]

theorem fitThroughOrigin_perm {others : List (Sample Rat)} (h : samples.Perm others) :
    fitThroughOrigin others = fitThroughOrigin samples := by
  by_cases hsome : ∃ s ∈ samples, s.work ≠ 0
  · have hothers : ∃ s ∈ others, s.work ≠ 0 := by simpa only [h.mem_iff] using hsome
    rw [fitThroughOrigin_of_ne_zero hsome, fitThroughOrigin_of_ne_zero hothers,
      ((closest_throughOrigin hsome).perm h).eq (closest_throughOrigin hothers)]
  · push Not at hsome
    rw [fitThroughOrigin_of_zero hsome, fitThroughOrigin_of_zero fun s hs => hsome s (h.mem_iff.2 hs),
      h.length_eq]

/-- Over fractions the lines are those of least squares. -/
theorem least_squares (kernel : String) (samples : List (Sample Rat)) :
    LeastSquares kernel samples where
  fitted h := ⟨throughMeans samples, by rw [fit_of_two h]; rfl, closest_throughMeans h⟩
  refused h := by
    rw [fit_of_fewer h]
    rfl
  sorted := Sample.length_destutter_sorted samples
  fittedThroughOrigin h :=
    ⟨(throughOrigin samples).slope, by rw [fitThroughOrigin_of_ne_zero h]; rfl,
      closest_throughOrigin h⟩
  refusedThroughOrigin h := by
    rw [fitThroughOrigin_of_zero h]
    rfl
  unordered others h := ⟨fit_perm h, fitThroughOrigin_perm h⟩
  recovered h l hthrough := by
    rw [fit_of_two h, (closest_throughMeans h).eq_of_through trivial hthrough]
  recoveredThroughOrigin h slope hthrough := by
    rw [fitThroughOrigin_of_ne_zero h, (closest_throughOrigin h).eq_of_through rfl hthrough]

end Line

end KernelDispatch
