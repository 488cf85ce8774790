import KernelDispatch.Proofs.Forecast.SingleSize
import KernelDispatch.Proofs.Number.Rounding

/-!
# Lines of numbers

Measurements can be anything a double can be, and their sums, squares and quotients can pass
beyond the largest double on the way. The line of least squares is looked at once it is
found, and is given up where it is not made of numbers.

The line through the origin is not looked at. What is looked at are the squares of the works
that it is divided by, so the works are numbers. Whether its slope is one is left to the
products of works and times: it is exactly where their sum is a number, and less than some
2¹⁰²⁴ times the squares. Times that are no numbers, and small works of long times, pass.

## Main definitions

* `Line.Finite` — whether a line is made of numbers.
* `CostModel.Guarded` — whether an answer is such a line or a complaint about the samples.
* `CostModel.FiniteLines` — which of the answers of a cost model are guarded.

## Main results

* `CostModel.finite_lines` — lines of least squares are guarded, and when the others are.
* `CostModel.unguarded_at_tiny_work` — a measurement whose line has an infinite slope.
-/

namespace KernelDispatch

namespace Double

open Float.Model (UnpackedFloat)
open Float.Model.UnpackedFloat

theorem not_finite_mul_right {x y : Float} (h : Scalar.finite y = false) :
    Scalar.finite (x * y) = false := by
  rw [finite_eq] at h
  rw [finite_eq, shape_mul]
  refine not_finite_written ?_
  generalize shape x = f
  generalize shape y = g at h ⊢
  cases f <;> cases g <;> simp_all [UnpackedFloat.mul, isFinite]

end Double

open Double

namespace Line

/-- Whether a line is made of numbers. -/
def Finite (line : Line Float) : Prop :=
  Scalar.finite line.intercept = true ∧ Scalar.finite line.slope = true

/-- The squares of the works. -/
def workSquares (samples : List (Sample Float)) : Float :=
  Scalar.sum (samples.map fun s => s.work * s.work)

/-- The products of the works and the times. -/
def workTimes (samples : List (Sample Float)) : Float :=
  Scalar.sum (samples.map fun s => s.work * s.time)

variable {samples : List (Sample Float)} {line : Line Float}

/-- A line of least squares is made of numbers. -/
theorem finite_of_fit (h : fit samples = .ok line) : line.Finite := by
  unfold fit at h
  split at h
  · cases h
  · dsimp only at h
    split at h
    · cases h
    · split at h
      · rename_i hfinite
        rw [Bool.and_eq_true] at hfinite
        obtain rfl := Except.ok.inj h
        exact hfinite
      · cases h

theorem fitThroughOrigin_of_divides (h : divides (workSquares samples) = true) :
    fitThroughOrigin samples = .ok ⟨Scalar.zero, workTimes samples / workSquares samples⟩ := by
  unfold fitThroughOrigin
  dsimp only
  rw [workSquares] at h
  rw [if_neg (by rw [h]; decide)]
  rfl

theorem fitThroughOrigin_of_not_divides (h : divides (workSquares samples) = false) :
    fitThroughOrigin samples = .error samples.length := by
  unfold fitThroughOrigin
  dsimp only
  rw [workSquares] at h
  rw [if_pos (by rw [h]; decide)]

/-- What can be divided by is a number of units that is not zero. -/
theorem units_of_divides {x : Float} (h : divides x = true) : ∃ k, units? x = some k ∧ 0 < k := by
  rw [divides, Bool.and_eq_true, Bool.not_eq_true'] at h
  obtain ⟨habove, hfinite⟩ := h
  obtain ⟨k, hk⟩ := exists_units hfinite
  refine ⟨k, hk, Nat.pos_of_ne_zero fun hzero => ?_⟩
  subst hzero
  rw [(isZero_of_units hk).atMost_zero] at habove
  cases habove

theorem finite_work_of_divides (h : divides (workSquares samples) = true) :
    ∀ s ∈ samples, Scalar.finite s.work = true := by
  intro s hs
  by_contra hwork
  have hsquare : Scalar.finite (s.work * s.work) = false :=
    not_finite_mul (Bool.eq_false_iff.2 hwork)
  have hsum : Scalar.finite (workSquares samples) = false :=
    not_finite_sum (List.mem_map.2 ⟨s, hs, rfl⟩) hsquare
  rw [divides, hsum, Bool.and_false] at h
  cases h

/-- Products of which one is no number do not give a slope. -/
theorem finite_time_of_slope
    (h : Scalar.finite (workTimes samples / workSquares samples) = true) :
    ∀ s ∈ samples, Scalar.finite s.time = true := by
  intro s hs
  by_contra htime
  have hproduct : Scalar.finite (s.work * s.time) = false :=
    not_finite_mul_right (Bool.eq_false_iff.2 htime)
  have hsum : Scalar.finite (workTimes samples) = false :=
    not_finite_sum (List.mem_map.2 ⟨s, hs, rfl⟩) hproduct
  rw [not_finite_div hsum] at h
  cases h

end Line

namespace CostModel

/-- Whether an answer is a line of numbers, or else the complaint that the samples of the
kernel do not determine one. -/
def Guarded (kernel : String) (answer : Result (Line Float)) : Prop :=
  (∃ line, answer = .ok line ∧ line.Finite) ∨ ∃ n, answer = .error (.underflow kernel n)

/-- Which of the answers to these samples of a kernel are guarded. -/
structure FiniteLines (kernel : String) (samples : List (Sample Float)) : Prop where
  /-- The line of least squares is. -/
  fit : Guarded kernel (named kernel (Line.fit samples))
  /-- So is the line that a model answers. -/
  line : ∀ m : CostModel, m.samples kernel = samples → Guarded kernel (m.line kernel)
  /-- So is the line after the last of the samples has been learned, where there is one. -/
  learn : ∀ (m : CostModel) (sample : Sample Float), m.samples kernel ++ [sample] = samples →
    (∃ line, (m.learn kernel sample).2 = some line ∧ line.Finite ∧ Line.fit samples = .ok line) ∨
      (m.learn kernel sample).2 = none ∧
        ∃ n, named kernel (Line.fit samples) = .error (.underflow kernel n)
  /-- A model draws its line through the origin from the samples that it has. -/
  throughOrigin : ∀ m : CostModel, m.samples kernel = samples →
    m.lineThroughOrigin kernel = named kernel (Line.fitThroughOrigin samples)
  /-- Without squares to divide by there is no line through the origin. -/
  refused : Line.divides (Line.workSquares samples) = false →
    named kernel (Line.fitThroughOrigin samples) = .error (.underflow kernel samples.length)
  /-- With them there is one, through the origin indeed, and its works are numbers. -/
  drawn : Line.divides (Line.workSquares samples) = true →
    ∃ line, named kernel (Line.fitThroughOrigin samples) = .ok line ∧
      line.intercept = Scalar.zero ∧ ∀ s ∈ samples, Scalar.finite s.work = true
  /-- It is made of numbers exactly where the products are one, and not too large a one for
  the squares. -/
  origin : Guarded kernel (named kernel (Line.fitThroughOrigin samples)) ↔
    Line.divides (Line.workSquares samples) = false ∨
      ∃ p k, units? (Line.workTimes samples) = some p ∧
        units? (Line.workSquares samples) = some k ∧ p * 2 ^ placesBelowOne < beyond * k
  /-- A time that is no number is never complained about. -/
  time : Line.divides (Line.workSquares samples) = true →
    Guarded kernel (named kernel (Line.fitThroughOrigin samples)) →
      ∀ s ∈ samples, Scalar.finite s.time = true

variable {kernel : String} {samples : List (Sample Float)}

theorem guarded_fit (kernel : String) (samples : List (Sample Float)) :
    Guarded kernel (named kernel (Line.fit samples)) := by
  cases hfit : Line.fit samples with
  | ok line => exact .inl ⟨line, rfl, Line.finite_of_fit hfit⟩
  | error n => exact .inr ⟨n, rfl⟩

theorem learn_of_samples {m : CostModel} {sample : Sample Float}
    (h : m.samples kernel ++ [sample] = samples) :
    (m.learn kernel sample).2 = (named kernel (Line.fit samples)).toOption := by
  have hrecord : (m.record kernel sample).samples kernel = samples := by
    rw [← h]
    simp [CostModel.samples, record]
  show ((m.record kernel sample).line kernel).toOption = _
  rw [CostModel.line, hrecord]

/-- A line through the origin is guarded exactly where its slope is a number. -/
theorem guarded_throughOrigin_iff (h : Line.divides (Line.workSquares samples) = true) :
    Guarded kernel (named kernel (Line.fitThroughOrigin samples)) ↔
      Scalar.finite (Line.workTimes samples / Line.workSquares samples) = true := by
  rw [Line.fitThroughOrigin_of_divides h]
  constructor
  · rintro (⟨line, hline, -, hslope⟩ | ⟨n, herror⟩)
    · obtain rfl := Except.ok.inj hline
      exact hslope
    · cases herror
  · have hzero : Scalar.finite (Scalar.zero : Float) = true := by decide +kernel
    exact fun hslope => .inl ⟨_, rfl, hzero, hslope⟩

/-- No line of least squares has anything in it that is no number, and a line through the
origin has where its slope passes beyond the largest double. -/
theorem finite_lines (kernel : String) (samples : List (Sample Float)) :
    FiniteLines kernel samples where
  fit := guarded_fit kernel samples
  line m hm := by
    rw [CostModel.line, hm]
    exact guarded_fit kernel samples
  learn m sample hm := by
    rw [learn_of_samples hm]
    cases hfit : Line.fit samples with
    | ok line => exact .inl ⟨line, rfl, Line.finite_of_fit hfit, rfl⟩
    | error n => exact .inr ⟨rfl, n, rfl⟩
  throughOrigin m hm := by rw [lineThroughOrigin, hm]
  refused h := by
    rw [Line.fitThroughOrigin_of_not_divides h]
    rfl
  drawn h := by
    rw [Line.fitThroughOrigin_of_divides h]
    exact ⟨_, rfl, rfl, Line.finite_work_of_divides h⟩
  origin := by
    cases hdivides : Line.divides (Line.workSquares samples) with
    | false =>
        rw [Line.fitThroughOrigin_of_not_divides hdivides]
        exact iff_of_true (.inr ⟨_, rfl⟩) (.inl rfl)
    | true =>
        obtain ⟨k, hk, hpos⟩ := Line.units_of_divides hdivides
        rw [guarded_throughOrigin_iff hdivides, finite_div_iff hk hpos, hk]
        simp
  time hdivides hguarded :=
    Line.finite_time_of_slope ((guarded_throughOrigin_iff hdivides).1 hguarded)

/-- One measurement, of very little work and very long. -/
def atTinyWork : List (Sample Float) := [⟨1e-150, 1e160⟩]

/-- The square of the work can be divided by, and the slope of the line is infinite. -/
theorem unguarded_at_tiny_work :
    (∀ s ∈ atTinyWork, Scalar.finite s.work = true ∧ Scalar.finite s.time = true) ∧
      (∃ line, named "k" (Line.fitThroughOrigin atTinyWork) = .ok line ∧
        Scalar.finite line.slope = false) ∧
      ¬ Guarded "k" (named "k" (Line.fitThroughOrigin atTinyWork)) := by
  have hdivides : Line.divides (Line.workSquares atTinyWork) = true := by decide +kernel
  have hslope : Scalar.finite (Line.workTimes atTinyWork / Line.workSquares atTinyWork) = false := by
    decide +kernel
  refine ⟨by decide +kernel, ?_, fun hguarded => ?_⟩
  · rw [Line.fitThroughOrigin_of_divides hdivides]
    exact ⟨_, rfl, hslope⟩
  · rw [guarded_throughOrigin_iff hdivides, hslope] at hguarded
    cases hguarded

end CostModel

end KernelDispatch
