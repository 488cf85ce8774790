import KernelDispatch.Proofs.Forecast.Blending
import KernelDispatch.Proofs.Number.Exact
import KernelDispatch.Proofs.Scheduler.Learning

/-!
# The estimates of a scheduler

A scheduler is built only from settings that pass their check, and the check lets a prior pass
if it is finite and not below zero. Such a double is a fraction that is not negative.

Models are made where they are first asked for, and made again where a scheduler is reset.
Whichever of them answers, it answers by one formula: the prior is that of the settings, rate
and fixed cost are those of the calibration, and the measurements are those in the records since
the last reset. What is known of the formula over fractions is therefore known of every estimate
that the scheduler gives, but for the rounding.

## Main definitions

* `Blueprint.estimate` — the formula that a scheduler estimates by.
* `Scheduler.Course.Blends` — what holds of the estimates in a course.

## Main results

* `Settings.prior_of_check` — a prior that has passed.
* `Scheduler.Course.blends` — what holds of the estimates in every course.
-/

namespace KernelDispatch

open Number

/-- A prior that has passed is a fraction that is not negative. -/
theorem Settings.prior_of_check {s : Settings} (h : s.check = .ok ()) :
    ∃ prior : Rat, 0 ≤ prior ∧ (ofFloat s.hybridPrior).fraction? = some prior := by
  have hpassed : ¬ (!s.hybridPrior.isFinite || s.hybridPrior < 0.0) = true := by
    unfold check at h
    split_ifs at h with _ _ _ hpassed
    exact hpassed
  rw [Bool.or_eq_true_iff, not_or] at hpassed
  obtain ⟨hfinite, hnotless⟩ := hpassed
  replace hfinite : Scalar.finite s.hybridPrior = true := by
    show s.hybridPrior.isFinite = true
    simpa using hfinite
  replace hnotless : Scalar.less s.hybridPrior Scalar.zero ≠ true := hnotless
  have hsome := Double.isSome_fraction? s.hybridPrior
  rw [hfinite, Option.isSome_iff_exists] at hsome
  obtain ⟨prior, hprior⟩ := hsome
  refine ⟨prior, ?_, hprior⟩
  rw [Double.less_zero_eq hprior, ne_eq, decide_eq_true_iff] at hnotless
  exact not_lt.1 hnotless

namespace Blueprint

variable {p : Blueprint} {device : Device} {directory : Directory} {s : Scheduler}

/-- A scheduler that was built has settings that pass, and has just been assembled. -/
theorem assembled_of_build (h : p.build device directory = .ok s) :
    p.settings.check = .ok () ∧ ∃ opened, s = p.assemble device opened := by
  simp only [build, bind, Except.bind] at h
  cases hcheck : p.settings.check with
  | error e => simp [hcheck] at h
  | ok =>
      cases hopen : openLog p.settings directory with
      | error e => simp [hcheck, hopen] at h
      | ok opened =>
          simp only [hcheck, hopen] at h
          exact ⟨rfl, opened, (Except.ok.inj h).symm⟩

/-- The estimates for a launch of `n` items from a list of measurements. -/
def estimate (p : Blueprint) (configuration kernel : String) (samples : List (Sample Float))
    (n : UInt64) : Prediction Float :=
  let calibration := p.table.getOrAssumed configuration kernel
  .estimate p.settings.hybridPrior calibration.rate calibration.fixed (calibration.operations n)
    samples

end Blueprint

namespace Scheduler.Course

/-- What holds of the estimates in a course. -/
structure Blends (p : Blueprint) (c : Course) : Prop where
  /-- Every model estimates by the same formula, with the measurements in the records. -/
  models : ∀ configuration kernel n,
    (c.scheduler.books.model configuration).predict kernel n =
      p.estimate configuration kernel (c.samples configuration kernel) n
  /-- The scheduler answers what the model of its configuration estimates. -/
  answers : ∀ configuration, c.scheduler.current = some configuration → ∀ t,
    c.scheduler.predict t =
      .ok (p.estimate configuration t.kernel (c.samples configuration t.kernel) t.workItems)
  /-- The prior is a fraction that is not negative, and over fractions it blends the estimates,
  whatever was calibrated and measured. -/
  exactly : ∃ prior : Rat, 0 ≤ prior ∧ (ofFloat p.settings.hybridPrior).fraction? = some prior ∧
    ∀ rate fixed work samples, Prediction.Blended prior rate fixed work samples

/-- In every course of a scheduler that was built, calibrated estimate and line are blended. -/
theorem blends {p : Blueprint} {device : Device} {directory : Directory} {s : Scheduler}
    (h : p.build device directory = .ok s) (moves : List Move) :
    Blends p (run { scheduler := s } moves) := by
  obtain ⟨hcheck, opened, rfl⟩ := Blueprint.assembled_of_build h
  obtain ⟨prior, hnonneg, hprior⟩ := Settings.prior_of_check hcheck
  have hmodelled : Modelled p (run { scheduler := p.assemble device opened } moves) :=
    .ofBlueprint p device opened moves
  have hmodels : ∀ configuration kernel n,
      ((run { scheduler := p.assemble device opened } moves).scheduler.books.model
        configuration).predict kernel n = p.estimate configuration kernel
          ((run { scheduler := p.assemble device opened } moves).samples configuration kernel) n := by
    intro configuration kernel n
    rw [CostModel.predict_eq _ (hmodelled.shape configuration), hmodelled.samples]
    rfl
  refine ⟨hmodels, ?_, prior, hnonneg, hprior, Prediction.blended hnonneg⟩
  intro configuration hcurrent t
  rw [Scheduler.predict, currentModel, hcurrent]
  exact congrArg Except.ok (hmodels configuration t.kernel t.workItems)

/-- The directory of the standard settings, with one image. -/
def oneKernel : Directory :=
  { path := "../kernels", files := NameMap.empty.insert "cfg.aocx" (Image.encode ["k"]) }

/-- A launch takes a second, and another one for each of its items. -/
def slowDevice : Device := .withTiming ⟨1000000000, 1000000000⟩

/-- Launches of two sizes of one kernel are measured. -/
def measuresTwoSizes : List Move :=
  [.addConfiguration "cfg", .addTask { kernel := "k" }, .work "k", .work "k", .work "k", .work "k",
    .addTask { kernel := "k", geometry := .line 2 }, .work "k", .work "k", .work "k", .work "k"]

/-- The standard settings pass, and there is a line to blend. -/
theorem blends_of_standard : ∃ s, ({} : Blueprint).build slowDevice oneKernel = .ok s ∧
    ((run { scheduler := s } measuresTwoSizes).scheduler.line "k").toOption = some ⟨1.0, 1.0⟩ ∧
      Blends {} (run { scheduler := s } measuresTwoSizes) :=
  ⟨({} : Blueprint).assemble slowDevice oneKernel, rfl, by decide +kernel,
    blends rfl measuresTwoSizes⟩

end Scheduler.Course

end KernelDispatch
