import KernelDispatch.Proofs.Forecast.LeastSquares

/-!
# The blend of both estimates

Over fractions the blend of an estimate on the line and a calibrated one lies between the two.
Its distance from the line is a share of the distance between them, the prior's share in prior
and measurements together, and every further measurement makes it smaller.

There is a line only where two measurements have different sizes, so the shares are of
something. That nothing is divided by zero anywhere on the way to an estimate is said with a
third reading of the formulas: fractions that become nothing at all where they are divided by
zero, and stay so in all that is computed from them. Nothing is compared as if it were a number
without being one, and still it passes for finite, so that no test hides it.

## Main definitions

* `Prediction.estimate` — all estimates for an amount of work, from a calibration.
* `Checked` — fractions that are lost where they are divided by zero.
* `Prediction.Blended` — what holds of the estimates.

## Main results

* `Prediction.estimate_checked` — nothing is divided by zero.
* `Prediction.hybrid_sub_online` — how far the blend is from the line.
* `Prediction.blended` — all that holds of the estimates, if the prior is not negative.
-/

namespace KernelDispatch

/-- All estimates for an amount of work, given rate and fixed cost of the kernel and its
measurements. -/
def Prediction.estimate {α : Type} [Scalar α] (prior rate fixed work : α)
    (samples : List (Sample α)) : Prediction α :=
  .make prior samples work (ratedTime rate fixed work)

/-! ## Division by zero -/

/-- A fraction, or nothing at all where something was divided by zero. -/
inductive Checked where
  | number (x : Rat)
  | undefined
deriving BEq

namespace Checked

/-- An operation on fractions, which has no result where an operand is missing. -/
def lift (f : Rat → Rat → Checked) : Checked → Checked → Checked
  | .number x, .number y => f x y
  | _, _ => .undefined

/-- A comparison of fractions, which fails where one is missing. -/
def compare (r : Rat → Rat → Bool) : Checked → Checked → Bool
  | .number x, .number y => r x y
  | _, _ => false

instance : Scalar Checked where
  add := lift fun x y => .number (x + y)
  sub := lift fun x y => .number (x - y)
  mul := lift fun x y => .number (x * y)
  div := lift fun x y => if y = 0 then .undefined else .number (x / y)
  ofCount n := .number n
  less := compare fun x y => x < y
  atMost := compare fun x y => x ≤ y
  finite _ := true

section

variable {x y : Rat} {samples : List (Sample Rat)}

theorem number_div (h : y ≠ 0) : number x / number y = number (x / y) := if_neg h

theorem sum_number (xs : List Rat) : Scalar.sum (xs.map number) = number xs.sum := by
  have hfrom : ∀ start : Rat, (xs.map number).foldl (· + ·) (number start) =
      number (start + xs.sum) := by
    induction xs with
    | nil => simp
    | cons x xs ih =>
        intro start
        rw [List.map_cons, List.foldl_cons, List.sum_cons, ← add_assoc]
        exact ih (start + x)
  show (xs.map number).foldl (· + ·) (number ((0 : Nat) : Rat)) = _
  rw [hfrom, Nat.cast_zero, zero_add]

/-- A measurement that is known. -/
def ofSample (s : Sample Rat) : Sample Checked := ⟨.number s.work, .number s.time⟩

/-- A line that is known. -/
def ofLine (l : Line Rat) : Line Checked := ⟨.number l.intercept, .number l.slope⟩

/-- Estimates that are known. -/
def ofPrediction (p : Prediction Rat) : Prediction Checked where
  work := .number p.work
  online := p.online.map .number
  offline := .number p.offline
  hybrid := .number p.hybrid

theorem sum_map_ofSample (f : Sample Checked → Checked) (g : Sample Rat → Rat)
    (hf : ∀ s, f (ofSample s) = number (g s)) (samples : List (Sample Rat)) :
    Scalar.sum ((samples.map ofSample).map f) = number (samples.map g).sum := by
  rw [← sum_number, List.map_map, List.map_map]
  congr 1
  exact List.map_congr_left fun s _ => hf s

theorem mean_ofSample (side : Sample Checked → Checked) (side' : Sample Rat → Rat)
    (hside : ∀ s, side (ofSample s) = number (side' s)) (hne : samples ≠ []) :
    Sample.mean side (samples.map ofSample) = number (Sample.mean side' samples) := by
  have hlength : (samples.length : Rat) ≠ 0 := by simpa using hne
  rw [Sample.mean, sum_map_ofSample side side' hside, List.length_map, Sample.mean_rat]
  exact number_div hlength

theorem divides_number (x : Rat) : Line.divides (number x) = Line.divides x := rfl

/-- The line through measurements that are known is known. -/
theorem fit_ofSample (samples : List (Sample Rat)) :
    (Line.fit (samples.map ofSample)).toOption = (Line.fit samples).toOption.map ofLine := by
  by_cases hlength : samples.length < 2
  · have hlength' : (samples.map ofSample).length < 2 := by rwa [List.length_map]
    rw [Line.fit, if_pos hlength', Line.fit, if_pos hlength]
    rfl
  have hne : samples ≠ [] := by
    rintro rfl
    exact hlength (by decide)
  have hlength' : ¬ (samples.map ofSample).length < 2 := by rwa [List.length_map]
  have hwork := mean_ofSample Sample.work Sample.work (fun _ => rfl) hne
  have htime := mean_ofSample Sample.time Sample.time (fun _ => rfl) hne
  have hsquares : Scalar.sum ((samples.map ofSample).map fun s =>
      (s.work - number (Sample.mean Sample.work samples)) *
        (s.work - number (Sample.mean Sample.work samples))) = number (Sample.spread samples) :=
    sum_map_ofSample _ _ (fun _ => rfl) samples
  have hproducts : Scalar.sum ((samples.map ofSample).map fun s =>
      (s.work - number (Sample.mean Sample.work samples)) *
        (s.time - number (Sample.mean Sample.time samples))) = number (Sample.covariation samples) :=
    sum_map_ofSample _ _ (fun _ => rfl) samples
  rw [Line.fit_eq hlength, Line.fit, if_neg hlength', hwork, htime]
  dsimp only
  rw [hsquares, hproducts, divides_number, Line.divides_rat]
  by_cases hpos : 0 < Sample.spread samples
  · rw [number_div (ne_of_gt hpos)]
    simp only [hpos, decide_true, Bool.not_true, if_true]
    rfl
  · simp only [hpos, decide_false, Bool.not_false, if_true, if_false]
    rfl

end

end Checked

namespace Prediction

section

variable {prior rate fixed work online : Rat} {samples more : List (Sample Rat)}

theorem make_eq {α : Type} [Scalar α] (prior : α) (samples : List (Sample α)) (work offline : α) :
    make prior samples work offline =
      match (Line.fit samples).toOption with
      | some line =>
          { work
            online := some (line.timeOf work)
            offline
            hybrid := blend prior samples.length (line.timeOf work) offline }
      | none => { work, online := none, offline, hybrid := offline } := by
  unfold make
  cases Line.fit samples <;> rfl

/-- There is a line only through two measurements or more. -/
theorem two_le_length {line : Line Rat} (h : (Line.fit samples).toOption = some line) :
    2 ≤ samples.length := by
  by_contra hfew
  rw [Line.fit, if_pos (by omega)] at h
  cases h

/-- What the calibration says is known, also where its rate says nothing. -/
theorem ratedTime_number (rate fixed work : Rat) :
    ratedTime (Checked.number rate) (.number fixed) (.number work) =
      .number (ratedTime rate fixed work) := by
  have hsame : Scalar.atMost (Checked.number rate) Scalar.zero = Scalar.atMost rate Scalar.zero :=
    rfl
  unfold ratedTime
  rw [hsame]
  split
  · rfl
  · rename_i hrate
    have hpos : ¬ rate ≤ 0 := fun hle => hrate (decide_eq_true hle)
    rw [Checked.number_div (ne_of_gt (not_le.1 hpos))]
    rfl

theorem blend_number (hprior : 0 ≤ prior) {count : Nat} (hcount : 0 < count)
    (online offline : Rat) :
    blend (Checked.number prior) count (.number online) (.number offline) =
      .number (blend prior count online offline) := by
  have htotal : (count : Rat) + prior ≠ 0 := by positivity
  have hweight : (Checked.number count / (Checked.number count + .number prior)) =
      .number (count / (count + prior)) := Checked.number_div htotal
  show (Checked.number count / (Checked.number count + .number prior)) * _ +
    (Scalar.one - Checked.number count / (Checked.number count + .number prior)) * _ = _
  rw [hweight]
  rfl

/-- Nothing is divided by zero. -/
theorem estimate_checked (hprior : 0 ≤ prior) (rate fixed work : Rat)
    (samples : List (Sample Rat)) :
    estimate (Checked.number prior) (.number rate) (.number fixed) (.number work)
        (samples.map Checked.ofSample) =
      Checked.ofPrediction (estimate prior rate fixed work samples) := by
  rw [estimate, estimate, ratedTime_number, make_eq, make_eq, Checked.fit_ofSample]
  cases hfit : (Line.fit samples).toOption with
  | none => rfl
  | some line =>
      have hcount : 0 < samples.length := Nat.lt_of_lt_of_le Nat.two_pos (two_le_length hfit)
      have hblend := blend_number hprior hcount (line.timeOf work) (ratedTime rate fixed work)
      rw [Option.map_some, List.length_map]
      dsimp only [Checked.ofPrediction, Option.map_some]
      rw [← hblend]
      rfl

/-! ## Between line and calibration -/

/-- A point on the way from `a` that is not further along than another one. -/
theorem mem_uIcc_of_share {a d u v : Rat} (hu : 0 ≤ u) (huv : u ≤ v) :
    a + u * d ∈ Set.uIcc a (a + v * d) := by
  rw [Set.mem_uIcc]
  rcases le_total 0 d with hd | hd
  · have hfirst := mul_nonneg hu hd
    have hsecond := mul_le_mul_of_nonneg_right huv hd
    exact .inl ⟨by linarith, by linarith⟩
  · have hfirst := mul_nonpos_of_nonneg_of_nonpos hu hd
    have hsecond := mul_le_mul_of_nonpos_right huv hd
    exact .inr ⟨by linarith, by linarith⟩

/-- The prior's share in prior and measurements. -/
def share (prior : Rat) (samples : List (Sample Rat)) : Rat := prior / (samples.length + prior)

theorem share_nonneg (hprior : 0 ≤ prior) (samples : List (Sample Rat)) :
    0 ≤ share prior samples := by
  unfold share
  positivity

theorem share_lt_one (hprior : 0 ≤ prior) (hne : 0 < samples.length) :
    share prior samples < 1 := by
  have hlength : (0 : Rat) < samples.length := by exact_mod_cast hne
  rw [share, div_lt_one (by linarith)]
  linarith

/-- More measurements leave a smaller share to the prior. -/
theorem share_append_le (hprior : 0 ≤ prior) (hne : 0 < samples.length)
    (more : List (Sample Rat)) : share prior (samples ++ more) ≤ share prior samples := by
  have hlength : (0 : Rat) < samples.length := by exact_mod_cast hne
  have hmore : (samples.length : Rat) ≤ (samples ++ more).length := by
    rw [List.length_append]
    exact_mod_cast Nat.le_add_right _ _
  exact div_le_div_of_nonneg_left hprior (by linarith) (by linarith)

theorem share_append_lt (hprior : 0 < prior) (hne : 0 < samples.length) (hmore : more ≠ []) :
    share prior (samples ++ more) < share prior samples := by
  have hlength : (0 : Rat) < samples.length := by exact_mod_cast hne
  have hlonger : (samples.length : Rat) < (samples ++ more).length := by
    have := List.length_pos_iff.2 hmore
    rw [List.length_append]
    exact_mod_cast (by omega : samples.length < samples.length + more.length)
  exact div_lt_div_of_pos_left hprior (by linarith) (by linarith)

/-- Where there is a line, the blend is as far from it as the prior's share says. -/
theorem estimate_of_line (hprior : 0 ≤ prior) (rate fixed work : Rat) {line : Line Rat}
    (h : (Line.fit samples).toOption = some line) :
    (estimate prior rate fixed work samples).online = some (line.timeOf work) ∧
      (estimate prior rate fixed work samples).hybrid = line.timeOf work +
        share prior samples *
          ((estimate prior rate fixed work samples).offline - line.timeOf work) := by
  have hcount := two_le_length h
  have htotal : (samples.length : Rat) + prior ≠ 0 := by
    have : (0 : Rat) < samples.length := by exact_mod_cast (by omega : 0 < samples.length)
    linarith
  rw [estimate, make_eq, h]
  refine ⟨rfl, ?_⟩
  show (samples.length : Rat) / (samples.length + prior) * line.timeOf work +
    (1 - (samples.length : Rat) / (samples.length + prior)) * ratedTime rate fixed work = _
  rw [share]
  field_simp
  ring

theorem estimate_of_no_line (prior rate fixed work : Rat) (h : (Line.fit samples).toOption = none) :
    (estimate prior rate fixed work samples).online = none ∧
      (estimate prior rate fixed work samples).hybrid =
        (estimate prior rate fixed work samples).offline := by
  rw [estimate, make_eq, h]
  exact ⟨rfl, rfl⟩

/-- What holds of the estimates for an amount of work. -/
structure Blended (prior rate fixed work : Rat) (samples : List (Sample Rat)) : Prop where
  /-- On the way to them nothing is divided by zero. -/
  defined : estimate (Checked.number prior) (.number rate) (.number fixed) (.number work)
      (samples.map Checked.ofSample) =
    Checked.ofPrediction (estimate prior rate fixed work samples)
  /-- There is an estimate on the line exactly where there is a line, which takes two
  measurements. -/
  online : (estimate prior rate fixed work samples).online =
    (Line.fit samples).toOption.map fun line => line.timeOf work
  measured : ∀ online ∈ (estimate prior rate fixed work samples).online, 2 ≤ samples.length
  /-- Without one the blend is the calibrated estimate. -/
  unmeasured : (estimate prior rate fixed work samples).online = none →
    (estimate prior rate fixed work samples).hybrid =
      (estimate prior rate fixed work samples).offline
  /-- With one it lies between the two. -/
  between : ∀ online ∈ (estimate prior rate fixed work samples).online,
    (estimate prior rate fixed work samples).hybrid ∈
      Set.uIcc online (estimate prior rate fixed work samples).offline
  /-- The prior's share says how far it is from the line. -/
  distance : ∀ online ∈ (estimate prior rate fixed work samples).online,
    (estimate prior rate fixed work samples).hybrid - online =
      prior / (samples.length + prior) *
        ((estimate prior rate fixed work samples).offline - online)
  unweighted : prior = 0 → ∀ online ∈ (estimate prior rate fixed work samples).online,
    (estimate prior rate fixed work samples).hybrid = online
  /-- Further measurements that leave the line as it is bring the blend nearer to it. -/
  towards : ∀ more, Line.fit (samples ++ more) = Line.fit samples →
    ∀ online ∈ (estimate prior rate fixed work samples).online,
      (estimate prior rate fixed work (samples ++ more)).online = some online ∧
      (estimate prior rate fixed work (samples ++ more)).hybrid ∈
        Set.uIcc online (estimate prior rate fixed work samples).hybrid
  /-- It does not stay where it was, unless nothing was measured, the prior is zero or both
  estimates are the same. -/
  moves : ∀ more, Line.fit (samples ++ more) = Line.fit samples → more ≠ [] → 0 < prior →
    ∀ online ∈ (estimate prior rate fixed work samples).online,
      online ≠ (estimate prior rate fixed work samples).offline →
      (estimate prior rate fixed work (samples ++ more)).hybrid ≠
        (estimate prior rate fixed work samples).hybrid

theorem estimate_offline (prior rate fixed work : Rat) (samples : List (Sample Rat)) :
    (estimate prior rate fixed work samples).offline = ratedTime rate fixed work := by
  rw [estimate, make_eq]
  cases (Line.fit samples).toOption <;> rfl

/-- Where further measurements leave the line as it is, only the share changes. -/
theorem estimate_append_of_line (hprior : 0 ≤ prior) (rate fixed work : Rat) {line : Line Rat}
    (h : (Line.fit samples).toOption = some line)
    (hmore : Line.fit (samples ++ more) = Line.fit samples) :
    (estimate prior rate fixed work (samples ++ more)).online = some (line.timeOf work) ∧
      (estimate prior rate fixed work (samples ++ more)).hybrid = line.timeOf work +
        share prior (samples ++ more) *
          ((estimate prior rate fixed work samples).offline - line.timeOf work) := by
  have hline : (Line.fit (samples ++ more)).toOption = some line := by rw [hmore, h]
  have hsame := estimate_of_line hprior rate fixed work hline
  rwa [estimate_offline prior rate fixed work (samples ++ more),
    ← estimate_offline prior rate fixed work samples] at hsame

theorem blended_of_no_line (hprior : 0 ≤ prior) (rate fixed work : Rat)
    (h : (Line.fit samples).toOption = none) : Blended prior rate fixed work samples := by
  obtain ⟨honline, hhybrid⟩ := estimate_of_no_line prior rate fixed work h
  have hnone : ∀ online, online ∉ (estimate prior rate fixed work samples).online := by
    intro online hmem
    rw [honline] at hmem
    cases hmem
  exact {
    defined := estimate_checked hprior rate fixed work samples
    online := by rw [honline, h]; rfl
    measured := fun online hmem => absurd hmem (hnone online)
    unmeasured := fun _ => hhybrid
    between := fun online hmem => absurd hmem (hnone online)
    distance := fun online hmem => absurd hmem (hnone online)
    unweighted := fun _ online hmem => absurd hmem (hnone online)
    towards := fun _ _ online hmem => absurd hmem (hnone online)
    moves := fun _ _ _ _ online hmem => absurd hmem (hnone online) }

theorem blended_of_line (hprior : 0 ≤ prior) (rate fixed work : Rat) {line : Line Rat}
    (h : (Line.fit samples).toOption = some line) : Blended prior rate fixed work samples := by
  have hmeasured : 0 < samples.length := Nat.lt_of_lt_of_le Nat.two_pos (two_le_length h)
  have hnonneg := share_nonneg hprior samples
  have hless := share_lt_one hprior hmeasured
  obtain ⟨honline, hhybrid⟩ := estimate_of_line hprior rate fixed work h
  have hsome : ∀ online ∈ (estimate prior rate fixed work samples).online,
      online = line.timeOf work := by
    intro online hmem
    rw [honline] at hmem
    exact (Option.mem_some_iff.1 hmem).symm
  constructor
  · exact estimate_checked hprior rate fixed work samples
  · rw [honline, h]
    rfl
  · exact fun _ _ => two_le_length h
  · intro hnone
    rw [honline] at hnone
    cases hnone
  · intro online hmem
    obtain rfl := hsome online hmem
    have hall := mem_uIcc_of_share (a := line.timeOf work)
      (d := (estimate prior rate fixed work samples).offline - line.timeOf work)
      hnonneg (le_of_lt hless)
    rwa [one_mul, add_sub_cancel, ← hhybrid] at hall
  · intro online hmem
    obtain rfl := hsome online hmem
    rw [hhybrid, add_sub_cancel_left, share]
  · rintro rfl online hmem
    rw [hsome online hmem, hhybrid, share, zero_div, zero_mul, add_zero]
  · intro more hmore online hmem
    obtain rfl := hsome online hmem
    obtain ⟨honline', hhybrid'⟩ := estimate_append_of_line hprior rate fixed work h hmore
    refine ⟨honline', ?_⟩
    rw [hhybrid, hhybrid']
    exact mem_uIcc_of_share (share_nonneg hprior _) (share_append_le hprior hmeasured more)
  · intro more hmore hne hpos online hmem happart
    obtain rfl := hsome online hmem
    obtain ⟨-, hhybrid'⟩ := estimate_append_of_line hprior rate fixed work h hmore
    have hlt := share_append_lt hpos hmeasured hne
    rw [hhybrid, hhybrid']
    intro hsame
    have hproduct := mul_right_cancel₀ (sub_ne_zero.2 (Ne.symm happart)) (add_left_cancel hsame)
    exact absurd hproduct (ne_of_lt hlt)

/-- A prior that is not negative blends the two estimates. -/
theorem blended (hprior : 0 ≤ prior) (rate fixed work : Rat) (samples : List (Sample Rat)) :
    Blended prior rate fixed work samples := by
  cases hfit : (Line.fit samples).toOption with
  | none => exact blended_of_no_line hprior rate fixed work hfit
  | some line => exact blended_of_line hprior rate fixed work hfit

end

end Prediction

end KernelDispatch
