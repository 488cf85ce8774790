import KernelDispatch.Forecast.CostModel
import KernelDispatch.Proofs.Number.Double

/-!
# Measurements at a single size

A line needs two different amounts of work. `Line.fit` does not compare the amounts: it
adds up the squares of their distances from their mean, and gives up where the sum is
zero. The mean is rounded twice, where the amounts are added up and where the sum is
divided, so the mean of equal amounts need not be that amount. Where it is off, the squares
are not zero, and a line comes out of measurements that were all made at one size.

So the rule holds of the amounts whose sums are not rounded. Whole numbers are such as long
as the sums do not exceed 2⁵³, and so is every amount measured once or twice; one tenth,
measured three times, is not.

## Main definitions

* `CostModel.Indistinct` — whether there is no line because all are of one size.
* `CostModel.SingleSize` — what measurements at a single size come to.

## Main results

* `CostModel.single_size` — which measurements at a single size have no line.
* `CostModel.line_at_one_tenth` — one size, three measurements, and a line.
-/

namespace KernelDispatch

open Double

namespace Sample

theorem work_replicate {x : Float} {samples : List (Sample Float)}
    (h : ∀ s ∈ samples, s.work = x) :
    samples.map Sample.work = List.replicate samples.length x := by
  rw [List.eq_replicate_iff]
  refine ⟨List.length_map _, fun y hy => ?_⟩
  obtain ⟨s, hs, rfl⟩ := List.mem_map.1 hy
  exact h s hs

theorem eraseDups_replicate {x : Float} (h : (x == x) = true) (n : Nat) :
    (List.replicate (n + 1) x).eraseDups = [x] := by
  rw [List.replicate_succ, List.eraseDups_cons, List.filter_eq_nil_iff.2]
  · rfl
  · intro y hy
    rw [List.eq_of_mem_replicate hy, h]
    decide

/-- Samples of one amount of work tell one amount apart. -/
theorem distinctWork_eq_one {x : Float} {samples : List (Sample Float)}
    (hx : Scalar.finite x = true) (hne : samples ≠ []) (h : ∀ s ∈ samples, s.work = x) :
    distinctWork samples = 1 := by
  obtain ⟨n, hn⟩ : ∃ n, samples.length = n + 1 :=
    Nat.exists_eq_succ_of_ne_zero (by simpa using hne)
  rw [distinctWork, work_replicate h, hn, eraseDups_replicate (beq_self hx)]
  rfl

end Sample

/-! ## Sums of equal numbers -/

namespace Double

theorem sum_concat (xs : List Float) (x : Float) :
    Scalar.sum (xs ++ [x]) = Scalar.sum xs + x := by
  rw [Scalar.sum, List.foldl_append]
  rfl

theorem isZero_sum {xs : List Float} (h : ∀ x ∈ xs, IsZero x) : IsZero (Scalar.sum xs) := by
  induction xs using List.reverseRecOn with
  | nil => exact isZero_zero
  | append_singleton xs x ih =>
      rw [sum_concat]
      exact (ih fun y hy => h y (by simp [hy])).add (h x (by simp))

/-- A sum with something in it that is no number is none either. -/
theorem not_finite_sum {xs : List Float} {x : Float} (hx : x ∈ xs)
    (h : Scalar.finite x = false) : Scalar.finite (Scalar.sum xs) = false := by
  induction xs using List.reverseRecOn with
  | nil => simp at hx
  | append_singleton xs y ih =>
      rw [sum_concat]
      rcases List.mem_append.1 hx with hmem | hlast
      · exact not_finite_add (.inl (ih hmem))
      · obtain rfl := List.mem_singleton.1 hlast
        exact not_finite_add (.inr h)

/-- A double that is added up as long as the multiples are doubles is not rounded. -/
theorem shape_sum_replicate {x : Float} {sign : Float.Model.UnpackedFloat.Sign} {k : Nat}
    (hk : 0 < k) (hx : shape x = ofUnits sign k) (n : Nat) (hpos : 0 < n)
    (h : ∀ j ≤ n, Fits (j * k)) :
    shape (Scalar.sum (List.replicate n x)) = ofUnits sign (n * k) := by
  induction n with
  | zero => omega
  | succ n ih =>
      have hone : Fits k := by simpa using h 1 (by omega)
      have hnext : Fits (n * k + k) := by simpa [Nat.succ_mul] using h (n + 1) (Nat.le_refl _)
      rw [List.replicate_succ', sum_concat, shape_add, hx]
      by_cases hzero : n = 0
      · subst hzero
        have hstart : Scalar.sum (List.replicate 0 x) = Scalar.zero := rfl
        rw [hstart, shape_zero, zero_add_ofUnits sign hk, written_ofUnits sign hone, Nat.zero_add,
          Nat.one_mul]
      · have hbefore := ih (Nat.pos_of_ne_zero hzero) fun j hj => h j (by omega)
        rw [hbefore, add_ofUnits sign (Nat.mul_pos (Nat.pos_of_ne_zero hzero) hk) hk
          (h n (by omega)) hone hnext.digits, written_ofUnits sign hnext, Nat.succ_mul]

/-- A double and itself are not rounded, unless their sum is beyond the largest. -/
theorem shape_sum_two {x : Float} {sign : Float.Model.UnpackedFloat.Sign} {k : Nat}
    (hk : 0 < k) (hfits : Fits k) (hx : shape x = ofUnits sign k) :
    shape (Scalar.sum (List.replicate 2 x)) = written (ofUnits sign (k + k)) := by
  have htwo : Scalar.sum (List.replicate 2 x) = Scalar.zero + x + x := rfl
  rw [htwo, shape_add, shape_add, shape_zero, hx, zero_add_ofUnits sign hk,
    written_ofUnits sign hfits, add_ofUnits sign hk hk hfits hfits (digits_double hk hfits.digits)]

/-- Twice a double is a double, unless it is beyond the largest. -/
theorem units?_sum_two {x : Float} {k : Nat} (hpos : 0 < k) (hk : units? x = some k)
    (hfinite : Scalar.finite (Scalar.sum (List.replicate 2 x)) = true) :
    units? (Scalar.sum (List.replicate 2 x)) = some (2 * k) := by
  obtain ⟨hfits, sign, hshape⟩ := units?_eq_some hk
  have hdouble := shape_sum_two hpos hfits hshape
  have hlog : (k + k).log2 = k.log2 + 1 := by
    rw [← Nat.two_mul, Nat.log2_two_mul (Nat.ne_of_gt hpos)]
  have hbound : k.log2 + 1 < 2098 := by
    by_contra hbeyond
    rw [finite_eq, hdouble, written, unpack_pack_beyond sign (by omega)] at hfinite
    cases hfinite
  have htwo : Fits (k + k) := ⟨digits_double hpos hfits.digits, by rwa [hlog]⟩
  rw [written_ofUnits sign htwo] at hdouble
  rw [Nat.two_mul]
  exact units?_of_shape htwo hdouble

/-- The mean of equal doubles is not rounded where none of the sums is. -/
theorem shape_mean_replicate {x : Float} {sign : Float.Model.UnpackedFloat.Sign} {k n : Nat}
    (hk : 0 < k) (hx : shape x = ofUnits sign k) (hpos : 0 < n) (h : ∀ j ≤ n, Fits (j * k)) :
    shape (Scalar.sum (List.replicate n x) / Scalar.ofCount n) = ofUnits sign k := by
  have hone : Fits k := by simpa using h 1 hpos
  have hbound := count_le_of_multiples hk h
  rw [shape_div, shape_sum_replicate hk hx n hpos h, shape_ofCount hpos hbound,
    div_ofUnits sign hk hpos hone (h n (Nat.le_refl _)) (fits_countUnits hpos hbound),
    written_ofUnits sign hone]

end Double

/-! ## Lines -/

namespace Line

/-- The squares of the distances from the mean. -/
def squares (samples : List (Sample Float)) : Float :=
  Scalar.sum (samples.map fun s =>
    (s.work - Sample.mean Sample.work samples) * (s.work - Sample.mean Sample.work samples))

/-- A line is found only where the squares can be divided by. -/
theorem divides_of_fit {samples : List (Sample Float)} {line : Line Float}
    (h : fit samples = .ok line) : divides (squares samples) = true := by
  unfold fit at h
  split at h
  · cases h
  · dsimp only at h
    split at h
    · cases h
    · rename_i hdivides
      simpa [squares] using hdivides

variable {x : Float} {samples : List (Sample Float)}

theorem not_finite_squares (hne : samples ≠ [])
    (hmean : Scalar.finite (Sample.mean Sample.work samples) = false) :
    Scalar.finite (squares samples) = false := by
  obtain ⟨s, hs⟩ := List.exists_mem_of_ne_nil samples hne
  have hdistance := not_finite_sub (x := s.work) hmean
  exact not_finite_sum (List.mem_map.2 ⟨s, hs, rfl⟩) (not_finite_mul hdistance)

theorem isZero_squares (hx : Scalar.finite x = true) (h : ∀ s ∈ samples, s.work = x)
    (hmean : (x == Sample.mean Sample.work samples) = true) : IsZero (squares samples) := by
  refine isZero_sum fun y hy => ?_
  obtain ⟨s, hs, rfl⟩ := List.mem_map.1 hy
  rw [h s hs]
  have hdistance := isZero_sub hx hmean
  exact hdistance.mul hdistance

/-- Where no line is found, one amount of work is told apart. -/
theorem error_of_single_size (hx : Scalar.finite x = true) (hne : samples ≠ [])
    (h : ∀ s ∈ samples, s.work = x) {n : Nat} (hfit : fit samples = .error n) : n = 1 := by
  have hdistinct := Sample.distinctWork_eq_one hx hne h
  have hlength : samples.length ≠ 0 := by simpa using hne
  unfold fit at hfit
  split at hfit
  · obtain rfl := Except.error.inj hfit
    omega
  · dsimp only at hfit
    split at hfit
    · exact (Except.error.inj hfit).symm.trans hdistinct
    · split at hfit
      · cases hfit
      · exact (Except.error.inj hfit).symm.trans hdistinct

/-- A line is found only where the mean is a number and is not the size. -/
theorem mean_of_fit (hx : Scalar.finite x = true) (hne : samples ≠ [])
    (h : ∀ s ∈ samples, s.work = x) {line : Line Float} (hfit : fit samples = .ok line) :
    Scalar.finite (Sample.mean Sample.work samples) = true ∧
      (x == Sample.mean Sample.work samples) = false := by
  have hdivides := divides_of_fit hfit
  rw [divides, Bool.and_eq_true, Bool.not_eq_true'] at hdivides
  obtain ⟨habove, hfinite⟩ := hdivides
  constructor
  · by_contra hmean
    rw [not_finite_squares hne (Bool.eq_false_iff.2 hmean)] at hfinite
    cases hfinite
  · by_contra hmean
    rw [(isZero_squares hx h (eq_true_of_ne_false hmean)).atMost_zero] at habove
    cases habove

/-- Where the multiples of the size are doubles the mean is the size. -/
theorem mean_of_multiples {u : Nat} (hu : units? x = some u) (hne : samples ≠ [])
    (h : ∀ s ∈ samples, s.work = x)
    (hmultiples : ∀ j ≤ samples.length, ∃ y, units? y = some (j * u))
    (hfinite : Scalar.finite (Sample.mean Sample.work samples) = true) :
    (x == Sample.mean Sample.work samples) = true := by
  rw [Sample.mean, Sample.work_replicate h] at hfinite ⊢
  obtain rfl | hpos := Nat.eq_zero_or_pos u
  · have hzero := isZero_of_units hu
    have hsum : IsZero (Scalar.sum (List.replicate samples.length x)) :=
      isZero_sum fun y hy => by rwa [List.eq_of_mem_replicate hy]
    exact hzero.beq (hsum.div hfinite)
  · obtain ⟨-, sign, hshape⟩ := units?_eq_some hu
    have hfits : ∀ j ≤ samples.length, Fits (j * u) := fun j hj => by
      obtain ⟨y, hy⟩ := hmultiples j hj
      exact (units?_eq_some hy).1
    refine beq_of_shape_eq (finite_of_units hu) ?_
    rw [shape_mean_replicate hpos hshape (List.length_pos_iff.2 hne) hfits, hshape]

end Line

namespace CostModel

/-- Whether a kernel has no line because its measurements are all of one size. -/
def Indistinct (kernel : String) (samples : List (Sample Float)) : Prop :=
  named kernel (Line.fit samples) = .error (.underflow kernel 1)

/-- What measurements of a kernel at a single size come to. -/
structure SingleSize (kernel : String) (x : Float) (samples : List (Sample Float)) : Prop where
  /-- There is no line, or rounding has moved the mean off the size. -/
  settled : Indistinct kernel samples ∨
    (∃ line, Line.fit samples = .ok line) ∧
      Scalar.finite (Sample.mean Sample.work samples) = true ∧
      (x == Sample.mean Sample.work samples) = false
  /-- Two measurements are not enough to move it. -/
  few : samples.length ≤ 2 → Indistinct kernel samples
  /-- The mean stays where the multiples of the size are doubles. -/
  multiples : ∀ u, units? x = some u →
    (∀ j ≤ samples.length, ∃ y, units? y = some (j * u)) → Indistinct kernel samples
  /-- So it does for whole numbers, as long as the sums are exact. -/
  whole : ∀ k, x = Scalar.ofCount k → k * samples.length ≤ 2 ^ 53 → Indistinct kernel samples
  /-- Without a line the calibrated estimate stands alone. -/
  fallback : ∀ m : CostModel, m.samples kernel = samples → Indistinct kernel samples → ∀ n,
    (m.predict kernel n).online = none ∧
      (m.predict kernel n).hybrid = (m.predict kernel n).offline ∧
      m.cost kernel n = costOfSeconds (m.offlineTime kernel n)

variable {kernel : String} {x : Float} {samples : List (Sample Float)}

theorem indistinct_of_error (hx : Scalar.finite x = true) (hne : samples ≠ [])
    (h : ∀ s ∈ samples, s.work = x) {n : Nat} (hfit : Line.fit samples = .error n) :
    Indistinct kernel samples := by
  rw [Indistinct, hfit, Line.error_of_single_size hx hne h hfit]
  rfl

/-- There is no line where the mean, if it is a number, is the size. -/
theorem indistinct_of_mean (hx : Scalar.finite x = true) (hne : samples ≠ [])
    (h : ∀ s ∈ samples, s.work = x)
    (hmean : Scalar.finite (Sample.mean Sample.work samples) = true →
      (x == Sample.mean Sample.work samples) = true) : Indistinct kernel samples := by
  cases hfit : Line.fit samples with
  | error n => exact indistinct_of_error hx hne h hfit
  | ok line =>
      obtain ⟨hfinite, hoff⟩ := Line.mean_of_fit hx hne h hfit
      rw [hmean hfinite] at hoff
      cases hoff

theorem indistinct_of_multiples {u : Nat} (hu : units? x = some u) (hne : samples ≠ [])
    (h : ∀ s ∈ samples, s.work = x)
    (hmultiples : ∀ j ≤ samples.length, ∃ y, units? y = some (j * u)) :
    Indistinct kernel samples :=
  indistinct_of_mean (finite_of_units hu) hne h (Line.mean_of_multiples hu hne h hmultiples)

theorem indistinct_of_whole {k : Nat} (hne : samples ≠ [])
    (h : ∀ s ∈ samples, s.work = Scalar.ofCount k) (hbound : k * samples.length ≤ 2 ^ 53) :
    Indistinct kernel samples := by
  have hle : ∀ j ≤ samples.length, j * k ≤ 2 ^ 53 := fun j hj =>
    Nat.le_trans (Nat.mul_le_mul_right k hj) (by rwa [Nat.mul_comm])
  have hone : k ≤ 2 ^ 53 := by simpa using hle 1 (List.length_pos_iff.2 hne)
  refine indistinct_of_multiples (units?_ofCount hone) hne h fun j hj => ?_
  refine ⟨Scalar.ofCount (j * k), ?_⟩
  rw [units?_ofCount (hle j hj), countUnits, countUnits, Nat.mul_assoc]

theorem indistinct_of_few (hx : Scalar.finite x = true) (hne : samples ≠ [])
    (h : ∀ s ∈ samples, s.work = x) (hlength : samples.length ≤ 2) :
    Indistinct kernel samples := by
  obtain ⟨k, hk⟩ := exists_units hx
  obtain rfl | hpos := Nat.eq_zero_or_pos k
  · exact indistinct_of_multiples hk hne h fun j _ => ⟨x, hk⟩
  by_cases hfinite : Scalar.finite (Scalar.sum (List.replicate 2 x)) = true
  · refine indistinct_of_multiples hk hne h fun j hj => ?_
    match j, Nat.le_trans hj hlength with
    | 0, _ => exact ⟨Scalar.zero, by rw [Nat.zero_mul]; exact units?_of_shape fits_zero rfl⟩
    | 1, _ => exact ⟨x, by rw [Nat.one_mul, hk]⟩
    | 2, _ => exact ⟨_, units?_sum_two hpos hk hfinite⟩
  · by_cases hone : samples.length < 2
    · exact indistinct_of_error hx hne h (if_pos hone)
    · -- the sum of both is beyond the largest double, and so is their mean
      refine indistinct_of_mean hx hne h fun hmean => ?_
      have htwo : samples.length = 2 := by omega
      rw [Sample.mean, Sample.work_replicate h, htwo,
        not_finite_div (Bool.eq_false_iff.2 hfinite)] at hmean
      cases hmean

theorem online_of_indistinct {m : CostModel} (h : Indistinct kernel (m.samples kernel))
    (n : UInt64) : m.predict kernel n =
      { work := m.operations kernel n, online := none, offline := m.offlineTime kernel n,
        hybrid := m.offlineTime kernel n } := by
  rw [predict, Prediction.make]
  cases hfit : Line.fit (m.samples kernel) with
  | ok line =>
      rw [Indistinct, hfit] at h
      cases h
  | error k => rfl

/-- Measurements at a single size have no line unless rounding moves their mean. -/
theorem single_size (kernel : String) (hx : Scalar.finite x = true) (hne : samples ≠ [])
    (h : ∀ s ∈ samples, s.work = x) : SingleSize kernel x samples where
  settled := by
    cases hfit : Line.fit samples with
    | error n => exact .inl (indistinct_of_error hx hne h hfit)
    | ok line => exact .inr ⟨⟨line, rfl⟩, Line.mean_of_fit hx hne h hfit⟩
  few := indistinct_of_few hx hne h
  multiples _ hu := indistinct_of_multiples hu hne h
  whole k hk := indistinct_of_whole hne (by rwa [← hk])
  fallback m hm hindistinct n := by
    subst hm
    rw [cost, online_of_indistinct hindistinct]
    exact ⟨rfl, rfl, rfl⟩

/-- Three measurements of five operations each. -/
def atFive : List (Sample Float) := [⟨5.0, 1.0⟩, ⟨5.0, 2.0⟩, ⟨5.0, 3.0⟩]

theorem single_size_atFive :
    (Scalar.finite (5.0 : Float) = true ∧ atFive ≠ [] ∧ ∀ s ∈ atFive, s.work = 5.0) ∧
      SingleSize "k" 5.0 atFive ∧ Indistinct "k" atFive := by
  have hfive : SingleSize "k" 5.0 atFive :=
    single_size "k" (by decide +kernel) (by simp [atFive]) (by simp [atFive])
  refine ⟨⟨by decide +kernel, by simp [atFive], by simp [atFive]⟩, hfive, ?_⟩
  exact hfive.whole 5 (by decide +kernel) (by decide)

/-- Three measurements of one tenth of an operation each. -/
def atOneTenth : List (Sample Float) := [⟨0.1, 1.0⟩, ⟨0.1, 2.0⟩, ⟨0.1, 3.0⟩]

/-- One tenth, added up three times and divided by three, is more than one tenth, and the
three measurements have a line. -/
theorem line_at_one_tenth :
    (∀ s ∈ atOneTenth, s.work = 0.1 ∧ Scalar.finite s.work = true ∧ Scalar.finite s.time = true) ∧
      Line.fit atOneTenth = .ok ⟨2.0, 0.0⟩ ∧ ¬ Indistinct "k" atOneTenth := by
  have hfit : Line.fit atOneTenth = .ok ⟨2.0, 0.0⟩ := by
    have hline : (Line.fit atOneTenth).toOption = some ⟨2.0, 0.0⟩ := by decide +kernel
    cases h : Line.fit atOneTenth with
    | error n =>
        rw [h] at hline
        cases hline
    | ok line =>
        rw [h] at hline
        rw [Option.some.inj hline]
  refine ⟨by decide +kernel, hfit, fun h => ?_⟩
  rw [Indistinct, hfit] at h
  cases h

end CostModel

end KernelDispatch
