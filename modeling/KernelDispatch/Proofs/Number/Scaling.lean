import KernelDispatch.Json.Numeral
import KernelDispatch.Proofs.Number.Exact
import KernelDispatch.Proofs.Number.Shortest

/-!
# Counts times powers of ten

A spelled number is read in three rounded steps: its digits are a count, the power of ten is
another, and the two are multiplied. The first two steps bring each of them up by no more than
one part in 2⁵³, so the product stays within the doubles as long as the exact number is a
little below their end. The shortest decimals of doubles are, but for those of the two largest,
for which there is nothing left but to multiply.

## Main definitions

* `Double.About` — a double that is a count, but for its rounding.
* `Double.limit` — the least count that is rounded to infinity.

## Main results

* `Double.about_ofCount`, `Double.about_powerOfTen` — the two factors.
* `Json.scaleByTen_of_neg`, `Json.scaleByTen_of_lt` — which numbers have a double.
* `Double.ofFloat_of_finite`, `Double.ofFloat_of_not_finite` — the exact form of a double.
* `Json.scaleByTen_shortest` — the shortest decimal of a double has one.
-/

namespace KernelDispatch

namespace Double

open Float.Model (Format UnpackedFloat totalExponent)
open Float.Model.UnpackedFloat

/-- The least count that is rounded to infinity. -/
def limit : Nat := (2 ^ 54 - 1) * 2 ^ (topPlace - placesBelowOne)

theorem beyond_eq : beyond = countUnits limit := by
  have hplaces : topPlace - placesBelowOne + placesBelowOne = topPlace := by
    rw [topPlace_eq, placesBelowOne]
  rw [beyond, countUnits, limit, Nat.mul_assoc, ← Nat.pow_add, hplaces]

/-- It lies between two powers of ten. -/
theorem pow_lt_limit_iff {k : Nat} : 10 ^ k < limit ↔ k ≤ 308 := by
  have hpow : ∀ i j : Nat, i ≤ j → 10 ^ i ≤ 10 ^ j := fun i j h =>
    Nat.pow_le_pow_right (by decide) h
  have hwithin : 10 ^ 308 < limit := by
    rw [limit, topPlace_eq]
    decide +kernel
  have habove : limit < 10 ^ 309 := by
    rw [limit, topPlace_eq]
    decide +kernel
  constructor
  · intro hlt
    by_contra hlarge
    exact absurd (Nat.lt_of_le_of_lt (hpow 309 k (by omega)) hlt) (Nat.not_lt_of_lt habove)
  · exact fun hk => Nat.lt_of_le_of_lt (hpow k 308 hk) hwithin

/-- A double that is a count, but for its rounding. -/
def About (x : Float) (n : Nat) : Prop :=
  ∃ units ∈ units? x, 2 ^ 53 * units ≤ (2 ^ 53 + 1) * countUnits n

theorem About.of_nearest {x : Float} {n units : Nat} {sign : Sign} (hn : n < limit)
    (h : Nearest (countUnits n) 1 units) (hx : shape x = written (ofUnits sign units)) :
    About x n := by
  have hbelow : countUnits n < beyond * 1 := by
    rw [Nat.mul_one, beyond_eq]
    exact Nat.mul_lt_mul_of_pos_right hn (Nat.two_pow_pos _)
  exact ⟨units, h.units? Nat.one_pos hbelow hx, h.relative⟩

theorem about_ofCount {n : Nat} (hn : n < UInt64.size) : About (Scalar.ofCount n) n := by
  obtain ⟨units, hunits, hshape⟩ := shape_ofCount_nearest hn
  have hsize : UInt64.size < limit := by
    rw [limit, topPlace_eq]
    decide +kernel
  exact .of_nearest (Nat.lt_trans hn hsize) hunits hshape

/-- Beyond the table of the first powers of ten they are computed. -/
theorem shape_powerOfTen {k : Nat} (hsmall : 22 < k) (hlarge : k ≤ 308) :
    ∃ units, Nearest (countUnits (10 ^ k)) 1 units ∧
      shape (Json.powerOfTen k) = written (ofUnits .positive units) := by
  have hmantissa : 0 < (1 <<< 53) * 10 ^ k := Nat.mul_pos (by decide) (Nat.pow_pos (by decide))
  have hvalue : SameValue ((1 <<< 53) * 10 ^ k) 0 1 (-53 + 0) (countUnits (10 ^ k)) 1 := by
    obtain ⟨j, hj⟩ : ∃ j, 1074 = 53 + j := ⟨1021, rfl⟩
    refine ⟨Nat.one_pos, Nat.one_pos, j, 0, by omega, ?_⟩
    rw [countUnits, placesBelowOne, hj, Nat.pow_add, Nat.one_shiftLeft]
    ring
  have hle : (-53 + 0 : Int) ≤
      Format.binary64.targetExponent (totalExponent ((1 <<< 53) * 10 ^ k) (-53 + 0)) := by
    have hlog : 53 ≤ ((1 <<< 53) * 10 ^ k).log2 := by
      rw [Nat.le_log2 (Nat.ne_of_gt hmantissa), Nat.one_shiftLeft]
      exact Nat.le_mul_of_pos_right _ (Nat.pow_pos (by decide))
    have hleading := (targetExponent_bounds ((1 <<< 53) * 10 ^ k) (-53 + 0)).2
    omega
  obtain ⟨units, hunits, hround⟩ := roundWithAccuracy_nearest .positive hvalue hle
  refine ⟨units, hunits, ?_⟩
  have hscientific : UnpackedFloat.ofScientific Format.binary64 1 (k : Int) =
      ofUnits .positive units := by
    have hbits : ¬ (k : Int) > 2 ^ Format.binary64.exponentBits := by
      have : (2 : Int) ^ Format.binary64.exponentBits = 2048 := rfl
      omega
    have hone : ¬ (k : Int) < -((2 ^ Format.binary64.exponentBits : Int) + (1 : Nat).log2) := by
      have : (2 : Int) ^ Format.binary64.exponentBits = 2048 := rfl
      omega
    rw [UnpackedFloat.ofScientific, dif_neg Nat.one_ne_zero, if_neg hbits, if_neg hone,
      if_pos (by omega)]
    exact hround
  rw [Json.powerOfTen, Float.ofScientific, dif_neg (by omega)]
  show written (UnpackedFloat.ofScientific Format.binary64 1 (k : Int)) = _
  rw [hscientific]

theorem about_powerOfTen {k : Nat} (hk : k ≤ 308) : About (Json.powerOfTen k) (10 ^ k) := by
  by_cases hsmall : k ≤ 22
  · have htable : ∀ j < 23, About (Json.powerOfTen j) (10 ^ j) := by
      unfold About
      decide +kernel
    exact htable k (by omega)
  · obtain ⟨units, hunits, hshape⟩ := shape_powerOfTen (by omega) hk
    exact .of_nearest (pow_lt_limit_iff.2 hk) hunits hshape

/-- The product of two counts is a number where the exact product is a little below the end
of the doubles. -/
theorem finite_mul_of_about {x y : Float} {m n : Nat} (hx : About x m) (hy : About y n)
    (h : (2 ^ 53 + 1) * (2 ^ 53 + 1) * (m * n) < 2 ^ 53 * 2 ^ 53 * limit) :
    Scalar.finite (x * y) = true := by
  obtain ⟨k, hk, hkm⟩ := hx
  obtain ⟨l, hl, hln⟩ := hy
  rw [finite_mul_iff hk hl, beyond_eq]
  have hproduct := Nat.mul_le_mul hkm hln
  have hplaces := Nat.two_pow_pos placesBelowOne
  refine Nat.lt_of_mul_lt_mul_left (a := 2 ^ 53 * 2 ^ 53) ?_
  calc 2 ^ 53 * 2 ^ 53 * (k * l) = 2 ^ 53 * k * (2 ^ 53 * l) := by ring
    _ ≤ (2 ^ 53 + 1) * countUnits m * ((2 ^ 53 + 1) * countUnits n) := hproduct
    _ = (2 ^ 53 + 1) * (2 ^ 53 + 1) * (m * n) * (2 ^ placesBelowOne * 2 ^ placesBelowOne) := by
        rw [countUnits, countUnits]
        ring
    _ < 2 ^ 53 * 2 ^ 53 * limit * (2 ^ placesBelowOne * 2 ^ placesBelowOne) :=
        Nat.mul_lt_mul_of_pos_right h (Nat.mul_pos hplaces hplaces)
    _ = 2 ^ 53 * 2 ^ 53 * (countUnits limit * 2 ^ placesBelowOne) := by
        rw [countUnits]
        ring

/-! ## Exact forms -/

open Number

/-- The exact form of a number has 53 digits at a place that is not above the highest. -/
theorem ofFloat_of_finite {x : Float} (h : Scalar.finite x = true) :
    ∃ negative magnitude power narrow, ofFloat x = .finite negative magnitude power narrow ∧
      magnitude < 2 ^ 53 ∧ power ≤ 971 := by
  have hdecoded := decoded x
  cases hshape : shape x with
  | notANumber | infinity =>
      rw [finite_eq, hshape] at h
      cases h
  | zero sign =>
      rw [hshape] at hdecoded
      generalize ofFloat x = exact at hdecoded
      cases hdecoded
      exact ⟨_, _, _, _, rfl, by decide, by decide⟩
  | finite sign m e hm =>
      obtain ⟨hbounded, -, -, hlargest⟩ :=
        canonical_iff.1 (Binary.canonical_of_unpack (by decide) hshape)
      rw [hshape] at hdecoded
      generalize ofFloat x = exact at hdecoded
      cases hdecoded
      exact ⟨_, _, _, _, rfl, hbounded, hlargest⟩

theorem ofFloat_of_not_finite {x : Float} (h : Scalar.finite x = false) :
    ofFloat x = .nan ∨ ∃ negative, ofFloat x = .infinite negative := by
  have hdecoded := decoded x
  rw [finite_eq] at h
  generalize shape x = f at h hdecoded
  generalize ofFloat x = exact at hdecoded
  cases hdecoded with
  | notANumber => exact .inl rfl
  | infinity sign => exact .inr ⟨_, rfl⟩
  | zero sign => cases h
  | finite sign hm narrow => cases h

end Double

namespace Json

open Double

/-- Numbers with places behind the point are divided, and that is always possible. -/
theorem scaleByTen_of_neg (x : Float) {power : Int} (h : power < 0) :
    (scaleByTen x power).isSome = true := by
  rw [scaleByTen, if_neg (by omega)]
  split
  · rfl
  · split <;> rfl

theorem scaleByTen_of_finite {x : Float} {k : Nat} (hk : k ≤ 308)
    (h : Scalar.finite (x * powerOfTen k) = true) : (scaleByTen x k).isSome = true := by
  have hpower : (k : Int).toNat = k := rfl
  have hfinite : (x * powerOfTen k).isFinite = true := h
  rw [scaleByTen, if_pos (by omega), if_pos (by omega), hpower]
  dsimp only
  rw [if_pos hfinite]
  rfl

/-- A count of digits and places has a double where it is a little below their end. -/
theorem scaleByTen_of_lt {digits k : Nat} (hdigits : digits < UInt64.size) (hpos : 0 < digits)
    (h : (2 ^ 53 + 1) * (2 ^ 53 + 1) * (digits * 10 ^ k) < 2 ^ 53 * 2 ^ 53 * limit) :
    (scaleByTen (UInt64.ofNat digits).toFloat k).isSome = true := by
  have hvalue : 10 ^ k ≤ digits * 10 ^ k := Nat.le_mul_of_pos_left _ hpos
  have hk : k ≤ 308 := pow_lt_limit_iff.1 (by omega)
  exact scaleByTen_of_finite hk (finite_mul_of_about (about_ofCount hdigits)
    (about_powerOfTen hk) h)

/-! ## The shortest decimal of a double -/

open Number

/-- A decimal without places behind the point is a count that the interval is not below. -/
theorem count_le_of_shortest {magnitude k e : Nat} {power : Int} {narrow : Bool}
    (hpower : power - 2 ≤ e) (hk : (shortest false magnitude power narrow).power = k) :
    (shortest false magnitude power narrow).digits * 10 ^ k ≤ (4 * magnitude + 2) * 2 ^ e := by
  have hvalue := shortest_value_le magnitude power narrow false
  have hplaces : (2 : ℚ) ^ (power - 2) ≤ 2 ^ (e : Int) :=
    zpow_le_zpow_right₀ (by norm_num) hpower
  have hnonneg : (0 : ℚ) ≤ 4 * magnitude + 2 := by positivity
  have hbound := hvalue.trans (mul_le_mul_of_nonneg_left hplaces hnonneg)
  rw [Decimal.value, hk, zpow_natCast, zpow_natCast] at hbound
  exact_mod_cast hbound

/-- The two largest doubles are read, although they are too near to their end. -/
theorem scaleByTen_shortest_top : ∀ magnitude ∈ [2 ^ 53 - 2, 2 ^ 53 - 1], ∀ narrow,
    (scaleByTen (UInt64.ofNat (shortest false magnitude 971 narrow).digits).toFloat
      (shortest false magnitude 971 narrow).power).isSome = true := by
  decide +kernel

/-- The shortest decimal of a double has a double. -/
theorem scaleByTen_shortest {magnitude : Nat} {power : Int} (hmagnitude : magnitude < 2 ^ 53)
    (hpower : power ≤ 971) (narrow : Bool)
    (hpos : 0 < (shortest false magnitude power narrow).digits) :
    (scaleByTen (UInt64.ofNat (shortest false magnitude power narrow).digits).toFloat
      (shortest false magnitude power narrow).power).isSome = true := by
  rcases Int.lt_or_le (shortest false magnitude power narrow).power 0 with hneg | hcount
  · exact scaleByTen_of_neg _ hneg
  obtain ⟨k, hk⟩ := Int.eq_ofNat_of_zero_le hcount
  have hword := shortest_digits_lt magnitude power narrow false
  by_cases htop : power = 971 ∧ 2 ^ 53 - 3 < magnitude
  · obtain ⟨rfl, hlarge⟩ := htop
    exact scaleByTen_shortest_top magnitude (by simp; omega) narrow
  rw [hk]
  refine scaleByTen_of_lt hword hpos ?_
  -- in units of the place of the largest doubles, all is small enough to compute
  obtain ⟨e, he⟩ : ∃ e, 970 = e + 2 := ⟨968, rfl⟩
  have hlimit : limit = (2 ^ 54 - 1) * (4 * 2 ^ e) := by
    have hplaces : topPlace - placesBelowOne = e + 2 := by
      rw [topPlace_eq, placesBelowOne]
      omega
    rw [limit, hplaces, Nat.pow_add, Nat.mul_comm (2 ^ e)]
  have hpositive := Nat.two_pow_pos e
  rw [hlimit]
  by_cases hlow : power ≤ 970
  · have hbound := count_le_of_shortest (e := e) (by omega) hk
    have hall : (4 * magnitude + 2) * 2 ^ e ≤ (2 ^ 55 - 2) * 2 ^ e :=
      Nat.mul_le_mul_right (2 ^ e) (by omega)
    omega
  · have hbound := count_le_of_shortest (e := e + 1) (by omega) hk
    have hall : (4 * magnitude + 2) * 2 ^ (e + 1) ≤ (2 ^ 55 - 10) * 2 ^ (e + 1) :=
      Nat.mul_le_mul_right (2 ^ (e + 1)) (by omega)
    rw [Nat.pow_succ] at hbound hall
    omega

end Json

end KernelDispatch
