import KernelDispatch.Number.Binary
import KernelDispatch.Proofs.Number.Double

/-!
# Doubles that are rounded

The result of a multiplication or a division is a fraction of units. It is rounded to the
nearest whole number of units of which no more than 53 binary digits count, a tie to the even
one, and it becomes infinite where that number is beyond the largest double. Both happen in
one place, whatever the operation, and depend on the fraction alone.

The fraction is first cut down to a mantissa. Two bits tell what was cut off, as much of it as
decides about rounding; a `Cut` says which fraction mantissa and bits stand for, and shifting
keeps it.

## Main definitions

* `Double.Cut` — what a mantissa with its two bits stands for.
* `Double.Nearest` — a fraction of units, and the units that it is rounded to.
* `Double.beyond` — the least number of units that is rounded to infinity.

## Main results

* `Double.roundWithAccuracy_nearest` — results are rounded to the nearest double.
* `Double.Nearest.bounded_iff` — which fractions stay finite.
* `Double.shape_mul_nearest`, `Double.shape_div_nearest` — the operations.
* `Double.shape_ofCount_nearest` — whole numbers.
-/

namespace KernelDispatch

/-! ## Rounded quotients -/

namespace Number

theorem roundQuotient_mul_right (num den : Nat) {c : Nat} (hc : 0 < c) :
    roundQuotient (num * c) (den * c) = roundQuotient num den := by
  have hless : 2 * (num % den * c) < den * c ↔ 2 * (num % den) < den := by
    rw [← Nat.mul_assoc]
    exact Nat.mul_lt_mul_right hc
  have hmore : den * c < 2 * (num % den * c) ↔ den < 2 * (num % den) := by
    rw [← Nat.mul_assoc]
    exact Nat.mul_lt_mul_right hc
  simp only [roundQuotient, Nat.mul_div_mul_right num den hc, Nat.mul_mod_mul_right, hless, hmore]

theorem div_congr {a b c d : Nat} (hb : 0 < b) (hd : 0 < d) (h : a * d = c * b) : a / b = c / d := by
  rw [← Nat.mul_div_mul_right a b hd, ← Nat.mul_div_mul_right c d hb, h, Nat.mul_comm b d]

/-- A rounded quotient depends on the fraction alone. -/
theorem roundQuotient_congr {a b c d : Nat} (hb : 0 < b) (hd : 0 < d) (h : a * d = c * b) :
    roundQuotient a b = roundQuotient c d := by
  rw [← roundQuotient_mul_right a b hd, ← roundQuotient_mul_right c d hb, h, Nat.mul_comm b d]

theorem roundQuotient_bounds (num den : Nat) :
    num / den ≤ roundQuotient num den ∧ roundQuotient num den ≤ num / den + 1 := by
  unfold roundQuotient
  dsimp only
  split
  · omega
  · split
    · omega
    · split <;> omega

/-- A quotient is rounded up no further than by a half. -/
theorem two_mul_roundQuotient_le (num : Nat) {den : Nat} (hden : 0 < den) :
    2 * (roundQuotient num den * den) ≤ 2 * num + den := by
  have hsplit := Nat.div_add_mod num den
  have hrest := Nat.mod_lt num hden
  have hnext : (num / den + 1) * den = den * (num / den) + den := by
    rw [Nat.succ_mul, Nat.mul_comm]
  have hsame : num / den * den = den * (num / den) := Nat.mul_comm _ _
  unfold roundQuotient
  dsimp only
  split
  · rw [hsame]
    omega
  · split
    · rw [hnext]
      omega
    · split
      · rw [hsame]
        omega
      · rw [hnext]
        omega

/-- The half below an even number is rounded up to it. -/
theorem roundQuotient_lt_iff {num den k : Nat} (hden : 0 < den) (heven : k % 2 = 0) :
    roundQuotient num den < k ↔ 2 * num + den < 2 * (k * den) := by
  obtain ⟨hlower, hupper⟩ := roundQuotient_bounds num den
  have hsplit := Nat.div_add_mod num den
  have hrest := Nat.mod_lt num hden
  rcases Nat.lt_trichotomy (num / den + 1) k with hbelow | hnext | habove
  · have hproduct : (num / den + 2) * den ≤ k * den := Nat.mul_le_mul_right den hbelow
    rw [Nat.add_mul, Nat.mul_comm (num / den)] at hproduct
    omega
  · -- the quotient is odd, so a tie goes up
    subst hnext
    have hproduct : (num / den + 1) * den = den * (num / den) + den := by
      rw [Nat.succ_mul, Nat.mul_comm]
    rw [hproduct]
    have hodd : num / den % 2 ≠ 0 := by omega
    unfold roundQuotient
    dsimp only
    rw [if_neg hodd]
    split
    · omega
    · split <;> omega
  · have hproduct : k * den ≤ num / den * den := Nat.mul_le_mul_right den (by omega)
    rw [Nat.mul_comm (num / den)] at hproduct
    omega

end Number

namespace Double

open Float.Model (Format UnpackedFloat totalExponent)
open Float.Model.UnpackedFloat
open Number

/-! ## What is cut off -/

/-- A mantissa and its two bits stand for a fraction: the bits tell whether the rest is at
least a half, and whether it is neither nothing nor a half. -/
structure Cut (em : ExtendedMantissa) (num den : Nat) : Prop where
  mantissa : em.mantissa = num / den
  roundBit : em.roundBit = true ↔ den ≤ 2 * (num % den)
  stickyBit : em.stickyBit = true ↔ num % den ≠ 0 ∧ 2 * (num % den) ≠ den

namespace Cut

variable {em : ExtendedMantissa} {num den : Nat}

theorem ofAccuracy (m : Nat) {r d : Nat} (hr : r < d) :
    Cut (ExtendedMantissa.ofMantissaAndAccuracy m (accuracyOfFraction r d)) (m * d + r) d := by
  have hquotient : (m * d + r) / d = m := by
    rw [Nat.mul_comm, Nat.mul_add_div (by omega), Nat.div_eq_of_lt hr, Nat.add_zero]
  have hrest : (m * d + r) % d = r := by
    rw [Nat.mul_comm, Nat.mul_add_mod, Nat.mod_eq_of_lt hr]
  unfold accuracyOfFraction
  split
  · rename_i hzero
    subst hzero
    refine ⟨hquotient.symm, ?_, ?_⟩ <;>
      simp [ExtendedMantissa.ofMantissaAndAccuracy]
    omega
  · rename_i hnotzero
    rcases hcompare : compare (2 * r) d with _ | _ | _
    · rw [Nat.compare_eq_lt] at hcompare
      refine ⟨hquotient.symm, ?_, ?_⟩ <;>
        simp [ExtendedMantissa.ofMantissaAndAccuracy, hrest]
      all_goals omega
    · rw [Nat.compare_eq_eq] at hcompare
      refine ⟨hquotient.symm, ?_, ?_⟩ <;>
        simp [ExtendedMantissa.ofMantissaAndAccuracy, hrest]
      all_goals omega
    · rw [Nat.compare_eq_gt] at hcompare
      refine ⟨hquotient.symm, ?_, ?_⟩ <;>
        simp [ExtendedMantissa.ofMantissaAndAccuracy, hrest]
      all_goals omega

/-- Shifting by one place halves the fraction. -/
theorem shiftRightOne (hden : 0 < den) (h : Cut em num den) :
    Cut em.shiftRightOne num (den * 2) := by
  have hquotient : num / (den * 2) = num / den / 2 := (Nat.div_div_eq_div_mul num den 2).symm
  have hrest : num % (den * 2) = num % den + den * (num / den % 2) := Nat.mod_mul
  have hlt := Nat.mod_lt num hden
  have hplace : num / den % 2 = 0 ∨ num / den % 2 = 1 := Nat.mod_two_eq_zero_or_one _
  refine ⟨?_, ?_, ?_⟩
  · rw [ExtendedMantissa.shiftRightOne, h.mantissa, hquotient]
  · rw [hrest]
    simp only [ExtendedMantissa.shiftRightOne, h.mantissa, bne_iff_ne, ne_eq]
    rcases hplace with hplace | hplace <;> rw [hplace] <;> omega
  · rw [hrest]
    simp only [ExtendedMantissa.shiftRightOne, Bool.or_eq_true, h.roundBit, h.stickyBit]
    rcases hplace with hplace | hplace <;> rw [hplace] <;> omega

theorem shiftRight (hden : 0 < den) (h : Cut em num den) (n : Nat) :
    Cut (em >>> n) num (den * 2 ^ n) := by
  show Cut (n.repeat ExtendedMantissa.shiftRightOne em) num (den * 2 ^ n)
  induction n with
  | zero => simpa [Nat.repeat] using h
  | succ n ih =>
      rw [Nat.repeat, Nat.pow_succ, ← Nat.mul_assoc]
      exact shiftRightOne (Nat.mul_pos hden (Nat.two_pow_pos n)) ih

/-- The two bits are enough to round. -/
theorem roundedMantissa (hden : 0 < den) (h : Cut em num den) :
    em.roundedMantissa = roundQuotient num den := by
  obtain ⟨mantissa, roundBit, stickyBit⟩ := em
  obtain ⟨hmantissa, hround, hsticky⟩ := h
  dsimp only at hmantissa hround hsticky
  subst hmantissa
  unfold roundQuotient
  cases roundBit <;> cases stickyBit <;>
    simp only [Bool.false_eq_true, false_iff, true_iff] at hround hsticky <;>
    simp only [ExtendedMantissa.roundedMantissa, ExtendedMantissa.accuracy,
      Accuracy.roundToNearestEven]
  · rw [if_pos (by omega)]
  · rw [if_pos (by omega)]
  · rw [if_neg (by omega), if_neg (by omega)]
    split <;> omega
  · rw [if_neg (by omega), if_pos (by omega)]

end Cut

/-! ## The nearest double -/

/-- So many units are a fraction of units, rounded to its 53 leading digits, or to a whole
number of units where it has fewer. -/
def Nearest (num den units : Nat) : Prop :=
  ∃ place, (place = 0 ∨ 2 ^ 52 ≤ num / (den * 2 ^ place)) ∧ num / (den * 2 ^ place) < 2 ^ 53 ∧
    units = roundQuotient num (den * 2 ^ place) * 2 ^ place

/-- The place at which a mantissa has its 53 digits, or the least one. -/
theorem targetExponent_place {m : Nat} {e : Int} {place : Nat}
    (htarget : Format.binary64.targetExponent (totalExponent m e) = (place : Int) - 1074) :
    (place : Int) = max (m.log2 + e + 1022) 0 := by
  simp only [Format.targetExponent, totalExponent, Format.mantissaBits, Format.minExponent]
    at htarget
  omega

/-- A mantissa that is cut down to its place has 53 digits, or its place is the least. -/
theorem mantissa_at_place {m n place : Nat} {e : Int} (hcut : e + n = (place : Int) - 1074)
    (htarget : Format.binary64.targetExponent (totalExponent m e) = (place : Int) - 1074) :
    (place = 0 ∨ 2 ^ 52 ≤ m / 2 ^ n) ∧ m / 2 ^ n < 2 ^ 53 := by
  have hplace := targetExponent_place htarget
  constructor
  · by_cases hzero : place = 0
    · exact .inl hzero
    · right
      have hlog : m.log2 = 52 + n := by omega
      have hm : m ≠ 0 := by
        rintro rfl
        simp at hlog
        omega
      rw [Nat.le_div_iff_mul_le (Nat.two_pow_pos n), ← Nat.pow_add, ← hlog]
      exact Nat.log2_self_le hm
  · rw [Nat.div_lt_iff_lt_mul (Nat.two_pow_pos n), ← Nat.pow_add]
    exact Nat.lt_of_lt_of_le Nat.lt_log2_self (Nat.pow_le_pow_right (by decide) (by omega))

/-- A rounded mantissa has 53 digits, or it is the power of two above them. -/
theorem digits_of_rounded {r place : Nat} (hpos : 0 < r) (hplace : place = 0 ∨ 2 ^ 52 ≤ r)
    (hr : r ≤ 2 ^ 53) :
    place ≤ spare (r * 2 ^ place) ∧ 2 ^ spare (r * 2 ^ place) ∣ r * 2 ^ place := by
  have hzero : r ≠ 0 := Nat.ne_of_gt hpos
  rw [spare, log2_mul_two_pow hpos]
  by_cases htop : r = 2 ^ 53
  · subst htop
    rw [Nat.log2_two_pow, ← Nat.pow_add]
    exact ⟨by omega, Nat.pow_dvd_pow 2 (by omega)⟩
  · have hupper : r.log2 < 53 := (Nat.log2_lt hzero).2 (by omega)
    have hexact : r.log2 + place - 52 ≤ place := by omega
    refine ⟨?_, Nat.dvd_trans (Nat.pow_dvd_pow 2 hexact) (Nat.dvd_mul_left _ _)⟩
    rcases hplace with rfl | hlower
    · omega
    · have := (Nat.le_log2 hzero).2 hlower
      omega

theorem shiftToTargetExponent_zero (spec : Format) (e : Int) :
    (shiftToTargetExponent spec 0 e .exact).1.mantissa = 0 := by
  have hzero : ∀ n : Nat, n.repeat ExtendedMantissa.shiftRightOne ⟨0, false, false⟩ =
      ⟨0, false, false⟩ := fun n => by
    have := shiftRight_exact (m := 0) (n := n) (Nat.dvd_zero _)
    rwa [Nat.zero_div] at this
  exact congrArg ExtendedMantissa.mantissa (hzero _)

/-- A result is cut down to its place, rounded there, and nothing else happens to it. -/
theorem roundWithAccuracy_eq (sign : Sign) {m r d n place : Nat} {e : Int} (hr : r < d)
    (hcut : e + n = (place : Int) - 1074)
    (htarget : Format.binary64.targetExponent (totalExponent m e) = (place : Int) - 1074) :
    roundWithAccuracy Format.binary64 sign m e (accuracyOfFraction r d) =
      ofUnits sign (roundQuotient (m * d + r) (d * 2 ^ n) * 2 ^ place) := by
  have hd : 0 < d := by omega
  have hshift : ((place : Int) - 1074 - e).toNat = n := by omega
  have hfirst : shiftToTargetExponent Format.binary64 m e (accuracyOfFraction r d) =
      (ExtendedMantissa.ofMantissaAndAccuracy m (accuracyOfFraction r d) >>> n,
        (place : Int) - 1074) := by
    rw [shiftToTargetExponent, htarget, shiftToExponent, hshift, hcut]
  have hrounded := ((Cut.ofAccuracy m hr).shiftRight hd n).roundedMantissa
    (Nat.mul_pos hd (Nat.two_pow_pos n))
  have hquotient : (m * d + r) / (d * 2 ^ n) = m / 2 ^ n := by
    rw [← Nat.div_div_eq_div_mul, Nat.mul_comm m, Nat.mul_add_div hd, Nat.div_eq_of_lt hr,
      Nat.add_zero]
  obtain ⟨hlower, hupper⟩ := roundQuotient_bounds (m * d + r) (d * 2 ^ n)
  obtain ⟨hplace, hbound⟩ := mantissa_at_place hcut htarget
  rw [hquotient] at hlower hupper
  generalize roundQuotient (m * d + r) (d * 2 ^ n) = q at hrounded hlower hupper ⊢
  rw [roundWithAccuracy, hfirst]
  dsimp only
  rw [hrounded]
  by_cases hzero : q = 0
  · subst hzero
    rw [dif_pos (shiftToTargetExponent_zero _ _), Nat.zero_mul]
    rfl
  · have hpos := Nat.pos_of_ne_zero hzero
    obtain ⟨hle, hdigits⟩ := digits_of_rounded hpos
      (hplace.imp_right fun h => Nat.le_trans h hlower) (Nat.le_trans hupper hbound)
    rw [shiftToTargetExponent_exact hpos hle hdigits]
    rfl

/-- Two ways to write a fraction of units: a mantissa and a rest at an exponent, and a
numerator over a denominator. -/
structure SameValue (m r d : Nat) (e : Int) (num den : Nat) : Prop where
  rest : r < d
  denominator : 0 < den
  value : ∃ i j : Nat, e = (i : Int) - j - 1074 ∧ (m * d + r) * 2 ^ i * den = num * d * 2 ^ j

/-- A result is rounded to the nearest double, if its mantissa has digits enough. -/
theorem roundWithAccuracy_nearest (sign : Sign) {m r d num den : Nat} {e : Int}
    (h : SameValue m r d e num den)
    (hle : e ≤ Format.binary64.targetExponent (totalExponent m e)) :
    ∃ units, Nearest num den units ∧
      roundWithAccuracy Format.binary64 sign m e (accuracyOfFraction r d) = ofUnits sign units := by
  obtain ⟨hr, hden, i, j, hexponent, hvalue⟩ := h
  have hd : 0 < d := by omega
  obtain ⟨place, hplace⟩ : ∃ place : Nat,
      Format.binary64.targetExponent (totalExponent m e) = (place : Int) - 1074 := by
    refine ⟨(Format.binary64.targetExponent (totalExponent m e) + 1074).toNat, ?_⟩
    simp only [Format.targetExponent, Format.minExponent, Format.mantissaBits]
    omega
  obtain ⟨n, hcut⟩ : ∃ n : Nat, e + n = (place : Int) - 1074 :=
    ⟨((place : Int) - 1074 - e).toNat, by omega⟩
  -- both are the same fraction of the units at the place
  have hratio : (m * d + r) * (den * 2 ^ place) = num * (d * 2 ^ n) := by
    refine Nat.eq_of_mul_eq_mul_right (Nat.two_pow_pos j) ?_
    have hplaces : place + j = i + n := by omega
    calc (m * d + r) * (den * 2 ^ place) * 2 ^ j
        = (m * d + r) * den * 2 ^ (place + j) := by ring
      _ = (m * d + r) * 2 ^ i * den * 2 ^ n := by rw [hplaces]; ring
      _ = num * (d * 2 ^ n) * 2 ^ j := by rw [hvalue]; ring
  have hcutPos : 0 < d * 2 ^ n := Nat.mul_pos hd (Nat.two_pow_pos n)
  have hplacePos : 0 < den * 2 ^ place := Nat.mul_pos hden (Nat.two_pow_pos place)
  have hquotient : num / (den * 2 ^ place) = m / 2 ^ n := by
    rw [← div_congr hcutPos hplacePos hratio, ← Nat.div_div_eq_div_mul, Nat.mul_comm m,
      Nat.mul_add_div hd, Nat.div_eq_of_lt hr, Nat.add_zero]
  obtain ⟨hlower, hupper⟩ := mantissa_at_place hcut hplace
  refine ⟨_, ⟨place, ?_, ?_, rfl⟩, ?_⟩
  · rwa [hquotient]
  · rwa [hquotient]
  · rw [roundWithAccuracy_eq sign hr hcut hplace, roundQuotient_congr hcutPos hplacePos hratio]

/-! ## Beyond the largest double -/

/-- The place just below the last digit of the largest doubles. -/
@[irreducible] def topPlace : Nat := 2044

theorem topPlace_eq : topPlace = 2044 := by
  unfold topPlace
  rfl

theorem log2_mul_two_pow_le {q b : Nat} (h : q ≤ 2 ^ b) (place : Nat) :
    (q * 2 ^ place).log2 ≤ b + place := by
  by_cases hzero : q = 0
  · subst hzero
    simp
  · have hlog : q.log2 ≤ b := by
      by_contra hlarge
      have := (Nat.le_log2 hzero).1 (Nat.lt_of_not_le hlarge)
      rw [Nat.pow_succ] at this
      have := Nat.two_pow_pos b
      omega
    rw [log2_mul_two_pow (Nat.pos_of_ne_zero hzero)]
    omega

/-- The least number of units that is rounded to infinity. -/
def beyond : Nat := (2 ^ 54 - 1) * 2 ^ topPlace

namespace Nearest

variable {num den units : Nat}

theorem zero (hden : 0 < den) : Nearest 0 den 0 := by
  refine ⟨0, .inl rfl, ?_, ?_⟩
  · rw [Nat.zero_div]
    decide
  · simp [roundQuotient, hden]

theorem digits (h : Nearest num den units) : 2 ^ spare units ∣ units := by
  obtain ⟨place, hplace, hbound, rfl⟩ := h
  obtain ⟨hlower, hupper⟩ := roundQuotient_bounds num (den * 2 ^ place)
  by_cases hzero : roundQuotient num (den * 2 ^ place) = 0
  · rw [hzero, Nat.zero_mul]
    exact Nat.dvd_zero _
  · exact (digits_of_rounded (Nat.pos_of_ne_zero hzero)
      (hplace.imp_right fun h => Nat.le_trans h hlower) (Nat.le_trans hupper hbound)).2

/-- What is rounded is within the doubles exactly below `beyond`. -/
theorem bounded_iff (hden : 0 < den) (h : Nearest num den units) :
    units.log2 < 2098 ↔ num < beyond * den := by
  obtain ⟨place, hplace, hbound, rfl⟩ := h
  have htopPlace := topPlace_eq
  have hplacePos : 0 < den * 2 ^ place := Nat.mul_pos hden (Nat.two_pow_pos place)
  have hhalves : beyond * den = (2 ^ 54 - 1) * (den * 2 ^ topPlace) := by
    rw [beyond, Nat.mul_assoc, Nat.mul_comm (2 ^ topPlace)]
  obtain ⟨hlower, hupper⟩ := roundQuotient_bounds num (den * 2 ^ place)
  rw [hhalves]
  by_cases hlow : place ≤ topPlace
  · have hpower : den * 2 ^ place ≤ den * 2 ^ topPlace :=
      Nat.mul_le_mul_left den (Nat.pow_le_pow_right (by decide) hlow)
    have hnum := (Nat.div_lt_iff_lt_mul hplacePos).1 hbound
    have hdigits := log2_mul_two_pow_le (Nat.le_trans hupper hbound) place
    exact iff_of_true (by omega) (by omega)
  -- the place is that of the largest doubles or above it
  obtain ⟨c, rfl⟩ : ∃ c, place = topPlace + (c + 1) := ⟨place - topPlace - 1, by omega⟩
  have hleading := hplace.resolve_left (by omega)
  have hpos : 0 < roundQuotient num (den * 2 ^ (topPlace + (c + 1))) := by omega
  have hplaced : den * 2 ^ (topPlace + (c + 1)) = den * 2 ^ topPlace * 2 ^ (c + 1) := by
    rw [Nat.pow_add, Nat.mul_assoc]
  rw [log2_mul_two_pow hpos]
  cases c with
  | zero =>
      have htop := @roundQuotient_lt_iff num _ (2 ^ 53) hplacePos (by decide)
      rw [← Nat.log2_lt (Nat.ne_of_gt hpos)] at htop
      omega
  | succ c =>
      have hlog := (Nat.le_log2 (Nat.ne_of_gt hpos)).2 (Nat.le_trans hleading hlower)
      have hnum := (Nat.le_div_iff_mul_le hplacePos).1 hleading
      have hfour : den * 2 ^ topPlace * 4 ≤ den * 2 ^ topPlace * 2 ^ (c + 1 + 1) := by
        refine Nat.mul_le_mul_left _ ?_
        have := Nat.two_pow_pos c
        rw [Nat.pow_succ, Nat.pow_succ]
        omega
      rw [hplaced] at hnum
      exact iff_of_false (by omega) (by omega)

/-- Whole numbers of units are rounded up by no more than half of their last digit. -/
theorem relative (h : Nearest num 1 units) : 2 ^ 53 * units ≤ (2 ^ 53 + 1) * num := by
  obtain ⟨place, hplace, -, rfl⟩ := h
  rw [Nat.one_mul] at hplace ⊢
  have hround := two_mul_roundQuotient_le num (Nat.two_pow_pos place)
  rcases hplace with rfl | hdigits
  · rw [Nat.pow_zero] at hround ⊢
    omega
  · have hleast := (Nat.le_div_iff_mul_le (Nat.two_pow_pos place)).1 hdigits
    omega

theorem fits (hden : 0 < den) (h : Nearest num den units) (hnum : num < beyond * den) :
    Fits units :=
  ⟨h.digits, (h.bounded_iff hden).2 hnum⟩

/-- A result is finite exactly below `beyond`. -/
theorem isFinite_written (hden : 0 < den) (h : Nearest num den units) (sign : Sign) :
    (written (ofUnits sign units)).isFinite = true ↔ num < beyond * den := by
  rw [← h.bounded_iff hden]
  constructor
  · intro hfinite
    by_contra hbeyond
    rw [written, unpack_pack_beyond sign (Nat.le_of_not_lt hbeyond)] at hfinite
    cases hfinite
  · intro hbounded
    rw [written_ofUnits sign ⟨h.digits, hbounded⟩, ofUnits]
    split <;> rfl

end Nearest

/-! ## Operations -/

/-- A double that is not zero has 53 digits, or its place is the least. -/
theorem finite_of_shape {x : Float} {sign : Sign} {k : Nat} (hfits : Fits k)
    (hx : shape x = ofUnits sign k) (hk : 0 < k) :
    ∃ (m g : Nat) (hm : 0 < m), shape x = .finite sign m ((g : Int) - 1074) hm ∧
      m * 2 ^ g = k ∧ (g = 0 ∨ 52 ≤ m.log2) := by
  have hback := Nat.div_mul_cancel hfits.digits
  refine ⟨k / 2 ^ spare k, spare k, leading_pos hk, ?_, hback, ?_⟩
  · rw [hx, ofUnits_of_pos sign (leading_pos hk)]
  · have hlog := log2_mul_two_pow (leading_pos hk) (spare k)
    rw [hback] at hlog
    unfold spare at hlog ⊢
    omega

theorem shape_of_pos {x : Float} {k : Nat} (hx : units? x = some k) (hk : 0 < k) :
    ∃ (sign : Sign) (m g : Nat) (hm : 0 < m), shape x = .finite sign m ((g : Int) - 1074) hm ∧
      m * 2 ^ g = k ∧ (g = 0 ∨ 52 ≤ m.log2) := by
  obtain ⟨hfits, sign, hshape⟩ := units?_eq_some hx
  exact ⟨sign, finite_of_shape hfits hshape hk⟩

/-- A mantissa at an exponent is rounded to the nearest double. -/
theorem round_nearest (sign : Sign) {m num den : Nat} {e : Int} (hm : 0 < m)
    (h : SameValue m 0 1 e num den) : ∃ units, Nearest num den units ∧
      UnpackedFloat.round Format.binary64 sign m e = ofUnits sign units := by
  obtain ⟨hrest, hden, i, j, hexponent, hvalue⟩ := h
  obtain ⟨target, htarget⟩ : ∃ target, Format.binary64.targetExponent (totalExponent m e) = target :=
    ⟨_, rfl⟩
  -- the exponent is lowered first, where the mantissa has digits to spare
  obtain ⟨t, ht⟩ : ∃ t : Nat, t = (e - target).toNat := ⟨_, rfl⟩
  have hlowered : Format.binary64.targetExponent (totalExponent (m * 2 ^ t) (e - t)) = target := by
    rw [← htarget, totalExponent, totalExponent, log2_mul_two_pow hm]
    congr 1
    omega
  have hvalue' : SameValue (m * 2 ^ t) 0 1 (e - t) num den := by
    refine ⟨hrest, hden, i, j + t, by omega, ?_⟩
    calc (m * 2 ^ t * 1 + 0) * 2 ^ i * den = (m * 1 + 0) * 2 ^ i * den * 2 ^ t := by ring
      _ = num * 1 * 2 ^ (j + t) := by rw [hvalue, Nat.pow_add, Nat.mul_assoc]
  obtain ⟨units, hunits, hround⟩ := roundWithAccuracy_nearest sign hvalue' (by omega)
  refine ⟨units, hunits, ?_⟩
  simp only [UnpackedFloat.round, decreaseExponent, htarget, ← ht, Nat.shiftLeft_eq]
  exact hround

theorem targetExponent_bounds (m : Nat) (e : Int) :
    -1074 ≤ Format.binary64.targetExponent (totalExponent m e) ∧
      m.log2 + e - 52 ≤ Format.binary64.targetExponent (totalExponent m e) := by
  simp only [Format.targetExponent, totalExponent, Format.mantissaBits, Format.minExponent]
  omega

theorem log2_le_log2_mul {m n : Nat} (hm : 0 < m) (hn : 0 < n) :
    m.log2 ≤ (m * n).log2 ∧ n.log2 ≤ (m * n).log2 := by
  have hmn : m * n ≠ 0 := Nat.mul_ne_zero (Nat.ne_of_gt hm) (Nat.ne_of_gt hn)
  rw [Nat.le_log2 hmn, Nat.le_log2 hmn]
  constructor
  · exact Nat.le_trans (Nat.log2_self_le (Nat.ne_of_gt hm)) (Nat.le_mul_of_pos_right m hn)
  · exact Nat.le_trans (Nat.log2_self_le (Nat.ne_of_gt hn)) (Nat.le_mul_of_pos_left n hm)

/-- A numerator that is pushed far enough to the left has a quotient with digits enough. -/
theorem two_pow_le_quotient {m n c : Nat} (hm : 0 < m) (hn : 0 < n)
    (h : n.log2 + 53 ≤ m.log2 + c) : 2 ^ 52 ≤ m * 2 ^ c / n := by
  rw [Nat.le_div_iff_mul_le hn]
  calc 2 ^ 52 * n ≤ 2 ^ 52 * 2 ^ (n.log2 + 1) :=
        Nat.mul_le_mul_left _ (Nat.le_of_lt Nat.lt_log2_self)
    _ ≤ 2 ^ (m.log2 + c) := by
        rw [← Nat.pow_add]
        exact Nat.pow_le_pow_right (by decide) (by omega)
    _ ≤ m * 2 ^ c := by
        rw [Nat.pow_add]
        exact Nat.mul_le_mul_right _ (Nat.log2_self_le (Nat.ne_of_gt hm))

/-- The product of two doubles is rounded to the nearest double. -/
theorem shape_mul_nearest {x y : Float} {k l : Nat} (hx : units? x = some k)
    (hy : units? y = some l) : ∃ sign units, Nearest (k * l) (2 ^ placesBelowOne) units ∧
      shape (x * y) = written (ofUnits sign units) := by
  rw [shape_mul]
  obtain rfl | hk := Nat.eq_zero_or_pos k
  · obtain ⟨s, hs⟩ := isZero_of_units hx
    obtain ⟨-, t, ht⟩ := units?_eq_some hy
    refine ⟨s * t, 0, by rw [Nat.zero_mul]; exact .zero (Nat.two_pow_pos _), ?_⟩
    rw [hs, ht]
    unfold ofUnits
    split <;> rfl
  obtain ⟨s, m, g, hm, hs, hmk, hdigitsm⟩ := shape_of_pos hx hk
  obtain rfl | hl := Nat.eq_zero_or_pos l
  · obtain ⟨t, ht⟩ := isZero_of_units hy
    refine ⟨s * t, 0, by rw [Nat.mul_zero]; exact .zero (Nat.two_pow_pos _), ?_⟩
    rw [hs, ht]
    rfl
  obtain ⟨t, n, f, hn, ht, hnl, hdigitsn⟩ := shape_of_pos hy hl
  have hvalue : SameValue (m * n) 0 1 ((g : Int) - 1074 + (f - 1074)) (k * l)
      (2 ^ placesBelowOne) := by
    refine ⟨Nat.zero_lt_one, Nat.two_pow_pos _, g + f, placesBelowOne, ?_, ?_⟩
    · rw [placesBelowOne]
      omega
    · rw [← hmk, ← hnl]
      ring
  have hle : (g : Int) - 1074 + (f - 1074) ≤
      Format.binary64.targetExponent (totalExponent (m * n) (g - 1074 + (f - 1074))) := by
    obtain ⟨hleast, hleading⟩ := targetExponent_bounds (m * n) (g - 1074 + (f - 1074))
    have hproduct := log2_le_log2_mul hm hn
    omega
  obtain ⟨units, hunits, hround⟩ := roundWithAccuracy_nearest (s * t) hvalue hle
  refine ⟨s * t, units, hunits, ?_⟩
  rw [hs, ht]
  exact congrArg written hround

/-- The quotient of two doubles is rounded to the nearest double. -/
theorem shape_div_ofUnits {x y : Float} {s t : Sign} {k l : Nat} (fitsk : Fits k) (fitsl : Fits l)
    (hx : shape x = ofUnits s k) (hy : shape y = ofUnits t l) (hl : 0 < l) :
    ∃ units, Nearest (k * 2 ^ placesBelowOne) l units ∧
      shape (x / y) = written (ofUnits (s / t) units) := by
  rw [shape_div]
  obtain ⟨n, f, hn, ht, hnl, hdigitsn⟩ := finite_of_shape fitsl hy hl
  obtain rfl | hk := Nat.eq_zero_or_pos k
  · refine ⟨0, by rw [Nat.zero_mul]; exact .zero hl, ?_⟩
    rw [hx, ht]
    rfl
  obtain ⟨m, g, hm, hs, hmk, hdigitsm⟩ := finite_of_shape fitsk hx hk
  -- the numerator is pushed left until the quotient has digits enough
  obtain ⟨e, he⟩ : ∃ e, e = min (((g : Int) - 1074) - (f - 1074))
      (Format.binary64.targetExponent
        (totalExponent m (g - 1074) - totalExponent n (f - 1074))) := ⟨_, rfl⟩
  obtain ⟨c, hc⟩ : ∃ c : Nat, c = ((g : Int) - 1074 - (f - 1074) - e).toNat := ⟨_, rfl⟩
  have hcore : divCore Format.binary64 m (g - 1074) n (f - 1074) =
      (m * 2 ^ c / n, e, accuracyOfFraction (m * 2 ^ c % n) n) := by
    simp only [divCore, ← he, ← hc, Nat.shiftLeft_eq]
  have hplaces : (g : Int) - f = e + c := by omega
  have hvalue : SameValue (m * 2 ^ c / n) (m * 2 ^ c % n) n e (k * 2 ^ placesBelowOne) l := by
    refine ⟨Nat.mod_lt _ hn, hl, g + placesBelowOne, f + c, ?_, ?_⟩
    · push_cast [placesBelowOne]
      omega
    · rw [Nat.mul_comm (m * 2 ^ c / n), Nat.div_add_mod, ← hmk, ← hnl]
      ring
  have hle : e ≤ Format.binary64.targetExponent (totalExponent (m * 2 ^ c / n) e) := by
    obtain ⟨hleast, hleading⟩ := targetExponent_bounds (m * 2 ^ c / n) e
    by_cases hlow : e ≤ -1074
    · omega
    · have hshift : n.log2 + 53 ≤ m.log2 + c := by
        simp only [Format.targetExponent, totalExponent, Format.mantissaBits, Format.minExponent]
          at he
        omega
      have hquotient := two_pow_le_quotient hm hn hshift
      have hlog := (Nat.le_log2 (by omega)).2 hquotient
      omega
  obtain ⟨units, hunits, hround⟩ := roundWithAccuracy_nearest (s / t) hvalue hle
  refine ⟨units, hunits, ?_⟩
  rw [hs, ht]
  simp only [UnpackedFloat.div, hcore]
  exact congrArg written hround

theorem shape_div_nearest {x y : Float} {k l : Nat} (hx : units? x = some k)
    (hy : units? y = some l) (hl : 0 < l) :
    ∃ sign units, Nearest (k * 2 ^ placesBelowOne) l units ∧
      shape (x / y) = written (ofUnits sign units) := by
  obtain ⟨fitsk, s, hs⟩ := units?_eq_some hx
  obtain ⟨fitsl, t, ht⟩ := units?_eq_some hy
  exact ⟨s / t, shape_div_ofUnits fitsk fitsl hs ht hl⟩

/-- A product is a number exactly where it is not rounded beyond the largest double. -/
theorem finite_mul_iff {x y : Float} {k l : Nat} (hx : units? x = some k)
    (hy : units? y = some l) :
    Scalar.finite (x * y) = true ↔ k * l < beyond * 2 ^ placesBelowOne := by
  obtain ⟨sign, units, hnearest, hshape⟩ := shape_mul_nearest hx hy
  rw [finite_eq, hshape, hnearest.isFinite_written (Nat.two_pow_pos _) sign]

/-- So is a quotient. -/
theorem finite_div_iff {x y : Float} {l : Nat} (hy : units? y = some l) (hl : 0 < l) :
    Scalar.finite (x / y) = true ↔
      ∃ k, units? x = some k ∧ k * 2 ^ placesBelowOne < beyond * l := by
  by_cases hx : Scalar.finite x = true
  · obtain ⟨k, hk⟩ := exists_units hx
    obtain ⟨sign, units, hnearest, hshape⟩ := shape_div_nearest hk hy hl
    rw [finite_eq, hshape, hnearest.isFinite_written hl sign, hk]
    simp
  · refine iff_of_false ?_ fun ⟨k, hk, _⟩ => hx (finite_of_units hk)
    rw [not_finite_div (Bool.eq_false_iff.2 hx)]
    decide

/-- The units of a rounded result that is not beyond the largest double. -/
theorem Nearest.units? {x : Float} {num den units : Nat} {sign : Sign} (hden : 0 < den)
    (h : Nearest num den units) (hnum : num < beyond * den)
    (hx : shape x = written (ofUnits sign units)) : Double.units? x = some units := by
  have hfits := h.fits hden hnum
  rw [written_ofUnits sign hfits] at hx
  exact units?_of_shape hfits hx

/-- A count is rounded to the nearest double. -/
theorem shape_ofCount_nearest {n : Nat} (hn : n < UInt64.size) :
    ∃ units, Nearest (countUnits n) 1 units ∧
      shape (Scalar.ofCount n : Float) = written (ofUnits .positive units) := by
  obtain rfl | hpos := Nat.eq_zero_or_pos n
  · refine ⟨0, ?_, ?_⟩
    · rw [countUnits, Nat.zero_mul]
      exact .zero Nat.one_pos
    · rw [written_ofUnits .positive fits_zero]
      rfl
  have hvalue : SameValue n 0 1 0 (countUnits n) 1 := by
    refine ⟨Nat.one_pos, Nat.one_pos, placesBelowOne, 0, ?_, ?_⟩
    · rw [placesBelowOne]
      rfl
    · rw [countUnits]
      ring
  obtain ⟨units, hunits, hround⟩ := round_nearest .positive hpos hvalue
  have hnat : (UInt64.ofNat n).toNat = n := by
    rw [UInt64.toNat_ofNat', Nat.mod_eq_of_lt hn]
  refine ⟨units, hunits, ?_⟩
  show written (UnpackedFloat.ofUInt64 Format.binary64 (UInt64.ofNat n)) = _
  rw [UnpackedFloat.ofUInt64, hnat]
  show written (UnpackedFloat.normalize Format.binary64 (Sign.positive.apply n) 0 .positive) = _
  rw [normalize_apply .positive hpos, hround]

end Double

end KernelDispatch
