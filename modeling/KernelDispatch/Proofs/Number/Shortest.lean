import KernelDispatch.Number.Shortest
import Mathlib.Algebra.Order.Field.Power
import Mathlib.Tactic.Linarith
import Mathlib.Tactic.Positivity
import Mathlib.Tactic.Ring

/-!
# Where the shortest decimal lies

The decimal of a number is searched for in the interval of reals that round to the number, so
it is never above the upper end of that interval. The search starts at the leading digit and
goes down by one place at a time, eighteen places in all, so its digits fit a word.

## Main definitions

* `Decimal.value`, `RoundingInterval.upper` — decimals and ends of intervals, as fractions.

## Main results

* `shortest_digits_lt` — the digits fit a word.
* `shortest_value_le` — the decimal is no more than half a unit of the last place above.
-/

namespace KernelDispatch.Number

/-- The number that a decimal stands for. -/
def Decimal.value (d : Decimal) : ℚ := d.digits * 10 ^ d.power

namespace RoundingInterval

variable {i : RoundingInterval} {tieUp : Bool} {units : Nat}

/-- The upper end of an interval. -/
def upper (i : RoundingInterval) : ℚ := i.high / i.den

/-- The number in an interval. -/
def middle (i : RoundingInterval) : ℚ := i.value / i.den

theorem den_inUnits_pos (hden : 0 < i.den) (power : Int) : 0 < (i.inUnits power).den := by
  unfold inUnits
  split
  · exact Nat.mul_pos hden (Nat.pow_pos (by decide))
  · exact hden

/-- In units of a power of ten the interval is that power narrower. -/
theorem upper_inUnits (i : RoundingInterval) (power : Int) :
    (i.inUnits power).upper * 10 ^ power = i.upper := by
  unfold inUnits upper
  split
  · rename_i hpower
    obtain ⟨n, rfl⟩ := Int.eq_ofNat_of_zero_le hpower
    have hscale : (10 : ℚ) ^ n ≠ 0 := by positivity
    rw [Int.toNat_natCast, Nat.pow_eq, zpow_natCast, Nat.cast_mul, Nat.cast_pow, Nat.cast_ofNat,
      div_mul_eq_mul_div, mul_div_mul_right _ _ hscale]
  · rename_i hpower
    obtain ⟨n, rfl⟩ : ∃ n : Nat, power = -n := ⟨(-power).toNat, by omega⟩
    have hscale : (10 : ℚ) ^ n ≠ 0 := by positivity
    rw [neg_neg, Int.toNat_natCast, Nat.pow_eq, zpow_neg, zpow_natCast, Nat.cast_mul, Nat.cast_pow,
      Nat.cast_ofNat, mul_div_right_comm, mul_assoc, mul_inv_cancel₀ hscale, mul_one]

theorem middle_inUnits (i : RoundingInterval) (power : Int) :
    (i.inUnits power).middle * 10 ^ power = i.middle := by
  -- the middle is the upper end of the interval that ends there
  have hsame := upper_inUnits { i with high := i.value } power
  unfold inUnits upper at hsame
  unfold inUnits middle
  split at hsame <;> rename_i hpower <;> simp only [hpower, if_true, if_false] <;> exact hsame

theorem le_upper_of_holds (hden : 0 < i.den) (h : i.holds units = true) :
    (units : ℚ) ≤ i.upper := by
  have hpoint : units * i.den ≤ i.high := by
    unfold holds at h
    dsimp only at h
    split at h
    · simp only [Bool.and_eq_true, decide_eq_true_eq] at h
      exact h.2
    · simp only [Bool.and_eq_true, decide_eq_true_eq] at h
      exact Nat.le_of_lt h.2
  rw [upper, le_div_iff₀ (by exact_mod_cast hden)]
  exact_mod_cast hpoint

/-- What is found is in the interval, and is one of the neighbours of the number. -/
theorem nearest?_eq_some (h : i.nearest? tieUp = some units) :
    i.holds units = true ∧ units ≤ i.value / i.den + 1 := by
  unfold nearest? at h
  dsimp only at h
  split at h
  · cases h
  · rename_i hbelow _
    obtain rfl := Option.some.inj h
    exact ⟨hbelow, by omega⟩
  · rename_i _ habove
    obtain rfl := Option.some.inj h
    exact ⟨habove, by omega⟩
  · rename_i hbelow habove
    split at h
    · obtain rfl := Option.some.inj h
      exact ⟨hbelow, by omega⟩
    · split at h
      · obtain rfl := Option.some.inj h
        exact ⟨habove, by omega⟩
      · split at h
        · obtain rfl := Option.some.inj h
          exact ⟨habove, by omega⟩
        · obtain rfl := Option.some.inj h
          exact ⟨hbelow, by omega⟩

theorem value_le_of_nearest? (hden : 0 < i.den) {power : Int}
    (h : (i.inUnits power).nearest? tieUp = some units) :
    (⟨units, power⟩ : Decimal).value ≤ i.upper := by
  have hunits := le_upper_of_holds (den_inUnits_pos hden power) (nearest?_eq_some h).1
  rw [← upper_inUnits i power, Decimal.value]
  exact mul_le_mul_of_nonneg_right hunits (by positivity)

/-- Above its leading digit a number has no digits. -/
theorem units_le_of_nearest? (hden : 0 < i.den) {power : Int} {k : Nat}
    (hmiddle : i.middle < 10 ^ (power + k))
    (h : (i.inUnits power).nearest? tieUp = some units) : units ≤ 10 ^ k := by
  have hpos := den_inUnits_pos hden power
  have hscale : (0 : ℚ) < 10 ^ power := by positivity
  have hbelow : (i.inUnits power).middle < 10 ^ k := by
    rw [← middle_inUnits i power, zpow_add₀ (by norm_num), mul_comm, zpow_natCast] at hmiddle
    exact lt_of_mul_lt_mul_left hmiddle hscale.le
  have hquotient : (i.inUnits power).value / (i.inUnits power).den < 10 ^ k := by
    rw [Nat.div_lt_iff_lt_mul hpos]
    rw [middle, div_lt_iff₀ (by exact_mod_cast hpos)] at hbelow
    exact_mod_cast hbelow
  have hneighbour := (nearest?_eq_some h).2
  omega

end RoundingInterval

/-! ## The search -/

variable {i : RoundingInterval}

theorem searchDigits_value_le (hden : 0 < i.den) (tieUp : Bool) (count : Nat) (power : Int) :
    (searchDigits i tieUp count power).value ≤ i.upper := by
  induction count generalizing power with
  | zero =>
      rw [searchDigits]
      cases hnearest : (i.inUnits power).nearest? tieUp with
      | some units => exact i.value_le_of_nearest? hden hnearest
      | none =>
          simp only [Decimal.value, Option.getD_none, Nat.cast_zero, zero_mul]
          unfold RoundingInterval.upper
          positivity
  | succ count ih =>
      rw [searchDigits]
      split
      · rename_i units hnearest
        exact i.value_le_of_nearest? hden hnearest
      · exact ih (power - 1)

/-- One place further down there is one digit more. -/
theorem searchDigits_digits_le (hden : 0 < i.den) (tieUp : Bool) (count k : Nat) (power : Int)
    (hmiddle : i.middle < 10 ^ (power + k)) :
    (searchDigits i tieUp count power).digits ≤ 10 ^ (k + count) := by
  induction count generalizing power k with
  | zero =>
      rw [searchDigits]
      cases hnearest : (i.inUnits power).nearest? tieUp with
      | some units => exact i.units_le_of_nearest? hden hmiddle hnearest
      | none => exact Nat.zero_le _
  | succ count ih =>
      rw [searchDigits]
      split
      · rename_i units hnearest
        exact Nat.le_trans (i.units_le_of_nearest? hden hmiddle hnearest)
          (Nat.pow_le_pow_right (by decide) (by omega))
      · have hnext : power - 1 + ((k + 1 : Nat) : Int) = power + k := by omega
        have hrest := ih (k + 1) (power - 1) (by rwa [hnext])
        rwa [Nat.add_right_comm, Nat.add_assoc] at hrest

theorem lt_pow_digitCount (n : Nat) : n < 10 ^ digitCount n :=
  (Nat.length_toDigits_le_iff (by decide) Nat.length_toDigits_pos).1 (Nat.le_refl _)

theorem pow_digitCount_le {n : Nat} (hn : 0 < n) : 10 ^ (digitCount n - 1) ≤ n := by
  by_cases hone : digitCount n = 1
  · rw [hone]
    exact hn
  · have hpos : 0 < digitCount n := Nat.length_toDigits_pos
    by_contra hlt
    have hle := (Nat.length_toDigits_le_iff (by decide) (by omega)).2 (Nat.lt_of_not_le hlt)
    have hsame : (Nat.toDigits 10 n).length = digitCount n := rfl
    omega

/-- A fraction has no more places than its numerator has above its denominator, and one. -/
theorem lt_pow_digitCount_sub (num : Nat) {den : Nat} (hden : 0 < den) :
    (num : ℚ) / den < 10 ^ ((digitCount num : Int) - digitCount den + 1) := by
  have hnum : (num : ℚ) < 10 ^ digitCount num := by exact_mod_cast lt_pow_digitCount num
  have hlower : (10 : ℚ) ^ (digitCount den - 1) ≤ den := by exact_mod_cast pow_digitCount_le hden
  have hpos : 0 < digitCount den := Nat.length_toDigits_pos
  have hplaces : (digitCount num : Int) - digitCount den + 1 =
      (digitCount num : Int) - ((digitCount den - 1 : Nat) : Int) := by omega
  have hscale : (0 : ℚ) < 10 ^ (digitCount den - 1) := by positivity
  have hdenq : (0 : ℚ) < den := by exact_mod_cast hden
  rw [hplaces, zpow_sub₀ (by norm_num), zpow_natCast, zpow_natCast, div_lt_div_iff₀ hdenq hscale]
  calc (num : ℚ) * 10 ^ (digitCount den - 1) ≤ num * den :=
        mul_le_mul_of_nonneg_left hlower (Nat.cast_nonneg _)
    _ < 10 ^ digitCount num * den := mul_lt_mul_of_pos_right hnum hdenq

/-- The leading digit of a fraction is below the power of ten that is found for it. -/
theorem lt_pow_leadingPower (num : Nat) {den : Nat} (hden : 0 < den) :
    (num : ℚ) / den < 10 ^ leadingPower num den := by
  have hupper := lt_pow_digitCount_sub num hden
  have hdenq : (0 : ℚ) < den := by exact_mod_cast hden
  unfold leadingPower
  dsimp only
  generalize (digitCount num : Int) - digitCount den = p at hupper ⊢
  by_cases hp : 0 ≤ p
  · obtain ⟨n, rfl⟩ := Int.eq_ofNat_of_zero_le hp
    simp only [hp, if_true, Int.toNat_natCast, Nat.pow_eq]
    split
    · exact hupper
    · rename_i hbelow
      rw [div_lt_iff₀ hdenq, zpow_natCast, mul_comm]
      exact_mod_cast Nat.lt_of_not_le hbelow
  · obtain ⟨n, rfl⟩ : ∃ n : Nat, p = -n := ⟨(-p).toNat, by omega⟩
    simp only [hp, if_false, neg_neg, Int.toNat_natCast, Nat.pow_eq]
    split
    · exact hupper
    · rename_i hbelow
      have hscale : (0 : ℚ) < 10 ^ n := by positivity
      rw [zpow_neg, zpow_natCast, div_lt_iff₀ hdenq, inv_mul_eq_div, lt_div_iff₀ hscale]
      exact_mod_cast Nat.lt_of_not_le hbelow

/-! ## The shortest decimal -/

theorem stripZeros_value (d : Decimal) : d.stripZeros.value = d.value := by
  induction d using Decimal.stripZeros.induct with
  | case1 d h ih =>
      rw [Decimal.stripZeros, dif_pos h, ih]
      have hdigits : d.digits / 10 * 10 = d.digits := Nat.div_mul_cancel (Nat.dvd_of_mod_eq_zero h.2)
      have hcast : ((d.digits / 10 : Nat) : ℚ) * 10 = d.digits := by exact_mod_cast hdigits
      rw [Decimal.value, Decimal.value, zpow_add_one₀ (by norm_num), ← hcast]
      ring
  | case2 d h => rw [Decimal.stripZeros, dif_neg h]

theorem stripZeros_digits_le (d : Decimal) : d.stripZeros.digits ≤ d.digits := by
  induction d using Decimal.stripZeros.induct with
  | case1 d h ih =>
      rw [Decimal.stripZeros, dif_pos h]
      exact Nat.le_trans ih (Nat.div_le_self _ _)
  | case2 d h => rw [Decimal.stripZeros, dif_neg h]

variable (magnitude : Nat) (power : Int) (narrow tieUp : Bool)

theorem around_den_pos : 0 < (RoundingInterval.around magnitude power narrow).den := by
  unfold RoundingInterval.around
  dsimp only
  split
  · exact Nat.one_pos
  · exact Nat.pow_pos (by decide)

/-- The interval reaches half a unit of the last place up. -/
theorem around_upper :
    (RoundingInterval.around magnitude power narrow).upper =
      (4 * magnitude + 2) * 2 ^ (power - 2) := by
  unfold RoundingInterval.around RoundingInterval.upper
  dsimp only
  split
  · rename_i hpower
    obtain ⟨n, hn⟩ := Int.eq_ofNat_of_zero_le (show 0 ≤ power - 2 by omega)
    rw [hn, zpow_natCast]
    push_cast
    simp
  · rename_i hpower
    obtain ⟨n, hn⟩ : ∃ n : Nat, power - 2 = -n := ⟨(2 - power).toNat, by omega⟩
    have hnat : (2 - power).toNat = n := by omega
    rw [hn, hnat, zpow_neg, zpow_natCast, Nat.pow_eq]
    push_cast
    rw [mul_one, div_eq_mul_inv]

/-- The shortest decimal of a number has digits that fit a word. -/
theorem shortest_digits_lt : (shortest tieUp magnitude power narrow).digits < UInt64.size := by
  unfold shortest
  split
  · decide
  · have hden := around_den_pos magnitude power narrow
    have hmiddle := lt_pow_leadingPower
      (RoundingInterval.around magnitude power narrow).value hden
    have hsearch := searchDigits_digits_le hden tieUp 17 1
      (leadingPower (RoundingInterval.around magnitude power narrow).value
        (RoundingInterval.around magnitude power narrow).den - 1)
      (by rwa [Nat.cast_one, Int.sub_add_cancel])
    exact Nat.lt_of_le_of_lt (Nat.le_trans (stripZeros_digits_le _) hsearch) (by decide)

/-- The shortest decimal of a number is within the upper half of its interval. -/
theorem shortest_value_le :
    (shortest tieUp magnitude power narrow).value ≤ (4 * magnitude + 2) * 2 ^ (power - 2) := by
  unfold shortest
  split
  · simp only [Decimal.value, Nat.cast_zero, zero_mul]
    positivity
  · have hden := around_den_pos magnitude power narrow
    rw [stripZeros_value, ← around_upper magnitude power narrow]
    exact searchDigits_value_le hden tieUp 17 _

end KernelDispatch.Number
