import KernelDispatch.Number.Time
import KernelDispatch.Proofs.Number.Rounding

/-!
# What a double is exactly

The rules that must not lose a bit read a double from its bits, in whole numbers. They see the
sign, mantissa and exponent that arithmetic works on, and zero as a mantissa of zero.

Seconds are turned into nanoseconds in this way. The exact number of units is scaled and
rounded once, so a longer span never has fewer nanoseconds. What is not a number, or infinite,
has no exact value; every other double is a fraction, and the comparison with zero says on which
side of zero the fraction is.

## Main definitions

* `Number.Exact.fraction?` — the fraction that an exact form stands for.
* `Double.Decoded` — an exact form, and the double that it is read from.
* `Double.unitsOf` — how many units a mantissa at an exponent is.

## Main results

* `Double.decoded` — the bits of a double are read right.
* `Double.isSome_fraction?`, `Double.less_zero_eq` — which doubles are fractions, and below zero.
* `Double.unitsOf_le` — doubles are compared as their units are.
* `Number.nanosOfSeconds?_mono` — a longer span has no fewer nanoseconds.
-/

namespace KernelDispatch

open Float.Model (Format UnpackedFloat)
open Float.Model.UnpackedFloat
open Number

/-- The fraction that an exact form stands for, if it stands for one. -/
def Number.Exact.fraction? : Exact → Option Rat
  | .finite negative magnitude power _ =>
      some ((if negative then -1 else 1) * (magnitude * 2 ^ power))
  | _ => none

namespace Double

/-- Whether a sign is that of numbers below zero. -/
def isNegative : Sign → Bool
  | .negative => true
  | .positive => false

/-- An exact form, and sign, mantissa and exponent of the double that it is read from. -/
inductive Decoded : UnpackedFloat → Exact → Prop where
  | notANumber : Decoded .notANumber .nan
  | infinity (sign : Sign) : Decoded (.infinity sign) (.infinite (isNegative sign))
  | zero (sign : Sign) : Decoded (.zero sign) (.finite (isNegative sign) 0 (-1074) false)
  | finite (sign : Sign) {m : Nat} {e : Int} (hm : 0 < m) (narrow : Bool) :
      Decoded (.finite sign m e hm) (.finite (isNegative sign) m e narrow)

theorem decoded (x : Float) : Decoded (shape x) (ofFloat x) := by
  have hfraction : (@unpackMantissa Format.binary64 x.toBits.toBitVec).toNat =
      x.toBits.toNat % 2 ^ 52 := by
    rw [unpackMantissa_def, BitVec.extractLsb'_toNat, Nat.shiftRight_zero]
    rfl
  have hexponent : (@unpackExponent Format.binary64 x.toBits.toBitVec).toNat =
      x.toBits.toNat / 2 ^ 52 % 2 ^ 11 := by
    rw [unpackExponent_def, BitVec.extractLsb'_toNat, Nat.shiftRight_eq_div_pow]
    rfl
  have hsign : isNegative (Sign.ofBitVec (@unpackSign Format.binary64 x.toBits.toBitVec)) =
      (x.toBits.toNat / (2 ^ 52 * 2 ^ 11) % 2 == 1) := by
    have hbit : (@unpackSign Format.binary64 x.toBits.toBitVec).toNat =
        x.toBits.toNat / (2 ^ 52 * 2 ^ 11) % 2 := by
      rw [unpackSign_def, BitVec.extractLsb'_toNat, Nat.shiftRight_eq_div_pow]
      rfl
    rw [← hbit]
    generalize @unpackSign Format.binary64 x.toBits.toBitVec = bit
    revert bit
    decide
  have hones : @unpackExponent Format.binary64 x.toBits.toBitVec = -1#_ ↔
      (@unpackExponent Format.binary64 x.toBits.toBitVec).toNat = 2 ^ 11 - 1 := by
    rw [← BitVec.toNat_inj]
    rfl
  have hzeros : @unpackExponent Format.binary64 x.toBits.toBitVec = 0#_ ↔
      (@unpackExponent Format.binary64 x.toBits.toBitVec).toNat = 0 := by
    rw [← BitVec.toNat_inj]
    rfl
  have hnone : @unpackMantissa Format.binary64 x.toBits.toBitVec = 0#_ ↔
      (@unpackMantissa Format.binary64 x.toBits.toBitVec).toNat = 0 := by
    rw [← BitVec.toNat_inj]
    rfl
  show Decoded (unpack Format.binary64 x.toBits.toBitVec) (decode binary64 x.toBits.toNat)
  unfold decode
  dsimp only [binary64]
  simp only [Nat.pow_eq]
  rw [← hfraction, ← hexponent, ← hsign]
  unfold unpack
  dsimp only
  split
  · rename_i hall
    rw [if_pos (hones.1 hall)]
    split
    · rename_i hempty
      rw [if_pos (hnone.1 hempty)]
      exact .infinity _
    · rename_i hfilled
      rw [if_neg (mt hnone.2 hfilled)]
      exact .notANumber
  · rename_i hsome
    rw [if_neg (mt hones.2 hsome)]
    split
    · rename_i hsmall
      have hleast := hzeros.1 hsmall
      rw [if_pos hleast, hleast]
      split
      · rename_i hempty
        rw [hnone.1 hempty]
        exact .zero _
      · exact .finite _ _ false
    · rename_i hlarge
      have hleading := Binary.toNat_append_one
        (@unpackMantissa Format.binary64 x.toBits.toBitVec)
      rw [if_neg (mt hzeros.2 hlarge)]
      simp only [hleading]
      exact .finite _ _ _

/-! ## Fractions -/

/-- A double is a fraction if it is finite. -/
theorem isSome_fraction? (x : Float) : (ofFloat x).fraction?.isSome = Scalar.finite x := by
  have hdecoded := decoded x
  rw [finite_eq]
  generalize shape x = f at hdecoded
  generalize ofFloat x = exact at hdecoded
  cases hdecoded <;> rfl

/-- A double is below zero if its fraction is. -/
theorem less_zero_eq {x : Float} {q : Rat} (h : (ofFloat x).fraction? = some q) :
    Scalar.less x Scalar.zero = decide (q < 0) := by
  have hdecoded := decoded x
  rw [less_eq, shape_zero]
  generalize shape x = f at hdecoded
  generalize ofFloat x = exact at h hdecoded
  cases hdecoded with
  | notANumber => cases h
  | infinity sign => cases h
  | zero sign =>
      obtain rfl := Option.some.inj h
      rw [Nat.cast_zero, zero_mul, mul_zero]
      cases sign <;> rfl
  | @finite sign m e hm narrow =>
      obtain rfl := Option.some.inj h
      have hpos : (0 : Rat) < m * 2 ^ e :=
        mul_pos (Nat.cast_pos.2 hm) (zpow_pos (by decide) e)
      cases sign with
      | negative => exact (decide_eq_true (by simpa [isNegative] using hpos)).symm
      | positive => exact (decide_eq_false (by simpa [isNegative] using le_of_lt hpos)).symm

/-! ## Units -/

/-- How many units a mantissa at an exponent is. -/
def unitsOf (m : Nat) (e : Int) : Nat := m * 2 ^ (e + placesBelowOne).toNat

/-- A quotient of two whole numbers, in units. -/
theorem asQuotient_units (m : Nat) {e : Int} (he : -1074 ≤ e) :
    0 < (asQuotient m e).2 ∧
      (asQuotient m e).1 * 2 ^ placesBelowOne = unitsOf m e * (asQuotient m e).2 := by
  unfold asQuotient unitsOf placesBelowOne
  simp only [Nat.pow_eq]
  split
  · have hplaces : (e + (1074 : Nat)).toNat = e.toNat + 1074 := by omega
    refine ⟨Nat.one_pos, ?_⟩
    rw [hplaces, Nat.pow_add, Nat.mul_assoc, Nat.mul_one]
  · have hplaces : 1074 = (e + (1074 : Nat)).toNat + (-e).toNat := by omega
    refine ⟨Nat.two_pow_pos _, ?_⟩
    rw [Nat.mul_assoc, ← Nat.pow_add, ← hplaces]

/-- Doubles are compared as their units are. -/
theorem unitsOf_le {m m' : Nat} {e e' : Int} (h : Binary.Canonical Format.binary64 m e)
    (h' : Binary.Canonical Format.binary64 m' e') (hle : e < e' ∨ e = e' ∧ m ≤ m') :
    unitsOf m e ≤ unitsOf m' e' := by
  obtain ⟨hbound, -, hleast, -⟩ := canonical_iff.1 h
  obtain ⟨-, hplaced, -, -⟩ := canonical_iff.1 h'
  unfold unitsOf placesBelowOne
  rcases hle with hlt | ⟨rfl, hle⟩
  · have hlower : 2 ^ 52 ≤ m' := hplaced.resolve_right (by omega)
    obtain ⟨c, hc⟩ : ∃ c, (e' + (1074 : Nat)).toNat = (e + (1074 : Nat)).toNat + 1 + c :=
      ⟨(e' + (1074 : Nat)).toNat - ((e + (1074 : Nat)).toNat + 1), by omega⟩
    calc m * 2 ^ (e + (1074 : Nat)).toNat ≤ 2 ^ 53 * 2 ^ (e + (1074 : Nat)).toNat :=
          Nat.mul_le_mul_right _ (Nat.le_of_lt hbound)
      _ = 2 ^ 52 * 2 ^ ((e + (1074 : Nat)).toNat + 1) := by ring
      _ ≤ m' * 2 ^ (e' + (1074 : Nat)).toNat := by
          rw [hc]
          exact Nat.mul_le_mul hlower (Nat.pow_le_pow_right (by decide) (by omega))
  · exact Nat.mul_le_mul_right _ hle

/-- What is at least a positive double is infinite, or it has at least as many units. -/
theorem le_cases {m : Nat} {e : Int} {hm : 0 < m} {g : UnpackedFloat}
    (h : (UnpackedFloat.finite .positive m e hm).le g = true) :
    g = .infinity .positive ∨
      ∃ m' e' hm', g = .finite .positive m' e' hm' ∧ (e < e' ∨ e = e' ∧ m ≤ m') := by
  rcases g with (_ | _) | _ | _ | ⟨_ | _, m', e', hm'⟩
  · cases h
  · exact .inl rfl
  · cases h
  · cases h
  · cases h
  · refine .inr ⟨m', e', hm', rfl, ?_⟩
    simp only [UnpackedFloat.le, UnpackedFloat.compare, Option.any_some,
      Ordering.isLE_then_iff_or, Int.compare_eq_lt, Int.compare_eq_eq, Nat.isLE_compare] at h
    exact h

theorem eq_infinity_of_le {g : UnpackedFloat}
    (h : (UnpackedFloat.infinity .positive).le g = true) : g = .infinity .positive := by
  rcases g with (_ | _) | _ | _ | ⟨_ | _, _, _, _⟩ <;> first | rfl | cases h

end Double

/-! ## Seconds -/

namespace Number

open Double

/-- A quotient is rounded down below a half, and at a half above an even number. -/
theorem roundQuotient_eq_div_iff (num den : Nat) : roundQuotient num den = num / den ↔
    2 * (num % den) < den ∨ 2 * (num % den) = den ∧ num / den % 2 = 0 := by
  unfold roundQuotient
  dsimp only
  split
  · omega
  · split
    · omega
    · split <;> omega

/-- A larger numerator does not have a smaller rounded quotient. -/
theorem roundQuotient_mono {num num' : Nat} (h : num ≤ num') (den : Nat) :
    roundQuotient num den ≤ roundQuotient num' den := by
  have hquotient : num / den ≤ num' / den := Nat.div_le_div_right h
  obtain ⟨hlower, hupper⟩ := roundQuotient_bounds num den
  obtain ⟨hlower', hupper'⟩ := roundQuotient_bounds num' den
  by_contra hlt
  have hsame : num / den = num' / den := by omega
  have hrest : num % den ≤ num' % den := by
    have hsplit := Nat.div_add_mod num den
    have hsplit' := Nat.div_add_mod num' den
    rw [hsame] at hsplit
    omega
  have hdown := (roundQuotient_eq_div_iff num' den).1 (by omega)
  have hdown' := (roundQuotient_eq_div_iff num den).2 (by omega)
  omega

/-- How many nanoseconds so many units of a second are. -/
def nanosOfUnits (units : Nat) : Option Nat :=
  if countUnits UInt64.size ≤ units then none
  else some (roundQuotient (units * nanosPerSecond) (2 ^ placesBelowOne))

theorem nanosOfUnits_mono {units units' nanos' : Nat} (h : units ≤ units')
    (hnanos' : nanosOfUnits units' = some nanos') :
    ∃ nanos ≤ nanos', nanosOfUnits units = some nanos := by
  unfold nanosOfUnits at hnanos' ⊢
  split at hnanos'
  · cases hnanos'
  · rename_i hfits
    rw [if_neg (by omega)]
    obtain rfl := Option.some.inj hnanos'
    exact ⟨_, roundQuotient_mono (Nat.mul_le_mul_right _ h) _, rfl⟩

@[simp] theorem nanosOfUnits_zero : nanosOfUnits 0 = some 0 := by
  have hsome : ¬ countUnits UInt64.size ≤ 0 := Nat.not_le.2 (countUnits_pos (by decide))
  have hzero := (roundQuotient_eq_div_iff 0 (2 ^ placesBelowOne)).2
    (.inl (by rw [Nat.zero_mod]; exact Nat.two_pow_pos _))
  rw [nanosOfUnits, if_neg hsome, Nat.zero_mul, hzero, Nat.zero_div]

theorem nanosOfUnits_eq (m : Nat) {e : Int} (he : -1074 ≤ e) :
    nanosOfUnits (unitsOf m e) =
      let (num, den) := asQuotient m e
      if UInt64.size * den ≤ num then none
      else some (roundQuotient (num * nanosPerSecond) den) := by
  obtain ⟨hden, hunits⟩ := asQuotient_units m he
  rcases hpair : asQuotient m e with ⟨num, den⟩
  rw [hpair] at hden hunits
  dsimp only at hden hunits ⊢
  have hone := Nat.two_pow_pos placesBelowOne
  have hbeyond : countUnits UInt64.size ≤ unitsOf m e ↔ UInt64.size * den ≤ num := by
    rw [← Nat.mul_le_mul_right_iff hden, ← hunits, countUnits, Nat.mul_right_comm,
      Nat.mul_le_mul_right_iff hone]
  have hquotient : roundQuotient (unitsOf m e * nanosPerSecond) (2 ^ placesBelowOne) =
      roundQuotient (num * nanosPerSecond) den := by
    refine roundQuotient_congr hone hden ?_
    rw [Nat.mul_right_comm, ← hunits, Nat.mul_right_comm]
  simp only [nanosOfUnits, hbeyond, hquotient]

/-- A span is what its units are. Spans below zero are none. -/
theorem nanosOfSeconds?_eq (x : Float) : nanosOfSeconds? x =
    match shape x with
    | .infinity .positive => none
    | .finite .positive m e _ => nanosOfUnits (unitsOf m e)
    | _ => some 0 := by
  have hleast : ∀ sign m e hm, shape x = .finite sign m e hm → -1074 ≤ e := fun sign m e hm h =>
    (canonical_iff.1 (Binary.canonical_of_unpack (by decide) h)).2.2.1
  have hdecoded := decoded x
  unfold nanosOfSeconds?
  generalize shape x = f at hleast hdecoded
  generalize ofFloat x = exact at hdecoded
  cases hdecoded with
  | notANumber => rfl
  | infinity sign => cases sign <;> rfl
  | zero sign =>
      cases sign with
      | negative => rfl
      | positive =>
          have hnone := nanosOfUnits_eq 0 (Int.le_refl (-1074))
          rw [unitsOf, Nat.zero_mul, nanosOfUnits_zero] at hnone
          dsimp only [isNegative]
          rw [hnone]
  | finite sign hm narrow =>
      cases sign with
      | negative => rfl
      | positive =>
          dsimp only [isNegative]
          rw [nanosOfUnits_eq _ (hleast _ _ _ _ rfl)]

/-- A longer span has no fewer nanoseconds. -/
theorem nanosOfSeconds?_mono {x y : Float} {nanos' : Nat} (h : Scalar.atMost x y = true)
    (hy : nanosOfSeconds? y = some nanos') : ∃ nanos ≤ nanos', nanosOfSeconds? x = some nanos := by
  rw [atMost_eq] at h
  rw [nanosOfSeconds?_eq] at hy ⊢
  cases hx : shape x with
  | notANumber => exact ⟨0, Nat.zero_le _, rfl⟩
  | zero sign => exact ⟨0, Nat.zero_le _, rfl⟩
  | infinity sign =>
      cases sign with
      | negative => exact ⟨0, Nat.zero_le _, rfl⟩
      | positive =>
          rw [hx] at h
          rw [eq_infinity_of_le h] at hy
          cases hy
  | finite sign m e hm =>
      cases sign with
      | negative => exact ⟨0, Nat.zero_le _, rfl⟩
      | positive =>
          rw [hx] at h
          obtain hinfinite | ⟨m', e', hm', hshape, hle⟩ := le_cases h
          · rw [hinfinite] at hy
            cases hy
          · rw [hshape] at hy
            exact nanosOfUnits_mono (unitsOf_le (Binary.canonical_of_unpack (by decide) hx)
              (Binary.canonical_of_unpack (by decide) hshape) hle) hy

end Number

end KernelDispatch
