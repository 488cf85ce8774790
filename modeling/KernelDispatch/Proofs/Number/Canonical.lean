import Mathlib

/-!
# Numbers of a binary format

A format says how many digits a mantissa has and how large exponents get. Each positive number
of a format has one mantissa and one exponent: all digits are in use, unless the exponent is the
least. In this form a number is what its bits stand for, and it can be compared by exponent
first and mantissa second.

## Main definitions

* `Binary.Canonical` — mantissa and exponent in this form.

## Main results

* `Binary.canonical_of_unpack` — bits stand for numbers in this form.
* `Binary.unpack_pack` — a number in this form comes back from its bits.
-/

namespace KernelDispatch.Binary

open Float.Model (Format UnpackedFloat totalExponent)
open Float.Model.UnpackedFloat

/-- Mantissa and exponent of a positive number of a format: the leading digit is in its place,
or the exponent is the least. -/
structure Canonical (spec : Format) (m : Nat) (e : Int) : Prop where
  bounded : m < 2 ^ spec.mantissaBits
  least : spec.minExponent ≤ e
  placed : 2 ^ spec.mantissaBitsWithoutImplicit ≤ m ∨ e = spec.minExponent
  within : e + spec.exponentBias + spec.mantissaBitsWithoutImplicit + 1 < 2 ^ spec.exponentBits

variable {spec : Format}

theorem minExponent_eq (spec : Format) :
    spec.minExponent = 1 - (spec.exponentBias + spec.mantissaBitsWithoutImplicit : Int) := by
  have hpos := Nat.two_pow_pos (spec.exponentBits - 1)
  have hcast : ((2 ^ (spec.exponentBits - 1) : Nat) : Int) = 2 ^ (spec.exponentBits - 1) := by simp
  simp only [Format.minExponent, Format.exponentBias, Format.mantissaBits]
  omega

theorem two_pow_mantissaBits (spec : Format) :
    2 ^ spec.mantissaBits = 2 * 2 ^ spec.mantissaBitsWithoutImplicit := by
  rw [Format.mantissaBits, Nat.pow_add]

theorem toNat_append_one (fraction : BitVec spec.mantissaBitsWithoutImplicit) :
    (1#1 ++ fraction).toNat = 2 ^ spec.mantissaBitsWithoutImplicit + fraction.toNat := by
  rw [BitVec.toNat_append, ← Nat.shiftLeft_add_eq_or_of_lt fraction.isLt, Nat.shiftLeft_eq]
  show 1 * 2 ^ spec.mantissaBitsWithoutImplicit + fraction.toNat = _
  rw [Nat.one_mul]

/-- What bits stand for is canonical. -/
theorem canonical_of_unpack (hspec : 2 ≤ spec.exponentBits) {bits : BitVec spec.numBits}
    {sign : Sign} {m : Nat} {e : Int} {hm : 0 < m} (h : unpack spec bits = .finite sign m e hm) :
    Canonical spec m e := by
  have hfraction := (unpackMantissa bits).isLt
  have hexponent := (unpackExponent bits).isLt
  have htwice := two_pow_mantissaBits spec
  have hleast := minExponent_eq spec
  have hfour : 4 ≤ 2 ^ spec.exponentBits := Nat.pow_le_pow_right (n := 2) (by decide) hspec
  unfold unpack at h
  dsimp only at h
  split at h
  · split at h <;> cases h
  · rename_i hnotones
    have hsmall : (unpackExponent bits).toNat + 1 < 2 ^ spec.exponentBits := by
      refine Nat.lt_of_le_of_ne hexponent fun hlast => hnotones (BitVec.eq_of_toNat_eq ?_)
      rw [BitVec.neg_one_eq_allOnes, BitVec.toNat_allOnes]
      omega
    split at h
    · rename_i hzero
      split at h
      · cases h
      · injection h with _ hmantissa hplace
        have hnone : (unpackExponent bits).toNat = 0 := by rw [hzero]; rfl
        subst hmantissa hplace
        refine ⟨by omega, by omega, .inr (by omega), ?_⟩
        have : ((2 ^ spec.exponentBits : Nat) : Int) = 2 ^ spec.exponentBits := by simp
        omega
    · rename_i hnotzero
      injection h with _ hmantissa hplace
      have hsome : (unpackExponent bits).toNat ≠ 0 := fun hzero =>
        hnotzero (BitVec.eq_of_toNat_eq hzero)
      rw [toNat_append_one] at hmantissa
      subst hmantissa hplace
      refine ⟨by omega, by omega, .inl (by omega), ?_⟩
      have : ((2 ^ spec.exponentBits : Nat) : Int) = 2 ^ spec.exponentBits := by simp
      omega

/-- A canonical number comes back from its bits. -/
theorem unpack_pack (sign : Sign) {m : Nat} {e : Int} (hm : 0 < m) (h : Canonical spec m e) :
    unpack spec (pack spec (.finite sign m e hm)) = .finite sign m e hm := by
  have htwice := two_pow_mantissaBits spec
  have hleast := minExponent_eq spec
  have hcast : ((2 ^ spec.exponentBits : Nat) : Int) = 2 ^ spec.exponentBits := by simp
  obtain ⟨hbounded, hmin, hplaced, hwithin⟩ := h
  -- the exponent is written with the bias added, which is one for the least
  obtain ⟨biased, hbiased⟩ : ∃ biased : Nat,
      (biased : Int) = e + spec.exponentBias + spec.mantissaBitsWithoutImplicit :=
    ⟨(e + spec.exponentBias + spec.mantissaBitsWithoutImplicit).toNat, by omega⟩
  have hnat : (e + spec.exponentBias + spec.mantissaBitsWithoutImplicit).toNat = biased := by
    omega
  have hsmall : ¬ 2 ^ spec.exponentBits ≤ biased + 1 := by omega
  by_cases hleading : 2 ^ spec.mantissaBitsWithoutImplicit ≤ m
  · have hlog : m.log2 + 1 = spec.mantissaBits := by
      have := (Nat.log2_eq_iff (Nat.ne_of_gt hm)).2 ⟨hleading, by omega⟩
      rw [this, Format.mantissaBits, Nat.add_comm]
    have hexponent : (BitVec.ofNat spec.exponentBits biased).toNat = biased := by
      rw [BitVec.toNat_ofNat, Nat.mod_eq_of_lt (by omega)]
    have hnotones : BitVec.ofNat spec.exponentBits biased ≠ -1#_ := by
      intro hall
      have hvalue := congrArg BitVec.toNat hall
      rw [BitVec.neg_one_eq_allOnes, BitVec.toNat_allOnes, hexponent] at hvalue
      omega
    have hnotzero : BitVec.ofNat spec.exponentBits biased ≠ 0#_ := by
      intro hnone
      have hvalue := congrArg BitVec.toNat hnone
      rw [BitVec.toNat_zero, hexponent] at hvalue
      omega
    have hfraction : (1#1 ++ BitVec.ofNat spec.mantissaBitsWithoutImplicit m).toNat = m := by
      have hrest : m % 2 ^ spec.mantissaBitsWithoutImplicit =
          m - 2 ^ spec.mantissaBitsWithoutImplicit := by
        rw [Nat.mod_eq_sub_mod hleading, Nat.mod_eq_of_lt (by omega)]
      rw [toNat_append_one, BitVec.toNat_ofNat, hrest]
      omega
    have hpack : pack spec (.finite sign m e hm) =
        packComponents spec sign (BitVec.ofNat spec.exponentBits biased)
          (BitVec.ofNat spec.mantissaBitsWithoutImplicit m) := by
      simp only [pack, hnat, if_neg hsmall, if_pos hlog]
    rw [hpack, unpack]
    simp only [unpackExponent_packComponents, unpackMantissa_packComponents,
      unpackSign_packComponents, Sign.ofBitVec_toBitVec, if_neg hnotones, if_neg hnotzero,
      hexponent, hfraction]
    congr 1
    omega
  · have hplace : e = spec.minExponent := hplaced.resolve_left hleading
    have hfraction : (BitVec.ofNat spec.mantissaBitsWithoutImplicit m).toNat = m := by
      rw [BitVec.toNat_ofNat, Nat.mod_eq_of_lt (by omega)]
    have hnotzero : BitVec.ofNat spec.mantissaBitsWithoutImplicit m ≠ 0#_ := by
      intro hnone
      have hvalue := congrArg BitVec.toNat hnone
      rw [BitVec.toNat_zero, hfraction] at hvalue
      omega
    have hlog : ¬ m.log2 + 1 = spec.mantissaBits := by
      have := (Nat.log2_lt (Nat.ne_of_gt hm)).2 (Nat.lt_of_not_le hleading)
      rw [Format.mantissaBits]
      omega
    have hnotones : BitVec.ofNat spec.exponentBits 0 ≠ -1#_ := by
      intro hall
      have hvalue := congrArg BitVec.toNat hall
      rw [BitVec.neg_one_eq_allOnes, BitVec.toNat_allOnes, BitVec.toNat_zero] at hvalue
      omega
    have hpack : pack spec (.finite sign m e hm) =
        packComponents spec sign 0#_
          (BitVec.ofNat spec.mantissaBitsWithoutImplicit m) := by
      simp only [pack, hnat, if_neg hsmall, if_neg hlog]
    rw [hpack, unpack]
    simp only [unpackExponent_packComponents, unpackMantissa_packComponents,
      unpackSign_packComponents, Sign.ofBitVec_toBitVec, if_neg hnotones, if_true,
      dif_neg hnotzero, hfraction]
    congr 1
    rw [BitVec.toNat_zero]
    omega

end KernelDispatch.Binary
