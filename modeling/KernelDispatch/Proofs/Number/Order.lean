import KernelDispatch.Proofs.Number.Rounding

/-!
# Rounding keeps the order

A positive number of a format is not passed by rounding: what lies at or below it is rounded to
something at or below it. The exact value need not be a number of the format and may have many
more digits; it is enough to compare it at its own exponent.

So a sum does not get larger by a part that is not above zero, although it is rounded and may be
infinite or no number at all. Nothing of the kind holds of how much it gets larger by a part
that is above zero, which may be nothing.

## Main definitions

* `Binary.AtMost` — zero, or at or below a number of the format.
* `Binary.NotPositive` — no number, or one that is not above zero.

## Main results

* `Binary.round_below` — rounding does not pass a number of the format.
* `Binary.lt_of_lt_add` — a part that is not above zero does not make a sum larger.
* `Single.less_of_less_add` — the same of singles.
-/

namespace KernelDispatch.Binary

open Float.Model (Format UnpackedFloat totalExponent)
open Float.Model.UnpackedFloat
open Number

variable {spec : Format}

/-- Zero, or a number of the format that is at or below another one. -/
inductive AtMost (spec : Format) (sign : Sign) (bound : Nat) (place : Int) : UnpackedFloat → Prop
  | zero : AtMost spec sign bound place (.zero sign)
  | finite {m : Nat} {e : Int} (hm : 0 < m) (canonical : Canonical spec m e)
      (le : e < place ∨ e = place ∧ m ≤ bound) :
      AtMost spec sign bound place (.finite sign m e hm)

/-- What is at most a whole number is not rounded beyond it. -/
theorem roundQuotient_le {num den k : Nat} (hden : 0 < den) (h : num ≤ k * den) :
    roundQuotient num den ≤ k := by
  have htwo := two_mul_roundQuotient_le num hden
  have hlt : 2 * (roundQuotient num den * den) < 2 * ((k + 1) * den) := by
    rw [Nat.succ_mul k den]
    omega
  exact Nat.le_of_lt_succ (Nat.lt_of_mul_lt_mul_right (Nat.lt_of_mul_lt_mul_left hlt))

/-- The exponent of a canonical number is the one at which its digits are in place. -/
theorem targetExponent_of_canonical {m : Nat} {e : Int} (hm : 0 < m) (h : Canonical spec m e) :
    spec.targetExponent (totalExponent m e) = e := by
  have hupper := (Nat.log2_lt (Nat.ne_of_gt hm)).2 h.bounded
  have hleast := h.least
  simp only [Format.targetExponent, totalExponent, Format.mantissaBits] at hupper ⊢
  rcases h.placed with hlower | hsmallest
  · have hlog := (Nat.le_log2 (Nat.ne_of_gt hm)).2 hlower
    omega
  · omega

theorem targetExponent_mono {t t' : Int} (h : t ≤ t') :
    spec.targetExponent t ≤ spec.targetExponent t' := by
  simp only [Format.targetExponent]
  omega

/-- A mantissa that is shifted to its place has its digits in place. -/
theorem placed_of_target {m n : Nat} {e t : Int} (hcut : e + n = t)
    (htarget : spec.targetExponent (totalExponent m e) = t) :
    m / 2 ^ n < 2 ^ spec.mantissaBits ∧
      (2 ^ spec.mantissaBitsWithoutImplicit ≤ m / 2 ^ n ∨ t = spec.minExponent) := by
  simp only [Format.targetExponent, totalExponent, Format.mantissaBits] at htarget
  constructor
  · rw [Nat.div_lt_iff_lt_mul (Nat.two_pow_pos n), ← Nat.pow_add]
    refine Nat.lt_of_lt_of_le Nat.lt_log2_self (Nat.pow_le_pow_right (by decide) ?_)
    rw [Format.mantissaBits]
    omega
  · by_cases hleast : t = spec.minExponent
    · exact .inr hleast
    · left
      have hlog : m.log2 = spec.mantissaBitsWithoutImplicit + n := by omega
      have hm : m ≠ 0 := by
        rintro rfl
        have := spec.hm
        simp at hlog
        omega
      rw [Nat.le_div_iff_mul_le (Nat.two_pow_pos n), ← Nat.pow_add, ← hlog]
      exact Nat.log2_self_le hm

/-- What has its digits in place stays as it is. -/
theorem shiftToTargetExponent_placed {m : Nat} {e : Int} (hm : 0 < m)
    (hbounded : m < 2 ^ spec.mantissaBits) (hleast : spec.minExponent ≤ e) :
    shiftToTargetExponent spec m e .exact = (⟨m, false, false⟩, e) := by
  have hlog := (Nat.log2_lt (Nat.ne_of_gt hm)).2 hbounded
  have hnone : (spec.targetExponent (totalExponent m e) - e).toNat = 0 := by
    simp only [Format.targetExponent, totalExponent]
    omega
  rw [shiftToTargetExponent, shiftToExponent, hnone]
  exact Prod.ext rfl (Int.add_zero e)

/-- A digit more moves the number on by one place. -/
theorem shiftToTargetExponent_carry {e : Int} (hleast : spec.minExponent ≤ e) :
    shiftToTargetExponent spec (2 ^ spec.mantissaBits) e .exact =
      (⟨2 ^ spec.mantissaBitsWithoutImplicit, false, false⟩, e + 1) := by
  have htwice := two_pow_mantissaBits spec
  have hone : (spec.targetExponent (totalExponent (2 ^ spec.mantissaBits) e) - e).toNat = 1 := by
    simp only [Format.targetExponent, totalExponent, Nat.log2_two_pow]
    omega
  rw [shiftToTargetExponent, shiftToExponent, hone]
  refine Prod.ext ?_ rfl
  show ExtendedMantissa.shiftRightOne ⟨2 ^ spec.mantissaBits, false, false⟩ = _
  rw [htwice, ExtendedMantissa.shiftRightOne, Nat.mul_div_cancel_left _ (by decide),
    Nat.mul_mod_right]
  rfl

/-- A result that is cut down to its place does not pass a number of the format. -/
theorem roundWithAccuracy_below (sign : Sign) {m n c bound : Nat} {e t place : Int}
    (hcut : e + n = t) (htarget : spec.targetExponent (totalExponent m e) = t)
    (hbound : Canonical spec bound place) (hplace : t + c = place)
    (hm : m ≤ bound * 2 ^ c * 2 ^ n) :
    AtMost spec sign bound place (roundWithAccuracy spec sign m e .exact) := by
  have htwice := two_pow_mantissaBits spec
  have hleast : spec.minExponent ≤ t := by
    rw [← htarget, Format.targetExponent]
    omega
  have hwithin := hbound.within
  have hshift : (t - e).toNat = n := by omega
  have hfirst : shiftToTargetExponent spec m e .exact =
      (ExtendedMantissa.ofMantissaAndAccuracy m (accuracyOfFraction 0 1) >>> n, t) := by
    rw [shiftToTargetExponent, htarget, shiftToExponent, hshift, hcut]
    rfl
  have hrounded := ((Double.Cut.ofAccuracy m Nat.one_pos).shiftRight Nat.one_pos n).roundedMantissa
    (Nat.mul_pos Nat.one_pos (Nat.two_pow_pos n))
  rw [Nat.mul_one, Nat.add_zero, Nat.one_mul] at hrounded
  have hq : roundQuotient m (2 ^ n) ≤ bound * 2 ^ c := roundQuotient_le (Nat.two_pow_pos n) hm
  obtain ⟨hlower, hupper⟩ := roundQuotient_bounds m (2 ^ n)
  obtain ⟨hbits, hplaced⟩ := placed_of_target hcut htarget
  generalize roundQuotient m (2 ^ n) = q at hrounded hq hlower hupper
  rw [roundWithAccuracy, hfirst]
  dsimp only
  rw [hrounded]
  rcases Nat.eq_zero_or_pos q with rfl | hpos
  · rw [dif_pos (Double.shiftToTargetExponent_zero spec t)]
    exact .zero
  rcases Nat.lt_or_ge q (2 ^ spec.mantissaBits) with hsmall | hcarry
  · rw [shiftToTargetExponent_placed hpos hsmall hleast]
    dsimp only
    rw [dif_neg (Nat.ne_of_gt hpos)]
    refine .finite hpos ⟨hsmall, hleast, hplaced.imp_left (Nat.le_trans · hlower), by omega⟩ ?_
    rcases Nat.eq_zero_or_pos c with rfl | hc
    · exact .inr ⟨by omega, by simpa using hq⟩
    · exact .inl (by omega)
  · obtain rfl : q = 2 ^ spec.mantissaBits := by omega
    rw [shiftToTargetExponent_carry hleast]
    dsimp only
    rw [dif_neg (Nat.ne_of_gt (Nat.two_pow_pos _))]
    have hbounded := hbound.bounded
    -- there is room for the carry, since the bound has no more digits than the format
    have hroom : 0 < c := by
      refine Nat.pos_of_ne_zero fun hzero => ?_
      rw [hzero, Nat.pow_zero, Nat.mul_one] at hq
      omega
    refine .finite (Nat.two_pow_pos _) ⟨?_, by omega, .inl (Nat.le_refl _), by omega⟩ ?_
    · have := Nat.two_pow_pos spec.mantissaBitsWithoutImplicit
      omega
    · rcases Nat.lt_or_eq_of_le (Nat.succ_le_of_lt hroom) with hmore | hone
      · exact .inl (by omega)
      · rw [← hone, Nat.pow_one] at hq
        exact .inr ⟨by omega, by omega⟩

/-- Rounding does not pass a number of the format. -/
theorem round_below (sign : Sign) {m c bound : Nat} {e place : Int} (hpos : 0 < m)
    (hbound : Canonical spec bound place) (hplace : e + c = place) (hm : m ≤ bound * 2 ^ c) :
    AtMost spec sign bound place (UnpackedFloat.round spec sign m e) := by
  generalize htarget : spec.targetExponent (totalExponent m e) = t
  -- the place of the exact value is not above that of the bound
  have hle : t ≤ place := by
    have hbig : 0 < bound := Nat.pos_of_mul_pos_right (Nat.lt_of_lt_of_le hpos hm)
    have hproduct : bound * 2 ^ c ≠ 0 :=
      Nat.mul_ne_zero (Nat.ne_of_gt hbig) (Nat.ne_of_gt (Nat.two_pow_pos c))
    have hlog : m.log2 ≤ bound.log2 + c := by
      rw [← Double.log2_mul_two_pow hbig c, Nat.le_log2 hproduct]
      exact Nat.le_trans (Nat.log2_self_le (Nat.ne_of_gt hpos)) hm
    rw [← htarget, ← targetExponent_of_canonical hbig hbound]
    refine targetExponent_mono ?_
    simp only [totalExponent]
    omega
  obtain ⟨k, hk⟩ : ∃ k : Nat, t + k = place := ⟨(place - t).toNat, by omega⟩
  obtain ⟨s, hs⟩ : ∃ s : Nat, (e - t).toNat = s := ⟨_, rfl⟩
  obtain ⟨n, hn⟩ : ∃ n : Nat, e - s + n = t := ⟨(t - (e - s)).toNat, by omega⟩
  have hlowered : spec.targetExponent (totalExponent (m * 2 ^ s) (e - s)) = t := by
    rw [← htarget, totalExponent, totalExponent, Double.log2_mul_two_pow hpos]
    congr 1
    omega
  have hscaled : m * 2 ^ s ≤ bound * 2 ^ k * 2 ^ n := by
    have hplaces : c + s = k + n := by omega
    calc m * 2 ^ s ≤ bound * 2 ^ c * 2 ^ s := Nat.mul_le_mul_right _ hm
      _ = bound * 2 ^ k * 2 ^ n := by
          rw [Nat.mul_assoc, ← Nat.pow_add, hplaces, Nat.pow_add, Nat.mul_assoc]
  have hround := roundWithAccuracy_below sign hn hlowered hbound hk hscaled
  simpa only [UnpackedFloat.round, decreaseExponent, htarget, hs, Nat.shiftLeft_eq] using hround

/-! ## Sums that are not above their first part -/

/-- No number, or one that is not above zero. -/
inductive NotPositive : UnpackedFloat → Prop
  | notANumber : NotPositive .notANumber
  | zero (sign : Sign) : NotPositive (.zero sign)
  | infinity : NotPositive (.infinity .negative)
  | finite {m : Nat} {e : Int} (hm : 0 < m) : NotPositive (.finite .negative m e hm)

theorem notPositive_of_not_lt {f : UnpackedFloat} (h : (UnpackedFloat.zero .positive).lt f = false) :
    NotPositive f := by
  cases f with
  | notANumber => exact .notANumber
  | infinity sign =>
      cases sign with
      | positive => cases h
      | negative => exact .infinity
  | zero sign => exact .zero sign
  | finite sign m e hm =>
      cases sign with
      | positive => cases h
      | negative => exact .finite hm

/-- What is below something that is not positive is below zero. -/
theorem NotPositive.lt_zero {d f : UnpackedFloat} (hf : NotPositive f) (h : d.lt f = true) :
    d.lt (.zero .positive) = true := by
  rcases d with (_ | _) | _ | _ | ⟨_ | _, m, e, hm⟩ <;> cases hf <;> first | rfl | cases h

theorem NotPositive.unpack_packComponents (exponent : BitVec spec.exponentBits)
    (mantissa : BitVec spec.mantissaBitsWithoutImplicit) :
    NotPositive (unpack spec (packComponents spec .negative exponent mantissa)) := by
  simp only [unpack, unpackExponent_packComponents, unpackMantissa_packComponents,
    unpackSign_packComponents, Sign.ofBitVec_toBitVec]
  split
  · split
    · exact .infinity
    · exact .notANumber
  · split
    · split
      · exact .zero _
      · exact .finite _
    · exact .finite _

/-- It stays so when it is written down. -/
theorem NotPositive.unpack_pack {f : UnpackedFloat} (h : NotPositive f) :
    NotPositive (unpack spec (pack spec f)) := by
  cases h with
  | notANumber =>
      rw [pack, unpack_packedNaN]
      exact .notANumber
  | zero sign =>
      rw [pack, unpack_packedZero]
      exact .zero sign
  | infinity => exact .unpack_packComponents _ _
  | finite hm =>
      rw [pack]
      split
      · exact .unpack_packComponents _ _
      · split <;> exact .unpack_packComponents _ _

theorem NotPositive.round (m : Nat) (e : Int) :
    NotPositive (UnpackedFloat.round spec .negative m e) := by
  unfold UnpackedFloat.round roundWithAccuracy
  dsimp only
  split
  · exact .zero _
  · exact .finite _

theorem NotPositive.normalize {m : Int} (hm : m ≤ 0) (e : Int) :
    NotPositive (UnpackedFloat.normalize spec m e .positive) := by
  unfold UnpackedFloat.normalize
  split
  · exact .round _ _
  · exact .zero _
  · rename_i hgreater
    exact absurd (Int.compare_eq_gt.1 hgreater) (by omega)

/-- A sum of which neither part is above zero is not. -/
theorem NotPositive.add {f g : UnpackedFloat} (hf : NotPositive f) (hg : NotPositive g) :
    NotPositive (UnpackedFloat.add spec f g) := by
  cases hf with
  | notANumber => exact .notANumber
  | zero sign =>
      cases hg with
      | zero sign' =>
          rw [UnpackedFloat.add]
          split <;> exact .zero _
      | notANumber => exact .notANumber
      | infinity => exact .infinity
      | finite hm => exact .finite hm
  | infinity =>
      cases hg with
      | notANumber => exact .notANumber
      | _ => exact .infinity
  | finite hm =>
      cases hg with
      | notANumber => exact .notANumber
      | zero sign' => exact .finite hm
      | infinity => exact .infinity
      | finite hm' =>
          exact .normalize (Int.add_nonpos (Int.neg_nonpos_of_nonneg (Int.natCast_nonneg _))
            (Int.neg_nonpos_of_nonneg (Int.natCast_nonneg _))) _

/-- What is below a number at or below another one is below that as well. -/
theorem AtMost.lt {bound : Nat} {place : Int} {f d : UnpackedFloat} (hbound : 0 < bound)
    (h : AtMost spec .positive bound place f) (hd : d.lt f = true) :
    d.lt (.finite .positive bound place hbound) = true := by
  cases h with
  | zero => rcases d with (_ | _) | _ | _ | ⟨_ | _, m, e, hm⟩ <;> first | rfl | cases hd
  | finite hm' _ hle =>
      rcases d with (_ | _) | _ | _ | ⟨_ | _, m, e, hm⟩
      all_goals first | rfl | cases hd | skip
      simp only [UnpackedFloat.lt, UnpackedFloat.compare, beq_iff_eq, Option.some.injEq,
        Ordering.then_eq_lt, Int.compare_eq_lt, Int.compare_eq_eq, Nat.compare_eq_lt] at hd ⊢
      omega

/-- It comes back from its bits. -/
theorem AtMost.unpack_pack {sign : Sign} {bound : Nat} {place : Int} {f : UnpackedFloat}
    (h : AtMost spec sign bound place f) : unpack spec (pack spec f) = f := by
  cases h with
  | zero => exact unpack_packedZero
  | finite hm canonical _ => exact Binary.unpack_pack sign hm canonical

/-- A positive number less another one is not positive, or it is at or below the first. -/
theorem sub_atMost {m n : Nat} {e f : Int} (hm : 0 < m) (hn : 0 < n) (h : Canonical spec m e) :
    NotPositive (UnpackedFloat.add spec (.finite .positive m e hm) (.finite .negative n f hn)) ∨
      AtMost spec .positive m e
        (UnpackedFloat.add spec (.finite .positive m e hm) (.finite .negative n f hn)) := by
  obtain ⟨c, hc⟩ : ∃ c : Nat, (e - min e f).toNat = c := ⟨_, rfl⟩
  have hplace : min e f + c = e := by omega
  generalize hrest : n <<< (f - min e f).toNat = rest
  have hadd : UnpackedFloat.add spec (.finite .positive m e hm) (.finite .negative n f hn) =
      UnpackedFloat.normalize spec ((m * 2 ^ c : Nat) + -(rest : Int)) (min e f) .positive := by
    rw [← hrest, ← hc, ← Nat.shiftLeft_eq]
    rfl
  rw [hadd]
  rcases Int.lt_or_le 0 ((m * 2 ^ c : Nat) + -(rest : Int)) with hpos | hneg
  · right
    unfold UnpackedFloat.normalize
    rw [Int.compare_eq_gt.2 hpos]
    dsimp only
    exact round_below .positive (by omega) h hplace (by omega)
  · exact .inl (.normalize hneg _)

/-- Adding what is not above zero does not bring a sum above what its first part is not above. -/
theorem lt_of_lt_add {bits : BitVec spec.numBits} (hspec : 2 ≤ spec.exponentBits)
    (hvalid : spec.Valid bits) {d g : UnpackedFloat} (hd : d.lt (.zero .positive) = false)
    (hg : NotPositive g)
    (h : d.lt (unpack spec (pack spec (UnpackedFloat.add spec (unpack spec bits) g))) = true) :
    d.lt (unpack spec bits) = true := by
  have hback : unpack spec (pack spec (unpack spec bits)) = unpack spec bits := by
    rw [pack_unpack_of_valid hvalid hspec]
  have hsum : ¬ NotPositive (UnpackedFloat.add spec (unpack spec bits) g) := fun hsum => by
    rw [hsum.unpack_pack.lt_zero h] at hd
    cases hd
  cases hb : unpack spec bits with
  | notANumber =>
      rw [hb] at hsum
      exact absurd (.add .notANumber hg) hsum
  | zero sign =>
      rw [hb] at hsum
      exact absurd (.add (.zero sign) hg) hsum
  | infinity sign =>
      rw [hb] at hsum hback h
      cases sign with
      | negative => exact absurd (.add .infinity hg) hsum
      | positive =>
          cases hg with
          | notANumber => exact absurd .notANumber hsum
          | infinity => exact absurd .notANumber hsum
          | zero sign => rwa [← hback]
          | finite hn => rwa [← hback]
  | finite sign m e hm =>
      rw [hb] at hsum hback h
      cases sign with
      | negative => exact absurd (.add (.finite hm) hg) hsum
      | positive =>
          cases hg with
          | notANumber => exact absurd .notANumber hsum
          | infinity => exact absurd .infinity hsum
          | zero sign => rwa [← hback]
          | finite hn =>
              have hbelow := (sub_atMost hm hn (canonical_of_unpack hspec hb)).resolve_left hsum
              rw [hbelow.unpack_pack] at h
              exact hbelow.lt hm h

end KernelDispatch.Binary

/-! ## Singles -/

namespace KernelDispatch.Single

open Float.Model (Format UnpackedFloat)

/-- Sign, mantissa and exponent of a single. -/
def shape (x : Float32) : UnpackedFloat := x.toModel.unpack

theorem less_eq (x y : Float32) : Scalar.less x y = (shape x).lt (shape y) := by
  have hlt : x < y ↔ (shape x).lt (shape y) = true := by
    show decide ((shape x).lt (shape y) = true) = true ↔ _
    rw [decide_eq_true_iff]
  show decide (x < y) = _
  rw [Bool.eq_iff_iff, decide_eq_true_iff]
  exact hlt

theorem shape_zero : shape Scalar.zero = .zero .positive := rfl

/-- Adding a single that is not above zero does not bring a sum above what its first part is
not above. -/
theorem less_of_less_add {x p draw : Float32} (hdraw : Scalar.less draw Scalar.zero = false)
    (hp : Scalar.less Scalar.zero p = false) (h : Scalar.less draw (x + p) = true) :
    Scalar.less draw x = true := by
  rw [less_eq, shape_zero] at hdraw hp
  rw [less_eq] at h ⊢
  exact Binary.lt_of_lt_add (by decide) x.toModel.valid hdraw (Binary.notPositive_of_not_lt hp) h

end KernelDispatch.Single
