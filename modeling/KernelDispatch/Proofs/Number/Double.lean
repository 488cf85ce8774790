import KernelDispatch.Number.Scalar
import KernelDispatch.Proofs.Number.Canonical

/-!
# Doubles that are not rounded

A finite double is a whole number of units, the unit being the least positive double, and
its sign. A whole number of units is a double's if no more than 53 of its binary digits
count and it does not go beyond the largest; then nothing is rounded where it comes out of
an addition or a division.

Arithmetic on `Float` unfolds to arithmetic on sign, mantissa and exponent, with every
result rounded and written down as bits. The lemmas here turn it into arithmetic on units,
once and for all: a result whose units are a double's is neither rounded nor changed when it
is written down.

## Main definitions

* `Double.Fits` — whether so many units are a double's.
* `Double.ofUnits` — sign, mantissa and exponent of so many units.
* `Double.shape` — sign, mantissa and exponent of a double.
* `Double.units?` — how many units a double is of.

## Main results

* `Double.shaped` — a double is no number, infinite, or so many units.
* `Double.round_exact`, `Double.written_ofUnits` — units that are a double's stay as they are.
* `Double.add_ofUnits`, `Double.div_ofUnits` — sums and quotients that are not rounded.
* `Double.isZero_sub` — there is no distance between equal doubles.
-/

namespace KernelDispatch.Double

open Float.Model (Format UnpackedFloat totalExponent)
open Float.Model.UnpackedFloat

/-! ## Units -/

/-- How many places a number of so many units leaves out below its 53 leading digits. -/
def spare (units : Nat) : Nat := units.log2 - 52

/-- Whether so many units are a double's. -/
structure Fits (units : Nat) : Prop where
  digits : 2 ^ spare units ∣ units
  bounded : units.log2 < 2098

/-- The double of so many units. -/
def ofUnits (sign : Sign) (units : Nat) : UnpackedFloat :=
  if h : units / 2 ^ spare units = 0 then .zero sign
  else .finite sign (units / 2 ^ spare units) (spare units - 1074) (Nat.pos_of_ne_zero h)

theorem log2_mul_two_pow {m : Nat} (hm : 0 < m) (a : Nat) : (m * 2 ^ a).log2 = m.log2 + a := by
  induction a with
  | zero => simp
  | succ a ih =>
      have hpos : m * 2 ^ a ≠ 0 :=
        Nat.mul_ne_zero (Nat.ne_of_gt hm) (Nat.ne_of_gt (Nat.two_pow_pos a))
      rw [Nat.pow_succ, ← Nat.mul_assoc, Nat.mul_comm _ 2, Nat.log2_two_mul hpos, ih]
      rfl

/-- The exponent at which a mantissa has its 53 digits, or the least one. -/
theorem targetExponent_eq {m : Nat} (hm : 0 < m) (a : Nat) :
    Format.binary64.targetExponent (totalExponent m (a - 1074)) =
      (spare (m * 2 ^ a) : Int) - 1074 := by
  simp only [Format.targetExponent, totalExponent, Format.mantissaBits, Format.minExponent, spare,
    log2_mul_two_pow hm]
  omega

/-- Places that are zero can be left out without rounding. -/
theorem shiftRight_exact {m n : Nat} (h : 2 ^ n ∣ m) :
    n.repeat ExtendedMantissa.shiftRightOne ⟨m, false, false⟩ = ⟨m / 2 ^ n, false, false⟩ := by
  induction n with
  | zero => simp [Nat.repeat]
  | succ n ih =>
      have hdvd : 2 ∣ m / 2 ^ n := by
        obtain ⟨k, rfl⟩ := h
        refine ⟨k, ?_⟩
        rw [Nat.pow_succ, Nat.mul_assoc, Nat.mul_div_cancel_left _ (Nat.two_pow_pos n)]
      have hless : 2 ^ n ∣ m := Nat.dvd_trans (Nat.pow_dvd_pow 2 (Nat.le_succ n)) h
      rw [Nat.repeat, ih hless]
      simp [ExtendedMantissa.shiftRightOne, Nat.mod_eq_zero_of_dvd hdvd, Nat.div_div_eq_div_mul,
        Nat.pow_succ]

/-! ## Rounding -/

theorem ofUnits_of_pos (sign : Sign) {units : Nat} (h : 0 < units / 2 ^ spare units) :
    ofUnits sign units = .finite sign (units / 2 ^ spare units) (spare units - 1074) h := by
  rw [ofUnits, dif_neg (Nat.ne_of_gt h)]

theorem leading_pos {units : Nat} (h : 0 < units) : 0 < units / 2 ^ spare units := by
  have hle : 2 ^ spare units ≤ units :=
    Nat.le_trans (Nat.pow_le_pow_right (by decide) (Nat.sub_le _ _))
      (Nat.log2_self_le (Nat.ne_of_gt h))
  exact Nat.div_pos hle (Nat.two_pow_pos _)

/-- A mantissa that has its digits in place is not rounded. -/
theorem shiftToTargetExponent_exact {m a : Nat} (hm : 0 < m) (ha : a ≤ spare (m * 2 ^ a))
    (hdigits : 2 ^ spare (m * 2 ^ a) ∣ m * 2 ^ a) :
    shiftToTargetExponent Format.binary64 m (a - 1074) .exact =
      (⟨m * 2 ^ a / 2 ^ spare (m * 2 ^ a), false, false⟩, (spare (m * 2 ^ a) : Int) - 1074) := by
  have hshift : ((spare (m * 2 ^ a) : Int) - 1074 - (a - 1074)).toNat = spare (m * 2 ^ a) - a := by
    omega
  have hsplit : 2 ^ spare (m * 2 ^ a) = 2 ^ (spare (m * 2 ^ a) - a) * 2 ^ a := by
    rw [← Nat.pow_add, Nat.sub_add_cancel ha]
  have hdvd : 2 ^ (spare (m * 2 ^ a) - a) ∣ m := by
    rw [hsplit] at hdigits
    exact Nat.dvd_of_mul_dvd_mul_right (Nat.two_pow_pos a) hdigits
  have hquotient : m * 2 ^ a / 2 ^ spare (m * 2 ^ a) = m / 2 ^ (spare (m * 2 ^ a) - a) := by
    rw [hsplit, Nat.mul_div_mul_right _ _ (Nat.two_pow_pos a)]
  have hexact := shiftRight_exact hdvd
  rw [shiftToTargetExponent, targetExponent_eq hm, shiftToExponent, hshift, hquotient]
  refine Prod.ext hexact ?_
  show (a : Int) - 1074 + ((spare (m * 2 ^ a) - a : Nat) : Int) = (spare (m * 2 ^ a) : Int) - 1074
  omega

theorem roundWithAccuracy_exact (sign : Sign) {m a : Nat} (hm : 0 < m)
    (ha : a ≤ spare (m * 2 ^ a)) (hdigits : 2 ^ spare (m * 2 ^ a) ∣ m * 2 ^ a) :
    roundWithAccuracy Format.binary64 sign m (a - 1074) .exact = ofUnits sign (m * 2 ^ a) := by
  have hunits : 0 < m * 2 ^ a := Nat.mul_pos hm (Nat.two_pow_pos a)
  have hleading := leading_pos hunits
  -- the second shift finds the mantissa in place
  have hback : m * 2 ^ a / 2 ^ spare (m * 2 ^ a) * 2 ^ spare (m * 2 ^ a) = m * 2 ^ a :=
    Nat.div_mul_cancel hdigits
  have hagain := shiftToTargetExponent_exact hleading (a := spare (m * 2 ^ a))
    (Nat.le_of_eq (by rw [hback])) (by rw [hback]; exact hdigits)
  rw [hback] at hagain
  rw [roundWithAccuracy, shiftToTargetExponent_exact hm ha hdigits]
  dsimp only
  have hrounded : (⟨m * 2 ^ a / 2 ^ spare (m * 2 ^ a), false, false⟩ :
      ExtendedMantissa).roundedMantissa = m * 2 ^ a / 2 ^ spare (m * 2 ^ a) := rfl
  rw [hrounded, hagain]
  rfl

/-- A number of units that is a double's is not rounded. -/
theorem round_exact (sign : Sign) {m : Nat} (hm : 0 < m) (a : Nat)
    (hdigits : 2 ^ spare (m * 2 ^ a) ∣ m * 2 ^ a) :
    UnpackedFloat.round Format.binary64 sign m (a - 1074) = ofUnits sign (m * 2 ^ a) := by
  rw [UnpackedFloat.round, targetExponent_eq hm, decreaseExponent]
  dsimp only
  rw [Nat.shiftLeft_eq]
  by_cases hle : a ≤ spare (m * 2 ^ a)
  · have hnone : ((a : Int) - 1074 - ((spare (m * 2 ^ a) : Int) - 1074)).toNat = 0 := by omega
    rw [hnone, Nat.pow_zero, Nat.mul_one]
    have hround := roundWithAccuracy_exact sign hm hle hdigits
    simpa using hround
  · have hsome : ((a : Int) - 1074 - ((spare (m * 2 ^ a) : Int) - 1074)).toNat =
        a - spare (m * 2 ^ a) := by omega
    have hsame : m * 2 ^ (a - spare (m * 2 ^ a)) * 2 ^ spare (m * 2 ^ a) = m * 2 ^ a := by
      rw [Nat.mul_assoc, ← Nat.pow_add, Nat.sub_add_cancel (by omega)]
    have hround := roundWithAccuracy_exact sign (m := m * 2 ^ (a - spare (m * 2 ^ a)))
      (a := spare (m * 2 ^ a)) (Nat.mul_pos hm (Nat.two_pow_pos _))
      (Nat.le_of_eq (by rw [hsame])) (by rw [hsame]; exact hdigits)
    rw [hsame] at hround
    rw [hsome, ← hround]
    congr 1
    omega

/-! ## Bits -/

/-- Mantissa and exponent of a positive double. -/
theorem canonical_iff {m : Nat} {e : Int} : Binary.Canonical Format.binary64 m e ↔
    m < 2 ^ 53 ∧ (2 ^ 52 ≤ m ∨ e = -1074) ∧ -1074 ≤ e ∧ e ≤ 971 := by
  have hlast : e + (1023 : Nat) + (52 : Nat) + 1 < 2048 ↔ e ≤ 971 := by omega
  constructor
  · rintro ⟨hbounded, hle, hplaced, hwithin⟩
    exact ⟨hbounded, hplaced, hle, hlast.1 hwithin⟩
  · rintro ⟨hbounded, hplaced, hle, hlargest⟩
    exact ⟨hbounded, hle, hplaced, hlast.2 hlargest⟩

/-- The digits of a number of units that is a double's, in their place. -/
theorem Fits.leading {units : Nat} (h : Fits units) (hpos : 0 < units) :
    units / 2 ^ spare units < 2 ^ 53 ∧
      (2 ^ 52 ≤ units / 2 ^ spare units ∨ spare units = 0) ∧ spare units ≤ 2045 := by
  have hne := Nat.ne_of_gt hpos
  have hupper : units < 2 ^ (units.log2 + 1) := Nat.lt_log2_self
  have hlog := h.bounded
  refine ⟨?_, ?_, ?_⟩
  · rw [Nat.div_lt_iff_lt_mul (Nat.two_pow_pos _), ← Nat.pow_add]
    exact Nat.lt_of_lt_of_le hupper (Nat.pow_le_pow_right (by decide) (by unfold spare; omega))
  · by_cases hle : units.log2 ≤ 52
    · exact .inr (by unfold spare; omega)
    · left
      rw [Nat.le_div_iff_mul_le (Nat.two_pow_pos _), ← Nat.pow_add]
      exact Nat.le_trans (Nat.pow_le_pow_right (by decide) (by unfold spare; omega))
        (Nat.log2_self_le hne)
  · unfold spare
    omega

/-- A double comes back from its bits. -/
theorem unpack_pack (sign : Sign) {units : Nat} (h : Fits units) :
    unpack Format.binary64 (pack Format.binary64 (ofUnits sign units)) = ofUnits sign units := by
  by_cases hzero : units = 0
  · subst hzero
    cases sign <;> rfl
  · have hpos := Nat.pos_of_ne_zero hzero
    obtain ⟨hbound, hplace, hspare⟩ := h.leading hpos
    rw [ofUnits_of_pos sign (leading_pos hpos)]
    refine Binary.unpack_pack sign _ (canonical_iff.2 ⟨hbound, ?_, ?_, ?_⟩)
    · exact hplace.imp_right fun hzero => by omega
    · omega
    · omega

/-- What is beyond the largest double becomes infinite. -/
theorem unpack_pack_beyond (sign : Sign) {units : Nat} (h : 2098 ≤ units.log2) :
    unpack Format.binary64 (pack Format.binary64 (ofUnits sign units)) = .infinity sign := by
  have hpos : 0 < units := by
    by_contra hzero
    obtain rfl : units = 0 := by omega
    simp at h
  have hpack : pack Format.binary64 (ofUnits sign units) =
      packedInfinity Format.binary64 sign := by
    rw [ofUnits_of_pos sign (leading_pos hpos), pack]
    dsimp only
    rw [if_pos]
    simp only [Format.exponentBias, spare]
    omega
  rw [hpack]
  cases sign <;> rfl

/-! ## The shape of a double -/

/-- Sign, mantissa and exponent of a double. -/
def shape (x : Float) : UnpackedFloat := x.toModel.unpack

/-- A double is no number at all, or infinite, or so many units. -/
inductive Shaped : UnpackedFloat → Prop where
  | notANumber : Shaped .notANumber
  | infinity (sign : Sign) : Shaped (.infinity sign)
  | units (sign : Sign) {units : Nat} (h : Fits units) : Shaped (ofUnits sign units)

/-- A mantissa with its digits in place is so many units. -/
theorem finite_eq_ofUnits (sign : Sign) {m g : Nat} (hm : 0 < m) (hbound : m < 2 ^ 53)
    (hplace : 2 ^ 52 ≤ m ∨ g = 0) (hg : g ≤ 2045) :
    Fits (m * 2 ^ g) ∧ UnpackedFloat.finite sign m (g - 1074) hm = ofUnits sign (m * 2 ^ g) := by
  have hspare : spare (m * 2 ^ g) = g := by
    have hupper := (Nat.log2_lt (Nat.ne_of_gt hm)).2 hbound
    rw [spare, log2_mul_two_pow hm]
    rcases hplace with hnormal | rfl
    · have hlower := (Nat.le_log2 (Nat.ne_of_gt hm)).2 hnormal
      omega
    · omega
  have hquotient : m * 2 ^ g / 2 ^ spare (m * 2 ^ g) = m := by
    rw [hspare, Nat.mul_div_cancel _ (Nat.two_pow_pos g)]
  refine ⟨⟨⟨m, by rw [hspare, Nat.mul_comm]⟩, ?_⟩, ?_⟩
  · have hlog := (Nat.log2_lt (Nat.ne_of_gt hm)).2 hbound
    rw [log2_mul_two_pow hm]
    omega
  · rw [ofUnits_of_pos sign (by rw [hquotient]; exact hm)]
    congr 1
    · exact hquotient.symm
    · rw [hspare]

theorem shaped_finite (sign : Sign) {m g : Nat} {e : Int} (hm : 0 < m) (he : e = g - 1074)
    (hbound : m < 2 ^ 53) (hplace : 2 ^ 52 ≤ m ∨ g = 0) (hg : g ≤ 2045) :
    Shaped (.finite sign m e hm) := by
  subst he
  obtain ⟨hfits, heq⟩ := finite_eq_ofUnits sign hm hbound hplace hg
  rw [heq]
  exact .units sign hfits

theorem fits_zero : Fits 0 := ⟨by simp, by simp⟩

theorem shaped_unpack (bits : BitVec Format.binary64.numBits) :
    Shaped (unpack Format.binary64 bits) := by
  cases h : unpack Format.binary64 bits with
  | notANumber => exact .notANumber
  | infinity sign => exact .infinity sign
  | zero sign => exact .units sign fits_zero
  | finite sign m e hm =>
      obtain ⟨hbounded, hplaced, hleast, hlargest⟩ :=
        canonical_iff.1 (Binary.canonical_of_unpack (by decide) h)
      refine shaped_finite sign hm (g := (e + 1074).toNat) (by omega) hbounded ?_ (by omega)
      exact hplaced.imp_right fun hzero => by omega

theorem shaped (x : Float) : Shaped (shape x) := shaped_unpack _

/-! ## Operations -/

/-- What is left of a result when it is written down as a double. -/
def written (f : UnpackedFloat) : UnpackedFloat :=
  unpack Format.binary64 (pack Format.binary64 f)

theorem shape_add (x y : Float) :
    shape (x + y) = written (UnpackedFloat.add Format.binary64 (shape x) (shape y)) := rfl

theorem shape_sub (x y : Float) :
    shape (x - y) = written (UnpackedFloat.sub Format.binary64 (shape x) (shape y)) := rfl

theorem shape_mul (x y : Float) :
    shape (x * y) = written (UnpackedFloat.mul Format.binary64 (shape x) (shape y)) := rfl

theorem shape_div (x y : Float) :
    shape (x / y) = written (UnpackedFloat.div Format.binary64 (shape x) (shape y)) := rfl

@[simp] theorem written_notANumber : written .notANumber = .notANumber := rfl

@[simp] theorem written_zero (sign : Sign) : written (.zero sign) = .zero sign := by
  cases sign <;> rfl

theorem written_ofUnits (sign : Sign) {units : Nat} (h : Fits units) :
    written (ofUnits sign units) = ofUnits sign units := unpack_pack sign h

theorem finite_eq (x : Float) : Scalar.finite x = (shape x).isFinite := rfl

theorem beq_eq (x y : Float) : (x == y) = (shape x).beq (shape y) := rfl

theorem atMost_eq (x y : Float) : Scalar.atMost x y = (shape x).le (shape y) := by
  have hle : x ≤ y ↔ (shape x).le (shape y) = true := by
    show decide ((shape x).le (shape y) = true) = true ↔ _
    rw [decide_eq_true_iff]
  show decide (x ≤ y) = _
  rw [Bool.eq_iff_iff, decide_eq_true_iff]
  exact hle

theorem less_eq (x y : Float) : Scalar.less x y = (shape x).lt (shape y) := by
  have hlt : x < y ↔ (shape x).lt (shape y) = true := by
    show decide ((shape x).lt (shape y) = true) = true ↔ _
    rw [decide_eq_true_iff]
  show decide (x < y) = _
  rw [Bool.eq_iff_iff, decide_eq_true_iff]
  exact hlt

/-! ## Results that are no numbers -/

theorem not_finite_written {f : UnpackedFloat} (h : f.isFinite = false) :
    (written f).isFinite = false := by
  cases f with
  | notANumber => rfl
  | infinity sign => cases sign <;> rfl
  | zero sign => simp [isFinite] at h
  | finite sign m e hm => simp [isFinite] at h

theorem not_finite_add {x y : Float} (h : Scalar.finite x = false ∨ Scalar.finite y = false) :
    Scalar.finite (x + y) = false := by
  rw [finite_eq, finite_eq] at h
  rw [finite_eq, shape_add]
  refine not_finite_written ?_
  generalize shape x = f at h ⊢
  generalize shape y = g at h ⊢
  cases f <;> cases g <;> simp_all [UnpackedFloat.add, isFinite]
  case infinity.infinity s t => cases s <;> cases t <;> rfl

theorem not_finite_sub {x y : Float} (h : Scalar.finite y = false) :
    Scalar.finite (x - y) = false := by
  rw [finite_eq] at h
  rw [finite_eq, shape_sub]
  refine not_finite_written ?_
  generalize shape x = f
  generalize shape y = g at h ⊢
  cases f <;> cases g <;> simp_all [UnpackedFloat.sub, isFinite]
  case infinity.infinity s t => cases s <;> cases t <;> rfl

theorem not_finite_mul {x y : Float} (h : Scalar.finite x = false) :
    Scalar.finite (x * y) = false := by
  rw [finite_eq] at h
  rw [finite_eq, shape_mul]
  refine not_finite_written ?_
  generalize shape x = f at h ⊢
  generalize shape y = g
  cases f <;> cases g <;> simp_all [UnpackedFloat.mul, isFinite]

theorem not_finite_div {x y : Float} (h : Scalar.finite x = false) :
    Scalar.finite (x / y) = false := by
  rw [finite_eq] at h
  rw [finite_eq, shape_div]
  refine not_finite_written ?_
  generalize shape x = f at h ⊢
  generalize shape y = g
  cases f <;> cases g <;> simp_all [UnpackedFloat.div, isFinite]

/-! ## Results that are zero -/

/-- Whether a double is zero, of either sign. -/
def IsZero (x : Float) : Prop := ∃ sign, shape x = .zero sign

@[simp] theorem shape_zero : shape Scalar.zero = .zero .positive := rfl

theorem isZero_zero : IsZero (Scalar.zero : Float) := ⟨.positive, shape_zero⟩

theorem IsZero.add {x y : Float} (hx : IsZero x) (hy : IsZero y) : IsZero (x + y) := by
  obtain ⟨s, hs⟩ := hx
  obtain ⟨t, ht⟩ := hy
  rw [IsZero, shape_add, hs, ht]
  cases s <;> cases t <;> exact ⟨_, rfl⟩

theorem IsZero.mul {x y : Float} (hx : IsZero x) (hy : IsZero y) : IsZero (x * y) := by
  obtain ⟨s, hs⟩ := hx
  obtain ⟨t, ht⟩ := hy
  rw [IsZero, shape_mul, hs, ht]
  cases s <;> cases t <;> exact ⟨_, rfl⟩

theorem IsZero.atMost_zero {x : Float} (hx : IsZero x) :
    Scalar.atMost x (Scalar.zero : Float) = true := by
  obtain ⟨s, hs⟩ := hx
  rw [atMost_eq, hs]
  rfl

/-- Zero by anything is zero, if it is a number. -/
theorem IsZero.div {x y : Float} (hx : IsZero x) (h : Scalar.finite (x / y) = true) :
    IsZero (x / y) := by
  obtain ⟨s, hs⟩ := hx
  rw [finite_eq, shape_div, hs] at h
  rw [IsZero, shape_div, hs]
  generalize shape y = g at h ⊢
  cases g with
  | notANumber => simp [UnpackedFloat.div, isFinite] at h
  | infinity t => exact ⟨_, written_zero _⟩
  | zero t => simp [UnpackedFloat.div, isFinite] at h
  | finite t m e hm => exact ⟨_, written_zero _⟩

/-! ## Equal doubles -/

theorem beq_self {x : Float} (h : Scalar.finite x = true) : (x == x) = true := by
  rw [finite_eq] at h
  have hnumber : shape x ≠ .notANumber := fun hnan => by
    rw [hnan] at h
    cases h
  exact (beq_iff_ne_notANumber_and_eq _ _).2 ⟨hnumber, hnumber, .inl rfl⟩

/-- Doubles of the same shape are equal. -/
theorem beq_of_shape_eq {x y : Float} (hx : Scalar.finite x = true) (h : shape y = shape x) :
    (x == y) = true := by
  rw [beq_eq, h, ← beq_eq, beq_self hx]

theorem IsZero.beq {x y : Float} (hx : IsZero x) (hy : IsZero y) : (x == y) = true := by
  obtain ⟨s, hs⟩ := hx
  obtain ⟨t, ht⟩ := hy
  rw [beq_eq, hs, ht]
  rfl

/-- There is no distance between equal doubles. -/
theorem isZero_sub {x y : Float} (hx : Scalar.finite x = true) (h : (x == y) = true) :
    IsZero (x - y) := by
  rw [finite_eq] at hx
  rw [beq_eq, beq_iff_ne_notANumber_and_eq] at h
  rw [IsZero, shape_sub]
  obtain ⟨-, -, hsame | ⟨hzero, hzero'⟩ | ⟨hzero, hzero'⟩⟩ := h
  · rw [← hsame]
    generalize shape x = f at hx ⊢
    cases f with
    | notANumber => cases hx
    | infinity s => cases hx
    | zero s => cases s <;> exact ⟨_, rfl⟩
    | finite s m e hm =>
        refine ⟨.positive, ?_⟩
        simp [UnpackedFloat.sub, UnpackedFloat.normalize]
  · rw [hzero, hzero']
    exact ⟨_, rfl⟩
  · rw [hzero, hzero']
    exact ⟨_, rfl⟩

/-! ## Sums and quotients that are not rounded -/

/-- Digits pushed left are the same units at a lower place. -/
theorem leading_shift {units c : Nat} (hdigits : 2 ^ spare units ∣ units) (hc : c ≤ spare units) :
    units / 2 ^ spare units * 2 ^ (spare units - c) * 2 ^ c = units := by
  rw [Nat.mul_assoc, ← Nat.pow_add, Nat.sub_add_cancel hc, Nat.div_mul_cancel hdigits]

theorem normalize_apply (sign : Sign) {m : Nat} (hm : 0 < m) (e : Int) (zeroSign : Sign) :
    UnpackedFloat.normalize Format.binary64 (sign.apply m) e zeroSign =
      UnpackedFloat.round Format.binary64 sign m e := by
  cases sign with
  | negative =>
      have hlt : compare (-(m : Int)) 0 = .lt := Int.compare_eq_lt.2 (by omega)
      simp [UnpackedFloat.normalize, Sign.apply, hlt]
  | positive =>
      have hgt : compare (m : Int) 0 = .gt := Int.compare_eq_gt.2 (by omega)
      simp [UnpackedFloat.normalize, Sign.apply, hgt]

theorem apply_add (sign : Sign) (m n : Nat) :
    sign.apply (m : Int) + sign.apply (n : Int) = sign.apply ((m + n : Nat) : Int) := by
  cases sign <;> simp [Sign.apply]
  omega

/-- Both parts of a sum are brought to the lower of their places, and added there. -/
theorem exists_add_eq_round (sign : Sign) {k l : Nat} (hk : 0 < k) (hl : 0 < l) (fitsk : Fits k)
    (fitsl : Fits l) : ∃ m c : Nat, 0 < m ∧ m * 2 ^ c = k + l ∧
      UnpackedFloat.add Format.binary64 (ofUnits sign k) (ofUnits sign l) =
        UnpackedFloat.round Format.binary64 sign m ((c : Int) - 1074) := by
  obtain ⟨c, hc⟩ : ∃ c, c = min (spare k) (spare l) := ⟨_, rfl⟩
  have hmin : min ((spare k : Int) - 1074) (spare l - 1074) = (c : Int) - 1074 := by omega
  have hshiftk : ((spare k : Int) - 1074 - (c - 1074)).toNat = spare k - c := by omega
  have hshiftl : ((spare l : Int) - 1074 - (c - 1074)).toNat = spare l - c := by omega
  have hleft := leading_shift fitsk.digits (show c ≤ spare k by omega)
  have hright := leading_shift fitsl.digits (show c ≤ spare l by omega)
  have hpos : 0 < k / 2 ^ spare k * 2 ^ (spare k - c) + l / 2 ^ spare l * 2 ^ (spare l - c) :=
    Nat.add_pos_left (Nat.mul_pos (leading_pos hk) (Nat.two_pow_pos _)) _
  refine ⟨_, c, hpos, by rw [Nat.add_mul, hleft, hright], ?_⟩
  rw [ofUnits_of_pos sign (leading_pos hk), ofUnits_of_pos sign (leading_pos hl)]
  simp only [UnpackedFloat.add, decreaseExponent, hmin, hshiftk, hshiftl, Nat.shiftLeft_eq]
  rw [apply_add, normalize_apply sign hpos]

/-- A sum whose units are a double's is not rounded. -/
theorem add_ofUnits (sign : Sign) {k l : Nat} (hk : 0 < k) (hl : 0 < l) (fitsk : Fits k)
    (fitsl : Fits l) (hdigits : 2 ^ spare (k + l) ∣ k + l) :
    UnpackedFloat.add Format.binary64 (ofUnits sign k) (ofUnits sign l) =
      ofUnits sign (k + l) := by
  obtain ⟨m, c, hm, htogether, hadd⟩ := exists_add_eq_round sign hk hl fitsk fitsl
  have hround := round_exact sign hm c (by rw [htogether]; exact hdigits)
  rw [hadd, hround, htogether]

/-- What is added to zero is not rounded. -/
theorem zero_add_ofUnits (sign : Sign) {k : Nat} (hk : 0 < k) :
    UnpackedFloat.add Format.binary64 (.zero .positive) (ofUnits sign k) = ofUnits sign k := by
  rw [ofUnits_of_pos sign (leading_pos hk)]
  rfl

/-- How many binary places a double has below one. -/
def placesBelowOne : Nat := 1074

/-- A count, in units. -/
def countUnits (n : Nat) : Nat := n * 2 ^ placesBelowOne

theorem countUnits_pos {n : Nat} (hn : 0 < n) : 0 < countUnits n :=
  Nat.mul_pos hn (Nat.two_pow_pos _)

theorem spare_countUnits {n : Nat} (hn : 0 < n) : spare (countUnits n) = n.log2 + 1022 := by
  rw [spare, countUnits, log2_mul_two_pow hn, placesBelowOne]
  omega

/-- A count has its digits further up when it is written in units. -/
theorem digits_countUnits {n : Nat} (hn : 0 < n) (hdigits : 2 ^ spare n ∣ n) :
    2 ^ spare (countUnits n) ∣ countUnits n := by
  have hplaces : spare (countUnits n) ≤ spare n + placesBelowOne := by
    rw [spare_countUnits hn, spare, placesBelowOne]
    omega
  refine Nat.dvd_trans (Nat.pow_dvd_pow 2 hplaces) ?_
  rw [Nat.pow_add]
  exact Nat.mul_dvd_mul hdigits (Nat.dvd_refl _)

/-- No more than 53 digits of a count up to 2⁵³ count. -/
theorem fits_countUnits {n : Nat} (hn : 0 < n) (hbound : n ≤ 2 ^ 53) : Fits (countUnits n) := by
  have hdigits : 2 ^ spare n ∣ n := by
    by_cases htop : n = 2 ^ 53
    · subst htop
      rw [spare, Nat.log2_two_pow]
      decide
    · have hlog : n.log2 < 53 := (Nat.log2_lt (Nat.ne_of_gt hn)).2 (by omega)
      rw [spare, Nat.sub_eq_zero_of_le (by omega), Nat.pow_zero]
      exact Nat.one_dvd n
  have hlog : n.log2 < 54 :=
    (Nat.log2_lt (Nat.ne_of_gt hn)).2 (Nat.lt_of_le_of_lt hbound (by decide))
  refine ⟨digits_countUnits hn hdigits, ?_⟩
  rw [countUnits, log2_mul_two_pow hn, placesBelowOne]
  omega

theorem log2_mul_le (n k : Nat) : (n * k).log2 ≤ n.log2 + k.log2 + 1 := by
  by_cases hn : n = 0
  · simp [hn]
  by_cases hk : k = 0
  · simp [hk]
  have hlt : n * k < 2 ^ (n.log2 + 1) * 2 ^ (k.log2 + 1) :=
    Nat.mul_lt_mul'' Nat.lt_log2_self Nat.lt_log2_self
  rw [← Nat.pow_add] at hlt
  have hlog := (Nat.log2_lt (Nat.mul_ne_zero hn hk)).2 hlt
  omega

/-- The place of the leading digit does not depend on the places that are left out. -/
theorem totalExponent_leading {units : Nat} (hpos : 0 < units) (hdigits : 2 ^ spare units ∣ units) :
    totalExponent (units / 2 ^ spare units) (spare units - 1074) = units.log2 + 1 - 1074 := by
  have hlog := log2_mul_two_pow (leading_pos hpos) (spare units)
  rw [Nat.div_mul_cancel hdigits] at hlog
  rw [totalExponent]
  omega

/-- To how many places above the unit the quotient of a multiple by its count is computed. -/
def quotientPlace (k n : Nat) : Nat :=
  min (spare (n * k) + 52 - n.log2) ((n * k).log2 - n.log2 - 53)

theorem quotientPlace_le (k n : Nat) : quotientPlace k n ≤ spare k := by
  have hupper := log2_mul_le n k
  unfold quotientPlace spare
  omega

theorem targetExponent_div {k n : Nat} (hk : 0 < k) (hn : 0 < n)
    (hdigits : 2 ^ spare (n * k) ∣ n * k) (hcount : 2 ^ spare (countUnits n) ∣ countUnits n) :
    min ((spare (n * k) : Int) - 1074 - (spare (countUnits n) - 1074))
      (Format.binary64.targetExponent
        (totalExponent (n * k / 2 ^ spare (n * k)) (spare (n * k) - 1074) -
          totalExponent (countUnits n / 2 ^ spare (countUnits n)) (spare (countUnits n) - 1074))) =
      (quotientPlace k n : Int) - 1074 := by
  have hnk : 0 < n * k := Nat.mul_pos hn hk
  have hspare := spare_countUnits hn
  have hlower : n.log2 ≤ (n * k).log2 :=
    (Nat.le_log2 (Nat.ne_of_gt hnk)).2
      (Nat.le_trans (Nat.log2_self_le (Nat.ne_of_gt hn)) (Nat.le_mul_of_pos_right n hk))
  have hcountlog : (countUnits n).log2 = n.log2 + placesBelowOne :=
    log2_mul_two_pow hn placesBelowOne
  rw [placesBelowOne] at hcountlog
  rw [totalExponent_leading hnk hdigits, totalExponent_leading (countUnits_pos hn) hcount]
  simp only [Format.targetExponent, Format.mantissaBits, Format.minExponent, quotientPlace, spare]
    at hspare ⊢
  omega

/-- A multiple divided by its count leaves no rest. -/
theorem divCore_exact {k n : Nat} (hk : 0 < k) (hn : 0 < n) (fitsk : 2 ^ spare k ∣ k)
    (hdigits : 2 ^ spare (n * k) ∣ n * k) (hcount : 2 ^ spare (countUnits n) ∣ countUnits n) :
    divCore Format.binary64 (n * k / 2 ^ spare (n * k)) (spare (n * k) - 1074)
      (countUnits n / 2 ^ spare (countUnits n)) (spare (countUnits n) - 1074) =
        (k / 2 ^ quotientPlace k n, (quotientPlace k n : Int) - 1074, .exact) := by
  have htarget := targetExponent_div hk hn hdigits hcount
  generalize hplace : quotientPlace k n = a at htarget ⊢
  have hle : a ≤ spare k := hplace ▸ quotientPlace_le k n
  -- the numerator is pushed left by `t` places first
  obtain ⟨t, ht⟩ : ∃ t, t = ((spare (n * k) : Int) - 1074 - (spare (countUnits n) - 1074) -
      (a - 1074)).toNat := ⟨_, rfl⟩
  have hplaces : t + (a + spare (countUnits n)) = spare (n * k) + placesBelowOne := by
    rw [placesBelowOne]
    omega
  have hdvd : 2 ^ a ∣ k := Nat.dvd_trans (Nat.pow_dvd_pow 2 hle) fitsk
  have hexact : n * k / 2 ^ spare (n * k) * 2 ^ t =
      k / 2 ^ a * (countUnits n / 2 ^ spare (countUnits n)) := by
    refine Nat.eq_of_mul_eq_mul_right (Nat.two_pow_pos (a + spare (countUnits n))) ?_
    calc n * k / 2 ^ spare (n * k) * 2 ^ t * 2 ^ (a + spare (countUnits n))
        = n * k / 2 ^ spare (n * k) * 2 ^ spare (n * k) * 2 ^ placesBelowOne := by
          rw [Nat.mul_assoc, ← Nat.pow_add, hplaces, Nat.pow_add, Nat.mul_assoc]
      _ = k * countUnits n := by
          rw [Nat.div_mul_cancel hdigits, countUnits, Nat.mul_comm n k, Nat.mul_assoc]
      _ = k / 2 ^ a * 2 ^ a *
            (countUnits n / 2 ^ spare (countUnits n) * 2 ^ spare (countUnits n)) := by
          rw [Nat.div_mul_cancel hdvd, Nat.div_mul_cancel hcount]
      _ = k / 2 ^ a * (countUnits n / 2 ^ spare (countUnits n)) *
            2 ^ (a + spare (countUnits n)) := by
          rw [Nat.pow_add, Nat.mul_mul_mul_comm]
  simp only [divCore, htarget, ← ht, Nat.shiftLeft_eq, hexact]
  rw [Nat.mul_div_cancel _ (leading_pos (countUnits_pos hn)), Nat.mul_mod_left]
  rfl

/-- A quotient of a multiple by its count is not rounded. -/
theorem div_ofUnits (sign : Sign) {k n : Nat} (hk : 0 < k) (hn : 0 < n) (fitsk : Fits k)
    (fitsnk : Fits (n * k)) (hcount : Fits (countUnits n)) :
    UnpackedFloat.div Format.binary64 (ofUnits sign (n * k)) (ofUnits .positive (countUnits n)) =
      ofUnits sign k := by
  have hnk : 0 < n * k := Nat.mul_pos hn hk
  have hle := quotientPlace_le k n
  have hback : k / 2 ^ quotientPlace k n * 2 ^ quotientPlace k n = k :=
    Nat.div_mul_cancel (Nat.dvd_trans (Nat.pow_dvd_pow 2 hle) fitsk.digits)
  have hpos : 0 < k / 2 ^ quotientPlace k n := Nat.pos_of_mul_pos_right (hback.symm ▸ hk)
  have hround := roundWithAccuracy_exact sign hpos (a := quotientPlace k n)
    (by rw [hback]; exact hle) (by rw [hback]; exact fitsk.digits)
  rw [hback] at hround
  rw [ofUnits_of_pos sign (leading_pos hnk),
    ofUnits_of_pos .positive (leading_pos (countUnits_pos hn))]
  simp only [UnpackedFloat.div, divCore_exact hk hn fitsk.digits fitsnk.digits hcount.digits]
  rw [← hround]
  cases sign <;> rfl

/-- A count up to 2⁵³ is not rounded. -/
theorem shape_ofCount {n : Nat} (hn : 0 < n) (hbound : n ≤ 2 ^ 53) :
    shape (Scalar.ofCount n : Float) = ofUnits .positive (countUnits n) := by
  have hfits := fits_countUnits hn hbound
  have hround := round_exact .positive hn placesBelowOne hfits.digits
  have hnat : (UInt64.ofNat n).toNat = n := by
    rw [UInt64.toNat_ofNat', Nat.mod_eq_of_lt (by omega)]
  have hunpacked : UnpackedFloat.ofUInt64 Format.binary64 (UInt64.ofNat n) =
      ofUnits .positive (countUnits n) := by
    rw [UnpackedFloat.ofUInt64, hnat]
    show UnpackedFloat.normalize Format.binary64 (Sign.positive.apply n) 0 .positive = _
    rw [normalize_apply .positive hn]
    exact hround
  show written (UnpackedFloat.ofUInt64 Format.binary64 (UInt64.ofNat n)) = _
  rw [hunpacked, written_ofUnits .positive hfits]

/-! ## Reading the units -/

/-- How many units a double is of, its sign aside. -/
def units? (x : Float) : Option Nat :=
  match shape x with
  | .zero _ => some 0
  | .finite _ m e _ => some (m * 2 ^ (e + 1074).toNat)
  | .infinity _ | .notANumber => none

theorem units?_of_shape {x : Float} {sign : Sign} {k : Nat} (h : Fits k)
    (hx : shape x = ofUnits sign k) : units? x = some k := by
  by_cases hzero : k = 0
  · subst hzero
    rw [units?, hx]
    rfl
  · have hplace : ((spare k : Int) - 1074 + 1074).toNat = spare k := by omega
    rw [units?, hx, ofUnits_of_pos sign (leading_pos (Nat.pos_of_ne_zero hzero))]
    show some (k / 2 ^ spare k * 2 ^ ((spare k : Int) - 1074 + 1074).toNat) = some k
    rw [hplace, Nat.div_mul_cancel h.digits]

theorem units?_eq_some {x : Float} {k : Nat} (h : units? x = some k) :
    Fits k ∧ ∃ sign, shape x = ofUnits sign k := by
  have hshaped := shaped x
  generalize hx : shape x = f at hshaped
  cases hshaped with
  | notANumber => simp [units?, hx] at h
  | infinity s => simp [units?, hx] at h
  | units s hfits =>
      obtain rfl := Option.some.inj ((units?_of_shape hfits hx).symm.trans h)
      exact ⟨hfits, s, rfl⟩

/-- Every finite double is so many units. -/
theorem exists_units {x : Float} (h : Scalar.finite x = true) : ∃ k, units? x = some k := by
  rw [finite_eq] at h
  have hshaped := shaped x
  generalize hx : shape x = f at h hshaped
  cases hshaped with
  | notANumber => simp [isFinite] at h
  | infinity s => simp [isFinite] at h
  | units s hfits => exact ⟨_, units?_of_shape hfits hx⟩

theorem isZero_of_units {x : Float} (h : units? x = some 0) : IsZero x := by
  obtain ⟨-, sign, hx⟩ := units?_eq_some h
  exact ⟨sign, hx⟩

theorem finite_of_units {x : Float} {k : Nat} (h : units? x = some k) :
    Scalar.finite x = true := by
  rw [finite_eq]
  generalize hx : shape x = f
  cases f with
  | notANumber => simp [units?, hx] at h
  | infinity s => simp [units?, hx] at h
  | zero s => rfl
  | finite s m e hm => rfl

theorem units?_ofCount {n : Nat} (hbound : n ≤ 2 ^ 53) :
    units? (Scalar.ofCount n : Float) = some (countUnits n) := by
  by_cases hzero : n = 0
  · subst hzero
    rw [countUnits, Nat.zero_mul]
    rfl
  · have hn := Nat.pos_of_ne_zero hzero
    exact units?_of_shape (fits_countUnits hn hbound) (shape_ofCount hn hbound)

/-- Twice a double has no more digits than the double. -/
theorem digits_double {k : Nat} (hk : 0 < k) (h : 2 ^ spare k ∣ k) : 2 ^ spare (k + k) ∣ k + k := by
  have hspare : spare (k + k) ≤ spare k + 1 := by
    have hlog := Nat.log2_two_mul (Nat.ne_of_gt hk)
    rw [← Nat.two_mul, spare, hlog, spare]
    omega
  refine Nat.dvd_trans (Nat.pow_dvd_pow 2 hspare) ?_
  rw [← Nat.mul_two, Nat.pow_succ]
  exact Nat.mul_dvd_mul_right h 2

/-- Where all multiples up to a count are doubles, so is the count. -/
theorem count_le_of_multiples {k n : Nat} (hk : 0 < k) (h : ∀ j ≤ n, Fits (j * k)) :
    n ≤ 2 ^ 53 := by
  by_contra hlarge
  have hfits := h (2 ^ 53 + 1) (by omega)
  -- an odd factor of more than 53 digits does not help
  have hdvd : 2 ^ spare ((2 ^ 53 + 1) * k) ∣ k :=
    Nat.Coprime.dvd_of_dvd_mul_left (Nat.Coprime.pow_left _ (by decide)) hfits.digits
  have hle : spare ((2 ^ 53 + 1) * k) ≤ k.log2 :=
    (Nat.le_log2 (Nat.ne_of_gt hk)).2 (Nat.le_of_dvd hk hdvd)
  have hlower : k.log2 + 53 ≤ ((2 ^ 53 + 1) * k).log2 := by
    rw [← log2_mul_two_pow hk 53, Nat.mul_comm k]
    refine (Nat.le_log2 (Nat.ne_of_gt (Nat.mul_pos (by decide) hk))).2 ?_
    exact Nat.le_trans (Nat.log2_self_le (Nat.ne_of_gt (Nat.mul_pos (by decide) hk)))
      (Nat.mul_le_mul_right k (by decide))
  unfold spare at hle
  omega

end KernelDispatch.Double
