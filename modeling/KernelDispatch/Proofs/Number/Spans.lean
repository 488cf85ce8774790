import KernelDispatch.Number.Time
import KernelDispatch.Proofs.Number.Exact
import KernelDispatch.Proofs.Number.Order

/-!
# Spans in seconds and back

A span in nanoseconds is written in seconds by a division and a sum, and both are rounded. What
is rounded does not pass a double that it was not above, so the seconds that are written stay
below 2⁶⁴ with room to spare if the span was shorter than 2⁶³ seconds, and such seconds are read
back as a span.

## Main results

* `Double.Nearest.le` — rounding does not pass a double.
* `Double.shape_add_nearest` — a sum of one sign is rounded to the nearest double.
* `Number.isSome_nanosOfSeconds?` — which spans are read back.
-/

namespace KernelDispatch

namespace Double

open Float.Model (Format UnpackedFloat)
open Float.Model.UnpackedFloat
open Number

variable {num den units bound k l : Nat}

/-- What is not above a double is not rounded to anything above it. -/
theorem Nearest.le (hden : 0 < den) (h : Nearest num den units) (hdigits : 2 ^ spare bound ∣ bound)
    (hnum : num ≤ bound * den) : units ≤ bound := by
  obtain ⟨place, hplace, -, rfl⟩ := h
  have hcut : 0 < den * 2 ^ place := Nat.mul_pos hden (Nat.two_pow_pos place)
  -- the bound has its digits at the same place or further up
  obtain ⟨q, rfl⟩ : 2 ^ place ∣ bound := by
    rcases hplace with rfl | hleading
    · exact Nat.one_dvd bound
    · have hfar : 2 ^ (52 + place) ≤ bound := by
        refine Nat.le_of_mul_le_mul_right (Nat.le_trans ?_ hnum) hden
        calc 2 ^ (52 + place) * den = 2 ^ 52 * (den * 2 ^ place) := by
              rw [Nat.pow_add, Nat.mul_assoc, Nat.mul_comm (2 ^ place)]
          _ ≤ num := (Nat.le_div_iff_mul_le hcut).1 hleading
      have hpos := Nat.two_pow_pos (52 + place)
      have hlog := (Nat.le_log2 (n := bound) (by omega)).2 hfar
      exact Nat.dvd_trans (Nat.pow_dvd_pow 2 (by unfold spare; omega)) hdigits
  rw [Nat.mul_comm (2 ^ place)] at hnum ⊢
  refine Nat.mul_le_mul_right _ (Binary.roundQuotient_le hcut ?_)
  rwa [Nat.mul_comm den, ← Nat.mul_assoc]

/-- A double is not rounded. -/
theorem Nearest.refl (h : Fits units) : Nearest units 1 units := by
  obtain rfl | hpos := Nat.eq_zero_or_pos units
  · exact .zero Nat.one_pos
  have hback := Nat.div_mul_cancel h.digits
  have hlog := log2_mul_two_pow (leading_pos hpos) (spare units)
  rw [hback] at hlog
  have hdown := (roundQuotient_eq_div_iff units (2 ^ spare units)).2
    (.inl (by rw [Nat.mod_eq_zero_of_dvd h.digits]; exact Nat.two_pow_pos _))
  refine ⟨spare units, ?_, ?_, ?_⟩
  · rw [Nat.one_mul, ← Nat.le_log2 (Nat.ne_of_gt (leading_pos hpos))]
    unfold spare at hlog ⊢
    omega
  · rw [Nat.one_mul, ← Nat.log2_lt (Nat.ne_of_gt (leading_pos hpos))]
    unfold spare at hlog ⊢
    omega
  · rw [Nat.one_mul, hdown, hback]

/-- The sum of two doubles of one sign is rounded to the nearest double. -/
theorem shape_add_nearest {x y : Float} {sign : Sign} (fitsk : Fits k) (fitsl : Fits l)
    (hx : shape x = ofUnits sign k) (hy : shape y = ofUnits sign l) :
    ∃ units, Nearest (k + l) 1 units ∧ shape (x + y) = written (ofUnits sign units) := by
  rw [shape_add, hx, hy]
  obtain rfl | hk := Nat.eq_zero_or_pos k
  · rw [Nat.zero_add]
    refine ⟨l, .refl fitsl, ?_⟩
    obtain rfl | hl := Nat.eq_zero_or_pos l
    · cases sign <;> rfl
    · rw [ofUnits_of_pos sign (leading_pos hl)]
      rfl
  obtain rfl | hl := Nat.eq_zero_or_pos l
  · refine ⟨k, .refl fitsk, ?_⟩
    rw [ofUnits_of_pos sign (leading_pos hk)]
    rfl
  obtain ⟨m, c, hm, htogether, hadd⟩ := exists_add_eq_round sign hk hl fitsk fitsl
  have hvalue : SameValue m 0 1 ((c : Int) - 1074) (k + l) 1 := by
    refine ⟨Nat.one_pos, Nat.one_pos, c, 0, by omega, ?_⟩
    rw [← htogether]
    ring
  obtain ⟨units, hunits, hround⟩ := round_nearest sign hm hvalue
  rw [hadd, hround]
  exact ⟨units, hunits, rfl⟩

/-! ## Counts -/

/-- A count of which no more than 53 digits count. -/
structure Whole (n : Nat) : Prop where
  pos : 0 < n
  small : n < 2 ^ 64
  digits : 2 ^ spare n ∣ n

/-- What is not above such a count is rounded to a double that is not above it. -/
theorem Nearest.le_count {n : Nat} (hden : 0 < den) (h : Nearest num den units) (hn : Whole n)
    (hnum : num ≤ countUnits n * den) : Fits units ∧ units ≤ countUnits n := by
  have hle := h.le hden (digits_countUnits hn.pos hn.digits) hnum
  refine ⟨⟨h.digits, ?_⟩, hle⟩
  have hlog : (countUnits n).log2 = n.log2 + placesBelowOne :=
    log2_mul_two_pow hn.pos placesBelowOne
  rw [placesBelowOne] at hlog
  have hcount := (Nat.log2_lt (Nat.ne_of_gt hn.pos)).2 hn.small
  have hmono : units.log2 ≤ (countUnits n).log2 := by
    obtain rfl | hpos := Nat.eq_zero_or_pos units
    · exact Nat.zero_le _
    · rw [Nat.le_log2 (Nat.ne_of_gt (countUnits_pos hn.pos))]
      exact Nat.le_trans (Nat.log2_self_le (Nat.ne_of_gt hpos)) hle
  omega

/-- A smaller count is written as a double that is not above it. -/
theorem shape_ofCount_le {n bound : Nat} (hbound : Whole bound) (hn : n ≤ bound) :
    ∃ units, Fits units ∧ units ≤ countUnits bound ∧
      shape (Scalar.ofCount n : Float) = ofUnits .positive units := by
  obtain ⟨units, hunits, hshape⟩ :=
    shape_ofCount_nearest (Nat.lt_of_le_of_lt hn hbound.small)
  obtain ⟨hfits, hle⟩ := hunits.le_count Nat.one_pos hbound (by
    rw [Nat.mul_one]
    exact Nat.mul_le_mul_right _ hn)
  rw [written_ofUnits .positive hfits] at hshape
  exact ⟨units, hfits, hle, hshape⟩

end Double

/-! ## Spans -/

namespace Number

open Double

/-- A double of few enough units is read as a span. -/
theorem isSome_nanosOfSeconds?_of_shape {x : Float} {units : Nat}
    (hx : shape x = ofUnits .positive units) (hdigits : 2 ^ spare units ∣ units)
    (hunits : units < countUnits UInt64.size) : (nanosOfSeconds? x).isSome = true := by
  rw [nanosOfSeconds?_eq, hx]
  obtain rfl | hpos := Nat.eq_zero_or_pos units
  · rfl
  · have hplace : ((spare units : Int) - 1074 + placesBelowOne).toNat = spare units := by
      rw [placesBelowOne]
      omega
    have hback : unitsOf (units / 2 ^ spare units) ((spare units : Int) - 1074) = units := by
      rw [unitsOf, hplace, Nat.div_mul_cancel hdigits]
    rw [ofUnits_of_pos .positive (leading_pos hpos)]
    dsimp only
    rw [hback, nanosOfUnits, if_neg (Nat.not_le.2 hunits)]
    rfl

/-- A span shorter than 2⁶³ seconds is written in seconds that are read as a span. -/
theorem isSome_nanosOfSeconds? {nanos : Nat} (h : nanos / nanosPerSecond < 2 ^ 63) :
    (nanosOfSeconds? (secondsOfNanos nanos)).isSome = true := by
  have hrest : nanos % nanosPerSecond < nanosPerSecond := Nat.mod_lt _ (by decide)
  show (nanosOfSeconds? (Scalar.ofCount (nanos / nanosPerSecond) +
    Scalar.ofCount (nanos % nanosPerSecond) / Scalar.ofCount nanosPerSecond)).isSome = true
  have htop : Whole (2 ^ 63) := ⟨by decide, by decide, by decide⟩
  obtain ⟨whole, fitsWhole, hwhole, hwholeShape⟩ := shape_ofCount_le htop (Nat.le_of_lt h)
  have hsecond : Whole nanosPerSecond := ⟨by decide, by decide, by decide⟩
  obtain ⟨rest, fitsRest, hrestLe, hrestShape⟩ := shape_ofCount_le hsecond (Nat.le_of_lt hrest)
  have hsecondShape : shape (Scalar.ofCount nanosPerSecond : Float) =
      ofUnits .positive (countUnits nanosPerSecond) := shape_ofCount (by decide) (by decide)
  -- the part below a second
  obtain ⟨part, hpart, hpartShape⟩ := shape_div_ofUnits fitsRest
    (fits_countUnits (by decide) (by decide)) hrestShape hsecondShape
    (countUnits_pos (by decide))
  have hone : Whole 1 := ⟨by decide, by decide, by decide⟩
  obtain ⟨fitsPart, hpartLe⟩ := hpart.le_count (countUnits_pos (by decide)) hone (by
    rw [countUnits, Nat.one_mul, Nat.mul_comm]
    exact Nat.mul_le_mul_left _ hrestLe)
  rw [written_ofUnits _ fitsPart] at hpartShape
  -- their sum
  obtain ⟨units, hunits, hshape⟩ :=
    shape_add_nearest fitsWhole fitsPart hwholeShape hpartShape
  have hroom : Whole (2 ^ 63 + 2 ^ 11) := ⟨by decide, by decide, by decide⟩
  obtain ⟨fitsUnits, hle⟩ := hunits.le_count Nat.one_pos hroom (by
    rw [Nat.mul_one]
    refine Nat.le_trans (Nat.add_le_add hwhole hpartLe) ?_
    rw [countUnits, countUnits, ← Nat.add_mul]
    exact Nat.mul_le_mul_right _ (by decide))
  rw [written_ofUnits _ fitsUnits] at hshape
  refine isSome_nanosOfSeconds?_of_shape hshape fitsUnits.digits (Nat.lt_of_le_of_lt hle ?_)
  exact Nat.mul_lt_mul_of_pos_right (by decide) (Nat.two_pow_pos _)

end Number

end KernelDispatch
