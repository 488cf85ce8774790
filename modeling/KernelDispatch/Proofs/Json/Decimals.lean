import KernelDispatch.Proofs.Json.Reading
import KernelDispatch.Proofs.Number.Scaling

/-!
# Doubles in JSON

The text of a double is its shortest decimal, with the point among its digits or with an
exponent behind them. Either is a number to the reader. With the point among the digits there
are digits behind it, so the reader divides, which cannot fail. With an exponent it takes the
digits and the place of the decimal as they are, and whether there is a double for them is a
question of size.

So every double that is a number is read as one, if not always as the same. A double that is
none is written as `null`, which is no number.

## Main definitions

* `readAs?` — the double that the text of a double is read as.
* `Readable` — a text that is read as a number that has a double.

## Main results

* `readable_writeDecimal` — the text of a decimal is a number.
* `isSome_readAs?` — which doubles are read as one.
-/

namespace KernelDispatch.Json

open Number

/-- The double that the text of a double is read as. -/
def readAs? (x : Float) : Option Float := (parse (writeFloat x)).bind Value.float?

/-! ## Digits -/

variable {digits whole fraction rest : List Char}

theorem takeDigits_all (hdigits : ∀ c ∈ digits, isDigit c = true) :
    takeDigits digits = (digits, []) := by
  have htaken := takeDigits_digits hdigits endsDigits_nil
  rwa [List.append_nil] at htaken

theorem parseFraction_digits (hdigits : ∀ c ∈ fraction, isDigit c = true) (hne : fraction ≠ [])
    (hrest : EndsDigits rest) :
    parseFraction ('.' :: (fraction ++ rest)) = some (some fraction, rest) := by
  obtain ⟨first, others, rfl⟩ := List.exists_cons_of_ne_nil hne
  rw [parseFraction, takeDigits_digits hdigits hrest]

theorem digitsValue_eq (digits : List Char) : digitsValue digits = Nat.ofDigitChars 10 digits 0 := by
  rw [digitsValue, Nat.ofDigitChars_eq_foldl]
  simp only [Nat.mul_comm]

/-- An exponent is read back from its sign and its digits. -/
theorem parseExponent_digits (plusSign : Bool) (exponent : Int) :
    parseExponent ('e' :: ((if exponent < 0 then ['-'] else if plusSign then ['+'] else []) ++
      Nat.toDigits 10 exponent.natAbs)) = some (some exponent, []) := by
  have hdigits : ∀ c ∈ Nat.toDigits 10 exponent.natAbs, isDigit c = true :=
    fun c hc => isDigit_of_mem_toDigits hc
  have hvalue : digitsValue (Nat.toDigits 10 exponent.natAbs) = exponent.natAbs := by
    rw [digitsValue_eq, Nat.ofDigitChars_ten_toDigits]
  have hsign : takeSign ((if exponent < 0 then ['-'] else if plusSign then ['+'] else []) ++
      Nat.toDigits 10 exponent.natAbs) =
        (decide (exponent < 0), Nat.toDigits 10 exponent.natAbs) := by
    by_cases hneg : exponent < 0
    · simp [hneg, takeSign]
    · cases plusSign
      · obtain ⟨c, tail, htext⟩ := List.exists_cons_of_ne_nil
          (Nat.toDigits_ne_nil (b := 10) (n := exponent.natAbs))
        have hc : isDigit c = true := hdigits c (by rw [htext]; exact List.mem_cons_self)
        have hplus : c ≠ '+' := by
          rintro rfl
          exact absurd hc (by decide)
        have hminus : c ≠ '-' := by
          rintro rfl
          exact absurd hc (by decide)
        rw [htext]
        simp [hneg, takeSign, hplus, hminus]
      · simp [hneg, takeSign]
  rw [parseExponent_mark (.inl rfl), hsign, takeDigits_all hdigits]
  split
  · rename_i heq
    exact absurd (congrArg Prod.fst heq) Nat.toDigits_ne_nil
  · rename_i taken behind _ heq
    obtain ⟨rfl, rfl⟩ := Prod.mk.inj heq
    dsimp only
    rw [hvalue]
    by_cases hneg : exponent < 0
    · simp only [hneg, decide_true, if_true, Option.some.injEq, Prod.mk.injEq, and_true]
      omega
    · simp only [hneg, decide_false, Bool.false_eq_true, if_false, Option.some.injEq,
        Prod.mk.injEq, and_true]
      omega

/-! ## The text of a decimal -/

theorem parseUnsigned_point (negative : Bool) (hwhole : Whole whole)
    (hfraction : ∀ c ∈ fraction, isDigit c = true) (hne : fraction ≠ []) :
    parseUnsigned negative (whole ++ '.' :: fraction) =
      some (⟨negative, whole, fraction, true, 0⟩, []) := by
  have hfirst : parseWhole (whole ++ '.' :: fraction) = some (whole, '.' :: fraction) :=
    parseWhole_digits hwhole (by simp [EndsDigits, isDigit])
  have hsecond := parseFraction_digits hfraction hne endsDigits_nil
  rw [List.append_nil] at hsecond
  simp [parseUnsigned, hfirst, hsecond, parseExponent]

theorem parseUnsigned_scientific (negative plusSign : Bool) {first : Char} {others : List Char}
    (hdigits : ∀ c ∈ first :: others, isDigit c = true) (exponent : Int) :
    parseUnsigned negative (Layout.scientificDigits plusSign (first :: others) exponent) =
      some (⟨negative, [first], others, true, exponent⟩, []) := by
  obtain ⟨hfirst, hothers⟩ := List.forall_mem_cons.1 hdigits
  have hwhole : Whole [first] := by
    refine ⟨by simpa using hfirst, List.cons_ne_nil _ _, fun h => ?_⟩
    rw [List.head?_cons, Option.some.injEq] at h
    rw [h]
  have hexponent := parseExponent_digits plusSign exponent
  obtain ⟨power, hpower⟩ : ∃ power, 'e' :: ((if exponent < 0 then ['-'] else
      if plusSign then ['+'] else []) ++ Nat.toDigits 10 exponent.natAbs) = 'e' :: power := ⟨_, rfl⟩
  rw [hpower] at hexponent
  have hmark : EndsDigits ('e' :: power) := by simp [EndsDigits, isDigit]
  cases others with
  | nil =>
      have htext : Layout.scientificDigits plusSign [first] exponent = [first] ++ 'e' :: power := by
        rw [← hpower]
        simp [Layout.scientificDigits]
      have hnone : parseFraction ('e' :: power) = some (none, 'e' :: power) :=
        parseFraction_of_ne (by decide) power
      rw [htext, parseUnsigned, parseWhole_digits hwhole hmark]
      simp [hnone, hexponent]
  | cons second others =>
      have htext : Layout.scientificDigits plusSign (first :: second :: others) exponent =
          [first] ++ '.' :: (second :: others ++ 'e' :: power) := by
        rw [← hpower]
        simp [Layout.scientificDigits]
      have hpoint : EndsDigits ('.' :: (second :: others ++ 'e' :: power)) := by
        simp [EndsDigits, isDigit]
      have hsome := parseFraction_digits hothers (List.cons_ne_nil _ _) hmark
      rw [htext, parseUnsigned, parseWhole_digits hwhole hpoint]
      simp only [Option.bind_eq_bind, Option.bind_some, hsome, hexponent]
      rfl

/-! ## Its digits -/

-- Unfolded, the bound of a word would be compared digit by digit.
seal Significand.push? in
theorem pushFraction_cons (s : Significand) (d : Char) (digits : List Char) :
    s.pushFraction (d :: digits) =
      match s.push? d with
      | some value => Significand.pushFraction ⟨value, s.power - 1⟩ digits
      | none => s :=
  rfl

/-- Digits behind the point are taken like those before it, and count their places. -/
theorem pushFraction_of_lt (digits : List Char) (s : Significand)
    (h : Nat.ofDigitChars 10 digits s.digits < UInt64.size) :
    s.pushFraction digits = ⟨Nat.ofDigitChars 10 digits s.digits, s.power - digits.length⟩ := by
  induction digits generalizing s with
  | nil =>
      rw [Nat.ofDigitChars_nil, List.length_nil, Nat.cast_zero, Int.sub_zero]
      rfl
  | cons d digits ih =>
      rw [Nat.ofDigitChars_cons] at h ⊢
      have hlt := Nat.lt_of_le_of_lt (le_ofDigitChars digits _) h
      rw [pushFraction_cons, push?_of_lt hlt]
      dsimp only
      rw [ih ⟨_, s.power - 1⟩ h, List.length_cons]
      congr 1
      push_cast
      omega

/-- The digits of a number are taken together, as long as a word holds them. -/
theorem significand_of_lt {n : Numeral}
    (h : Nat.ofDigitChars 10 (n.whole ++ n.fraction) 0 < UInt64.size) :
    n.significand = ⟨Nat.ofDigitChars 10 (n.whole ++ n.fraction) 0, -n.fraction.length⟩ := by
  rw [Nat.ofDigitChars_append] at h ⊢
  have hwhole := Nat.lt_of_le_of_lt (le_ofDigitChars n.fraction _) h
  rw [Numeral.significand, pushWhole_of_lt n.whole {} hwhole, pushFraction_of_lt _ _ h]
  simp

theorem isSome_toFloat? {n : Numeral}
    (h : Nat.ofDigitChars 10 (n.whole ++ n.fraction) 0 < UInt64.size) :
    n.toFloat?.isSome = (scaleByTen
      (UInt64.ofNat (Nat.ofDigitChars 10 (n.whole ++ n.fraction) 0)).toFloat
      (-n.fraction.length + n.exponent)).isSome := by
  simp only [Numeral.toFloat?, significand_of_lt h, Option.isSome_map]

/-- A number with digits behind its point and without an exponent has a double. -/
theorem isSome_toFloat?_point {negative : Bool} (hne : fraction ≠ [])
    (h : Nat.ofDigitChars 10 (whole ++ fraction) 0 < UInt64.size) :
    (Numeral.mk negative whole fraction true 0).toFloat?.isSome = true := by
  have hpos := List.length_pos_iff.2 hne
  rw [isSome_toFloat? h]
  exact scaleByTen_of_neg _ (by dsimp only; omega)

/-! ## Decimals -/

/-- A text that is read as a number that has a double. -/
def Readable (negative : Bool) (text : List Char) : Prop :=
  ∃ n, parseUnsigned negative text = some (n, []) ∧ n.toFloat?.isSome = true

theorem isDigit_of_mem_replicate {c : Char} {n : Nat} (h : c ∈ List.replicate n '0') :
    isDigit c = true := by
  rw [List.eq_of_mem_replicate h]
  rfl

/-- Digits on both sides of a point are read as a number with a double. -/
theorem readable_point (negative : Bool) (hwhole : Whole whole)
    (hfraction : ∀ c ∈ fraction, isDigit c = true) (hne : fraction ≠ [])
    (h : Nat.ofDigitChars 10 (whole ++ fraction) 0 < UInt64.size) :
    Readable negative (whole ++ '.' :: fraction) :=
  ⟨_, parseUnsigned_point negative hwhole hfraction hne, isSome_toFloat?_point hne h⟩

section Positional

variable {n : Nat} (negative : Bool)

/-- A zero stands before the point, and perhaps some stand behind it. -/
theorem readable_leadingZeros (hword : n < UInt64.size) (zeros : Nat) :
    Readable negative ("0.".toList ++ List.replicate zeros '0' ++ Nat.toDigits 10 n) := by
  have hne : List.replicate zeros '0' ++ Nat.toDigits 10 n ≠ [] := by simp [Nat.toDigits_ne_nil]
  have hfraction : ∀ c ∈ List.replicate zeros '0' ++ Nat.toDigits 10 n, isDigit c = true := by
    intro c hc
    exact (List.mem_append.1 hc).elim isDigit_of_mem_replicate isDigit_of_mem_toDigits
  have hvalue : Nat.ofDigitChars 10 (['0'] ++ (List.replicate zeros '0' ++ Nat.toDigits 10 n)) 0 =
      n := by
    rw [← List.append_assoc, ← List.replicate_one, ← List.replicate_add,
      Nat.ofDigitChars_append, Nat.ofDigitChars_replicate_zero, Nat.mul_zero,
      Nat.ofDigitChars_ten_toDigits]
  exact readable_point negative whole_zero hfraction hne (hvalue.trans_lt hword)

/-- Zeros fill the places up to the point, and one stands behind it. -/
theorem readable_trailingZeros (hn : n ≠ 0) {zeros : Nat}
    (hlength : (Nat.toDigits 10 n).length + zeros ≤ 16) :
    Readable negative (Nat.toDigits 10 n ++ List.replicate zeros '0' ++ ".0".toList) := by
  have hfilled : Whole (Nat.toDigits 10 n ++ List.replicate zeros '0') := by
    refine ⟨fun c hc => ?_, ?_, ?_⟩
    · exact (List.mem_append.1 hc).elim isDigit_of_mem_toDigits isDigit_of_mem_replicate
    · simp [Nat.toDigits_ne_nil]
    · rw [List.head?_append_of_ne_nil _ Nat.toDigits_ne_nil]
      exact fun h => absurd h (head?_toDigits_ne hn)
  have hvalue : Nat.ofDigitChars 10 (Nat.toDigits 10 n ++ List.replicate zeros '0' ++ ['0']) 0 =
      10 ^ (zeros + 1) * n := by
    rw [List.append_assoc, ← List.replicate_one, ← List.replicate_add, Nat.ofDigitChars_append,
      Nat.ofDigitChars_ten_toDigits, Nat.ofDigitChars_replicate_zero]
  have hbound : 10 ^ (zeros + 1) * n < UInt64.size := by
    have hn : n < 10 ^ (Nat.toDigits 10 n).length := lt_pow_digitCount n
    calc 10 ^ (zeros + 1) * n < 10 ^ (zeros + 1) * 10 ^ (Nat.toDigits 10 n).length :=
          Nat.mul_lt_mul_of_pos_left hn (Nat.pow_pos (by decide))
      _ ≤ 10 ^ 17 := by
          rw [← Nat.pow_add]
          exact Nat.pow_le_pow_right (by decide) (by omega)
      _ < UInt64.size := by decide
  exact readable_point negative hfilled whole_zero.isDigit whole_zero.ne_nil
    (hvalue.trans_lt hbound)

/-- The point stands between two of the digits. -/
theorem readable_pointAmong (hn : n ≠ 0) (hword : n < UInt64.size) {place : Nat}
    (hpos : 0 < place) (hplace : place < (Nat.toDigits 10 n).length) :
    Readable negative
      ((Nat.toDigits 10 n).take place ++ '.' :: (Nat.toDigits 10 n).drop place) := by
  have hfront : Whole ((Nat.toDigits 10 n).take place) := by
    refine ⟨fun c hc => isDigit_of_mem_toDigits (List.mem_of_mem_take hc), ?_, ?_⟩
    · rw [Ne, List.take_eq_nil_iff]
      simp only [Nat.toDigits_ne_nil, or_false]
      omega
    · rw [List.head?_take, if_neg (by omega)]
      exact fun h => absurd h (head?_toDigits_ne hn)
  have hback : ∀ c ∈ (Nat.toDigits 10 n).drop place, isDigit c = true :=
    fun c hc => isDigit_of_mem_toDigits (List.mem_of_mem_drop hc)
  have hne : (Nat.toDigits 10 n).drop place ≠ [] := by
    rw [Ne, List.drop_eq_nil_iff]
    omega
  have hvalue : Nat.ofDigitChars 10
      ((Nat.toDigits 10 n).take place ++ (Nat.toDigits 10 n).drop place) 0 = n := by
    rw [List.take_append_drop, Nat.ofDigitChars_ten_toDigits]
  exact readable_point negative hfront hback hne (hvalue.trans_lt hword)

/-- With the point among its digits a decimal is read as a number with a double. -/
theorem readable_positionalDigits (hn : n ≠ 0) (hword : n < UInt64.size) {place : Int}
    (hplace : place ≤ 16) :
    Readable negative (Layout.positionalDigits true (Nat.toDigits 10 n) place) := by
  unfold Layout.positionalDigits
  dsimp only
  split
  · exact readable_leadingZeros negative hword _
  · rename_i hpositive
    split
    · rename_i hlength
      rw [if_pos rfl]
      exact readable_trailingZeros negative hn (by omega)
    · rename_i hlength
      exact readable_pointAmong negative hn hword (by omega) (by omega)

end Positional

/-- With an exponent a decimal is read as a number of the same digits at the same place. -/
theorem readable_scientificDigits (negative plusSign : Bool) {n : Nat} (hword : n < UInt64.size)
    {power : Int} (hscale : (scaleByTen (UInt64.ofNat n).toFloat power).isSome = true) :
    Readable negative (Layout.scientificDigits plusSign (Nat.toDigits 10 n)
      ((Nat.toDigits 10 n).length + power - 1)) := by
  have hall : ∀ c ∈ Nat.toDigits 10 n, isDigit c = true := fun c hc => isDigit_of_mem_toDigits hc
  have hvalue : Nat.ofDigitChars 10 (Nat.toDigits 10 n) 0 = n := Nat.ofDigitChars_ten_toDigits
  obtain ⟨first, others, hdigits⟩ := List.exists_cons_of_ne_nil
    (Nat.toDigits_ne_nil (b := 10) (n := n))
  rw [hdigits] at hall hvalue ⊢
  refine ⟨_, parseUnsigned_scientific negative plusSign hall _, ?_⟩
  have hsame : Nat.ofDigitChars 10 ([first] ++ others) 0 = n := hvalue
  have hplace : (-others.length + (((first :: others).length : Int) + power - 1)) = power := by
    rw [List.length_cons]
    push_cast
    omega
  rw [isSome_toFloat? (hsame.trans_lt hword)]
  dsimp only
  rw [hsame, hplace]
  exact hscale

/-- The text of a decimal that a word holds is a number. -/
theorem readable_writeDecimal (negative : Bool) {d : Decimal} (hword : d.digits < UInt64.size)
    (hscale : 0 < d.digits → (scaleByTen (UInt64.ofNat d.digits).toFloat d.power).isSome = true) :
    Readable negative (Layout.exchanged.writeDecimal d) := by
  unfold Layout.writeDecimal
  split
  · have hzero : Nat.ofDigitChars 10 (['0'] ++ ['0']) 0 < UInt64.size := by decide
    exact readable_point negative whole_zero whole_zero.isDigit whole_zero.ne_nil hzero
  · rename_i hne
    dsimp only
    split
    · rename_i hpositional
      have hplace : (Nat.toDigits 10 d.digits).length + d.power ≤ 16 := by
        simp only [Layout.isPositional, Layout.exchanged, Bool.and_eq_true, decide_eq_true_eq]
          at hpositional
        exact hpositional.2
      exact readable_positionalDigits negative hne hword hplace
    · exact readable_scientificDigits negative true hword (hscale (Nat.pos_of_ne_zero hne))

/-! ## Doubles -/

/-- A double that is a number is read as a number. -/
theorem isSome_readAs?_of_finite {x : Float} (h : Scalar.finite x = true) :
    (readAs? x).isSome = true := by
  obtain ⟨negative, magnitude, power, narrow, hexact, hmagnitude, hpower⟩ :=
    Double.ofFloat_of_finite h
  obtain ⟨n, hparse, hfloat⟩ := readable_writeDecimal negative
    (shortest_digits_lt magnitude power narrow false)
    (scaleByTen_shortest hmagnitude hpower narrow)
  have htext : writeFloat x = if negative then
      '-' :: Layout.exchanged.writeDecimal (shortest false magnitude power narrow)
      else Layout.exchanged.writeDecimal (shortest false magnitude power narrow) := by
    rw [writeFloat, Layout.float, hexact]
    exact String.toList_ofList
  have hvalue : ∀ depth, parseValue (depth + 1) (writeFloat x) = some (.number n, []) := by
    intro depth
    rw [htext]
    cases negative with
    | true =>
        rw [if_pos rfl, parseValue_minus, hparse]
        rfl
    | false =>
        obtain ⟨c, tail, hfront, hc⟩ := exists_digit_of_parseUnsigned hparse
        rw [if_neg Bool.false_ne_true]
        rw [hfront] at hparse ⊢
        rw [parseValue_digit hc, hparse]
        rfl
  have hread : readAs? x = n.toFloat? := by
    rw [readAs?, parse, hvalue]
    rfl
  rw [hread, hfloat]

/-- What is no number is written as `null`. -/
theorem writeFloat_of_not_finite {x : Float} (h : Scalar.finite x = false) :
    writeFloat x = "null".toList := by
  rcases Double.ofFloat_of_not_finite h with hexact | ⟨negative, hexact⟩
  · rw [writeFloat, Layout.float, hexact]
    rfl
  · rw [writeFloat, Layout.float, hexact]
    cases negative <;> rfl

/-- A double is read as one exactly if it is a number. -/
theorem isSome_readAs? (x : Float) : (readAs? x).isSome = Scalar.finite x := by
  cases h : Scalar.finite x with
  | true => exact isSome_readAs?_of_finite h
  | false =>
      rw [readAs?, writeFloat_of_not_finite h]
      decide

/-- Within an object a double is read as from its text alone. -/
theorem spells_readAs (x : Float) : ∃ v, Spells (writeFloat x) v ∧ v.float? = readAs? x := by
  cases h : readAs? x with
  | some y => exact spells_writeFloat h
  | none =>
      have hnumber : Scalar.finite x = false := by
        rw [← isSome_readAs?, h]
        rfl
      rw [writeFloat_of_not_finite hnumber]
      exact ⟨.null, spells_null, rfl⟩

/-- A double that may be absent is read as absent where it is no number. -/
theorem spells_readAs? (x? : Option Float) :
    ∃ v, Spells (writeFloat? x?) v ∧ v.floatOrNull? = some (x?.bind readAs?) := by
  cases x? with
  | none => exact ⟨.null, spells_null, rfl⟩
  | some x =>
      cases h : readAs? x with
      | some y =>
          obtain ⟨v, hspells, hfloat⟩ := spells_writeFloat h
          refine ⟨v, hspells, ?_⟩
          cases v with
          | null => cases hfloat
          | _ => simp [Value.floatOrNull?, hfloat, h]
      | none =>
          have hnumber : Scalar.finite x = false := by
            rw [← isSome_readAs?, h]
            rfl
          refine ⟨.null, ?_, by simp [Value.floatOrNull?, h]⟩
          rw [writeFloat?, writeFloat_of_not_finite hnumber]
          exact spells_null

end KernelDispatch.Json
