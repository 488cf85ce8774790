import KernelDispatch.Json.Members
import KernelDispatch.Json.Parser
import KernelDispatch.Proofs.Json.Writing
import Mathlib.Data.List.DropRight
import Mathlib.Data.List.Forall2

/-!
# What is written in JSON is read back

A reader takes from the front of a text and stops by itself, so a value can only be
read back from the middle of an object if nothing that may stand behind it is taken
for more of it. In an object that is a comma or the closing brace, and neither of them
belongs to a number. Texts end at their quote, whatever is in them, as every character
that could be mistaken is escaped.

Whether the digits of a double lead back to it is a question of arithmetic and not of
the grammar; it is asked of each double by itself.

## Main definitions

* `ReadsBack` — a double whose text is read as the same double.
* `Spells` — a text that is read as a value within an object.
* `Whole` — digits that may stand in front of a point.

## Main results

* `parseText_quote`, `spells_writeNat`, `spells_writeFloat` — one kind of value each.
* `parse_writeObject` — an object and its members.
* `valuesOf_object` — the values of an object under its names.
-/

namespace KernelDispatch.Json

/-- A double whose text is read as the same double. -/
def ReadsBack (x : Float) : Prop := (parse (writeFloat x)).bind Value.float? = some x

/-- What stands behind a value of an object. -/
def Ends (rest : List Char) : Prop := rest.head? = some ',' ∨ rest.head? = some '\x7d'

/-- A text that is read as a value within an object, whatever follows there. -/
def Spells (text : List Char) (v : Value) : Prop :=
  ∀ depth rest, Ends rest →
    ∃ left, parseValue (depth + 1) (text ++ rest) = some (v, left) ∧ skipSpace left = rest

/-! ## Texts -/

/-- What the escape of a character is read as. -/
def unitOf (c : Char) : TextUnit :=
  if c.toNat < 0x20 ∧ c ∉ shortEscaped then .code c.toNat else .char c

theorem hexValue_digitChar : ∀ d < 16, hexValue (Nat.digitChar d) = some d := by decide

theorem parseUnits_controlEscape {c : Char} (hc : c.toNat < 0x20) (rest : List Char) :
    parseUnits (controlEscape c ++ rest) =
      (parseUnits rest).map fun read => (.code c.toNat :: read.1, read.2) := by
  have hhigh : hexValue (Nat.digitChar (c.toNat / 16)) = some (c.toNat / 16) :=
    hexValue_digitChar _ (by omega)
  have hlow : hexValue (Nat.digitChar (c.toNat % 16)) = some (c.toNat % 16) :=
    hexValue_digitChar _ (by omega)
  have hzero : hexValue '0' = some 0 := by decide
  have hvalue : (0 * 16 + 0) * 256 + (c.toNat / 16 * 16 + c.toNat % 16) = c.toNat := by omega
  have htext : controlEscape c ++ rest = '\\' :: 'u' :: '0' :: '0' ::
      Nat.digitChar (c.toNat / 16) :: Nat.digitChar (c.toNat % 16) :: rest := rfl
  rw [htext, parseUnits, hzero, hhigh, hlow]
  simp only [Option.bind_eq_bind, Option.bind_some, hvalue]
  cases parseUnits rest <;> rfl

/-- The escape of a character is one unit of a text. -/
theorem parseUnits_escape (c : Char) (rest : List Char) :
    parseUnits (escape c ++ rest) =
      (parseUnits rest).map fun read => (unitOf c :: read.1, read.2) := by
  by_cases hshort : c ∈ shortEscaped
  · simp only [shortEscaped, List.mem_cons, List.not_mem_nil, or_false] at hshort
    rcases hshort with rfl | rfl | rfl | rfl | rfl | rfl | rfl <;>
      · cases h : parseUnits rest <;>
          simp [escape, parseUnits, shortEscape, unitOf, shortEscaped, h]
  · have hescape := escape_of_not_mem hshort
    by_cases hcontrol : c.toNat < 0x20
    · have hunit : unitOf c = .code c.toNat := if_pos ⟨hcontrol, hshort⟩
      rw [hescape, if_pos hcontrol, hunit, parseUnits_controlEscape hcontrol]
    · have hunit : unitOf c = .char c := if_neg fun h => hcontrol h.1
      simp only [shortEscaped, List.mem_cons, List.not_mem_nil, or_false, not_or] at hshort
      rw [hescape, if_neg hcontrol, hunit, List.singleton_append]
      cases h : parseUnits rest <;> simp [parseUnits, hshort, hcontrol, h]

theorem parseUnits_flatMap_escape (cs rest : List Char) :
    parseUnits (cs.flatMap escape ++ '\"' :: rest) = some (cs.map unitOf, rest) := by
  induction cs with
  | nil => rfl
  | cons c cs ih =>
      rw [List.flatMap_cons, List.append_assoc, parseUnits_escape, ih]
      rfl

/-- The units of escaped characters spell them. -/
theorem charsOfUnits_map_unitOf (cs : List Char) : charsOfUnits (cs.map unitOf) = some cs := by
  induction cs with
  | nil => rfl
  | cons c cs ih =>
      rw [List.map_cons]
      by_cases hcontrol : c.toNat < 0x20 ∧ c ∉ shortEscaped
      · have hunit : unitOf c = .code c.toNat := if_pos hcontrol
        -- a code this small is no half of a pair
        have hlow : ¬ (0xDC00 ≤ c.toNat ∧ c.toNat ≤ 0xDFFF) := by omega
        have hhigh : ¬ (0xD800 ≤ c.toNat ∧ c.toNat ≤ 0xDBFF) := by omega
        rw [hunit, charsOfUnits.eq_def]
        simp only [hlow, hhigh, if_false, ih, Char.ofNat_toNat, Option.map_some]
      · have hunit : unitOf c = .char c := if_neg hcontrol
        rw [hunit, charsOfUnits, ih, Option.map_some]

/-- A text in quotes is read back, whatever is in it and whatever follows. -/
theorem parseText_quote (s : String) (rest : List Char) :
    parseText (s.toList.flatMap escape ++ '\"' :: rest) = some (some s, rest) := by
  simp only [parseText, parseUnits_flatMap_escape, Option.bind_eq_bind, Option.bind_some,
    charsOfUnits_map_unitOf, Option.map_some, String.ofList_toList, Option.pure_def]

theorem quote_append (s : String) (rest : List Char) :
    quote s ++ rest = '\"' :: (s.toList.flatMap escape ++ '\"' :: rest) := by
  simp [quote]

/-! ## White space -/

theorem skipSpace_of_ends {rest : List Char} (h : Ends rest) : skipSpace rest = rest := by
  rcases rest with _ | ⟨c, tail⟩
  · rfl
  · simp only [Ends, List.head?_cons, Option.some.injEq] at h
    rcases h with rfl | rfl <;> rfl

/-- White space before what follows a value is the value's own. -/
theorem skipSpace_append {rest : List Char} (h : Ends rest) (cs : List Char) :
    skipSpace (cs ++ rest) = skipSpace cs ++ rest := by
  unfold skipSpace
  rw [List.dropWhile_append]
  split
  · rename_i hempty
    rw [List.isEmpty_iff.1 hempty]
    exact skipSpace_of_ends h
  · rfl

theorem skipSpace_cons {c : Char} (h : isSpace c = false) (cs : List Char) :
    skipSpace (c :: cs) = c :: cs := by
  simp [skipSpace, h]

theorem parseValue_skipSpace (depth : Nat) (cs : List Char) :
    parseValue depth (skipSpace cs) = parseValue depth cs := by
  cases depth with
  | zero => simp only [parseValue]
  | succ depth =>
      have hskip : skipSpace (skipSpace cs) = skipSpace cs := List.dropWhile_idempotent ..
      rw [parseValue, parseValue, hskip]

theorem spells_quote (s : String) : Spells (quote s) (.text (some s)) := by
  intro depth rest hrest
  refine ⟨rest, ?_, skipSpace_of_ends hrest⟩
  rw [quote_append, parseValue, skipSpace_cons (by decide)]
  simp [parseText_quote]

theorem spells_null : Spells "null".toList .null := by
  intro depth rest hrest
  refine ⟨rest, ?_, skipSpace_of_ends hrest⟩
  have htext : "null".toList ++ rest = 'n' :: 'u' :: 'l' :: 'l' :: rest := rfl
  rw [htext, parseValue, skipSpace_cons (by decide)]
  rfl

/-! ## Numbers -/

variable {rest : List Char}

theorem takeDigits_append (h : Ends rest) (cs : List Char) :
    takeDigits (cs ++ rest) = ((takeDigits cs).1, (takeDigits cs).2 ++ rest) := by
  induction cs with
  | nil =>
      rcases rest with _ | ⟨c, tail⟩
      · rfl
      · simp only [Ends, List.head?_cons, Option.some.injEq] at h
        rcases h with rfl | rfl <;> rfl
  | cons c cs ih =>
      simp only [takeDigits, List.cons_append, Prod.mk.injEq] at ih ⊢
      cases hc : isDigit c with
      | false => simp [hc]
      | true => simp [hc, ih]

theorem parseWhole_append (h : Ends rest) {cs whole left : List Char}
    (hparse : parseWhole cs = some (whole, left)) :
    parseWhole (cs ++ rest) = some (whole, left ++ rest) := by
  unfold parseWhole at hparse ⊢
  rw [takeDigits_append h]
  generalize takeDigits cs = taken at hparse
  obtain ⟨digits, behind⟩ := taken
  dsimp only at hparse ⊢
  split at hparse
  · cases hparse
  · cases hparse
  · rename_i hnil hzero hdigits
    split
    · cases hdigits
      simp_all
    · simp_all
    · simp_all

/-- Digits, at least one of them, are taken as before. -/
theorem someDigits_append {β : Type} (h : Ends rest) (f : List Char → β) {cs left : List Char}
    {b : β}
    (hparse : (match takeDigits cs with
      | ([], _) => none
      | (digits, behind) => some (f digits, behind)) = some (b, left)) :
    (match takeDigits (cs ++ rest) with
      | ([], _) => none
      | (digits, behind) => some (f digits, behind)) = some (b, left ++ rest) := by
  rw [takeDigits_append h]
  generalize takeDigits cs = taken at hparse
  obtain ⟨digits, behind⟩ := taken
  cases digits with
  | nil => cases hparse
  | cons d digits =>
      cases hparse
      rfl

theorem parseFraction_of_ne {c : Char} (hc : c ≠ '.') (cs : List Char) :
    parseFraction (c :: cs) = some (none, c :: cs) := by
  unfold parseFraction
  split
  · rename_i heq
    cases heq
    exact absurd rfl hc
  · rfl

theorem parseFraction_append (h : Ends rest) {cs left : List Char} {fraction : Option (List Char)}
    (hparse : parseFraction cs = some (fraction, left)) :
    parseFraction (cs ++ rest) = some (fraction, left ++ rest) := by
  cases cs with
  | nil =>
      cases hparse
      rcases rest with _ | ⟨c, tail⟩
      · rfl
      · simp only [Ends, List.head?_cons, Option.some.injEq] at h
        rcases h with rfl | rfl <;> rfl
  | cons c cs =>
      by_cases hpoint : c = '.'
      · subst hpoint
        exact someDigits_append h some hparse
      · rw [parseFraction_of_ne hpoint] at hparse
        cases hparse
        exact parseFraction_of_ne hpoint _

/-- The sign of an exponent, and the rest. -/
def takeSign : List Char → Bool × List Char
  | '+' :: cs => (false, cs)
  | '-' :: cs => (true, cs)
  | cs => (false, cs)

theorem takeSign_append {cs : List Char} (hcs : cs ≠ []) (rest : List Char) :
    takeSign (cs ++ rest) = ((takeSign cs).1, (takeSign cs).2 ++ rest) := by
  rcases cs with _ | ⟨c, cs⟩
  · exact absurd rfl hcs
  · by_cases hplus : c = '+'
    · subst hplus
      rfl
    · by_cases hminus : c = '-'
      · subst hminus
        rfl
      · simp [takeSign, hplus, hminus]

theorem parseExponent_mark {c : Char} (hc : c = 'e' ∨ c = 'E') (cs : List Char) :
    parseExponent (c :: cs) =
      match takeDigits (takeSign cs).2 with
      | ([], _) => none
      | (digits, behind) =>
          let size : Int := digitsValue digits
          some (some (if (takeSign cs).1 then -size else size), behind) := by
  exact if_pos hc

theorem parseExponent_append (h : Ends rest) {cs left : List Char} {exponent : Option Int}
    (hparse : parseExponent cs = some (exponent, left)) :
    parseExponent (cs ++ rest) = some (exponent, left ++ rest) := by
  cases cs with
  | nil =>
      cases hparse
      rcases rest with _ | ⟨c, tail⟩
      · rfl
      · simp only [Ends, List.head?_cons, Option.some.injEq] at h
        rcases h with rfl | rfl <;> rfl
  | cons c cs =>
      by_cases hmark : c = 'e' ∨ c = 'E'
      · rw [parseExponent_mark hmark] at hparse
        have hcs : cs ≠ [] := by
          rintro rfl
          cases hparse
        rw [List.cons_append, parseExponent_mark hmark, takeSign_append hcs]
        exact someDigits_append h (fun digits =>
          some (if (takeSign cs).1 then -(digitsValue digits : Int) else digitsValue digits)) hparse
      · have hnone : ∀ tail, parseExponent (c :: tail) = some (none, c :: tail) :=
          fun tail => if_neg hmark
        rw [hnone] at hparse
        cases hparse
        exact hnone _

theorem parseUnsigned_append (h : Ends rest) {negative : Bool} {cs left : List Char} {n : Numeral}
    (hparse : parseUnsigned negative cs = some (n, left)) :
    parseUnsigned negative (cs ++ rest) = some (n, left ++ rest) := by
  simp only [parseUnsigned, Option.bind_eq_bind, Option.bind_eq_some_iff, Option.pure_def,
    Option.some.injEq, Prod.mk.injEq, Prod.exists] at hparse ⊢
  obtain ⟨whole, cs₁, hwhole, fraction, cs₂, hfraction, exponent, cs₃, hexponent, hn, hleft⟩ :=
    hparse
  exact ⟨whole, _, parseWhole_append h hwhole, fraction, _, parseFraction_append h hfraction,
    exponent, _, parseExponent_append h hexponent, hn, by rw [hleft]⟩

/-- A number begins with a digit. -/
theorem exists_digit_of_parseUnsigned {negative : Bool} {cs left : List Char} {n : Numeral}
    (hparse : parseUnsigned negative cs = some (n, left)) :
    ∃ c tail, cs = c :: tail ∧ isDigit c = true := by
  cases cs with
  | nil => cases hparse
  | cons c tail =>
      refine ⟨c, tail, rfl, ?_⟩
      by_contra hc
      have hnone : parseWhole (c :: tail) = none := by simp [parseWhole, takeDigits, hc]
      simp [parseUnsigned, hnone] at hparse

/-- What begins with a digit is read as a number. -/
theorem parseValue_digit {c : Char} (hc : isDigit c = true) (depth : Nat) (tail : List Char) :
    parseValue (depth + 1) (c :: tail) =
      (parseUnsigned false (c :: tail)).map fun read => (.number read.1, read.2) := by
  have hother : ∀ d, isDigit d = false → c ≠ d := by
    rintro d hd rfl
    rw [hc] at hd
    cases hd
  have hspace : isSpace c = false := by
    simp [isSpace, hother ' ' rfl, hother '\n' rfl, hother '\t' rfl, hother '\r' rfl]
  rw [parseValue, skipSpace_cons hspace]
  split
  case h_8 => cases parseUnsigned false (c :: tail) <;> rfl
  -- all other values begin with a character of their own
  all_goals
    rename_i heq
    injection heq with heq
    exact absurd heq (hother _ rfl)

theorem parseValue_minus (depth : Nat) (tail : List Char) :
    parseValue (depth + 1) ('-' :: tail) =
      (parseUnsigned true tail).map fun read => (.number read.1, read.2) := by
  rw [parseValue, skipSpace_cons (by decide)]
  cases h : parseUnsigned true tail <;> simp [h]

/-- What is read as a number is one behind its white space, with or without a sign. -/
theorem parseUnsigned_of_parseValue {depth : Nat} {cs left : List Char} {n : Numeral}
    (h : parseValue depth cs = some (.number n, left)) :
    (∃ tail, skipSpace cs = '-' :: tail ∧ parseUnsigned true tail = some (n, left)) ∨
      parseUnsigned false (skipSpace cs) = some (n, left) := by
  cases depth with
  | zero => simp [parseValue] at h
  | succ depth =>
      rw [parseValue] at h
      split at h
      · split at h
        · cases h
        · simp [Option.bind_eq_some_iff] at h
      · split at h
        · cases h
        · simp [Option.bind_eq_some_iff] at h
      · simp [Option.bind_eq_some_iff] at h
      · simp [parseWord] at h
      · simp [parseWord] at h
      · simp [parseWord] at h
      · rename_i tail hcs
        exact .inl ⟨tail, hcs, by simpa [Option.bind_eq_some_iff] using h⟩
      · exact .inr (by simpa [Option.bind_eq_some_iff] using h)

theorem parseValue_append_of_number (hrest : Ends rest) {depth : Nat} {cs left : List Char}
    {n : Numeral} (h : parseValue depth cs = some (.number n, left)) (depth' : Nat) :
    parseValue (depth' + 1) (cs ++ rest) = some (.number n, left ++ rest) := by
  rw [← parseValue_skipSpace, skipSpace_append hrest]
  rcases parseUnsigned_of_parseValue h with ⟨tail, hcs, hnumber⟩ | hnumber
  · rw [hcs, List.cons_append, parseValue_minus, parseUnsigned_append hrest hnumber]
    rfl
  · obtain ⟨c, tail, hcs, hc⟩ := exists_digit_of_parseUnsigned hnumber
    rw [hcs] at hnumber ⊢
    have happend := parseUnsigned_append hrest hnumber
    rw [List.cons_append] at happend ⊢
    rw [parseValue_digit hc, happend]
    rfl

/-- What a double is read as from its text alone, it is read as from within an object. -/
theorem spells_writeFloat {x y : Float} (h : (parse (writeFloat x)).bind Value.float? = some y) :
    ∃ v, Spells (writeFloat x) v ∧ v.float? = some y := by
  obtain ⟨v, hparse, hfloat⟩ := Option.bind_eq_some_iff.1 h
  refine ⟨v, ?_, hfloat⟩
  intro depth rest hrest
  obtain ⟨⟨v', left⟩, hvalue, hspace⟩ := Option.bind_eq_some_iff.1 hparse
  obtain ⟨hleft, rfl⟩ : (skipSpace left).isEmpty = true ∧ v' = v := by
    simpa using hspace
  cases v' with
  | number n =>
      refine ⟨left ++ rest, parseValue_append_of_number hrest hvalue depth, ?_⟩
      rw [skipSpace_append hrest, List.isEmpty_iff.1 hleft, List.nil_append]
  | null => cases hfloat
  | bool value => cases hfloat
  | text value => cases hfloat
  | array items => cases hfloat
  | object members => cases hfloat

/-! ## Whole numbers -/

theorem isDigit_of_mem_toDigits {c : Char} {n : Nat} (h : c ∈ Nat.toDigits 10 n) :
    isDigit c = true := by
  have hdigit : c.isDigit = true := Nat.isDigit_of_mem_toDigits (by decide) (by decide) h
  simpa [isDigit, Char.isDigit, Char.le_def] using hdigit

theorem digitChar_ne_zero : ∀ n < 10, n ≠ 0 → Nat.digitChar n ≠ '0' := by decide

/-- No number but zero is written with a zero in front. -/
theorem head?_toDigits_ne {n : Nat} (hn : n ≠ 0) : (Nat.toDigits 10 n).head? ≠ some '0' := by
  induction n using Nat.strongRecOn with
  | ind n ih =>
      rw [Nat.toDigits_eq_if (by decide)]
      split
      · rename_i hlt
        simpa using digitChar_ne_zero n hlt hn
      · rename_i hge
        rw [List.head?_append_of_ne_nil _ Nat.toDigits_ne_nil]
        exact ih (n / 10) (by omega) (by omega)

/-- A text that does not go on with a digit. -/
def EndsDigits (rest : List Char) : Prop := ∀ c ∈ rest.head?, isDigit c = false

/-- The digits in front of a point: a zero alone, or digits without one in front. -/
structure Whole (digits : List Char) : Prop where
  isDigit : ∀ c ∈ digits, isDigit c = true
  ne_nil : digits ≠ []
  front : digits.head? = some '0' → digits = ['0']

theorem whole_zero : Whole ['0'] where
  isDigit c hc := by
    rw [List.mem_singleton.1 hc]
    rfl
  ne_nil := List.cons_ne_nil _ _
  front _ := rfl

theorem whole_toDigits (n : Nat) : Whole (Nat.toDigits 10 n) where
  isDigit _ hc := isDigit_of_mem_toDigits hc
  ne_nil := Nat.toDigits_ne_nil
  front h := by
    have hn : n = 0 := by
      by_contra hne
      exact head?_toDigits_ne hne h
    rw [hn]
    rfl

theorem endsDigits_nil : EndsDigits [] := by simp [EndsDigits]

theorem endsDigits_of_ends (h : Ends rest) : EndsDigits rest := by
  rintro c hc
  rcases h with h | h <;> obtain rfl := Option.some.inj (hc.symm.trans h) <;> rfl

variable {digits whole : List Char}

theorem takeDigits_digits (hdigits : ∀ c ∈ digits, isDigit c = true) (hrest : EndsDigits rest) :
    takeDigits (digits ++ rest) = (digits, rest) := by
  rw [takeDigits, List.takeWhile_append_of_pos hdigits, List.dropWhile_append_of_pos hdigits]
  cases rest with
  | nil => simp
  | cons c tail => simp [hrest c rfl]

theorem parseWhole_digits (h : Whole whole) (hrest : EndsDigits rest) :
    parseWhole (whole ++ rest) = some (whole, rest) := by
  unfold parseWhole
  rw [takeDigits_digits h.isDigit hrest]
  split
  · rename_i heq
    exact absurd (congrArg Prod.fst heq) h.ne_nil
  · rename_i c cs _ heq
    have hwhole : whole = '0' :: c :: cs := congrArg Prod.fst heq
    have halone := h.front (by rw [hwhole]; rfl)
    rw [hwhole] at halone
    cases halone
  · rename_i heq
    rw [heq]

theorem le_ofDigitChars (digits : List Char) (n : Nat) : n ≤ Nat.ofDigitChars 10 digits n := by
  induction digits generalizing n with
  | nil => exact Nat.le_refl n
  | cons d digits ih =>
      rw [Nat.ofDigitChars_cons]
      have hrest := ih (10 * n + (d.toNat - '0'.toNat))
      omega

-- Unfolded, the bound of a word would be compared digit by digit.
seal Significand.push? in
theorem pushWhole_cons (s : Significand) (d : Char) (digits : List Char) :
    s.pushWhole (d :: digits) =
      match s.push? d with
      | some value => Significand.pushWhole ⟨value, s.power⟩ digits
      | none => { s with power := s.power + (digits.length + 1 : Nat) } :=
  rfl

theorem push?_of_lt {s : Significand} {d : Char}
    (h : 10 * s.digits + (d.toNat - '0'.toNat) < UInt64.size) :
    s.push? d = some (10 * s.digits + (d.toNat - '0'.toNat)) := by
  rw [Significand.push?, Nat.mul_comm s.digits]
  exact if_pos h

/-- Digits are taken as long as a word holds what they spell. -/
theorem pushWhole_of_lt (digits : List Char) (s : Significand)
    (h : Nat.ofDigitChars 10 digits s.digits < UInt64.size) :
    s.pushWhole digits = ⟨Nat.ofDigitChars 10 digits s.digits, s.power⟩ := by
  induction digits generalizing s with
  | nil => rfl
  | cons d digits ih =>
      rw [Nat.ofDigitChars_cons] at h ⊢
      have hlt := Nat.lt_of_le_of_lt (le_ofDigitChars digits _) h
      rw [pushWhole_cons, push?_of_lt hlt]
      exact ih ⟨_, s.power⟩ h

/-- A word is read back. -/
theorem spells_writeNat {n : Nat} (h : n < UInt64.size) :
    ∃ v, Spells (writeNat n) v ∧ v.word? = some n := by
  have hvalue : Nat.ofDigitChars 10 (writeNat n) 0 = n := Nat.ofDigitChars_ten_toDigits
  let spelled : Numeral := ⟨false, writeNat n, [], false, 0⟩
  refine ⟨.number spelled, ?_, ?_⟩
  · intro depth rest hrest
    refine ⟨rest, ?_, skipSpace_of_ends hrest⟩
    have hfraction : parseFraction ([] ++ rest) = some (none, [] ++ rest) :=
      parseFraction_append hrest rfl
    have hexponent : parseExponent ([] ++ rest) = some (none, [] ++ rest) :=
      parseExponent_append hrest rfl
    rw [List.nil_append] at hfraction hexponent
    have hwhole : parseWhole (writeNat n ++ rest) = some (writeNat n, rest) :=
      parseWhole_digits (whole_toDigits n) (endsDigits_of_ends hrest)
    have hunsigned : parseUnsigned false (writeNat n ++ rest) = some (spelled, rest) := by
      simp [parseUnsigned, hwhole, hfraction, hexponent, spelled]
    obtain ⟨c, tail, htext, hc⟩ := exists_digit_of_parseUnsigned hunsigned
    rw [htext] at hunsigned ⊢
    rw [parseValue_digit hc, hunsigned]
    rfl
  · have hpush : Significand.pushWhole {} (writeNat n) = ⟨n, 0⟩ := by
      rw [pushWhole_of_lt _ _ (by rw [hvalue]; exact h), hvalue]
    simp [Value.word?, Numeral.toWord?, spelled, hpush]

/-! ## Objects -/

/-- A member of an object, with the value that its text stands for. -/
structure Field where
  name : String
  text : List Char
  value : Value

/-- A member as it is handed to the writer. -/
def Field.written (f : Field) : String × List Char := (f.name, f.text)

/-- A member as the reader hands it out. -/
def Field.read (f : Field) : Option String × Value := (some f.name, f.value)

theorem length_le_length_writeMembers (members : List (String × List Char)) :
    members.length ≤ (writeMembers members).length := by
  induction members with
  | nil => exact Nat.zero_le _
  | cons member members ih =>
      obtain ⟨name, value⟩ := member
      cases members with
      | nil => simp [writeMembers, quote]
      | cons next members =>
          simp only [writeMembers, List.length_append, List.length_cons] at ih ⊢
          omega

/-- One member is read, and what stands behind it decides whether there are more. -/
theorem parseMembers_field {f : Field} (hspells : Spells f.text f.value) (depth : Nat)
    (rest : List Char) : Ends rest →
    parseMembers (depth + 2) (quote f.name ++ ':' :: (f.text ++ rest)) =
      match rest with
      | '\x7d' :: behind => some ([f.read], behind)
      | ',' :: behind =>
          (parseMembers (depth + 1) behind).map fun read => (f.read :: read.1, read.2)
      | _ => none := by
  intro hends
  obtain ⟨left, hvalue, hleft⟩ := hspells depth rest hends
  rw [quote_append, parseMembers, skipSpace_cons (by decide)]
  simp only [parseText_quote, Option.bind_eq_bind, Option.bind_some]
  rw [skipSpace_cons (by decide)]
  simp only [hvalue, hleft, Option.bind_some]
  rcases rest with _ | ⟨c, behind⟩
  · rfl
  · simp only [Ends, List.head?_cons, Option.some.injEq] at hends
    rcases hends with rfl | rfl
    · cases h : parseMembers (depth + 1) behind <;> simp [h, Field.read]
    · rfl

/-- The members of an object are read back, each with its name. -/
theorem parseMembers_writeMembers {fields : List Field} (h : ∀ f ∈ fields, Spells f.text f.value)
    (hne : fields ≠ []) {depth : Nat} (hdepth : fields.length < depth) (rest : List Char) :
    parseMembers depth (writeMembers (fields.map Field.written) ++ '\x7d' :: rest) =
      some (fields.map Field.read, rest) := by
  induction fields generalizing depth with
  | nil => exact absurd rfl hne
  | cons f fields ih =>
      have hspells := h f List.mem_cons_self
      obtain ⟨depth, rfl⟩ : ∃ d, depth = d + 2 :=
        ⟨depth - 2, by rw [List.length_cons] at hdepth; omega⟩
      cases fields with
      | nil =>
          have htext : writeMembers ([f].map Field.written) ++ '\x7d' :: rest =
              quote f.name ++ ':' :: (f.text ++ '\x7d' :: rest) := by
            simp [writeMembers, Field.written]
          rw [htext, parseMembers_field hspells _ _ (.inr rfl)]
          rfl
      | cons next fields =>
          have htext : writeMembers ((f :: next :: fields).map Field.written) ++ '\x7d' :: rest =
              quote f.name ++ ':' :: (f.text ++ ',' ::
                (writeMembers ((next :: fields).map Field.written) ++ '\x7d' :: rest)) := by
            simp [writeMembers, Field.written]
          have hlength : (next :: fields).length < depth + 1 := by simpa using hdepth
          have hrest := ih (fun g hg => h g (List.mem_cons_of_mem _ hg)) (List.cons_ne_nil _ _)
            hlength
          rw [htext, parseMembers_field hspells _ _ (.inl rfl)]
          exact congrArg (Option.map fun read => (f.read :: read.1, read.2)) hrest

/-- An object is read back from its members. -/
theorem parse_writeObject {fields : List Field} (h : ∀ f ∈ fields, Spells f.text f.value)
    (hne : fields ≠ []) :
    parse (writeObject (fields.map Field.written)) = some (.object (fields.map Field.read)) := by
  have hlength := length_le_length_writeMembers (fields.map Field.written)
  obtain ⟨tail, htext⟩ : ∃ tail,
      writeMembers (fields.map Field.written) ++ ['\x7d'] = '\"' :: tail := by
    rcases fields with _ | ⟨f, _ | ⟨next, fields⟩⟩
    · exact absurd rfl hne
    · exact ⟨_, rfl⟩
    · exact ⟨_, rfl⟩
  have hvalue : ∀ depth, fields.length < depth →
      parseValue (depth + 1) ('\x7b' :: '\"' :: tail) =
        some (.object (fields.map Field.read), []) := by
    intro depth hdepth
    have hmembers := parseMembers_writeMembers h hne hdepth []
    have hquote : skipSpace ('\"' :: tail) = '\"' :: tail := skipSpace_cons (by decide) tail
    rw [htext] at hmembers
    rw [parseValue, skipSpace_cons (by decide)]
    simp [hquote, hmembers]
  have hdepth : fields.length < 2 * ('\x7b' :: '\"' :: tail).length + 1 := by
    have hsame := congrArg List.length htext
    simp only [List.length_map, List.length_append, List.length_cons, List.length_nil]
      at hlength hsame ⊢
    omega
  rw [show writeObject (fields.map Field.written) = '\x7b' :: '\"' :: tail from
    congrArg _ htext, parse, hvalue _ hdepth]
  rfl

theorem onlyMember_of_mem {fields : List Field} (hnodup : (fields.map Field.name).Nodup)
    {f : Field} (hf : f ∈ fields) :
    onlyMember f.name (fields.map Field.read) = some (some f.value) := by
  have hfilter : (fields.map Field.read).filter (fun member => member.1 == some f.name) =
      [f.read] := by
    induction fields with
    | nil => cases hf
    | cons g fields ih =>
        obtain ⟨hnot, hnodup⟩ := List.nodup_cons.1 hnodup
        rw [List.map_cons]
        rcases List.mem_cons.1 hf with rfl | hf
        · rw [List.filter_cons_of_pos (by simp [Field.read]), List.cons_eq_cons,
            List.filter_eq_nil_iff]
          refine ⟨rfl, ?_⟩
          intro member hmember heq
          obtain ⟨g, hg, rfl⟩ := List.mem_map.1 hmember
          exact hnot (List.mem_map.2 ⟨g, hg, by simpa [Field.read] using heq⟩)
        · have hne : g.name ≠ f.name := by
            intro heq
            exact hnot (List.mem_map.2 ⟨f, hf, heq.symm⟩)
          rw [List.filter_cons_of_neg (by simpa [Field.read] using hne)]
          exact ih hnodup hf
  rw [onlyMember, hfilter]
  rfl

/-- An object has the value that each of its names was given. -/
theorem valuesOf_object {fields : List Field} (hnodup : (fields.map Field.name).Nodup) :
    valuesOf (fields.map Field.name) (.object (fields.map Field.read)) =
      some (fields.map fun f => some f.value) := by
  have hnone : (fields.map Field.read).any (fun member => member.1.isNone) = false := by
    simp [Field.read]
  have hvalues : ∀ asked ⊆ fields,
      (asked.map Field.name).mapM (fun name => onlyMember name (fields.map Field.read)) =
        some (asked.map fun f => some f.value) := by
    intro asked hasked
    induction asked with
    | nil => rfl
    | cons f asked ih =>
        obtain ⟨hf, hasked⟩ := List.cons_subset.1 hasked
        rw [List.map_cons, List.mapM_cons, onlyMember_of_mem hnodup hf, ih hasked]
        rfl
  rw [valuesOf, hnone]
  exact hvalues fields (List.Subset.refl _)

end KernelDispatch.Json
