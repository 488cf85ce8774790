import KernelDispatch.Json.Basic

/-!
# Reading JSON

The reader takes a whole text and answers with its value, or with nothing where
the text is not exactly one JSON value. Each piece of it takes the characters
that it needs from the front and hands back the rest.

Values nest, and every bracket takes a character, so the length of the text
bounds the depth; the pieces that nest count it down.

## Main definitions

* `parse` — the value of a text.
-/

namespace KernelDispatch.Json

/-- The white space of the grammar. -/
def isSpace (c : Char) : Bool := c == ' ' || c == '\n' || c == '\t' || c == '\r'

/-- The text after its leading white space. -/
def skipSpace (cs : List Char) : List Char := cs.dropWhile isSpace

/-- Whether a character is one of the ten digits. -/
def isDigit (c : Char) : Bool := '0' ≤ c && c ≤ '9'

/-- The digits at the front of a text, and the rest. -/
def takeDigits (cs : List Char) : List Char × List Char :=
  (cs.takeWhile isDigit, cs.dropWhile isDigit)

/-- The number that digits spell. -/
def digitsValue (ds : List Char) : Nat :=
  ds.foldl (fun n d => n * 10 + (d.toNat - '0'.toNat)) 0

/-- The digits before the point: a zero alone, or digits without a zero in
front. -/
def parseWhole (cs : List Char) : Option (List Char × List Char) :=
  match takeDigits cs with
  | ([], _) => none
  | ('0' :: _ :: _, _) => none
  | (digits, rest) => some (digits, rest)

/-- The digits after the point, if there is a point. -/
def parseFraction : List Char → Option (Option (List Char) × List Char)
  | '.' :: rest =>
      match takeDigits rest with
      | ([], _) => none
      | (digits, rest) => some (some digits, rest)
  | rest => some (none, rest)

/-- The exponent, if there is one. -/
def parseExponent (cs : List Char) : Option (Option Int × List Char) :=
  match cs with
  | c :: rest =>
      if c = 'e' ∨ c = 'E' then
        let (negative, rest) :=
          match rest with
          | '+' :: rest => (false, rest)
          | '-' :: rest => (true, rest)
          | rest => (false, rest)
        match takeDigits rest with
        | ([], _) => none
        | (digits, rest) =>
            let size : Int := digitsValue digits
            some (some (if negative then -size else size), rest)
      else some (none, cs)
  | [] => some (none, [])

/-- A number, its sign already taken. -/
def parseUnsigned (negative : Bool) (cs : List Char) : Option (Numeral × List Char) := do
  let (whole, cs) ← parseWhole cs
  let (fraction, cs) ← parseFraction cs
  let (exponent, cs) ← parseExponent cs
  pure ({ negative, whole
          fraction := fraction.getD []
          fractional := fraction.isSome || exponent.isSome
          exponent := exponent.getD 0 }, cs)

/-- The value of a hexadecimal digit of either case. -/
def hexValue (c : Char) : Option Nat :=
  if isDigit c then some (c.toNat - '0'.toNat)
  else if 'a' ≤ c ∧ c ≤ 'f' then some (c.toNat - 'a'.toNat + 10)
  else if 'A' ≤ c ∧ c ≤ 'F' then some (c.toNat - 'A'.toNat + 10)
  else none

/-- A unit of a text: a character, or a code of four hexadecimal digits that
may be half of one. -/
inductive TextUnit where
  | char (c : Char)
  | code (n : Nat)
deriving DecidableEq

/-- The character of a one-letter escape. -/
def shortEscape (c : Char) : Option Char :=
  match c with
  | '\"' => some '\"'
  | '\\' => some '\\'
  | '/' => some '/'
  | 'b' => some '\x08'
  | 'f' => some '\x0c'
  | 'n' => some '\n'
  | 'r' => some '\r'
  | 't' => some '\t'
  | _ => none

/-- The units of a text up to its closing quote, the opening one already
taken, and the rest. Control characters have to be escaped. -/
def parseUnits : List Char → Option (List TextUnit × List Char)
  | [] => none
  | '\"' :: rest => some ([], rest)
  | '\\' :: 'u' :: a :: b :: c :: d :: rest => do
      let high := (← hexValue a) * 16 + (← hexValue b)
      let low := (← hexValue c) * 16 + (← hexValue d)
      let (units, rest) ← parseUnits rest
      pure (.code (high * 256 + low) :: units, rest)
  | '\\' :: c :: rest => do
      let e ← shortEscape c
      let (units, rest) ← parseUnits rest
      pure (.char e :: units, rest)
  | c :: rest =>
      if c.toNat < 0x20 ∨ c = '\\' then none
      else do
        let (units, rest) ← parseUnits rest
        pure (.char c :: units, rest)

/-- The characters that units spell. Codes of surrogates have to come in pairs,
the high one first. -/
def charsOfUnits : List TextUnit → Option (List Char)
  | [] => some []
  | .char c :: rest => (charsOfUnits rest).map (c :: ·)
  | .code n :: rest =>
      if 0xDC00 ≤ n ∧ n ≤ 0xDFFF then none
      else if 0xD800 ≤ n ∧ n ≤ 0xDBFF then
        match rest with
        | .code low :: rest =>
            if 0xDC00 ≤ low ∧ low ≤ 0xDFFF then
              (charsOfUnits rest).map
                (Char.ofNat ((n - 0xD800) * 1024 + (low - 0xDC00) + 0x10000) :: ·)
            else none
        | _ => none
      else (charsOfUnits rest).map (Char.ofNat n :: ·)

/-- A text, its opening quote already taken. -/
def parseText (cs : List Char) : Option (Option String × List Char) := do
  let (units, rest) ← parseUnits cs
  pure ((charsOfUnits units).map String.ofList, rest)

/-- The given word at the front of a text. -/
def parseWord (word : List Char) (value : Value) (cs : List Char) :
    Option (Value × List Char) :=
  if word.isPrefixOf cs then some (value, cs.drop word.length) else none

mutual

/-- A value with at most `depth` values inside one another, and the rest. -/
def parseValue (depth : Nat) (cs : List Char) : Option (Value × List Char) :=
  match depth with
  | 0 => none
  | depth + 1 =>
      match skipSpace cs with
      | '\x7b' :: rest =>
          match skipSpace rest with
          | '\x7d' :: rest => some (.object [], rest)
          | rest => do
              let (members, rest) ← parseMembers depth rest
              pure (.object members, rest)
      | '[' :: rest =>
          match skipSpace rest with
          | ']' :: rest => some (.array [], rest)
          | rest => do
              let (items, rest) ← parseItems depth rest
              pure (.array items, rest)
      | '\"' :: rest => do
          let (text, rest) ← parseText rest
          pure (.text text, rest)
      | 'n' :: rest => parseWord "ull".toList .null rest
      | 't' :: rest => parseWord "rue".toList (.bool true) rest
      | 'f' :: rest => parseWord "alse".toList (.bool false) rest
      | '-' :: rest => do
          let (n, rest) ← parseUnsigned true rest
          pure (.number n, rest)
      | rest => do
          let (n, rest) ← parseUnsigned false rest
          pure (.number n, rest)

/-- The items of an array up to its closing bracket, at least one. -/
def parseItems (depth : Nat) (cs : List Char) : Option (List Value × List Char) :=
  match depth with
  | 0 => none
  | depth + 1 => do
      let (item, rest) ← parseValue depth cs
      match skipSpace rest with
      | ']' :: rest => some ([item], rest)
      | ',' :: rest => do
          let (items, rest) ← parseItems depth rest
          pure (item :: items, rest)
      | _ => none

/-- The members of an object up to its closing brace, at least one. -/
def parseMembers (depth : Nat) (cs : List Char) :
    Option (List (Option String × Value) × List Char) :=
  match depth with
  | 0 => none
  | depth + 1 =>
      match skipSpace cs with
      | '\"' :: rest => do
          let (name, rest) ← parseText rest
          match skipSpace rest with
          | ':' :: rest => do
              let (value, rest) ← parseValue depth rest
              let member := (name, value)
              match skipSpace rest with
              | '\x7d' :: rest => some ([member], rest)
              | ',' :: rest => do
                  let (members, rest) ← parseMembers depth rest
                  pure (member :: members, rest)
              | _ => none
          | _ => none
      | _ => none

end

/-- The value of a text that holds nothing else. -/
def parse (cs : List Char) : Option Value := do
  let (value, rest) ← parseValue (2 * cs.length + 2) cs
  if (skipSpace rest).isEmpty then some value else none

end KernelDispatch.Json
