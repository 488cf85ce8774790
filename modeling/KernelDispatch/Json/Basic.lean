/-!
# JSON values

A parsed line keeps what later stages need and no more. Numbers keep their
digits, since a whole number and a measurement are made from the same text by
different rules. A text that names half of a surrogate pair is no text of
characters; it is well-formed all the same, and only a reader that wants the
text has to refuse it.
-/

namespace KernelDispatch.Json

/-- A number as it is spelled. -/
structure Numeral where
  negative : Bool
  /-- The digits before the point. -/
  whole : List Char
  /-- The digits after the point; none without a point. -/
  fraction : List Char
  /-- Whether a point or an exponent is present. -/
  fractional : Bool
  /-- The exponent, or zero without one. -/
  exponent : Int
deriving DecidableEq

/-- A JSON value. -/
inductive Value where
  | null
  | bool (value : Bool)
  | number (value : Numeral)
  /-- A text, or nothing where its escapes do not spell characters. -/
  | text (value : Option String)
  | array (items : List Value)
  /-- The members in the order of the text, repeated names included. -/
  | object (members : List (Option String × Value))

end KernelDispatch.Json
