import KernelDispatch.Number.Shortest

/-!
# How numbers are written

Every report writes the shortest digits that read back; reports differ in when
they turn to an exponent, in whether a whole number keeps a point, and in their
words for what is not a number. A `Layout` lists these choices, and one
function writes by any layout.

## Main definitions

* `Layout` — the choices of one kind of report.
* `Layout.described`, `Layout.plain`, `Layout.exchanged` — the three in use.
* `Layout.write` — an exact number written by a layout.
-/

namespace KernelDispatch.Number

/-- The choices of one kind of report. -/
structure Layout where
  /-- Of two equally near shortest decimals the upper one is written. -/
  tieUp : Bool
  /-- Positional notation is used where the point stands at one of these
  places, counted from before the first digit; `none` is always. -/
  positional : Option (Int × Int)
  /-- Whole numbers in positional notation end in a point and a zero. -/
  keepsPoint : Bool
  /-- Exponents above zero carry a plus sign. -/
  plusSign : Bool
  /-- The word for what is not a number. -/
  nan : String
  /-- The word for infinity. -/
  infinity : String
  /-- The mark of negative infinity. -/
  minusInfinity : String

namespace Layout

/-- In descriptions of values: from `1e-4` up to below `1e16` without an
exponent, and never without a point or an exponent. -/
def described : Layout where
  tieUp := true
  positional := some (-3, 16)
  keepsPoint := true
  plusSign := false
  nan := "NaN"
  infinity := "inf"
  minusInfinity := "-inf"

/-- Within sentences: all digits, no exponent, and no point after a whole
number. -/
def plain : Layout where
  tieUp := true
  positional := none
  keepsPoint := false
  plusSign := false
  nan := "NaN"
  infinity := "inf"
  minusInfinity := "-inf"

/-- In exchanged data: from `1e-5` up to below `1e16` without an exponent. What
is not finite has no number to stand for it and becomes `null`. -/
def exchanged : Layout where
  tieUp := false
  positional := some (-4, 16)
  keepsPoint := true
  plusSign := true
  nan := "null"
  infinity := "null"
  minusInfinity := "null"

/-- Digits with the point after the first `place` of them, filled up with zeros
where it falls outside. -/
def positionalDigits (keepsPoint : Bool) (digits : List Char) (place : Int) : List Char :=
  if place ≤ 0 then
    "0.".toList ++ List.replicate (-place).toNat '0' ++ digits
  else
    let whole := place.toNat
    if digits.length ≤ whole then
      digits ++ List.replicate (whole - digits.length) '0' ++
        if keepsPoint then ".0".toList else []
    else digits.take whole ++ '.' :: digits.drop whole

/-- Digits with the point after the first one, and the exponent that puts it
back. -/
def scientificDigits (plusSign : Bool) (digits : List Char) (exponent : Int) : List Char :=
  let mantissa :=
    match digits with
    | first :: second :: others => first :: '.' :: second :: others
    | digits => digits
  let sign := if exponent < 0 then ['-'] else if plusSign then ['+'] else []
  mantissa ++ 'e' :: sign ++ Nat.toDigits 10 exponent.natAbs

/-- Whether a decimal is written without an exponent. -/
def isPositional (l : Layout) (place : Int) : Bool :=
  match l.positional with
  | none => true
  | some (low, high) => low ≤ place && place ≤ high

/-- A decimal that is not negative. -/
def writeDecimal (l : Layout) (d : Decimal) : List Char :=
  if d.digits = 0 then
    if l.keepsPoint then "0.0".toList else ['0']
  else
    let digits := Nat.toDigits 10 d.digits
    let place := digits.length + d.power
    if l.isPositional place then positionalDigits l.keepsPoint digits place
    else scientificDigits l.plusSign digits (place - 1)

/-- An exact number written by a layout. -/
def write (l : Layout) : Exact → String
  | .nan => l.nan
  | .infinite negative => if negative then l.minusInfinity else l.infinity
  | .finite negative magnitude power narrow =>
      let written := l.writeDecimal (shortest l.tieUp magnitude power narrow)
      String.ofList (if negative then '-' :: written else written)

/-- A double written by a layout. -/
def float (l : Layout) (x : Float) : String := l.write (ofFloat x)

/-- A single written by a layout. -/
def float32 (l : Layout) (x : Float32) : String := l.write (ofFloat32 x)

end Layout

end KernelDispatch.Number
