import KernelDispatch.Json.Basic

/-!
# Numbers from their spelling

A spelled number becomes a double in two rounded steps. Its digits, as many as
a 64-bit word holds, are read as one whole number; then that number is
multiplied or divided once by a power of ten. Digits past the word count only
for their place, and a number too large for a double is refused.

## Main definitions

* `Numeral.toFloat?` — the double that a number is read as.
* `Numeral.toWord?` — the 64-bit word that a number spells.
-/

namespace KernelDispatch.Json

/-- The digits taken so far, and the power of ten that they count. -/
structure Significand where
  digits : Nat := 0
  power : Int := 0

namespace Significand

/-- The significand with one more digit, unless it would outgrow a word. -/
def push? (s : Significand) (digit : Char) : Option Nat :=
  let digits := s.digits * 10 + (digit.toNat - '0'.toNat)
  if digits < UInt64.size then some digits else none

/-- Digits before the point: those that no longer fit count by their place. -/
def pushWhole (s : Significand) : List Char → Significand
  | [] => s
  | d :: rest =>
      match s.push? d with
      | some digits => pushWhole { s with digits } rest
      | none => { s with power := s.power + (rest.length + 1 : Nat) }

/-- Digits after the point, up to the first that no longer fits. -/
def pushFraction (s : Significand) : List Char → Significand
  | [] => s
  | d :: rest =>
      match s.push? d with
      | some digits => pushFraction ⟨digits, s.power - 1⟩ rest
      | none => s

end Significand

/-- The double nearest to a power of ten of at most 308. -/
def powerOfTen (n : Nat) : Float := Float.ofScientific 1 false n

/-- `x * 10 ^ power` by one multiplication or division, or, far below one, by two
divisions. Nothing stands for a number beyond the largest double. -/
def scaleByTen (x : Float) (power : Int) : Option Float :=
  if 0 ≤ power then
    if power ≤ 308 then
      let y := x * powerOfTen power.toNat
      if y.isFinite then some y else none
    else if x == 0.0 then some x else none
  else if -power ≤ 308 then some (x / powerOfTen (-power).toNat)
  else if -power ≤ 616 then some (x / powerOfTen 308 / powerOfTen (-power - 308).toNat)
  else some 0.0

namespace Numeral

/-- The digits of a number as far as a word holds them. -/
def significand (n : Numeral) : Significand :=
  (Significand.pushWhole {} n.whole).pushFraction n.fraction

/-- The double that a number is read as. -/
def toFloat? (n : Numeral) : Option Float :=
  let s := n.significand
  let size := scaleByTen (UInt64.ofNat s.digits).toFloat (s.power + n.exponent)
  size.map fun x => if n.negative then -x else x

/-- The 64-bit word that a number spells: plain digits, without a sign. -/
def toWord? (n : Numeral) : Option Nat :=
  let s := Significand.pushWhole {} n.whole
  if n.negative || n.fractional || s.power != 0 then none else some s.digits

end Numeral

end KernelDispatch.Json
