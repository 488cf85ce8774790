/-!
# Binary numbers, exactly

A finite binary floating-point number is a whole number times a power of two.
The rules that must not lose a bit — writing a number in decimal, counting its
nanoseconds, rounding it up — work on that form, in whole numbers, and not on
the floating-point operations themselves.

## Main definitions

* `Exact` — a number as sign, magnitude and power of two, or none at all.
* `decode` — the exact form behind the bits of a number.
* `roundQuotient` — a quotient rounded to the nearest whole number.
-/

namespace KernelDispatch.Number

/-- How many bits a binary format gives to the fraction and to the exponent. -/
structure BinaryFormat where
  fractionBits : Nat
  exponentBits : Nat

/-- The format of `Float`. -/
def binary64 : BinaryFormat := ⟨52, 11⟩

/-- The format of `Float32`. -/
def binary32 : BinaryFormat := ⟨23, 8⟩

/-- What the bits of a number stand for. -/
inductive Exact where
  | nan
  | infinite (negative : Bool)
  /-- The number `magnitude * 2 ^ power`. It is the least of its binade when
  `narrow` holds: its neighbour below is then half as far as the one above. -/
  | finite (negative : Bool) (magnitude : Nat) (power : Int) (narrow : Bool)
deriving DecidableEq

/-- The exact form behind bits. -/
def decode (f : BinaryFormat) (bits : Nat) : Exact :=
  let fractions := Nat.pow 2 f.fractionBits
  let exponents := Nat.pow 2 f.exponentBits
  let fraction := bits % fractions
  let exponent := bits / fractions % exponents
  let negative := bits / (fractions * exponents) % 2 == 1
  let bias : Nat := exponents / 2 - 1 + f.fractionBits
  if exponent = exponents - 1 then
    if fraction = 0 then .infinite negative else .nan
  else if exponent = 0 then .finite negative fraction (1 - (bias : Int)) false
  else
    .finite negative (fractions + fraction) ((exponent : Int) - bias)
      (fraction == 0 && exponent != 1)

/-- The exact form of a double. -/
def ofFloat (x : Float) : Exact := decode binary64 x.toBits.toNat

/-- The exact form of a single. -/
def ofFloat32 (x : Float32) : Exact := decode binary32 x.toBits.toNat

/-- `magnitude * 2 ^ power` as a fraction of two whole numbers. -/
def asQuotient (magnitude : Nat) (power : Int) : Nat × Nat :=
  if 0 ≤ power then (magnitude * Nat.pow 2 power.toNat, 1)
  else (magnitude, Nat.pow 2 (-power).toNat)

/-- A quotient rounded to the nearest whole number; a half goes to the even
neighbour. -/
def roundQuotient (num den : Nat) : Nat :=
  let q := num / den
  let r := num % den
  if 2 * r < den then q
  else if den < 2 * r then q + 1
  else if q % 2 = 0 then q else q + 1

/-- A quotient rounded up. -/
def ceilQuotient (num den : Nat) : Nat :=
  if num % den = 0 then num / den else num / den + 1

/-- The least whole number that is at least `x`, or zero where `x` is negative
or not finite. -/
def ceilNat (x : Float) : Nat :=
  match ofFloat x with
  | .finite false magnitude power _ =>
      let (num, den) := asQuotient magnitude power
      ceilQuotient num den
  | _ => 0

/-- The largest whole number that is at most `x`, or zero where `x` is negative
or not finite. -/
def floorNat (x : Float) : Nat :=
  match ofFloat x with
  | .finite false magnitude power _ =>
      let (num, den) := asQuotient magnitude power
      num / den
  | _ => 0

end KernelDispatch.Number
