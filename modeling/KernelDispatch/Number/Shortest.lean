import KernelDispatch.Number.Binary

/-!
# The fewest digits that read back

Each binary number is the nearest one for a whole interval of reals. Any
decimal inside the interval reads back as the number, so the shortest decimals
inside it are the ones worth writing, and of these the nearest to the number.

The search tries one digit, then two, and so on. On the decimal grid of a digit
count only the two neighbours of the number can matter: if any grid point lies
in the interval, one of these does. All comparisons are between whole numbers.

## Main definitions

* `Decimal` — digits and the power of ten that they count.
* `shortest` — the shortest decimal of an exact binary number.
-/

namespace KernelDispatch.Number

/-- The number `digits * 10 ^ power`. -/
structure Decimal where
  digits : Nat
  power : Int
deriving DecidableEq, Inhabited

/-- The interval of reals that round to a number, and the number itself, as
numerators over one denominator. The ends belong to the interval exactly if
`closed` holds. -/
structure RoundingInterval where
  low : Nat
  value : Nat
  high : Nat
  den : Nat
  closed : Bool

/-- The interval around `magnitude * 2 ^ power`. It reaches half way to each
neighbour; a tie rounds to the even magnitude, so the ends of an even number
belong to it. -/
def RoundingInterval.around (magnitude : Nat) (power : Int) (narrow : Bool) :
    RoundingInterval :=
  let scale := if 2 ≤ power then Nat.pow 2 (power - 2).toNat else 1
  let den := if 2 ≤ power then 1 else Nat.pow 2 (2 - power).toNat
  { low := (4 * magnitude - if narrow then 1 else 2) * scale
    value := 4 * magnitude * scale
    high := (4 * magnitude + 2) * scale
    den := den
    closed := magnitude % 2 == 0 }

/-- How many digits a whole number has. -/
def digitCount (n : Nat) : Nat := (Nat.toDigits 10 n).length

/-- The fraction `num / den` lies in `[10 ^ (p - 1), 10 ^ p)` for the answer `p`. -/
def leadingPower (num den : Nat) : Int :=
  let p : Int := digitCount num - digitCount den
  let atLeast :=
    if 0 ≤ p then den * Nat.pow 10 p.toNat ≤ num
    else den ≤ num * Nat.pow 10 (-p).toNat
  if atLeast then p + 1 else p

/-- The number of the interval in units of `10 ^ power`: how many whole units
fit, and the interval measured in shares of one unit. -/
def RoundingInterval.inUnits (i : RoundingInterval) (power : Int) : RoundingInterval :=
  if 0 ≤ power then { i with den := i.den * Nat.pow 10 power.toNat }
  else
    let scale := Nat.pow 10 (-power).toNat
    { i with low := i.low * scale, value := i.value * scale, high := i.high * scale }

/-- Whether a whole number of units lies in the interval. -/
def RoundingInterval.holds (i : RoundingInterval) (units : Nat) : Bool :=
  let point := units * i.den
  if i.closed then i.low ≤ point && point ≤ i.high
  else i.low < point && point < i.high

/-- The nearest whole number of units in the interval, if there is one; of two
equally near ones the upper if `tieUp`, else the even one. -/
def RoundingInterval.nearest? (i : RoundingInterval) (tieUp : Bool) : Option Nat :=
  let below := i.value / i.den
  let above := below + 1
  match i.holds below, i.holds above with
  | false, false => none
  | true, false => some below
  | false, true => some above
  | true, true =>
      let r := i.value % i.den
      if 2 * r < i.den then some below
      else if i.den < 2 * r then some above
      else if tieUp || below % 2 == 1 then some above else some below

/-- The first digit count of at most `count + 1` more that has a decimal in the
interval. The units of the grid begin at `10 ^ power` and shrink by a tenth. -/
def searchDigits (i : RoundingInterval) (tieUp : Bool) : Nat → Int → Decimal
  | 0, power => ⟨((i.inUnits power).nearest? tieUp).getD 0, power⟩
  | count + 1, power =>
      match (i.inUnits power).nearest? tieUp with
      | some digits => ⟨digits, power⟩
      | none => searchDigits i tieUp count (power - 1)

/-- Without the zeros at the end of its digits. -/
def Decimal.stripZeros (d : Decimal) : Decimal :=
  if h : d.digits ≠ 0 ∧ d.digits % 10 = 0 then
    stripZeros ⟨d.digits / 10, d.power + 1⟩
  else d
termination_by d.digits
decreasing_by omega

/-- The shortest decimal that reads back as `magnitude * 2 ^ power`. Seventeen
digits always suffice for a double, and so for a single. -/
def shortest (tieUp : Bool) (magnitude : Nat) (power : Int) (narrow : Bool) : Decimal :=
  if magnitude = 0 then ⟨0, 0⟩
  else
    let i := RoundingInterval.around magnitude power narrow
    let top := leadingPower i.value i.den
    (searchDigits i tieUp 17 (top - 1)).stripZeros

end KernelDispatch.Number
