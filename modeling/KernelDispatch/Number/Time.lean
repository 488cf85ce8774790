import KernelDispatch.Number.Binary

/-!
# Spans of time

The device counts whole nanoseconds; estimates are in seconds. Both directions
are fixed here: seconds are the whole seconds plus the rest divided once, and
back again the exact value of the double is rounded to the nearest nanosecond.
-/

namespace KernelDispatch.Number

/-- Nanoseconds in a second. -/
def nanosPerSecond : Nat := 1000000000

/-- A span in seconds. -/
def secondsOfNanos (nanos : Nat) : Float :=
  (UInt64.ofNat (nanos / nanosPerSecond)).toFloat +
    (UInt64.ofNat (nanos % nanosPerSecond)).toFloat / 1000000000.0

/-- The nearest whole number of nanoseconds, a half to the even one; spans that
are negative or not a number are none at all. Nothing stands for a span of
`2 ^ 64` seconds or more. -/
def nanosOfSeconds? (seconds : Float) : Option Nat :=
  match ofFloat seconds with
  | .finite false magnitude power _ =>
      let (num, den) := asQuotient magnitude power
      if UInt64.size * den ≤ num then none
      else some (roundQuotient (num * nanosPerSecond) den)
  | .infinite false => none
  | _ => some 0

end KernelDispatch.Number
