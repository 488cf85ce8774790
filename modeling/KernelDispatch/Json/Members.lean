import KernelDispatch.Json.Numeral

/-!
# Records in JSON

A record is read from an object by the names of its members, in any order, with
other members left aside, or from an array that lists just its values in the
order of the names. A name that comes twice leaves it open which value is
meant, so it is refused.

## Main definitions

* `valuesOf` — the values of a record, one for each name.
* `Value.float?`, `Value.word?`, `Value.text?` — values of one kind.
-/

namespace KernelDispatch.Json

namespace Value

/-- A number as a double. -/
def float? : Value → Option Float
  | .number n => n.toFloat?
  | _ => none

/-- A double that may be absent: a number, or `null`. -/
def floatOrNull? : Value → Option (Option Float)
  | .null => some none
  | v => v.float?.map some

/-- A number as a word. -/
def word? : Value → Option Nat
  | .number n => n.toWord?
  | _ => none

/-- A text. -/
def text? : Value → Option String
  | .text t => t
  | _ => none

end Value

/-- The value of the only member of this name: `none` where the name comes more
than once, `some none` where it does not come at all. -/
def onlyMember (name : String) (members : List (Option String × Value)) :
    Option (Option Value) :=
  match members.filter fun member => member.1 == some name with
  | [] => some none
  | [member] => some (some member.2)
  | _ => none

/-- The values of a record, one for each of its names; a value that is missing
from an object is left out. -/
def valuesOf (names : List String) : Value → Option (List (Option Value))
  | .array items => if items.length = names.length then some (items.map some) else none
  | .object members =>
      if members.any fun member => member.1.isNone then none
      else names.mapM fun name => onlyMember name members
  | _ => none

end KernelDispatch.Json
