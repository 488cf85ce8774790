import KernelDispatch.Number.Layout

/-!
# Writing JSON

One line of JSON is written without spaces: texts in quotes, numbers by their
shortest digits, members in the order they are given.
-/

namespace KernelDispatch.Json

/-- The escape of a control character without a short one. -/
def controlEscape (c : Char) : List Char :=
  "\\u00".toList ++ [Nat.digitChar (c.toNat / 16), Nat.digitChar (c.toNat % 16)]

/-- How one character is written inside quotes. -/
def escape (c : Char) : List Char :=
  if c = '\"' then ['\\', '\"']
  else if c = '\\' then ['\\', '\\']
  else if c = '\n' then ['\\', 'n']
  else if c = '\r' then ['\\', 'r']
  else if c = '\t' then ['\\', 't']
  else if c = '\x08' then ['\\', 'b']
  else if c = '\x0c' then ['\\', 'f']
  else if c.toNat < 0x20 then controlEscape c
  else [c]

/-- A text in quotes. -/
def quote (s : String) : List Char :=
  '\"' :: (s.toList.flatMap escape ++ ['\"'])

/-- A double by its shortest digits; what is not finite is `null`. -/
def writeFloat (x : Float) : List Char := (Number.Layout.exchanged.float x).toList

/-- A double that may be absent. -/
def writeFloat? : Option Float → List Char
  | some x => writeFloat x
  | none => "null".toList

/-- A whole number. -/
def writeNat (n : Nat) : List Char := Nat.toDigits 10 n

/-- Members of an object, separated by commas. -/
def writeMembers : List (String × List Char) → List Char
  | [] => []
  | [(name, value)] => quote name ++ ':' :: value
  | (name, value) :: rest => quote name ++ ':' :: (value ++ ',' :: writeMembers rest)

/-- An object, each value already written. -/
def writeObject (members : List (String × List Char)) : List Char :=
  '\x7b' :: (writeMembers members ++ ['\x7d'])

end KernelDispatch.Json
