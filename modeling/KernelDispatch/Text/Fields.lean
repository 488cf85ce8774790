import KernelDispatch.Text.Quoted

/-!
# Descriptions of values

A description names a value and lists what it holds, on one line: first the
name of the kind of value, then its fields in braces. The layout is decided
here once; each type only says which fields it shows.
-/

namespace KernelDispatch.Text

/-- The name of a kind of value and its fields, as in `Queue \x7b id: 3 \x7d`. -/
def fields (name : String) (entries : List (String × String)) : String :=
  let shown := entries.map fun (key, value) => key ++ ": " ++ value
  name ++ " \x7b " ++ ", ".intercalate shown ++ " \x7d"

/-- Values in brackets. -/
def listing (values : List String) : String :=
  "[" ++ ", ".intercalate values ++ "]"

/-- A value that may be absent. -/
def optional (value? : Option String) : String :=
  match value? with
  | some value => "Some(" ++ value ++ ")"
  | none => "None"

/-- A switch. -/
def switch (on : Bool) : String := if on then "true" else "false"

end KernelDispatch.Text
