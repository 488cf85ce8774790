import KernelDispatch.Text.Shapeless

/-!
# Quoted text

A description of a value shows its texts in quotes, so that every character can
be told from the next: a quote, a backslash and the common controls have a
short escape, other characters without a shape of their own are written by
their code, and all else stands for itself.
-/

namespace KernelDispatch.Text

/-- The code of a character in braces, as in `\u{7f}`. -/
def codeEscape (c : Char) : List Char :=
  "\\u\x7b".toList ++ Nat.toDigits 16 c.toNat ++ ['\x7d']

/-- How one character is written inside quotes. -/
def escape (c : Char) : List Char :=
  match c with
  | '\x00' => ['\\', '0']
  | '\t' => ['\\', 't']
  | '\r' => ['\\', 'r']
  | '\n' => ['\\', 'n']
  | '\\' => ['\\', '\\']
  | '\"' => ['\\', '\"']
  | c => if isShapeless c then codeEscape c else [c]

/-- A text in quotes. -/
def quoted (s : String) : String :=
  String.ofList ('\"' :: s.toList.flatMap escape ++ ['\"'])

end KernelDispatch.Text
