/-!
# White space and lines

Names and log lines may be surrounded by any white space of the Unicode
standard, not only by the ASCII kind, so the class is spelled out here. A line
ends at a line feed; a carriage return before it is white space and falls to
`trim`, so both common line ends read alike.

## Main definitions

* `isBlank` — the characters of the standard's white-space property.
* `trim` — a text without the white space at its two ends.
* `lines` — the pieces of a text between line feeds.
-/

namespace KernelDispatch.Text

/-- Whether a character has the white-space property. -/
def isBlank (c : Char) : Bool :=
  let code := c.toNat
  (9 ≤ code && code ≤ 13) || code == 0x20 || code == 0x85 || code == 0xA0 ||
    code == 0x1680 || (0x2000 ≤ code && code ≤ 0x200A) || code == 0x2028 ||
    code == 0x2029 || code == 0x202F || code == 0x205F || code == 0x3000

/-- A text without its leading white space. -/
def trimStart (cs : List Char) : List Char := cs.dropWhile isBlank

/-- A text without its trailing white space. -/
def trimEnd (cs : List Char) : List Char := (trimStart cs.reverse).reverse

/-- A text without the white space at its two ends. -/
def trim (cs : List Char) : List Char := trimEnd (trimStart cs)

/-- The pieces between line feeds: one more than there are line feeds. -/
def lines : List Char → List (List Char)
  | [] => [[]]
  | c :: rest =>
      if c = '\n' then [] :: lines rest
      else
        match lines rest with
        | [] => [[c]]
        | first :: others => (c :: first) :: others

/-- There is always a first piece. -/
theorem lines_ne_nil (cs : List Char) : lines cs ≠ [] := by
  cases cs with
  | nil => simp [lines]
  | cons c rest =>
      unfold lines
      split
      · simp
      · split <;> simp

end KernelDispatch.Text
