import KernelDispatch.Json.Writer

/-!
# What is written in JSON stays on one line

A line feed within a text is escaped, and nothing else that is written holds one, so
objects can be kept one to a line and a reader can divide them before it knows what
they are.

## Main results

* `newline_not_mem_quote`, `newline_not_mem_writeFloat` — texts and doubles.
* `newline_not_mem_writeObject` — an object, if its values are on one line.
-/

namespace KernelDispatch.Json

/-! ## Texts -/

/-- The characters that have an escape of one letter. -/
def shortEscaped : List Char := ['\"', '\\', '\n', '\r', '\t', '\x08', '\x0c']

/-- All other characters are written by their code or as they are. -/
theorem escape_of_not_mem {c : Char} (h : c ∉ shortEscaped) :
    escape c = if c.toNat < 0x20 then controlEscape c else [c] := by
  simp only [shortEscaped, List.mem_cons, List.not_mem_nil, or_false, not_or] at h
  simp [escape, h]

theorem digitChar_ne_newline : ∀ n < 16, Nat.digitChar n ≠ '\n' := by decide

theorem newline_not_mem_escape (c : Char) : '\n' ∉ escape c := by
  by_cases hshort : c ∈ shortEscaped
  · simp only [shortEscaped, List.mem_cons, List.not_mem_nil, or_false] at hshort
    rcases hshort with rfl | rfl | rfl | rfl | rfl | rfl | rfl <;> decide
  · rw [escape_of_not_mem hshort]
    split
    · have hhigh : Nat.digitChar (c.toNat / 16) ≠ '\n' := digitChar_ne_newline _ (by omega)
      have hlow : Nat.digitChar (c.toNat % 16) ≠ '\n' := digitChar_ne_newline _ (by omega)
      simp [controlEscape, hhigh.symm, hlow.symm]
    · rintro hmem
      rw [← List.mem_singleton.1 hmem] at hshort
      exact hshort (by decide)

theorem newline_not_mem_quote (s : String) : '\n' ∉ quote s := by
  simp [quote, newline_not_mem_escape]

/-! ## Numbers -/

theorem newline_not_mem_toDigits (n : Nat) : '\n' ∉ Nat.toDigits 10 n := by
  intro h
  have hdigit : '\n'.isDigit = true := Nat.isDigit_of_mem_toDigits (by decide) (by decide) h
  exact absurd hdigit (by decide)

section Layout

open Number

theorem newline_not_mem_positionalDigits (keepsPoint : Bool) {digits : List Char}
    (h : '\n' ∉ digits) (place : Int) :
    '\n' ∉ Layout.positionalDigits keepsPoint digits place := by
  have htake : ∀ n, '\n' ∉ digits.take n := fun n hmem => h (List.mem_of_mem_take hmem)
  have hdrop : ∀ n, '\n' ∉ digits.drop n := fun n hmem => h (List.mem_of_mem_drop hmem)
  unfold Layout.positionalDigits
  dsimp only
  split
  · simp [h]
  · split
    · cases keepsPoint <;> simp [h]
    · simp [htake, hdrop]

theorem newline_not_mem_scientificDigits (plusSign : Bool) {digits : List Char}
    (h : '\n' ∉ digits) (exponent : Int) :
    '\n' ∉ Layout.scientificDigits plusSign digits exponent := by
  have hsign : '\n' ∉ if exponent < 0 then ['-'] else if plusSign then ['+'] else [] := by
    split
    · decide
    · split <;> decide
  have hpower := newline_not_mem_toDigits exponent.natAbs
  simp only [Layout.scientificDigits, List.append_assoc, List.cons_append, List.mem_append,
    List.mem_cons, hsign, hpower, or_false, not_or]
  refine ⟨?_, by decide⟩
  split
  · simpa using h
  · exact h

theorem newline_not_mem_writeDecimal (d : Decimal) :
    '\n' ∉ Layout.exchanged.writeDecimal d := by
  unfold Layout.writeDecimal
  dsimp only
  split
  · decide
  · split
    · exact newline_not_mem_positionalDigits _ (newline_not_mem_toDigits _) _
    · exact newline_not_mem_scientificDigits _ (newline_not_mem_toDigits _) _

/-- The text of a double stays on its line. -/
theorem newline_not_mem_writeFloat (x : Float) : '\n' ∉ writeFloat x := by
  unfold writeFloat Layout.float Layout.write
  split
  · decide
  · rename_i negative _
    cases negative <;> decide
  · rename_i negative magnitude power narrow _
    have hdecimal := newline_not_mem_writeDecimal (shortest false magnitude power narrow)
    rw [String.toList_ofList]
    cases negative
    · exact hdecimal
    · exact fun hmem => (List.mem_cons.1 hmem).elim (by decide) hdecimal

end Layout

/-! ## Objects -/

theorem newline_not_mem_writeMembers {members : List (String × List Char)}
    (h : ∀ member ∈ members, '\n' ∉ member.2) : '\n' ∉ writeMembers members := by
  induction members with
  | nil => exact List.not_mem_nil
  | cons member members ih =>
      obtain ⟨name, text⟩ := member
      obtain ⟨htext, hrest⟩ := List.forall_mem_cons.1 h
      have hname := newline_not_mem_quote name
      cases members with
      | nil => simp [writeMembers, hname, htext]
      | cons next members => simp [writeMembers, hname, htext, ih hrest]

/-- An object stays on its line if its values do. -/
theorem newline_not_mem_writeObject {members : List (String × List Char)}
    (h : ∀ member ∈ members, '\n' ∉ member.2) : '\n' ∉ writeObject members := by
  simp [writeObject, newline_not_mem_writeMembers h]

end KernelDispatch.Json
