import KernelDispatch.Text.Blank

/-!
# Lines and the white space around them

A text is taken apart at its line feeds, and taking it apart undoes putting it together. White
space that is added at an end of a line is taken away again by trimming it. A line is all white
space, or there is a first character on it that is seen.

## Main results

* `Text.lines_intercalate` — lines that are put together.
* `Text.exists_lastLine` — a text that is gone on with.
* `Text.trim_append_left`, `Text.trim_append_right`, `Text.trim_trim` — the two ends of a line.
* `Text.blank_or_visible` — what there is on a line.
-/

namespace KernelDispatch.Text

variable {c : Char} {blanks line : List Char}

/-! ## Lines -/

theorem lines_newline_cons (rest : List Char) : lines ('\n' :: rest) = [] :: lines rest :=
  if_pos rfl

theorem lines_cons_of_ne (hc : c ≠ '\n') (rest : List Char) :
    lines (c :: rest) = (lines rest).modifyHead (c :: ·) := by
  simp only [lines, hc, if_false]
  cases hlines : lines rest with
  | nil => exact absurd hlines (lines_ne_nil rest)
  | cons line others => rfl

theorem lines_append (first rest : List Char) :
    lines (first ++ '\n' :: rest) = lines first ++ lines rest := by
  induction first with
  | nil => rfl
  | cons c first ih =>
      rw [List.cons_append]
      by_cases hc : c = '\n'
      · rw [hc, lines_newline_cons, lines_newline_cons, ih, List.cons_append]
      · rw [lines_cons_of_ne hc, lines_cons_of_ne hc, ih]
        cases hfirst : lines first with
        | nil => exact absurd hfirst (lines_ne_nil first)
        | cons line others => rfl

theorem lines_of_not_mem (h : '\n' ∉ line) : lines line = [line] := by
  induction line with
  | nil => rfl
  | cons c line ih =>
      obtain ⟨hc, hline⟩ := not_or.1 (mt List.mem_cons.2 h)
      rw [lines_cons_of_ne (Ne.symm hc), ih hline]
      rfl

/-- Lines that are put together are the lines of the text that they make. -/
theorem lines_intercalate {ls : List (List Char)} (hne : ls ≠ [])
    (h : ∀ line ∈ ls, '\n' ∉ line) : lines (['\n'].intercalate ls) = ls := by
  induction ls with
  | nil => exact absurd rfl hne
  | cons line ls ih =>
      have hline : lines line = [line] := lines_of_not_mem (h line List.mem_cons_self)
      cases ls with
      | nil => rw [List.intercalate_singleton, hline]
      | cons next ls =>
          have hrest := ih (List.cons_ne_nil _ _) fun l hl => h l (List.mem_cons_of_mem _ hl)
          rw [List.intercalate_cons_cons, List.append_assoc, List.singleton_append, lines_append,
            hline, hrest, List.singleton_append]

/-- No line has a line feed in it. -/
theorem newline_not_mem_lines (cs : List Char) : ∀ line ∈ lines cs, '\n' ∉ line := by
  induction cs with
  | nil =>
      intro line hline
      rw [List.mem_singleton.1 hline]
      exact List.not_mem_nil
  | cons c cs ih =>
      intro line hline
      by_cases hc : c = '\n'
      · rw [hc, lines_newline_cons, List.mem_cons] at hline
        rcases hline with rfl | hline
        · exact List.not_mem_nil
        · exact ih line hline
      · rw [lines_cons_of_ne hc] at hline
        cases hlines : lines cs with
        | nil => exact absurd hlines (lines_ne_nil cs)
        | cons first others =>
            rw [hlines, List.modifyHead_cons, List.mem_cons] at hline
            rw [hlines, List.forall_mem_cons] at ih
            rcases hline with rfl | hline
            · exact not_or.2 ⟨Ne.symm hc, ih.1⟩ ∘ List.mem_cons.1
            · exact ih.2 line hline

/-- Where a text is gone on with, its last line is. -/
theorem exists_lastLine (cs : List Char) : ∃ front last, '\n' ∉ last ∧
    ∀ rest, lines (cs ++ rest) = front ++ lines (last ++ rest) := by
  induction cs with
  | nil => exact ⟨[], [], List.not_mem_nil, fun rest => rfl⟩
  | cons c cs ih =>
      obtain ⟨front, last, hlast, hlines⟩ := ih
      by_cases hc : c = '\n'
      · refine ⟨[] :: front, last, hlast, fun rest => ?_⟩
        rw [List.cons_append, hc, lines_newline_cons, hlines, List.cons_append]
      · cases front with
        | nil =>
            refine ⟨[], c :: last, not_or.2 ⟨Ne.symm hc, hlast⟩ ∘ List.mem_cons.1, fun rest => ?_⟩
            rw [List.cons_append, List.cons_append, lines_cons_of_ne hc, lines_cons_of_ne hc,
              hlines, List.nil_append, List.nil_append]
        | cons first front =>
            refine ⟨(c :: first) :: front, last, hlast, fun rest => ?_⟩
            rw [List.cons_append, lines_cons_of_ne hc, hlines, List.cons_append,
              List.modifyHead_cons, List.cons_append]

/-! ## White space -/

theorem trimStart_append (h : ∀ c ∈ blanks, isBlank c = true) (rest : List Char) :
    trimStart (blanks ++ rest) = trimStart rest := List.dropWhile_append_of_pos h

theorem trimEnd_append (h : ∀ c ∈ blanks, isBlank c = true) (first : List Char) :
    trimEnd (first ++ blanks) = trimEnd first := by
  have hreverse : ∀ c ∈ blanks.reverse, isBlank c = true := by
    intro c hc
    exact h c (List.mem_reverse.1 hc)
  rw [trimEnd, trimEnd, List.reverse_append, trimStart_append hreverse]

theorem trimStart_of_visible (hc : isBlank c = false) (rest : List Char) :
    trimStart (c :: rest) = c :: rest := by
  simp [trimStart, hc]

/-- Nothing is taken from the end of a text beyond a character that is seen. -/
theorem trimEnd_of_visible (hc : isBlank c = false) (rest : List Char) :
    trimEnd (c :: rest) = c :: trimEnd rest := by
  rw [trimEnd, trimEnd, trimStart, trimStart, List.reverse_cons, List.dropWhile_append]
  by_cases hrest : (List.dropWhile isBlank rest.reverse).isEmpty = true
  · rw [if_pos hrest, List.isEmpty_iff.1 hrest]
    simp [hc]
  · rw [if_neg hrest, List.reverse_append, List.reverse_singleton, List.singleton_append]

theorem trim_of_visible (hc : isBlank c = false) (rest : List Char) :
    trim (c :: rest) = c :: trimEnd rest := by
  rw [trim, trimStart_of_visible hc, trimEnd_of_visible hc]

theorem trim_append_left (h : ∀ c ∈ blanks, isBlank c = true) (rest : List Char) :
    trim (blanks ++ rest) = trim rest := by
  rw [trim, trim, trimStart_append h]

/-- A line is all white space, or there is a first character on it that is seen. -/
theorem blank_or_visible (line : List Char) : (∀ c ∈ line, isBlank c = true) ∨
    ∃ pad c rest, line = pad ++ c :: rest ∧ (∀ c ∈ pad, isBlank c = true) ∧ isBlank c = false := by
  induction line with
  | nil => exact .inl fun c hc => absurd hc List.not_mem_nil
  | cons c line ih =>
      cases hc : isBlank c with
      | false =>
          exact .inr ⟨[], c, line, rfl, fun _ h => absurd h List.not_mem_nil, hc⟩
      | true =>
          rcases ih with hblank | ⟨pad, d, rest, rfl, hpad, hd⟩
          · exact .inl (List.forall_mem_cons.2 ⟨hc, hblank⟩)
          · exact .inr ⟨c :: pad, d, rest, rfl, List.forall_mem_cons.2 ⟨hc, hpad⟩, hd⟩

theorem trim_of_blank (h : ∀ c ∈ line, isBlank c = true) : trim line = [] := by
  have htrim := trim_append_left h []
  rwa [List.append_nil] at htrim

theorem trim_append_right (h : ∀ c ∈ blanks, isBlank c = true) (line : List Char) :
    trim (line ++ blanks) = trim line := by
  rcases blank_or_visible line with hline | ⟨pad, c, rest, rfl, hpad, hc⟩
  · rw [trim_append_left hline, trim_of_blank h, trim_of_blank hline]
  · rw [List.append_assoc, trim_append_left hpad, trim_append_left hpad, List.cons_append,
      trim_of_visible hc, trim_of_visible hc, trimEnd_append h]

theorem exists_trimEnd (line : List Char) : ∃ pad, line = trimEnd line ++ pad ∧
    ∀ c ∈ pad, isBlank c = true := by
  refine ⟨(line.reverse.takeWhile isBlank).reverse, ?_, fun c hc => ?_⟩
  · rw [trimEnd, trimStart, ← List.reverse_append, List.takeWhile_append_dropWhile,
      List.reverse_reverse]
  · exact List.all_eq_true.1 List.all_takeWhile c (List.mem_reverse.1 hc)

/-- What is trimmed is the line without white space at its two ends. -/
theorem exists_trim (line : List Char) : ∃ pad pad', line = pad ++ trim line ++ pad' ∧
    (∀ c ∈ pad, isBlank c = true) ∧ ∀ c ∈ pad', isBlank c = true := by
  rcases blank_or_visible line with hline | ⟨pad, c, rest, rfl, hpad, hc⟩
  · refine ⟨line, [], ?_, hline, fun c hc => absurd hc List.not_mem_nil⟩
    rw [trim_of_blank hline, List.append_nil, List.append_nil]
  · obtain ⟨pad', hrest, hpad'⟩ := exists_trimEnd rest
    refine ⟨pad, pad', ?_, hpad, hpad'⟩
    rw [trim_append_left hpad, trim_of_visible hc, List.append_assoc, List.cons_append, ← hrest]

theorem trim_trim (line : List Char) : trim (trim line) = trim line := by
  obtain ⟨pad, pad', hline, hpad, hpad'⟩ := exists_trim line
  have htrim := congrArg trim hline
  rw [List.append_assoc, trim_append_left hpad, trim_append_right hpad'] at htrim
  exact htrim.symm

/-- A line that begins with something visible is not blank. -/
theorem trim_cons_ne_nil (hc : isBlank c = false) (rest : List Char) :
    trim (c :: rest) ≠ [] := by
  rw [trim_of_visible hc]
  exact List.cons_ne_nil _ _

end KernelDispatch.Text
