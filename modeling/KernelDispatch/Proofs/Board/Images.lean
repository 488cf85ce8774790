import KernelDispatch.Board.Device
import KernelDispatch.Proofs.Text.Lines
import Mathlib.Tactic.ByContra

/-!
# What is in an image

An image is read line by line, so what is said of it is said of its lines. Where a line begins
or ends, white space can be added, and where a line both begins and ends, a remark: the names on
the other lines are read as before. A name that is read could be written on a line of its own,
and names that can be written so are read again.

Bytes that are not UTF-8 are no image at all. Any others are, unless no line of theirs has a name
on it.

## Main definitions

* `Image.IsName` — what can be the name of an entry point.
* `Image.SaysNothing` — a line without a name.
* `Image.Silent` — what can be added to a text without changing the names.
* `Image.Codec` — what holds of loading images.

## Main results

* `Image.names_of_silent` — it does not change them.
* `Image.entryPoints_encode`, `Image.isName_of_mem` — names that are written, and read.
* `Image.codec` — what follows for a device that loads images.
-/

namespace KernelDispatch

namespace Text.Utf8

variable {bytes : ByteArray} {text : String}

/-- Bytes are read as the text whose bytes they are. -/
theorem decode_eq_ok_iff : decode bytes = .ok text ↔ bytes = text.toUTF8 := by
  constructor
  · intro h
    unfold decode String.fromUTF8? at h
    by_cases hvalid : bytes.IsValidUTF8
    · rw [dif_pos hvalid] at h
      rw [← Except.ok.inj h]
      rfl
    · rw [dif_neg hvalid] at h
      cases h
  · rintro rfl
    exact decode_toUTF8 text

theorem exists_decode_iff : (∃ text, decode bytes = .ok text) ↔ bytes.IsValidUTF8 := by
  constructor
  · rintro ⟨text, htext⟩
    rw [decode_eq_ok_iff.1 htext]
    exact text.isValidUTF8
  · intro hvalid
    exact ⟨String.fromUTF8 bytes hvalid, decode_eq_ok_iff.2 rfl⟩

end Text.Utf8

namespace Image

open Text

variable {c : Char} {before after line inserted : List Char}

/-! ## Lines and names -/

/-- Whether a text can stand on a line as the name of an entry point. -/
structure IsName (entry : String) : Prop where
  nonempty : entry ≠ ""
  newline : '\n' ∉ entry.toList
  trimmed : trim entry.toList = entry.toList
  mark : entry.toList.head? ≠ some '#'

/-- Whether a line has no name on it: it is blank, or a remark is all that is seen of it. -/
def SaysNothing (line : List Char) : Prop :=
  (∀ c ∈ line, isBlank c = true) ∨
    ∃ pad remark, line = pad ++ '#' :: remark ∧ ∀ c ∈ pad, isBlank c = true

theorem isEntry_remark (remark : List Char) : isEntry (trim ('#' :: remark)) = false := by
  rw [trim_of_visible (by decide)]
  rfl

theorem isEntry_eq_false_iff : isEntry (trim line) = false ↔ SaysNothing line := by
  constructor
  · intro h
    rcases blank_or_visible line with hblank | ⟨pad, c, rest, rfl, hpad, hc⟩
    · exact .inl hblank
    · rw [trim_append_left hpad, trim_of_visible hc] at h
      have hmark : c = '#' := by simpa [isEntry] using h
      exact .inr ⟨pad, rest, hmark ▸ rfl, hpad⟩
  · rintro (hblank | ⟨pad, remark, rfl, hpad⟩)
    · rw [trim_of_blank hblank]
      rfl
    · rw [trim_append_left hpad, isEntry_remark]

/-- The names in a text, in its order. -/
def names (cs : List Char) : List (List Char) := ((lines cs).map trim).filter isEntry

theorem entryPoints_eq (text : String) :
    entryPoints text = (names text.toList).map String.ofList := rfl

theorem names_nil : names [] = [] := rfl

theorem names_newline (first rest : List Char) :
    names (first ++ '\n' :: rest) = names first ++ names rest := by
  rw [names, lines_append, List.map_append, List.filter_append]
  rfl

theorem names_of_line (h : '\n' ∉ line) (hnothing : SaysNothing line) : names line = [] := by
  have hentry : isEntry (trim line) = false := isEntry_eq_false_iff.2 hnothing
  rw [names, lines_of_not_mem h, List.map_singleton, List.filter_cons_of_neg (by simp [hentry]),
    List.filter_nil]

/-! ## What can be added -/

/-- Whether a line begins behind this text. -/
def LineStart (before : List Char) : Prop := before = [] ∨ ∃ front, before = front ++ ['\n']

/-- Whether a line ends before this text. -/
def LineEnd (after : List Char) : Prop := after = [] ∨ ∃ rest, after = '\n' :: rest

/-- What can stand between two parts of a text without saying anything. -/
inductive Silent (before after : List Char) : List Char → Prop where
  /-- White space where a line begins, blank lines among it. -/
  | leads (hstart : LineStart before) {blanks : List Char}
      (hblanks : ∀ c ∈ blanks, isBlank c = true) : Silent before after blanks
  /-- White space where a line ends, as the carriage return before a line feed. -/
  | trails (hend : LineEnd after) {blanks : List Char}
      (hblanks : ∀ c ∈ blanks, isBlank c = true) : Silent before after blanks
  /-- A remark on a line of its own. -/
  | remarks (hstart : LineStart before) (hend : LineEnd after) {remark : List Char}
      (hremark : '\n' ∉ remark) : Silent before after ('#' :: remark)

theorem names_append_of_lineStart (h : LineStart before) (rest : List Char) :
    names (before ++ rest) = names before ++ names rest := by
  rcases h with rfl | ⟨front, rfl⟩
  · rfl
  · rw [List.append_assoc, List.singleton_append, names_newline, names_newline, names_nil,
      List.append_nil]

theorem names_append_of_lineEnd (h : LineEnd after) (first : List Char) :
    names (first ++ after) = names first ++ names after := by
  rcases h with rfl | ⟨rest, rfl⟩
  · rw [List.append_nil, names_nil, List.append_nil]
  · have hafter : names ('\n' :: rest) = names rest := names_newline [] rest
    rw [names_newline, hafter]

theorem names_append_left (rest : List Char) : ∀ blanks : List Char,
    (∀ c ∈ blanks, isBlank c = true) → names (blanks ++ rest) = names rest := by
  intro blanks
  induction blanks with
  | nil =>
      intro _
      rfl
  | cons c blanks ih =>
      intro hblanks
      obtain ⟨hc, hrest⟩ := List.forall_mem_cons.1 hblanks
      rw [← ih hrest, List.cons_append]
      by_cases hnewline : c = '\n'
      · rw [hnewline]
        exact names_newline [] _
      · rw [names, names, lines_cons_of_ne hnewline]
        cases hlines : lines (blanks ++ rest) with
        | nil => exact absurd hlines (lines_ne_nil _)
        | cons line others =>
            have hblank : ∀ b ∈ [c], isBlank b = true := by simpa using hc
            have htrim : trim (c :: line) = trim line := trim_append_left hblank line
            rw [List.modifyHead_cons, List.map_cons, List.map_cons, htrim]

theorem names_concat (hc : isBlank c = true) (first : List Char) :
    names (first ++ [c]) = names first := by
  by_cases hnewline : c = '\n'
  · rw [hnewline, names_newline, names_nil, List.append_nil]
  · obtain ⟨front, last, hlast, hlines⟩ := exists_lastLine first
    have hlonger : '\n' ∉ last ++ [c] := by simpa [hlast] using Ne.symm hnewline
    have hfirst : lines first = front ++ [last] := by
      rw [← lines_of_not_mem hlast, ← List.append_nil last, ← hlines, List.append_nil]
    rw [names, names, hlines, hfirst, lines_of_not_mem hlonger, List.map_append, List.map_append,
      List.map_singleton, List.map_singleton, trim_append_right (by simpa using hc)]

theorem names_append_right : ∀ blanks : List Char, (∀ c ∈ blanks, isBlank c = true) →
    ∀ first, names (first ++ blanks) = names first := by
  intro blanks
  induction blanks with
  | nil =>
      intro _ first
      rw [List.append_nil]
  | cons c blanks ih =>
      intro hblanks first
      obtain ⟨hc, hrest⟩ := List.forall_mem_cons.1 hblanks
      rw [← List.singleton_append, ← List.append_assoc, ih hrest, names_concat hc]

/-- What says nothing does not change the names of a text. -/
theorem names_of_silent (h : Silent before after inserted) :
    names (before ++ inserted ++ after) = names (before ++ after) := by
  cases h with
  | leads hstart hblanks =>
      rw [List.append_assoc, names_append_of_lineStart hstart, names_append_left _ _ hblanks,
        names_append_of_lineStart hstart]
  | trails hend hblanks =>
      rw [names_append_of_lineEnd hend, names_append_right _ hblanks,
        names_append_of_lineEnd hend]
  | @remarks hstart hend remark hremark =>
      have hline : '\n' ∉ '#' :: remark := by simpa using hremark
      have hremark : names ('#' :: remark) = [] :=
        names_of_line hline (.inr ⟨[], remark, rfl, fun _ h => absurd h List.not_mem_nil⟩)
      rw [names_append_of_lineEnd hend, names_append_of_lineStart hstart, hremark,
        List.append_nil, names_append_of_lineEnd hend]

/-! ## Names that are written and read -/

theorem IsName.isEntry {entry : String} (h : IsName entry) :
    isEntry (trim entry.toList) = true := by
  have hnonempty : entry.toList ≠ [] := mt String.toList_eq_nil_iff.1 h.nonempty
  rw [h.trimmed]
  simp [Image.isEntry, hnonempty, h.mark]

/-- Names that are written on lines of their own are read again. -/
theorem entryPoints_encode {entries : List String} (hne : entries ≠ [])
    (h : ∀ e ∈ entries, IsName e) : entryPoints ("\n".intercalate entries) = entries := by
  have hlines : lines ("\n".intercalate entries).toList = entries.map String.toList := by
    rw [String.toList_intercalate]
    refine lines_intercalate (by simpa using hne) fun line hline => ?_
    obtain ⟨e, he, rfl⟩ := List.mem_map.1 hline
    exact (h e he).newline
  have htrim : (entries.map String.toList).map trim = entries.map String.toList := by
    rw [List.map_map]
    exact List.map_congr_left fun e he => (h e he).trimmed
  have hall : ∀ line ∈ entries.map String.toList, isEntry line = true := by
    intro line hline
    obtain ⟨e, he, rfl⟩ := List.mem_map.1 hline
    exact (h e he).trimmed ▸ (h e he).isEntry
  rw [entryPoints_eq, names, hlines, htrim, List.filter_eq_self.2 hall, List.map_map]
  exact (List.map_congr_left fun e _ => String.ofList_toList).trans (List.map_id _)

/-- What is read from a text is a name. -/
theorem isName_of_mem {text entry : String} (h : entry ∈ entryPoints text) : IsName entry := by
  rw [entryPoints_eq, List.mem_map] at h
  obtain ⟨name, hname, rfl⟩ := h
  obtain ⟨hmem, hentry⟩ := List.mem_filter.1 hname
  obtain ⟨line, hline, rfl⟩ := List.mem_map.1 hmem
  have hvisible : trim line ≠ [] ∧ (trim line).head? ≠ some '#' := by
    simpa [isEntry] using hentry
  refine ⟨?_, ?_, ?_, ?_⟩
  · intro hempty
    exact hvisible.1 (by simpa using congrArg String.toList hempty)
  · rw [String.toList_ofList]
    intro hnewline
    obtain ⟨pad, pad', hwhole, -⟩ := exists_trim line
    apply newline_not_mem_lines _ line hline
    rw [hwhole]
    exact List.mem_append_left _ (List.mem_append_right _ hnewline)
  · rw [String.toList_ofList, trim_trim]
  · rw [String.toList_ofList]
    exact hvisible.2

/-- A text has no names in it exactly if none of its lines has. -/
theorem entryPoints_eq_nil_iff (text : String) :
    entryPoints text = [] ↔ ∀ line ∈ lines text.toList, SaysNothing line := by
  rw [entryPoints_eq, List.map_eq_nil_iff, names, List.filter_eq_nil_iff, List.forall_mem_map]
  refine forall₂_congr fun line _ => ?_
  rw [Bool.not_eq_true, isEntry_eq_false_iff]

end Image

/-! ## Loading -/

namespace Program

variable {name : String} {image : ByteArray} {text : String}

/-- Text with a name in it is the image of a program, and other text is not. -/
theorem load_toUTF8 (name text : String) : load name text.toUTF8 =
    if Image.entryPoints text = [] then
      .error (.configuration (Image.Fault.exposesNothing.detail name))
    else .ok { name, entryPoints := Image.entryPoints text } := by
  unfold load Image.decode
  rw [Text.Utf8.decode_toUTF8]
  dsimp only
  cases Image.entryPoints text <;> rfl

/-- An image that is loaded is text, and the program has the names in it. -/
theorem exists_text_of_load {p : Program} (h : load name image = .ok p) :
    ∃ text : String, image = text.toUTF8 ∧ p = ⟨name, Image.entryPoints text⟩ ∧
      p.entryPoints ≠ [] := by
  cases hdecode : Text.Utf8.decode image with
  | error fault =>
      unfold load Image.decode at h
      rw [hdecode] at h
      cases h
  | ok text =>
      obtain rfl := Text.Utf8.decode_eq_ok_iff.1 hdecode
      rw [load_toUTF8] at h
      by_cases hnone : Image.entryPoints text = []
      · rw [if_pos hnone] at h
        cases h
      · rw [if_neg hnone] at h
        obtain rfl := Except.ok.inj h
        exact ⟨text, rfl, rfl, hnone⟩

theorem load_eq_error_iff : (∃ e, load name image = .error e) ↔
    ¬ image.IsValidUTF8 ∨ ∃ text : String, image = text.toUTF8 ∧ Image.entryPoints text = [] := by
  constructor
  · rintro ⟨e, h⟩
    by_cases hvalid : image.IsValidUTF8
    · obtain ⟨text, htext⟩ := Text.Utf8.exists_decode_iff.2 hvalid
      obtain rfl := Text.Utf8.decode_eq_ok_iff.1 htext
      refine .inr ⟨text, rfl, ?_⟩
      by_contra hsome
      rw [load_toUTF8, if_neg hsome] at h
      cases h
    · exact .inl hvalid
  · intro h
    cases hload : load name image with
    | error e => exact ⟨e, rfl⟩
    | ok p =>
        obtain ⟨text, rfl, rfl, hsome⟩ := exists_text_of_load hload
        rcases h with hinvalid | ⟨other, hsame, hnone⟩
        · exact absurd text.isValidUTF8 hinvalid
        · obtain rfl : text = other := String.toByteArray_inj.1 hsame
          exact absurd hnone hsome

end Program

namespace Image

open Text

/-- What holds of the images that a device loads under a name. -/
structure Codec (d : Device) (name : String) : Prop where
  /-- The names that were put into an image are read from it, in their order and each as often
  as it was put there. -/
  read : ∀ entries : List String, entries ≠ [] → (∀ e ∈ entries, IsName e) →
    (d.load name (encode entries)).1 = .ok { name, entryPoints := entries }
  /-- The names that are read from an image can be put into one, and are read again. -/
  written : ∀ image p, (d.load name image).1 = .ok p →
    p.name = name ∧ p.entryPoints ≠ [] ∧ (∀ e ∈ p.entryPoints, IsName e) ∧
      (d.load name (encode p.entryPoints)).1 = .ok p
  /-- What says nothing has no effect on what becomes of an image. -/
  silent : ∀ before inserted after, Silent before after inserted →
    d.load name (String.ofList (before ++ inserted ++ after)).toUTF8 =
      d.load name (String.ofList (before ++ after)).toUTF8
  /-- An image is refused if it is not text, or if there is no line with a name on it. -/
  fails : ∀ image, (∃ e, (d.load name image).1 = .error e) ↔
    ¬ image.IsValidUTF8 ∨
      ∃ text : String, image = text.toUTF8 ∧ ∀ line ∈ lines text.toList, SaysNothing line
  /-- The device counts what it loads, and is left as it was by what it refuses. -/
  counted : ∀ image p, (d.load name image).1 = .ok p →
    (d.load name image).2 = { d with programsLoaded := d.programsLoaded + 1 }
  uncounted : ∀ image e, (d.load name image).1 = .error e → (d.load name image).2 = d

/-- Images are read as they are written. -/
theorem codec (d : Device) (name : String) : Codec d name := by
  have hload : ∀ image, (d.load name image).1 = Program.load name image := by
    intro image
    unfold Device.load
    cases Program.load name image <;> rfl
  have hread : ∀ entries : List String, entries ≠ [] → (∀ e ∈ entries, IsName e) →
      Program.load name (encode entries) = .ok { name, entryPoints := entries } := by
    intro entries hne hnames
    rw [encode, Program.load_toUTF8, entryPoints_encode hne hnames, if_neg hne]
  refine
    { read := fun entries hne hnames => (hload _).trans (hread entries hne hnames)
      written := fun image p h => ?_
      silent := fun before inserted after h => ?_
      fails := fun image => ?_
      counted := fun image p h => ?_
      uncounted := fun image e h => ?_ }
  · obtain ⟨text, -, rfl, hsome⟩ := Program.exists_text_of_load ((hload image).symm.trans h)
    have hnames : ∀ e ∈ entryPoints text, IsName e := fun e he => isName_of_mem he
    exact ⟨rfl, hsome, hnames, (hload _).trans (hread _ hsome hnames)⟩
  · unfold Device.load
    rw [Program.load_toUTF8, Program.load_toUTF8, entryPoints_eq, entryPoints_eq,
      String.toList_ofList, String.toList_ofList, names_of_silent h]
  · rw [hload, Program.load_eq_error_iff]
    simp only [entryPoints_eq_nil_iff]
  · unfold Device.load at h ⊢
    split at h
    · rfl
    · cases h
  · unfold Device.load at h ⊢
    split at h
    · cases h
    · rfl

/-- Remarks, white space and another kind of line end, around a name with a carriage return. -/
example : entryPoints " # two\r\n\tfft\rx\r\n\r\n copy # \n" = ["fft\rx", "copy #"] := by
  decide +kernel

end Image

end KernelDispatch
