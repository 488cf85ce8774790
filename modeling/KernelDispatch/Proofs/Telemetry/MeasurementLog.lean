import KernelDispatch.Proofs.Directory
import KernelDispatch.Proofs.Json.Decimals
import KernelDispatch.Proofs.Text.Lines
import KernelDispatch.Telemetry.MeasurementLog

/-!
# Reading the log undoes writing it

A record is written as one object on one line, whatever its names contain, and the line
is read back as the same record. A log that ends with its last line can be gone on with:
what is added begins a line of its own, and the records of the whole are those of the
two parts.

The log is kept open for one session after the other. None of them has to know what the
others wrote, as all that they rely on is that the log ends where a line does, and each
leaves it so.

## Main definitions

* `CompletionRecord.Legible` — a record whose text tells everything about it.
* `CompletionRecord.reread?` — the record that the text of a record is read as.
* `MeasurementLog.Framed` — a text that ends where a line does.
* `MeasurementLog.Keeps` — a log and its records.

## Main results

* `CompletionRecord.ofJson?_toJson` — one record.
* `MeasurementLog.records_append` — a log that is gone on with.
* `MeasurementLog.holds_write`, `MeasurementLog.records_withLines` — its text and its records.
* `MeasurementLog.read_write` — any number of sessions.
-/

namespace KernelDispatch

/-! ## One record -/

namespace CompletionRecord

open Json

/-- The doubles of a record. -/
def floats (r : CompletionRecord) : List Float :=
  r.work :: (r.online.toList ++ [r.offline, r.hybrid, r.actual])

/-- A record whose text tells everything about it. -/
structure Legible (r : CompletionRecord) : Prop where
  /-- The number of its task fits a word. -/
  taskId : r.taskId < UInt64.size
  /-- Its doubles can be told from their digits. -/
  floats : ∀ x ∈ r.floats, ReadsBack x

theorem names_nodup : memberNames.Nodup := by decide

/-- The record that the text of a record is read as. -/
def reread? (r : CompletionRecord) : Option CompletionRecord := do
  pure
    { r with
      work := ← readAs? r.work
      online := r.online.bind readAs?
      offline := ← readAs? r.offline
      hybrid := ← readAs? r.hybrid
      actual := ← readAs? r.actual }

/-- The text of a record is read by reading its doubles. -/
theorem ofJson?_toJson {r : CompletionRecord} (h : r.taskId < UInt64.size) :
    ofJson? r.toJson = r.reread? := by
  obtain ⟨taskId, htaskId, htaskId'⟩ := spells_writeNat h
  obtain ⟨work, hwork, hwork'⟩ := spells_readAs r.work
  obtain ⟨online, honline, honline'⟩ := spells_readAs? r.online
  obtain ⟨offline, hoffline, hoffline'⟩ := spells_readAs r.offline
  obtain ⟨hybrid, hhybrid, hhybrid'⟩ := spells_readAs r.hybrid
  obtain ⟨actual, hactual, hactual'⟩ := spells_readAs r.actual
  let fields : List Field :=
    [⟨"task_id", writeNat r.taskId, taskId⟩,
     ⟨"configuration", quote r.configuration, .text (some r.configuration)⟩,
     ⟨"kernel", quote r.kernel, .text (some r.kernel)⟩,
     ⟨"flop", writeFloat r.work, work⟩, ⟨"online", writeFloat? r.online, online⟩,
     ⟨"offline", writeFloat r.offline, offline⟩, ⟨"hybrid", writeFloat r.hybrid, hybrid⟩,
     ⟨"actual", writeFloat r.actual, actual⟩]
  have hfields : ∀ f ∈ fields, Spells f.text f.value := by
    simp [fields, htaskId, hwork, honline, hoffline, hhybrid, hactual, spells_quote]
  have htext : r.toJson.toList = writeObject (fields.map Field.written) := String.toList_ofList
  have hnodup : (fields.map Field.name).Nodup := names_nodup
  have hvalues : readValues memberNames r.toJson = some (fields.map fun f => some f.value) := by
    rw [readValues, htext, parse_writeObject hfields (List.cons_ne_nil _ _)]
    exact valuesOf_object hnodup
  simp [ofJson?, hvalues, fields, htaskId', hwork', honline', hoffline', hhybrid', hactual',
    Value.text?, reread?]

/-- A record is read back from its text. -/
theorem reread?_of_legible {r : CompletionRecord} (h : r.Legible) : r.reread? = some r := by
  have hfloat : ∀ x ∈ r.floats, readAs? x = some x := h.floats
  have hwork := hfloat r.work (by simp [floats])
  have honline : r.online.bind readAs? = r.online := by
    cases honline : r.online with
    | none => rfl
    | some x => exact hfloat x (by simp [floats, honline])
  have hoffline := hfloat r.offline (by simp [floats])
  have hhybrid := hfloat r.hybrid (by simp [floats])
  have hactual := hfloat r.actual (by simp [floats])
  simp [reread?, hwork, honline, hoffline, hhybrid, hactual]

/-- A record is written on one line. -/
theorem newline_not_mem_toJson (r : CompletionRecord) : '\n' ∉ r.toJson.toList := by
  have honline : '\n' ∉ writeFloat? r.online := by
    cases r.online with
    | none => decide
    | some x => exact newline_not_mem_writeFloat x
  rw [toJson, String.toList_ofList]
  apply newline_not_mem_writeObject
  simp [memberNames, writeNat, newline_not_mem_toDigits, newline_not_mem_quote,
    newline_not_mem_writeFloat, honline]

end CompletionRecord

namespace MeasurementLog

variable {text : String} {r : CompletionRecord} {rs : List CompletionRecord}

/-! ## The text of a log -/

/-- A text that ends where a line does. -/
def Framed (text : String) : Prop := text = "" ∨ text.toList.getLast? = some '\n'

theorem framed_append_lineOf (text : String) (r : CompletionRecord) :
    Framed (text ++ lineOf r) := by
  right
  rw [lineOf, ← String.append_assoc, String.toList_append]
  exact List.getLast?_concat

/-- The lines of a log that are not blank. -/
def entries (cs : List Char) : List (List Char) :=
  (Text.lines cs).filter fun line => !(Text.trim line).isEmpty

theorem entries_append {held : List Char} (h : held = [] ∨ held.getLast? = some '\n')
    (more : List Char) : entries (held ++ more) = entries held ++ entries more := by
  rcases h with rfl | h
  · rfl
  · obtain ⟨held, rfl⟩ := List.getLast?_eq_some_iff.1 h
    rw [List.append_assoc, List.singleton_append, entries, Text.lines_append, List.filter_append,
      entries, Text.lines_append, List.filter_append]
    -- what stands behind the last line feed is no line yet
    exact congrArg (· ++ entries more) (List.append_nil _).symm

/-- A log that ends where a line does can be gone on with. -/
theorem records_append (h : Framed text) (more : String) :
    records (text ++ more) =
      (records text).bind fun held => (records more).bind fun added => .ok (held ++ added) := by
  have hlines : text.toList = [] ∨ text.toList.getLast? = some '\n' :=
    h.imp_left fun hempty => by rw [hempty]; rfl
  show (entries (text ++ more).toList).mapM recordOf = _
  rw [String.toList_append, entries_append hlines, List.mapM_append]
  rfl

/-- What the line of a record is read as. -/
def reread (r : CompletionRecord) : Result CompletionRecord :=
  match r.reread? with
  | some record => .ok record
  | none => .error (.serialization "a line is not a completion record")

/-- The line of a record holds the record and nothing else. -/
theorem records_lineOf (h : r.taskId < UInt64.size) :
    records (lineOf r) = (reread r).map fun record => [record] := by
  have hlines : Text.lines (lineOf r).toList = [r.toJson.toList, []] := by
    rw [lineOf, String.toList_append]
    exact (Text.lines_append _ []).trans
      (congrArg (· ++ [[]]) (Text.lines_of_not_mem r.newline_not_mem_toJson))
  have hvisible : (Text.trim r.toJson.toList).isEmpty = false := by
    rw [List.isEmpty_eq_false_iff, CompletionRecord.toJson, String.toList_ofList]
    exact Text.trim_cons_ne_nil (by decide) _
  have hrecord : recordOf r.toJson.toList = reread r := by
    rw [recordOf, String.ofList_toList, CompletionRecord.ofJson?_toJson h]
    rfl
  have hblank : (Text.trim []).isEmpty = true := rfl
  simp only [records, hlines, List.filter_cons, hvisible, hblank, List.filter_nil, Bool.not_false,
    Bool.not_true, Bool.false_eq_true, if_true, if_false, List.mapM_cons, List.mapM_nil, hrecord]
  cases reread r <;> rfl

/-- A text with the lines of records added, one after the other. -/
def withLines (text : String) (rs : List CompletionRecord) : String :=
  rs.foldl (fun text r => text ++ lineOf r) text

theorem framed_withLines (h : Framed text) (rs : List CompletionRecord) :
    Framed (withLines text rs) := by
  induction rs generalizing text with
  | nil => exact h
  | cons r rs ih => exact ih (framed_append_lineOf text r)

/-- The records that are written are read behind those that are there. -/
theorem records_withLines (h : Framed text) (hwords : ∀ r ∈ rs, r.taskId < UInt64.size) :
    records (withLines text rs) =
      (records text).bind fun held => (rs.mapM reread).map fun added => held ++ added := by
  induction rs generalizing text with
  | nil =>
      show records text = (records text).bind fun held => .ok (held ++ [])
      cases records text with
      | error e => rfl
      | ok held => exact congrArg Except.ok (List.append_nil held).symm
  | cons r rs ih =>
      obtain ⟨hr, hrs⟩ := List.forall_mem_cons.1 hwords
      show records (withLines (text ++ lineOf r) rs) = _
      rw [ih (framed_append_lineOf text r) hrs, records_append h, records_lineOf hr,
        List.mapM_cons]
      cases records text with
      | error e => rfl
      | ok held =>
          cases reread r with
          | error e => rfl
          | ok record =>
              cases rs.mapM reread with
              | error e => rfl
              | ok added => exact congrArg Except.ok (by simp)

/-! ## The file of a log -/

/-- The log at a path ends where a line does and has these records. -/
def Keeps (d : Directory) (path : String) (rs : List CompletionRecord) : Prop :=
  ∃ text : String, d.Holds path text.toUTF8 ∧ Framed text ∧ records text = .ok rs

variable {d : Directory} {path : String}

theorem read_of_holds (h : d.Holds path text.toUTF8) : read d path = records text := by
  rw [read, h.read?]
  dsimp only
  rw [recordsOfBytes, Text.Utf8.decode_toUTF8]

theorem holds_append (h : d.Holds path text.toUTF8) (r : CompletionRecord) :
    (append d path r).Holds path (text ++ lineOf r).toUTF8 := by
  have hbytes : (text ++ lineOf r).toUTF8 = text.toUTF8 ++ (lineOf r).toUTF8 :=
    String.toByteArray_append
  rw [hbytes]
  exact Directory.Holds.append h _

theorem holds_session (h : d.Holds path text.toUTF8) (session : List CompletionRecord) :
    (session.foldl (fun d r => append d path r) d).Holds path (withLines text session).toUTF8 := by
  induction session generalizing d text with
  | nil => exact h
  | cons r session ih => exact ih (holds_append h r)

/-- Whatever the sessions, their records are added to the text one after the other. -/
theorem holds_write (h : d.Holds path text.toUTF8) (sessions : List (List CompletionRecord)) :
    ∃ d', write d path sessions = .ok d' ∧
      d'.Holds path (withLines text sessions.flatten).toUTF8 := by
  induction sessions generalizing d text with
  | nil => exact ⟨d, rfl, h⟩
  | cons session sessions ih =>
      obtain ⟨d', hwrite, hholds⟩ := ih (holds_session h session)
      have hopen : openAt d path = .ok d := by rw [openAt, h.create?]
      refine ⟨d', ?_, ?_⟩
      · rw [write, hopen]
        exact hwrite
      · rwa [withLines, List.flatten_cons, List.foldl_append]

namespace Keeps

theorem read (h : Keeps d path rs) : MeasurementLog.read d path = .ok rs := by
  obtain ⟨text, hheld, -, hrecords⟩ := h
  rw [read_of_holds hheld, hrecords]

/-- The records of any number of sessions are added at the end. -/
theorem write {sessions : List (List CompletionRecord)} (h : Keeps d path rs)
    (hlegible : ∀ r ∈ sessions.flatten, r.Legible) :
    ∃ d', MeasurementLog.write d path sessions = .ok d' ∧
      Keeps d' path (rs ++ sessions.flatten) := by
  obtain ⟨text, hheld, hframed, hrecords⟩ := h
  obtain ⟨d', hwrite, hholds⟩ := holds_write hheld sessions
  refine ⟨d', hwrite, _, hholds, framed_withLines hframed _, ?_⟩
  have hsame : ∀ written : List CompletionRecord, (∀ r ∈ written, r.Legible) →
      written.mapM reread = .ok written := by
    intro written hwritten
    induction written with
    | nil => rfl
    | cons r written ih =>
        obtain ⟨hr, hrest⟩ := List.forall_mem_cons.1 hwritten
        rw [List.mapM_cons, ih hrest, reread, CompletionRecord.reread?_of_legible hr]
        rfl
  rw [records_withLines hframed fun r hr => (hlegible r hr).taskId, hrecords,
    hsame _ hlegible]
  rfl

end Keeps

/-- Reading a log undoes writing it: whatever sessions went on with it, it has the
records that it had and then theirs. -/
theorem read_write {sessions : List (List CompletionRecord)}
    (hheld : d.Holds path text.toUTF8) (hframed : Framed text) (hread : read d path = .ok rs)
    (hwords : ∀ r ∈ sessions.flatten, r.taskId < UInt64.size)
    (hfinite : ∀ r ∈ sessions.flatten, ∀ x ∈ r.floats, x.isFinite = true)
    (hdecimals : ∀ r ∈ sessions.flatten, ∀ x ∈ r.floats, x.isFinite = true → Json.ReadsBack x) :
    ∃ d', write d path sessions = .ok d' ∧ read d' path = .ok (rs ++ sessions.flatten) := by
  have hkeeps : Keeps d path rs := ⟨text, hheld, hframed, by rw [← read_of_holds hheld, hread]⟩
  have hlegible : ∀ r ∈ sessions.flatten, r.Legible := by
    intro r hr
    exact ⟨hwords r hr, fun x hx => hdecimals r hr x hx (hfinite r hr x hx)⟩
  obtain ⟨d', hwrite, hkeeps'⟩ := hkeeps.write hlegible
  exact ⟨d', hwrite, hkeeps'.read⟩

deriving instance DecidableEq for CompletionRecord

instance (x : Float) : Decidable (Json.ReadsBack x) := inferInstanceAs (Decidable (_ = _))

/-- A record of the last task that a word can number, with names that need escapes. -/
def escaped : CompletionRecord :=
  ⟨18446744073709551615, "a \"b\" \\ \n\r", "\t\u0001é\u2028", 0.001, some (-1.5), 1e300, 5e-9, 3.0⟩

/-- A record of a kernel without a name and without a line of its own. -/
def unfitted : CompletionRecord := ⟨0, "cfg", "", 0.0, none, 0.25, 0.25, 2.0⟩

/-- The same record as somebody else may write it, behind a blank line. -/
def byHand : String :=
  " \r\n\x7b \"kernel\": \"\", \"task_id\": 0, \"configuration\": \"cfg\", \"flop\": 0, " ++
    "\"offline\": 25e-2, \"hybrid\": 0.25, \"actual\": 2 \x7d\r\n"

theorem read_write_byHand :
    ∃ d', write { path := "d", files := NameMap.empty.insert "log" byHand.toUTF8 } "d/log"
        [[escaped, unfitted], [], [escaped]] = .ok d' ∧
      read d' "d/log" = .ok ([unfitted] ++ [escaped, unfitted, escaped]) := by
  let d : Directory := { path := "d", files := NameMap.empty.insert "log" byHand.toUTF8 }
  have hheld : d.Holds "d/log" byHand.toUTF8 :=
    ⟨"log", by decide +kernel, NameMap.get?_insert_self _ _ _⟩
  have hread : read d "d/log" = .ok [unfitted] := by
    rw [read_of_holds hheld]
    decide +kernel
  exact read_write hheld (.inr (by decide +kernel)) hread (by decide +kernel) (by decide +kernel)
    (by decide +kernel)

end MeasurementLog

end KernelDispatch
