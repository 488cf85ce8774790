import KernelDispatch.Proofs.Telemetry.MeasurementLog

/-!
# Logs of doubles that are no numbers

Infinities and what is no number at all have no spelling of their own and are written as
`null`, like an estimate that is missing. The line is written without complaint. An estimate
on the line may be missing, so it is read as missing; the other doubles of a record may not,
and a record in which one of them is `null` is not read, nor is any other of its log.

All other doubles are read. So a log is readable exactly as long as every record that was
written to it has numbers in those four places, and then it has one record for each that was
written. Whether the doubles come back unchanged is a question of their digits.

## Main definitions

* `CompletionRecord.Complete` — whether a record has all the numbers that it needs.
* `CompletionRecord.ReadAs` — a record and what its text is read as.
* `MeasurementLog.Outcome` — what reading a log comes to.

## Main results

* `MeasurementLog.read_written` — which logs are readable, and what they read as.
* `MeasurementLog.unreadable_after_overflow` — an infinite estimate, and no log.
-/

namespace KernelDispatch

open Json

namespace CompletionRecord

/-- The doubles that a record cannot be read without. -/
def required (r : CompletionRecord) : List Float := [r.work, r.offline, r.hybrid, r.actual]

/-- Whether a record has all the numbers that it needs. -/
def Complete (r : CompletionRecord) : Prop := ∀ x ∈ r.required, Scalar.finite x = true

/-- A record is read as this one from its text. -/
structure ReadAs (r s : CompletionRecord) : Prop where
  taskId : s.taskId = r.taskId
  configuration : s.configuration = r.configuration
  kernel : s.kernel = r.kernel
  work : readAs? r.work = some s.work
  offline : readAs? r.offline = some s.offline
  hybrid : readAs? r.hybrid = some s.hybrid
  actual : readAs? r.actual = some s.actual
  online : s.online = r.online.bind readAs?
  /-- The estimate on the line is missing where it was, and where it was no number. -/
  missing : s.online = none ↔ ∀ x ∈ r.online, Scalar.finite x = false

variable {r s : CompletionRecord}

theorem online_eq_none_iff (r : CompletionRecord) :
    r.online.bind readAs? = none ↔ ∀ x ∈ r.online, Scalar.finite x = false := by
  cases r.online with
  | none => simp
  | some x =>
      have hread := isSome_readAs? x
      cases h : readAs? x with
      | none =>
          rw [h] at hread
          simp [h, ← hread]
      | some y =>
          rw [h] at hread
          simp [h, ← hread]

theorem readAs_of_reread? (h : r.reread? = some s) : r.ReadAs s := by
  simp only [reread?, Option.pure_def, Option.bind_eq_bind, Option.bind_eq_some_iff] at h
  obtain ⟨work, hwork, offline, hoffline, hybrid, hhybrid, actual, hactual, heq⟩ := h
  obtain rfl := Option.some.inj heq
  exact ⟨rfl, rfl, rfl, hwork, hoffline, hhybrid, hactual, rfl, online_eq_none_iff r⟩

/-- A record is read exactly if it has all the numbers that it needs. -/
theorem isSome_reread?_iff : r.reread?.isSome = true ↔ r.Complete := by
  have hparts : r.Complete ↔ (readAs? r.work).isSome = true ∧ (readAs? r.offline).isSome = true ∧
      (readAs? r.hybrid).isSome = true ∧ (readAs? r.actual).isSome = true := by
    simp only [Complete, required, isSome_readAs?, List.mem_cons, List.not_mem_nil, or_false,
      forall_eq_or_imp, forall_eq]
  rw [hparts]
  unfold reread?
  cases readAs? r.work <;> cases readAs? r.offline <;> cases readAs? r.hybrid <;>
    cases readAs? r.actual <;> simp

end CompletionRecord

namespace MeasurementLog

variable {d opened : Directory} {path text : String} {rs written : List CompletionRecord}

/-- What a log that had records reads as once others have been written to it. -/
structure Outcome (held written : List CompletionRecord)
    (answer : Result (List CompletionRecord)) : Prop where
  /-- Complete records are all read, in the order in which they were written. -/
  complete : (∀ r ∈ written, r.Complete) →
    ∃ added, answer = .ok (held ++ added) ∧ List.Forall₂ CompletionRecord.ReadAs written added
  /-- One record that is not complete spoils the whole reading. -/
  spoilt : (∃ r ∈ written, ¬ r.Complete) → ∃ detail, answer = .error (.serialization detail)

theorem reread_of_complete {r : CompletionRecord} (h : r.Complete) :
    ∃ s, reread r = .ok s ∧ r.ReadAs s := by
  obtain ⟨s, hs⟩ := Option.isSome_iff_exists.1 (CompletionRecord.isSome_reread?_iff.2 h)
  refine ⟨s, ?_, CompletionRecord.readAs_of_reread? hs⟩
  rw [reread, hs]

theorem reread_of_not_complete {r : CompletionRecord} (h : ¬ r.Complete) :
    reread r = .error (.serialization "a line is not a completion record") := by
  have hnone : r.reread? = none := by
    rw [← Option.not_isSome_iff_eq_none, CompletionRecord.isSome_reread?_iff]
    exact h
  rw [reread, hnone]

theorem mapM_reread_of_complete (h : ∀ r ∈ written, r.Complete) :
    ∃ added, written.mapM reread = .ok added ∧
      List.Forall₂ CompletionRecord.ReadAs written added := by
  induction written with
  | nil => exact ⟨[], rfl, .nil⟩
  | cons r written ih =>
      obtain ⟨hr, hrest⟩ := List.forall_mem_cons.1 h
      obtain ⟨s, hs, hreadAs⟩ := reread_of_complete hr
      obtain ⟨added, hadded, hall⟩ := ih hrest
      refine ⟨s :: added, ?_, .cons hreadAs hall⟩
      rw [List.mapM_cons, hs, hadded]
      rfl

theorem mapM_reread_of_not_complete (h : ∃ r ∈ written, ¬ r.Complete) :
    written.mapM reread = .error (.serialization "a line is not a completion record") := by
  induction written with
  | nil =>
      obtain ⟨r, hr, -⟩ := h
      cases hr
  | cons r written ih =>
      rw [List.mapM_cons]
      by_cases hr : r.Complete
      · obtain ⟨s, hs, -⟩ := reread_of_complete hr
        obtain ⟨spoilt, hmem, hspoilt⟩ := h
        have hne : spoilt ≠ r := by
          rintro rfl
          exact hspoilt hr
        rw [hs, ih ⟨spoilt, (List.mem_cons.1 hmem).resolve_left hne, hspoilt⟩]
        rfl
      · rw [reread_of_not_complete hr]
        rfl

/-- What a log reads as after it was written to, from what it read as before. -/
theorem read_of_write {sessions : List (List CompletionRecord)}
    (hheld : d.Holds path text.toUTF8) (hframed : Framed text)
    (hwords : ∀ r ∈ sessions.flatten, r.taskId < UInt64.size) :
    ∃ d', write d path sessions = .ok d' ∧
      read d' path = (read d path).bind fun held =>
        (sessions.flatten.mapM reread).map fun added => held ++ added := by
  obtain ⟨d', hwrite, hholds⟩ := holds_write hheld sessions
  refine ⟨d', hwrite, ?_⟩
  rw [read_of_holds hholds, records_withLines hframed hwords, read_of_holds hheld]

/-- A log that is opened for the first time is empty. -/
theorem exists_holds_openAt {name : String} (hplace : d.locate? path = some (.file name))
    (hnew : d.files.get? name = none) :
    ∃ opened, openAt d path = .ok opened ∧ opened.Holds path "".toUTF8 := by
  have hcontains : d.files.contains name = false := by
    rw [NameMap.contains, hnew, Option.isSome_none]
  have hcreate : d.create? path =
      some { d with files := d.files.insert name ByteArray.empty } := by
    simp only [Directory.create?, hplace, hcontains, Bool.false_eq_true, if_false]
  refine ⟨{ d with files := d.files.insert name ByteArray.empty }, ?_, name, hplace, ?_⟩
  · rw [openAt, hcreate]
  · exact NameMap.get?_insert_self _ _ _

theorem openAt_of_holds {bytes : ByteArray} (h : d.Holds path bytes) : openAt d path = .ok d := by
  rw [openAt, h.create?]

/-- A log that is opened and written to is readable exactly if all that was written is complete,
and then it reads as all that was written. -/
theorem read_written {session : List CompletionRecord} {sessions : List (List CompletionRecord)}
    (hopen : openAt d path = .ok opened) (hheld : opened.Holds path text.toUTF8)
    (hframed : Framed text) (hread : read opened path = .ok rs)
    (hwords : ∀ r ∈ (session :: sessions).flatten, r.taskId < UInt64.size) :
    ∃ d', write d path (session :: sessions) = .ok d' ∧
      Outcome rs (session :: sessions).flatten (read d' path) := by
  obtain ⟨d', hwrite, hafter⟩ := read_of_write hheld hframed hwords
  have hsame : write d path (session :: sessions) = write opened path (session :: sessions) := by
    rw [write, write, hopen, openAt_of_holds hheld]
  rw [hread] at hafter
  refine ⟨d', hsame.trans hwrite, ?_, ?_⟩
  · intro hcomplete
    obtain ⟨added, hadded, hall⟩ := mapM_reread_of_complete hcomplete
    refine ⟨added, ?_, hall⟩
    rw [hafter, hadded]
    rfl
  · intro hspoilt
    refine ⟨"a line is not a completion record", ?_⟩
    rw [hafter, mapM_reread_of_not_complete hspoilt]
    rfl

/-- A record with an estimate on the line that is no number. -/
def unmeasured : CompletionRecord := ⟨0, "cfg", "k", 1.0, some (0.0 / 0.0), 0.25, 0.25, 2.0⟩

/-- A record with a calibrated estimate beyond all numbers. -/
def overflown : CompletionRecord := ⟨1, "cfg", "k", 1.0, none, 1.0 / 5e-324, 0.25, 2.0⟩

/-- A directory without a log. -/
def unlogged : Directory := { path := "d" }

theorem holds_unlogged : ∃ opened, openAt unlogged "d/log" = .ok opened ∧
    opened.Holds "d/log" "".toUTF8 :=
  exists_holds_openAt (show unlogged.locate? "d/log" = some (.file "log") by decide +kernel) rfl

theorem read_written_unmeasured :
    ∃ d', write unlogged "d/log" [[unmeasured], [unfitted, unmeasured]] = .ok d' ∧
      ∃ added, read d' "d/log" = .ok added ∧
        List.Forall₂ CompletionRecord.ReadAs [unmeasured, unfitted, unmeasured] added := by
  obtain ⟨opened, hopen, hheld⟩ := holds_unlogged
  have hread : read opened "d/log" = .ok [] := by
    rw [read_of_holds hheld]
    decide +kernel
  have hwords : ∀ r ∈ [[unmeasured], [unfitted, unmeasured]].flatten, r.taskId < UInt64.size := by
    decide +kernel
  obtain ⟨d', hwrite, houtcome⟩ := read_written hopen hheld (.inl rfl) hread hwords
  refine ⟨d', hwrite, ?_⟩
  have hcomplete : ∀ r ∈ [[unmeasured], [unfitted, unmeasured]].flatten, r.Complete := by
    unfold CompletionRecord.Complete
    decide +kernel
  exact houtcome.complete hcomplete

/-- A record with an infinite estimate is written, and no record of its log is read. An
estimate that is no number is read as missing. -/
theorem unreadable_after_overflow :
    (∃ d', write unlogged "d/log" [[unfitted, overflown]] = .ok d' ∧
      ∃ detail, read d' "d/log" = .error (.serialization detail)) ∧
    ∃ d', write unlogged "d/log" [[unmeasured]] = .ok d' ∧
      ∃ s, read d' "d/log" = .ok [s] ∧ unmeasured.online.isSome = true ∧ s.online = none := by
  obtain ⟨opened, hopen, hheld⟩ := holds_unlogged
  have hread : read opened "d/log" = .ok [] := by
    rw [read_of_holds hheld]
    decide +kernel
  have hsame : ∀ session, write unlogged "d/log" [session] = write opened "d/log" [session] := by
    intro session
    rw [write, write, hopen, openAt_of_holds hheld]
  constructor
  · have hwords : ∀ r ∈ [[unfitted, overflown]].flatten, r.taskId < UInt64.size := by
      decide +kernel
    obtain ⟨d', hwrite, hafter⟩ := read_of_write hheld (.inl rfl) hwords
    have hspoilt : ∃ r ∈ [[unfitted, overflown]].flatten, ¬ r.Complete := by
      unfold CompletionRecord.Complete
      decide +kernel
    refine ⟨d', (hsame _).trans hwrite, "a line is not a completion record", ?_⟩
    rw [hafter, hread, mapM_reread_of_not_complete hspoilt]
    rfl
  · have hwords : ∀ r ∈ [[unmeasured]].flatten, r.taskId < UInt64.size := by decide +kernel
    have hcomplete : unmeasured.Complete := by
      unfold CompletionRecord.Complete
      decide +kernel
    obtain ⟨d', hwrite, hafter⟩ := read_of_write hheld (.inl rfl) hwords
    obtain ⟨s, hs, hreadAs⟩ := reread_of_complete hcomplete
    refine ⟨d', (hsame _).trans hwrite, s, ?_, rfl, hreadAs.missing.2 (by decide +kernel)⟩
    rw [hafter, hread]
    show (([unmeasured].mapM reread).map fun added => [] ++ added) = _
    rw [List.mapM_cons, hs]
    rfl

end MeasurementLog

end KernelDispatch
