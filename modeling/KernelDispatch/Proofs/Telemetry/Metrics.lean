import KernelDispatch.Proofs.Telemetry.Histogram
import KernelDispatch.Telemetry.Metrics
import Mathlib.Algebra.GroupWithZero.Nat
import Mathlib.Data.List.DropRight

/-!
# What metrics report

Metrics are kept in ten cells, and what they are told moves some of the cells and not
others. A report can be computed without any of them: from the list of what was told
since everything began anew. The counters are lengths and sums of parts of this list,
the histogram is that of the durations in it, and each mean error is a sum in the order
of the list.

A completed task whose duration no span can hold is the odd one out. It is counted as
completed, and so it is among the tasks that the errors are divided by, but neither its
duration nor its errors are in the sums.

## Main definitions

* `Metrics.Entry`, `Metrics.told` — what metrics are told, and metrics that were told it.
* `Metrics.account` — the report that a list of entries calls for.

## Main results

* `Metrics.Tallied.tell` — one more entry.
* `Metrics.reports_account` — what follows for every list of entries.
-/

namespace KernelDispatch.Metrics

/-- What metrics are told. -/
inductive Entry where
  | submitted
  | dropped (count : UInt64)
  | faulted
  | completed (record : CompletionRecord)
  /-- Everything begins anew at this moment. -/
  | reset (now : Nat)

/-- The metrics after one more entry. -/
def tell (m : Metrics) : Entry → Metrics
  | .submitted => m.recordSubmitted
  | .dropped count => m.recordDropped count
  | .faulted => m.recordDeviceFault
  | .completed record => (m.recordCompletion record).1
  | .reset now => startingAt now

/-- Metrics that began at a moment and were told these entries, oldest first. -/
def told (start : Nat) (entries : List Entry) : Metrics := entries.foldl tell (startingAt start)

/-! ## What entries say -/

namespace Entry

def isSubmitted : Entry → Bool
  | .submitted => true
  | _ => false

def isFaulted : Entry → Bool
  | .faulted => true
  | _ => false

/-- How many tasks were dropped. -/
def drop? : Entry → Option UInt64
  | .dropped count => some count
  | _ => none

/-- The record of a completed task. -/
def record? : Entry → Option CompletionRecord
  | .completed record => some record
  | _ => none

/-- The moment at which everything begins anew. -/
def moment? : Entry → Option Nat
  | .reset now => some now
  | _ => none

end Entry

/-- The entries since everything began anew. -/
def sinceReset (entries : List Entry) : List Entry :=
  entries.rtakeWhile fun e => e.moment?.isNone

/-- The moment at which everything began anew for the last time. -/
def beginning (start : Nat) (entries : List Entry) : Nat :=
  (entries.filterMap Entry.moment?).getLast?.getD start

/-- The records of completed tasks. -/
def completions (entries : List Entry) : List CompletionRecord := entries.filterMap Entry.record?

/-- The records whose durations a span can hold. -/
def timed (entries : List Entry) : List CompletionRecord :=
  (completions entries).filter fun r => (Number.nanosOfSeconds? r.actual).isSome

/-- The durations in these records, in whole nanoseconds and as far as a counter holds
them. -/
def nanoseconds (entries : List Entry) : List Nat :=
  (timed entries).filterMap fun r =>
    (Number.nanosOfSeconds? r.actual).map fun nanos => min nanos longestNanos

/-- How far one kind of estimate was from what was observed, in the order of completion.
Not every record has every estimate. -/
def errors (estimate : CompletionRecord → Option Float) (entries : List Entry) : List Float :=
  (timed entries).filterMap fun r => (estimate r).map fun x => (x - r.actual).abs

/-- The sum of errors, added up in their order. -/
def totalOf (errors : List Float) : Float := errors.foldl (· + ·) 0.0

/-- Errors shared out among `n` tasks, if there are any. -/
def meanOf (errors : List Float) (n : UInt64) : Option Float :=
  if n = 0 then none else some (totalOf errors / n.toFloat)

/-- How many tasks were completed, as a counter holds it. -/
def completedCount (entries : List Entry) : UInt64 := UInt64.ofNat (completions entries).length

/-- How many errors of estimates on the line there are, as a counter holds it. -/
def onlineCount (entries : List Entry) : UInt64 :=
  UInt64.ofNat (errors CompletionRecord.online entries).length

/-- The report that a list of entries calls for, if the first of them came after
everything began anew at the moment `start`. -/
def account (start now : Nat) (entries : List Entry) : Snapshot where
  uptime := now - start
  submitted := UInt64.ofNat (entries.countP Entry.isSubmitted)
  completed := completedCount entries
  dropped := UInt64.ofNat ((entries.filterMap Entry.drop?).map UInt64.toNat).sum
  deviceFaults := UInt64.ofNat (entries.countP Entry.isFaulted)
  meanDuration := (Histogram.ofValues (nanoseconds entries)).mean
  p50Duration := (Histogram.ofValues (nanoseconds entries)).quantile 0.50
  p95Duration := (Histogram.ofValues (nanoseconds entries)).quantile 0.95
  p99Duration := (Histogram.ofValues (nanoseconds entries)).quantile 0.99
  maxDuration := (Histogram.ofValues (nanoseconds entries)).highest
  onlineError := meanOf (errors CompletionRecord.online entries) (onlineCount entries)
  offlineError := meanOf (errors (fun r => some r.offline) entries) (completedCount entries)
  hybridError := meanOf (errors (fun r => some r.hybrid) entries) (completedCount entries)

section Entries

variable (entries : List Entry) (e : Entry) (r : CompletionRecord)
  (estimate : CompletionRecord → Option Float)

@[simp] theorem completions_concat :
    completions (entries ++ [e]) = completions entries ++ e.record?.toList := by
  cases h : e.record? <;> simp [completions, h]

theorem timed_concat_of_none (h : e.record? = none) : timed (entries ++ [e]) = timed entries := by
  simp [timed, h]

theorem nanoseconds_concat_of_none (h : e.record? = none) :
    nanoseconds (entries ++ [e]) = nanoseconds entries := by
  rw [nanoseconds, timed_concat_of_none entries e h, nanoseconds]

theorem errors_concat_of_none (h : e.record? = none) :
    errors estimate (entries ++ [e]) = errors estimate entries := by
  rw [errors, timed_concat_of_none entries e h, errors]

theorem timed_concat_completed :
    timed (entries ++ [.completed r]) =
      timed entries ++ if (Number.nanosOfSeconds? r.actual).isSome then [r] else [] := by
  simp only [timed, completions_concat, List.filter_append, Entry.record?, Option.toList_some]
  cases h : (Number.nanosOfSeconds? r.actual).isSome <;> simp [h]

/-- A duration that no span can hold leaves no trace. -/
theorem concat_untimed (h : Number.nanosOfSeconds? r.actual = none) :
    nanoseconds (entries ++ [.completed r]) = nanoseconds entries ∧
      errors estimate (entries ++ [.completed r]) = errors estimate entries := by
  have htimed : timed (entries ++ [.completed r]) = timed entries := by
    simp [timed_concat_completed, h]
  exact ⟨by rw [nanoseconds, htimed, nanoseconds], by rw [errors, htimed, errors]⟩

/-- Any other is the last of the durations, and its errors are the last of the errors. -/
theorem concat_timed {nanos : Nat} (h : Number.nanosOfSeconds? r.actual = some nanos) :
    nanoseconds (entries ++ [.completed r]) = nanoseconds entries ++ [min nanos longestNanos] ∧
      errors estimate (entries ++ [.completed r]) =
        errors estimate entries ++ ((estimate r).map fun x => (x - r.actual).abs).toList := by
  have htimed : timed (entries ++ [.completed r]) = timed entries ++ [r] := by
    simp [timed_concat_completed, h]
  constructor
  · simp [nanoseconds, htimed, h]
  · cases hestimate : estimate r <;> simp [errors, htimed, hestimate]

theorem totalOf_concat (errors : List Float) (error : Float) :
    totalOf (errors ++ [error]) = totalOf errors + error := List.foldl_concat ..

end Entries

/-! ## One more entry -/

/-- Metrics hold what the entries since everything began anew say. -/
structure Tallied (start : Nat) (entries : List Entry) (m : Metrics) : Prop where
  startedAt : m.startedAt = start
  submitted : m.submitted = UInt64.ofNat (entries.countP Entry.isSubmitted)
  completed : m.completed = completedCount entries
  dropped : m.dropped = UInt64.ofNat ((entries.filterMap Entry.drop?).map UInt64.toNat).sum
  deviceFaults : m.deviceFaults = UInt64.ofNat (entries.countP Entry.isFaulted)
  durations : m.durations = Histogram.ofValues (nanoseconds entries)
  onlineError : m.onlineError.total = totalOf (errors CompletionRecord.online entries)
  offlineError : m.offlineError.total = totalOf (errors (fun r => some r.offline) entries)
  hybridError : m.hybridError.total = totalOf (errors (fun r => some r.hybrid) entries)
  onlineSamples : m.onlineSamples = onlineCount entries

namespace Tallied

variable {start : Nat} {entries : List Entry} {m : Metrics}

/-- Nothing is known yet of a run that starts now. -/
theorem startingAt (now : Nat) : Tallied now [] (Metrics.startingAt now) := by
  constructor
  all_goals try rfl
  exact Histogram.foldl_record []

/-- What is no completed task moves a counter at most. -/
theorem of_counter {m' : Metrics} {e : Entry} (h : Tallied start entries m)
    (hrecord : e.record? = none)
    (hsubmitted : m'.submitted = m.submitted + if e.isSubmitted then 1 else 0)
    (hdropped : m'.dropped = m.dropped + e.drop?.getD 0)
    (hfaults : m'.deviceFaults = m.deviceFaults + if e.isFaulted then 1 else 0)
    (hrest : m' = { m with
      submitted := m'.submitted, dropped := m'.dropped, deviceFaults := m'.deviceFaults }) :
    Tallied start (entries ++ [e]) m' := by
  have hnanos := nanoseconds_concat_of_none entries e hrecord
  have herrors := fun estimate => errors_concat_of_none entries e estimate hrecord
  have hcompleted : completedCount (entries ++ [e]) = completedCount entries := by
    simp [completedCount, hrecord]
  constructor
  · rw [hrest, h.startedAt]
  · rw [hsubmitted, h.submitted, List.countP_append, List.countP_singleton, UInt64.ofNat_add]
    split <;> rfl
  · rw [hrest, hcompleted, h.completed]
  · rw [hdropped, h.dropped]
    cases hdrop : e.drop? with
    | none => simp [hdrop]
    | some count => simp [hdrop]
  · rw [hfaults, h.deviceFaults, List.countP_append, List.countP_singleton, UInt64.ofNat_add]
    split <;> rfl
  · rw [hrest, hnanos, h.durations]
  · rw [hrest, herrors, h.onlineError]
  · rw [hrest, herrors, h.offlineError]
  · rw [hrest, herrors, h.hybridError]
  · rw [hrest, onlineCount, herrors, h.onlineSamples, onlineCount]

theorem completedCount_concat (entries : List Entry) (r : CompletionRecord) :
    completedCount (entries ++ [.completed r]) = completedCount entries + 1 := by
  simp [completedCount, Entry.record?]

/-- A completed task whose duration no span can hold is counted, and no more. -/
theorem completed_untimed (h : Tallied start entries m) {r : CompletionRecord}
    (hnone : Number.nanosOfSeconds? r.actual = none) :
    Tallied start (entries ++ [.completed r]) (m.tell (.completed r)) := by
  have hnanos := (concat_untimed entries r CompletionRecord.online hnone).1
  have herrors := fun estimate => (concat_untimed entries r estimate hnone).2
  have htell : m.tell (.completed r) = { m with completed := m.completed + 1 } := by
    simp only [tell, recordCompletion, hnone]
  rw [htell]
  constructor
  · exact h.startedAt
  · simpa [Entry.isSubmitted] using h.submitted
  · rw [completedCount_concat, ← h.completed]
  · rw [List.filterMap_append, List.filterMap_cons_none rfl, List.filterMap_nil, List.append_nil]
    exact h.dropped
  · simpa [Entry.isFaulted] using h.deviceFaults
  · rw [hnanos, ← h.durations]
  · rw [herrors, ← h.onlineError]
  · rw [herrors, ← h.offlineError]
  · rw [herrors, ← h.hybridError]
  · rw [onlineCount, herrors, ← onlineCount, ← h.onlineSamples]

/-- Any other moves the histogram and the errors as well. -/
theorem completed_timed (h : Tallied start entries m) {r : CompletionRecord} {nanos : Nat}
    (hnanos : Number.nanosOfSeconds? r.actual = some nanos) :
    Tallied start (entries ++ [.completed r]) (m.tell (.completed r)) := by
  have hrecorded := (concat_timed entries r CompletionRecord.online hnanos).1
  have herrors := fun estimate => (concat_timed entries r estimate hnanos).2
  have honline : (m.tell (.completed r)).onlineError.total =
        totalOf (errors CompletionRecord.online (entries ++ [.completed r])) ∧
      (m.tell (.completed r)).onlineSamples = onlineCount (entries ++ [.completed r]) := by
    rw [onlineCount, herrors]
    cases hestimate : r.online with
    | none =>
        simp only [tell, recordCompletion, hnanos, hestimate, Option.map_none, Option.toList_none,
          List.append_nil]
        exact ⟨h.onlineError, h.onlineSamples⟩
    | some estimate =>
        simp only [tell, recordCompletion, hnanos, hestimate, Option.map_some, Option.toList_some,
          totalOf_concat, List.length_append, List.length_singleton, UInt64.ofNat_add]
        exact ⟨by rw [ErrorSum.add, h.onlineError], by rw [h.onlineSamples, onlineCount]; rfl⟩
  have htell : m.tell (.completed r) =
      { m with
        completed := m.completed + 1
        durations := m.durations.record (min nanos longestNanos)
        offlineError := m.offlineError.add r.offline r.actual
        hybridError := m.hybridError.add r.hybrid r.actual
        onlineError := (m.tell (.completed r)).onlineError
        onlineSamples := (m.tell (.completed r)).onlineSamples } := by
    cases hestimate : r.online <;> simp only [tell, recordCompletion, hnanos, hestimate]
  constructor
  · rw [htell, ← h.startedAt]
  · rw [htell]
    simpa [Entry.isSubmitted] using h.submitted
  · rw [htell, completedCount_concat, ← h.completed]
  · rw [htell, List.filterMap_append, List.filterMap_cons_none rfl, List.filterMap_nil,
      List.append_nil]
    exact h.dropped
  · rw [htell]
    simpa [Entry.isFaulted] using h.deviceFaults
  · rw [htell, hrecorded, ← Histogram.record_ofValues, ← h.durations]
  · exact honline.1
  · rw [htell, herrors, Option.map_some, Option.toList_some, totalOf_concat, ← h.offlineError]
    rfl
  · rw [htell, herrors, Option.map_some, Option.toList_some, totalOf_concat, ← h.hybridError]
    rfl
  · exact honline.2

/-- One more entry is added to what is held, and a reset leaves nothing of it. -/
theorem tell (h : Tallied start entries m) (e : Entry) :
    Tallied (e.moment?.getD start) (if e.moment?.isSome then [] else entries ++ [e])
      (m.tell e) := by
  cases e with
  | submitted =>
      refine h.of_counter rfl rfl ?_ ?_ rfl
      · exact (UInt64.add_zero _).symm
      · exact (UInt64.add_zero _).symm
  | dropped count =>
      refine h.of_counter rfl ?_ rfl ?_ rfl
      · exact (UInt64.add_zero _).symm
      · exact (UInt64.add_zero _).symm
  | faulted =>
      refine h.of_counter rfl ?_ ?_ rfl rfl
      · exact (UInt64.add_zero _).symm
      · exact (UInt64.add_zero _).symm
  | completed r =>
      cases hnanos : Number.nanosOfSeconds? r.actual with
      | none => exact h.completed_untimed hnanos
      | some nanos => exact h.completed_timed hnanos
  | reset now => exact .startingAt now

end Tallied

/-! ## Any number of entries -/

theorem sinceReset_concat (entries : List Entry) (e : Entry) :
    sinceReset (entries ++ [e]) =
      if e.moment?.isSome then [] else sinceReset entries ++ [e] := by
  unfold sinceReset
  rw [List.rtakeWhile_concat]
  cases e.moment? <;> rfl

theorem beginning_concat (start : Nat) (entries : List Entry) (e : Entry) :
    beginning start (entries ++ [e]) = e.moment?.getD (beginning start entries) := by
  cases h : e.moment? <;> simp [beginning, h]

/-- Metrics hold what they were told since everything began anew. -/
theorem tallied_told (start : Nat) (entries : List Entry) :
    Tallied (beginning start entries) (sinceReset entries) (told start entries) := by
  induction entries using List.reverseRecOn with
  | nil => exact .startingAt start
  | append_singleton entries e ih =>
      rw [sinceReset_concat, beginning_concat, told, List.foldl_concat]
      exact ih.tell e

/-- A reset leaves nothing of what was told before it. -/
theorem told_reset (start now : Nat) (earlier later : List Entry) :
    told start (earlier ++ .reset now :: later) = told now later := by
  rw [told, List.foldl_append, List.foldl_cons]
  rfl

theorem snapshot_of_tallied {start : Nat} {entries : List Entry} {m : Metrics}
    (h : Tallied start entries m) (now : Nat) : m.snapshot now = account start now entries := by
  simp only [snapshot, account, ErrorSum.mean, meanOf, h.startedAt, h.submitted, h.completed,
    h.dropped, h.deviceFaults, h.durations, h.onlineError, h.offlineError, h.hybridError,
    h.onlineSamples]

theorem meanOf_eq_none_iff {errors : List Float} {n : UInt64} :
    meanOf errors n = none ↔ n = 0 := by
  simp [meanOf]

/-- What holds of the report after any entries. -/
structure Accounted (start : Nat) (entries : List Entry) : Prop where
  /-- The report is computed from the entries since everything began anew. -/
  snapshot : ∀ now, (told start entries).snapshot now =
    account (beginning start entries) now (sinceReset entries)
  /-- What was told before a reset could as well not have been told. -/
  forgotten : ∀ earlier now later, entries = earlier ++ .reset now :: later →
    told start entries = told now later
  /-- A completed task is refused where its duration is too long for a span; it has
  been counted by then, and nothing else has moved. -/
  refused : ∀ r, Number.nanosOfSeconds? r.actual = none ↔
    ((told start entries).recordCompletion r).2 = false
  refused_moves : ∀ r, ((told start entries).recordCompletion r).2 = false →
    ((told start entries).recordCompletion r).1 =
      { told start entries with completed := (told start entries).completed + 1 }
  /-- Each duration is in the histogram once, and their order plays no part. -/
  unordered : ∀ values, values.Perm (nanoseconds (sinceReset entries)) →
    (told start entries).durations = .ofValues values
  once : (told start entries).durations.size = (timed (sinceReset entries)).length
  /-- A mean is missing exactly where there is nothing to divide by. -/
  online_none : ∀ now, ((told start entries).snapshot now).onlineError = none ↔
    onlineCount (sinceReset entries) = 0
  offline_none : ∀ now, ((told start entries).snapshot now).offlineError = none ↔
    completedCount (sinceReset entries) = 0
  hybrid_none : ∀ now, ((told start entries).snapshot now).hybridError = none ↔
    completedCount (sinceReset entries) = 0

theorem length_nanoseconds (entries : List Entry) :
    (nanoseconds entries).length = (timed entries).length := by
  unfold nanoseconds
  rw [List.length_filterMap_eq_countP, List.countP_eq_length]
  intro r hr
  have htimed : (Number.nanosOfSeconds? r.actual).isSome = true := (List.mem_filter.1 hr).2
  rw [Option.isSome_map, htimed]

theorem recordCompletion_eq_false_iff (m : Metrics) (r : CompletionRecord) :
    (m.recordCompletion r).2 = false ↔ Number.nanosOfSeconds? r.actual = none := by
  rw [snd_recordCompletion, Option.isSome_eq_false_iff, Option.isNone_iff_eq_none]

/-- Whatever metrics were told and in whatever order, they report what the entries since
the last reset call for. -/
theorem reports_account (start : Nat) (entries : List Entry) : Accounted start entries := by
  have htallied := tallied_told start entries
  have hsnapshot := snapshot_of_tallied htallied
  constructor
  · exact hsnapshot
  · rintro earlier now later rfl
    exact told_reset start now earlier later
  · intro r
    exact (recordCompletion_eq_false_iff _ r).symm
  · intro r hrefused
    have hnone := (recordCompletion_eq_false_iff _ r).1 hrefused
    simp only [recordCompletion, hnone]
  · intro values hvalues
    rw [htallied.durations]
    exact (Histogram.ofValues_perm hvalues).symm
  · rw [htallied.durations, Histogram.size_ofValues, length_nanoseconds]
  · intro now
    rw [hsnapshot]
    exact meanOf_eq_none_iff
  · intro now
    rw [hsnapshot]
    exact meanOf_eq_none_iff
  · intro now
    rw [hsnapshot]
    exact meanOf_eq_none_iff

end KernelDispatch.Metrics
