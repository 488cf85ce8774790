import KernelDispatch.Proofs.Number.Exact
import KernelDispatch.Proofs.Telemetry.Metrics
import KernelDispatch.Proofs.Telemetry.Quantiles

/-!
# A task that takes longer

Two runs are told the same, but for one completed task that took longer in the second. Its
duration has no fewer nanoseconds then, and they are counted at the same place or at a higher
one. So no quantile gets lower, and neither does the highest duration.

The end of the histogram is an exception. It is laid out for an hour, but its last bucket ends
13 minutes later, and durations in between are counted where they belong. A duration beyond
the last bucket is counted as an hour. Where one of these is raised to one of those, no
statistic gets higher.

## Main definitions

* `Metrics.Snapshot.NotAbove` — a report of which no duration is above that of another.
* `Metrics.Overshoots` — durations of which the longer one is counted as the shorter one.

## Main results

* `Metrics.raised_duration` — what a longer duration does to the report.
-/

namespace KernelDispatch.Metrics

/-- No statistic of durations is above that of another report. -/
structure Snapshot.NotAbove (s s' : Snapshot) : Prop where
  p50 : s.p50Duration ≤ s'.p50Duration
  p95 : s.p95Duration ≤ s'.p95Duration
  p99 : s.p99Duration ≤ s'.p99Duration
  max : s.maxDuration ≤ s'.maxDuration

/-- The first of two durations is beyond the bucket of an hour and within the last one, and the
second is beyond that. -/
def Overshoots (nanos nanos' : Nat) : Prop :=
  Histogram.afterHour ≤ nanos ∧ nanos < Histogram.limit ∧ Histogram.limit ≤ nanos'

/-- What becomes of the report when one completed task takes longer. -/
structure Raising (start : Nat) (before after : List Entry) (r : CompletionRecord)
    (actual : Float) : Prop where
  /-- The shorter duration can be held as well, and it has no more nanoseconds. -/
  fits : ∃ nanos nanos', Number.nanosOfSeconds? r.actual = some nanos ∧
    Number.nanosOfSeconds? actual = some nanos' ∧ nanos ≤ nanos'
  /-- No statistic gets lower, unless the durations overshoot the histogram. -/
  kept : ∀ nanos nanos' now, Number.nanosOfSeconds? r.actual = some nanos →
    Number.nanosOfSeconds? actual = some nanos' → ¬ Overshoots nanos nanos' →
    ((told start (before ++ .completed r :: after)).snapshot now).NotAbove
      ((told start (before ++ .completed { r with actual } :: after)).snapshot now)
  /-- If they do, no statistic gets higher. -/
  lowered : ∀ nanos nanos' now, Number.nanosOfSeconds? r.actual = some nanos →
    Number.nanosOfSeconds? actual = some nanos' → Overshoots nanos nanos' →
    ((told start (before ++ .completed { r with actual } :: after)).snapshot now).NotAbove
      ((told start (before ++ .completed r :: after)).snapshot now)

section

variable {start : Nat} {entries entries' : List Entry} {r : CompletionRecord} {nanos nanos' : Nat}

theorem nanoseconds_append (entries entries' : List Entry) :
    nanoseconds (entries ++ entries') = nanoseconds entries ++ nanoseconds entries' := by
  simp [nanoseconds, timed, completions]

theorem nanoseconds_cons (h : Number.nanosOfSeconds? r.actual = some nanos)
    (entries : List Entry) :
    nanoseconds (.completed r :: entries) = min nanos longestNanos :: nanoseconds entries := by
  have hone := (concat_timed [] r CompletionRecord.online h).1
  rw [← List.singleton_append, nanoseconds_append]
  exact congrArg (· ++ nanoseconds entries) hone

/-- What counts since everything began anew is the same around an entry, whatever it is, or it
is not among it. -/
theorem sinceReset_around (before after : List Entry) :
    (∃ rest, ∀ e : Entry, e.moment? = none → sinceReset (before ++ e :: after) = rest) ∨
      ∀ e : Entry, e.moment? = none →
        sinceReset (before ++ e :: after) = sinceReset before ++ e :: after := by
  induction after using List.reverseRecOn with
  | nil =>
      refine .inr fun e he => ?_
      rw [sinceReset_concat, he]
      rfl
  | append_singleton after last ih =>
      have hconcat : ∀ e : Entry, sinceReset (before ++ e :: (after ++ [last])) =
          if last.moment?.isSome then [] else sinceReset (before ++ e :: after) ++ [last] := by
        intro e
        rw [← sinceReset_concat]
        simp
      by_cases hreset : last.moment?.isSome = true
      · refine .inl ⟨[], fun e _ => ?_⟩
        rw [hconcat, if_pos hreset]
      · rcases ih with ⟨rest, hrest⟩ | haround
        · refine .inl ⟨rest ++ [last], fun e he => ?_⟩
          rw [hconcat, if_neg hreset, hrest e he]
        · refine .inr fun e he => ?_
          rw [hconcat, if_neg hreset, haround e he]
          simp

/-- The statistics follow the durations since everything began anew. -/
theorem notAbove_of_raised
    (h : Histogram.Raised (nanoseconds (sinceReset entries)) (nanoseconds (sinceReset entries')))
    (now : Nat) :
    ((told start entries).snapshot now).NotAbove ((told start entries').snapshot now) := by
  rw [snapshot_of_tallied (tallied_told start entries),
    snapshot_of_tallied (tallied_told start entries')]
  exact ⟨h.quantile_le _, h.quantile_le _, h.quantile_le _, h.highest_le⟩

/-- One duration that is counted at a higher place raises all. -/
theorem raised_around {r' : CompletionRecord} (before after : List Entry)
    (hnanos : Number.nanosOfSeconds? r.actual = some nanos)
    (hnanos' : Number.nanosOfSeconds? r'.actual = some nanos')
    (hplace : Histogram.placeOf (min nanos longestNanos) ≤
      Histogram.placeOf (min nanos' longestNanos)) :
    Histogram.Raised (nanoseconds (sinceReset (before ++ .completed r :: after)))
      (nanoseconds (sinceReset (before ++ .completed r' :: after))) := by
  rcases sinceReset_around before after with ⟨rest, hrest⟩ | haround
  · rw [hrest _ rfl, hrest _ rfl]
    exact ⟨rfl, fun _ => Nat.le_refl _⟩
  · rw [haround _ rfl, haround _ rfl, nanoseconds_append, nanoseconds_append,
      nanoseconds_cons hnanos, nanoseconds_cons hnanos']
    exact Histogram.raised_replace _ _ hplace

theorem placeOf_min_lt_iff (h : nanos ≤ nanos') :
    Histogram.placeOf (min nanos' longestNanos) < Histogram.placeOf (min nanos longestNanos) ↔
      Overshoots nanos nanos' := by
  have hlongest : Histogram.limit ≤ longestNanos := by decide
  rw [Histogram.placeOf_lt_iff (by omega), Overshoots]
  omega

/-- A task that took longer raises the statistics or leaves them as they are, unless its
duration overshoots the histogram. Then it lowers them or leaves them as they are. -/
theorem raised_duration (start : Nat) (before after : List Entry) {actual : Float}
    (hle : Scalar.atMost r.actual actual = true)
    (hfits : (Number.nanosOfSeconds? actual).isSome = true) :
    Raising start before after r actual := by
  obtain ⟨nanos', hnanos'⟩ := Option.isSome_iff_exists.1 hfits
  obtain ⟨nanos, hmore, hnanos⟩ := Number.nanosOfSeconds?_mono hle hnanos'
  refine ⟨⟨nanos, nanos', hnanos, hnanos', hmore⟩, ?_, ?_⟩
  · intro n n' now hn hn' hkept
    obtain rfl : nanos = n := Option.some.inj (hnanos.symm.trans hn)
    obtain rfl : nanos' = n' := Option.some.inj (hnanos'.symm.trans hn')
    rw [← placeOf_min_lt_iff hmore, Nat.not_lt] at hkept
    exact notAbove_of_raised (raised_around before after hnanos hnanos' hkept) now
  · intro n n' now hn hn' hlowered
    obtain rfl : nanos = n := Option.some.inj (hnanos.symm.trans hn)
    obtain rfl : nanos' = n' := Option.some.inj (hnanos'.symm.trans hn')
    rw [← placeOf_min_lt_iff hmore] at hlowered
    exact notAbove_of_raised (raised_around before after hnanos' hnanos (Nat.le_of_lt hlowered)) now

end

/-- A task that took so many seconds. -/
def taking (actual : Float) : CompletionRecord where
  taskId := 0
  configuration := "cfg"
  kernel := "k"
  work := 1.0
  online := none
  offline := 0.5
  hybrid := 0.5
  actual := actual

theorem raised_duration_from_half :
    Scalar.atMost (taking 0.5).actual 2.5 = true ∧
    (Number.nanosOfSeconds? 2.5).isSome = true ∧
    Raising 0 [.reset 7, .completed (taking 1.0)] [.dropped 1, .completed (taking 3.0)]
      (taking 0.5) 2.5 :=
  ⟨by decide +kernel, by decide +kernel, raised_duration 0 _ _ (by decide +kernel) (by decide +kernel)⟩

/-- The report after one task that took so many seconds. -/
def reportOf (actual : Float) : Snapshot := (told 0 [.completed (taking actual)]).snapshot 0

/-- A task that takes 5000 seconds in place of 4000 lowers all statistics. -/
theorem lowered_by_raising :
    Scalar.less (taking 4000.0).actual 5000.0 = true ∧
    (Number.nanosOfSeconds? 5000.0).isSome = true ∧
    (reportOf 5000.0).p50Duration < (reportOf 4000.0).p50Duration ∧
    (reportOf 5000.0).p95Duration < (reportOf 4000.0).p95Duration ∧
    (reportOf 5000.0).p99Duration < (reportOf 4000.0).p99Duration ∧
    (reportOf 5000.0).maxDuration < (reportOf 4000.0).maxDuration := by
  decide +kernel

end KernelDispatch.Metrics
