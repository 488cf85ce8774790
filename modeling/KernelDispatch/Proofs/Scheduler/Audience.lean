import KernelDispatch.Scheduler.Books

/-!
# Who is told of a record

Observers are told of a record in turn, up to the first that gives up on it. A record whose
duration is too long for a span of time is told to none of them, since its account breaks off
before the first has had its turn.

All that comes of a record in the books is therefore known from those who were told of it: some
keep it in memory, and some write a line of it. The models, and who the observers are, do not
depend on it.

## Main definitions

* `CompletionRecord.audience` — who is told of a record.
* `tellings` — who was told of which of some records, in order.
* `Books.heard` — what is left of what observers were told.

## Main results

* `Books.notify_eq`, `Books.enter_eq` — the books after a record.
* `CompletionRecord.told_iff` — the place of an observer decides whether it is told.
* `kept_tellings` — one who keeps records has them all if nobody gives up before it.
-/

namespace KernelDispatch

/-- Whether an observer gives up on a record. -/
def Observer.givesUp (o : Observer) (r : CompletionRecord) : Bool :=
  match o with
  | .panicsOn ids => ids.contains r.taskId
  | _ => false

namespace CompletionRecord

/-- Those of some observers that a record gets to: all up to the first that gives up on it. -/
def reach (r : CompletionRecord) : List Observer → List Observer
  | [] => []
  | o :: rest => o :: if o.givesUp r then [] else r.reach rest

/-- Whether the duration of a record is a span of time. -/
def hasSpan (r : CompletionRecord) : Bool := (Number.nanosOfSeconds? r.actual).isSome

/-- Those of some observers that are told of a record. -/
def audience (r : CompletionRecord) (observers : List Observer) : List Observer :=
  if r.hasSpan then r.reach observers else []

end CompletionRecord

/-- That an observer was told of a record. -/
structure Telling where
  observer : Observer
  record : CompletionRecord

namespace Telling

/-- The record, if the observer keeps it in memory. -/
def kept? (t : Telling) : Option CompletionRecord :=
  match t.observer with
  | .collects => some t.record
  | _ => none

/-- The directory with the line of the record, if the observer writes one. -/
def write (d : Directory) (t : Telling) : Directory :=
  match t.observer with
  | .logs path => MeasurementLog.append d path t.record
  | _ => d

end Telling

/-- Who is told of these records, one record after the other. -/
def tellings (observers : List Observer) (records : List CompletionRecord) : List Telling :=
  records.flatMap fun r => (r.audience observers).map fun o => ⟨o, r⟩

/-- The books with what is left of what observers were told. -/
def Books.heard (b : Books) (told : List Telling) : Books :=
  { b with
    collected := b.collected ++ told.filterMap Telling.kept?
    directory := told.foldl Telling.write b.directory }

/-! ## The books after a record -/

namespace Books

variable (b : Books) (r : CompletionRecord)

@[simp] theorem heard_nil : b.heard [] = b := by simp [heard]

theorem heard_append (told more : List Telling) :
    b.heard (told ++ more) = (b.heard told).heard more := by simp [heard]

/-- One that keeps nothing and writes nothing leaves the books as they are. -/
theorem heard_silent {t : Telling} (hkept : t.kept? = none)
    (hwrite : t.write b.directory = b.directory) : b.heard [t] = b := by
  simp [heard, hkept, hwrite]

/-- One observer is told, and the others after it unless it gives up. -/
theorem notify_cons (o : Observer) (rest : List Observer) :
    b.notify r (o :: rest) =
      if o.givesUp r then b.heard [⟨o, r⟩] else (b.heard [⟨o, r⟩]).notify r rest := by
  cases o with
  | collects => rfl
  | panicsOn ids =>
      have hsilent : b.heard [⟨.panicsOn ids, r⟩] = b := b.heard_silent rfl rfl
      rw [hsilent]
      rfl
  | announces =>
      have hsilent : b.heard [⟨.announces, r⟩] = b := b.heard_silent rfl rfl
      rw [hsilent]
      rfl
  | logs path =>
      have hwrites : b.heard [⟨.logs path, r⟩] =
          { b with directory := MeasurementLog.append b.directory path r } := by
        simp [heard, List.filterMap_cons, Telling.kept?, Telling.write]
      rw [hwrites]
      rfl

/-- Telling observers of a record is telling those whom it gets to. -/
theorem notify_eq (observers : List Observer) :
    b.notify r observers = b.heard ((r.reach observers).map fun o => ⟨o, r⟩) := by
  induction observers generalizing b with
  | nil => exact (heard_nil b).symm
  | cons o rest ih =>
      rw [notify_cons, CompletionRecord.reach, List.map_cons]
      by_cases hgives : o.givesUp r = true
      · rw [if_pos hgives, if_pos hgives, List.map_nil]
      · rw [if_neg hgives, if_neg hgives, ih, ← heard_append, List.singleton_append]

/-- A record is accounted for, and those who are to be told of it are told. -/
theorem enter_eq : b.enter r =
    { b with metrics := (b.metrics.recordCompletion r).1 }.heard (tellings b.observers [r]) := by
  have hspan : (b.metrics.recordCompletion r).2 = r.hasSpan := Metrics.snd_recordCompletion _ r
  have htold : tellings b.observers [r] = (r.audience b.observers).map fun o => ⟨o, r⟩ :=
    List.flatMap_singleton _ _
  unfold enter
  rw [htold, CompletionRecord.audience, ← hspan]
  split
  · rename_i metrics hmetrics
    rw [hmetrics, if_pos rfl]
    exact notify_eq _ r b.observers
  · rename_i metrics hmetrics
    rw [hmetrics, if_neg (by simp), List.map_nil, heard_nil]

end Books

/-! ## Whose turn comes -/

theorem tellings_append (observers : List Observer) (records more : List CompletionRecord) :
    tellings observers (records ++ more) = tellings observers records ++ tellings observers more :=
  List.flatMap_append

namespace CompletionRecord

variable {r : CompletionRecord}

/-- A record gets past observers that do not give up on it. -/
theorem reach_append {observers : List Observer} (h : ∀ o ∈ observers, o.givesUp r = false)
    (rest : List Observer) : r.reach (observers ++ rest) = observers ++ r.reach rest := by
  induction observers with
  | nil => rfl
  | cons o observers ih =>
      have hgoes : ¬ o.givesUp r = true := by simp [h o List.mem_cons_self]
      rw [List.cons_append, reach, if_neg hgoes, List.cons_append,
        ih fun o ho => h o (List.mem_cons_of_mem _ ho)]

/-- And it gets no further than to the first that gives up on it. -/
theorem reach_prefix (r : CompletionRecord) (observers : List Observer) :
    r.reach observers <+: observers := by
  induction observers with
  | nil => exact List.prefix_rfl
  | cons o rest ih =>
      rw [reach, List.cons_prefix_cons]
      split
      · exact ⟨rfl, List.nil_prefix⟩
      · exact ⟨rfl, ih⟩

theorem audience_subset (r : CompletionRecord) (observers : List Observer) :
    r.audience observers ⊆ observers := by
  unfold audience
  split
  · exact (r.reach_prefix observers).subset
  · exact List.nil_subset _

theorem length_reach_le {observers : List Observer} {o : Observer} (rest : List Observer)
    (ho : o ∈ observers) (hgives : o.givesUp r = true) :
    (r.reach (observers ++ rest)).length ≤ observers.length := by
  induction observers with
  | nil => simp at ho
  | cons first observers ih =>
      rw [List.cons_append, reach, List.length_cons, List.length_cons]
      split
      · simp
      · rename_i hgoes
        rcases List.mem_cons.1 ho with rfl | ho
        · exact absurd hgives hgoes
        · exact Nat.succ_le_succ (ih ho)

/-- The observer at a place is told of a record if nobody before it gives up on it, and the
duration is a span of time. -/
theorem told_iff (r : CompletionRecord) (before : List Observer) (o : Observer)
    (rest : List Observer) :
    before.length < (r.audience (before ++ o :: rest)).length ↔
      r.hasSpan = true ∧ ∀ earlier ∈ before, earlier.givesUp r = false := by
  unfold audience
  split
  · rename_i hspan
    constructor
    · intro hlong
      refine ⟨hspan, fun earlier hearlier => Bool.eq_false_iff.2 fun hgives => ?_⟩
      exact absurd (length_reach_le _ hearlier hgives) (Nat.not_le.2 hlong)
    · rintro ⟨-, hgoes⟩
      rw [reach_append hgoes, reach]
      simp
  · rename_i hspan
    simp [hspan]

end CompletionRecord

theorem observer_mem_of_mem_tellings {observers : List Observer} {records : List CompletionRecord}
    {t : Telling} (ht : t ∈ tellings observers records) : t.observer ∈ observers := by
  obtain ⟨r, -, hr⟩ := List.mem_flatMap.1 ht
  obtain ⟨o, ho, rfl⟩ := List.mem_map.1 hr
  exact r.audience_subset observers ho

/-- An observer that keeps records in memory has all of them, if no other does so and nobody
before it gives up on one. -/
theorem kept_tellings {before rest : List Observer} {records : List CompletionRecord}
    (hbefore : .collects ∉ before) (hrest : .collects ∉ rest)
    (htold : ∀ r ∈ records, r.hasSpan = true ∧ ∀ o ∈ before, o.givesUp r = false) :
    (tellings (before ++ .collects :: rest) records).filterMap Telling.kept? = records := by
  have hnone : ∀ (r : CompletionRecord) {observers : List Observer}, .collects ∉ observers →
      (observers.map fun o => (⟨o, r⟩ : Telling)).filterMap Telling.kept? = [] := by
    intro r observers hnot
    rw [List.filterMap_eq_nil_iff]
    intro t ht
    obtain ⟨o, ho, rfl⟩ := List.mem_map.1 ht
    cases o with
    | collects => exact absurd ho hnot
    | panicsOn ids => rfl
    | announces => rfl
    | logs path => rfl
  induction records with
  | nil => rfl
  | cons r records ih =>
      obtain ⟨hspan, hgoes⟩ := htold r List.mem_cons_self
      have haudience : r.audience (before ++ .collects :: rest) =
          before ++ .collects :: r.reach rest := by
        rw [CompletionRecord.audience, if_pos hspan, CompletionRecord.reach_append hgoes]
        rfl
      have hlater : .collects ∉ r.reach rest := fun h =>
        hrest ((r.reach_prefix rest).subset h)
      rw [tellings, List.flatMap_cons, ← tellings, List.filterMap_append,
        ih fun r hr => htold r (List.mem_cons_of_mem _ hr), haudience, List.map_append,
        List.map_cons, List.filterMap_append, hnone r hbefore, List.nil_append,
        List.filterMap_cons]
      simp only [Telling.kept?, hnone r hlater, List.singleton_append]

end KernelDispatch
