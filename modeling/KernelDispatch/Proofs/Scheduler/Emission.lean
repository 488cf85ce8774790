import KernelDispatch.Proofs.Scheduler.Operations

/-!
# Records and observers

A step of a worker that completes a task makes its record and hands it to its audience, and
nothing else does. So what observers have kept of a course, in memory and in files, is what
they were told of its records, one record after the other. A reset takes nothing away of it.

## Main definitions

* `Blueprint.everyone` — the observers of a scheduler.
* `records` — the records of a course.
* `Informed` — what observers have of them.

## Main results

* `Books.informed_conclude` — one completed task.
* `Informed.play`, `Informed.ofBlueprint` — one move, and every course.
-/

namespace KernelDispatch

/-- The observers of an assembled scheduler: those it is given, and then those that its settings
ask for. -/
def Blueprint.everyone (p : Blueprint) : List Observer := p.observers ++ settingsObservers p.settings

/-- The record of a completed task is told to the observers, and nothing else is. -/
theorem Books.informed_conclude (b : Books) (t : Task) :
    (b.conclude t).2.observers = b.observers ∧
      (b.conclude t).2.collected = b.collected ++
        (tellings b.observers (b.conclude t).1.toList).filterMap Telling.kept? ∧
      (b.conclude t).2.directory =
        (tellings b.observers (b.conclude t).1.toList).foldl Telling.write b.directory := by
  unfold conclude
  split
  · rename_i configuration nanos _ _
    dsimp only
    rw [enter_eq]
    exact ⟨rfl, rfl, rfl⟩
  · exact ⟨rfl, (List.append_nil _).symm, rfl⟩

namespace Scheduler

variable {c : Course} {m : Move}

/-! ## Records -/

/-- The record of a completed task. -/
def Event.record? : Event → Option CompletionRecord
  | .worked _ _ record => record
  | _ => none

/-- The records that were made, oldest first. Each was handed to its `audience` and to nobody
else, as `Informed` has it. -/
def records (past : List Event) : List CompletionRecord := past.filterMap Event.record?

@[simp] theorem records_snoc (past : List Event) (e : Event) :
    records (past ++ [e]) = records past ++ e.record?.toList := by
  cases h : e.record? <;> simp [records, h]

/-- Only a step of a worker makes a record. -/
theorem records_play (c : Course) (hwork : ∀ kernel, m ≠ .work kernel) :
    records (c.play m).past = records c.past := by
  cases m with
  | addConfiguration name => rfl
  | insertConfiguration name image => rfl
  | setConfiguration name =>
      simp only [Course.play]
      split <;> rfl
  | addTask task =>
      simp only [Course.play]
      split
      · unfold Course.offer
        split <;> simp [Event.record?]
      · rfl
  | wait visit =>
      simp only [Course.play]
      split
      · simp [Course.collected, Event.record?]
      · rfl
  | finish visit =>
      simp only [Course.play]
      split
      · simp [Course.collected, Event.record?]
      · rfl
  | reset =>
      simp only [Course.play]
      split <;> rfl
  | cancel kernel =>
      simp only [Course.play]
      split <;> rfl
  | clear =>
      rcases play_clear_cases c with hplay | ⟨finish, -, -, hplay⟩
      · rw [hplay]
      · rw [hplay]
        simp [Event.record?]
  | work kernel => exact absurd rfl (hwork kernel)
  | hold on => rfl
  | release kernel => rfl
  | failKernel entryPoint => rfl
  | refuseQueues on => rfl
  | resetMetrics => rfl

/-! ## What observers have -/

/-- Observers have what they were told of the records, and they are who they were at the
start. -/
structure Informed (observers : List Observer) (directory : Directory) (c : Course) : Prop where
  same : c.scheduler.books.observers = observers
  collected : c.scheduler.books.collected =
    (tellings observers (records c.past)).filterMap Telling.kept?
  written : c.scheduler.books.directory =
    (tellings observers (records c.past)).foldl Telling.write directory

namespace Informed

variable {observers : List Observer} {directory : Directory}

/-- Where no task is completed, observers are told of nothing. -/
theorem of_quiet {c' : Course} (h : Informed observers directory c)
    (hobservers : c'.scheduler.books.observers = c.scheduler.books.observers)
    (hcollected : c'.scheduler.books.collected = c.scheduler.books.collected)
    (hdirectory : c'.scheduler.books.directory = c.scheduler.books.directory)
    (hrecords : records c'.past = records c.past) : Informed observers directory c' := by
  refine ⟨hobservers.trans h.same, ?_, ?_⟩
  · rw [hcollected, hrecords, h.collected]
  · rw [hdirectory, hrecords, h.written]

theorem play (h : Informed observers directory c) (m : Move) :
    Informed observers directory (c.play m) := by
  have hother : (∀ kernel, m ≠ .work kernel) → m ≠ .clear →
      Informed observers directory (c.play m) := by
    intro hwork hclear
    have hquiet := quiet_play c hwork hclear
    exact h.of_quiet hquiet.observers hquiet.collected hquiet.directory (records_play c hwork)
  cases m with
  | work kernel =>
      rcases play_work_cases c kernel with hplay | ⟨queue, next, board, done, hqueue, hstep⟩
      · rwa [hplay]
      · rw [play_work hqueue hstep]
        cases done with
        | none => exact h.of_quiet rfl rfl rfl (by simp [Event.record?])
        | some t =>
            obtain ⟨hobservers, hcollected, hdirectory⟩ :=
              c.scheduler.books.informed_conclude t
            rw [h.same] at hobservers hcollected hdirectory
            refine ⟨hobservers, ?_, ?_⟩
            · refine hcollected.trans ?_
              simp only [h.collected, records_snoc, Event.record?, Option.bind_some,
                tellings_append, List.filterMap_append]
            · refine hdirectory.trans ?_
              simp only [h.written, records_snoc, Event.record?, Option.bind_some,
                tellings_append, List.foldl_append]
  | clear =>
      have hrecords := records_play c (m := .clear) (by simp)
      rcases play_clear_cases c with hplay | ⟨finish, -, -, hplay⟩
      · rwa [hplay]
      · rw [hplay] at hrecords ⊢
        exact h.of_quiet rfl rfl rfl hrecords
  | _ => exact hother (by simp) (by simp)

theorem run (h : Informed observers directory c) (moves : List Move) :
    Informed observers directory (c.run moves) := by
  induction moves generalizing c with
  | nil => exact h
  | cons m moves ih => exact ih (h.play m)

theorem ofBlueprint (p : Blueprint) (device : Device) (directory : Directory)
    (moves : List Move) :
    Informed p.everyone directory (.ofBlueprint p device directory moves) := by
  have hstart : Informed p.everyone directory { scheduler := p.assemble device directory } :=
    ⟨rfl, rfl, rfl⟩
  exact hstart.run moves

end Informed

end Scheduler

end KernelDispatch
