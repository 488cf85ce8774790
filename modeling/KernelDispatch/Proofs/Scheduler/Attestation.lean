import KernelDispatch.Proofs.Queue.Trace
import KernelDispatch.Proofs.Scheduler.Numbering

/-!
# The device bears out the records

What a task has cost is written down twice. The device keeps an execution for each
launch that has run, and the scheduler keeps a record for each task that was completed.
Neither looks at what the other has written. Each queue has a number on the device that
no other queue has had, so the executions with a number are those of one queue, and they
can be laid beside the records of the tasks that this queue has completed. They agree
one by one and in order, and the time in a record is that of the execution, whatever the
task has waited for before.

One execution may be left over. It is that of a launch in flight, or of a launch that
has run and was then reported as something other than a success. In that case the queue
has stopped, and nothing follows.

## Main definitions

* `Course.history` — what is seen of one queue of the device.
* `Apart` — that each queue has a number of its own.
* `Attests` — an execution and the record of the same task.
* `Owed`, `Leftover` — the execution that may be left over, as it is carried from move to
  move and as it is found in the end.

## Main results

* `follows_play` — what a move makes of a queue and of its number.
* `Attested.play` — one move.
* `Course.attested` — what follows for every course.
-/

namespace KernelDispatch.Scheduler

variable {c c' : Course} {m : Move} {kernel : String} {q q' : ExecutionQueue} {number : Nat}
  {events : List Event} {p : Blueprint} {before : Device}

/-! ## One queue of the device -/

/-- The task that was completed in an event, and its record. -/
def Event.completion? : Event → Option (Task × CompletionRecord)
  | .worked _ (.reports task) (some record) => some (task, record)
  | _ => none

/-- The completed tasks with their records, oldest first. -/
def completions (past : List Event) : List (Task × CompletionRecord) :=
  past.filterMap Event.completion?

theorem completions_snoc (past : List Event) (e : Event) :
    completions (past ++ [e]) = completions past ++ e.completion?.toList := by
  cases h : e.completion? <;> simp [completions, h]

/-- Each completed task has its record. -/
structure Accounted (events : List Event) : Prop where
  tasks : met .reported events = (completions events).map Prod.fst
  records : records events = (completions events).map Prod.snd

/-- A step of a worker leaves a record exactly if it completes a task. -/
theorem Accounted.snoc (h : Accounted events) (kernel : String) {d : ExecutionQueue.Deed}
    {done : Option Task} (hdone : done = d.reported?) (record : Option CompletionRecord)
    (hrecord : record.isSome = done.isSome) :
    Accounted (events ++ [.worked kernel d record]) ∧
      completions (events ++ [.worked kernel d record]) =
        completions events ++ (done.bind fun t => record.map fun r => (t, r)).toList := by
  have hcompletion : (Event.worked kernel d record).completion? =
      done.bind fun t => record.map fun r => (t, r) := by
    rw [hdone]
    cases d <;> cases record <;> rfl
  have htasks : (Event.worked kernel d record).tasks .reported = done.toList := by
    rw [hdone]
    exact ExecutionQueue.tasks_reported d
  have hcompletions := completions_snoc events (.worked kernel d record)
  rw [hcompletion] at hcompletions
  refine ⟨⟨?_, ?_⟩, hcompletions⟩
  · rw [met_snoc, hcompletions, htasks, h.tasks, List.map_append]
    cases done <;> cases record <;> simp at hrecord ⊢
  · rw [records_snoc, hcompletions, h.records, List.map_append]
    cases done <;> cases record <;> simp [Event.record?] at hrecord ⊢

namespace Course

/-- What is seen of the queue with a number on the device by a move. It is seen when its
worker takes a step. -/
def newsOf (number : Nat) (c : Course) : Move → List Event
  | .work kernel =>
      if (c.scheduler.queues.get? kernel).map ExecutionQueue.deviceQueue = some number then
        (c.play (.work kernel)).past.drop c.past.length
      else []
  | _ => []

/-- What is seen of it by these moves. -/
def history (number : Nat) (c : Course) : List Move → List Event
  | [] => []
  | m :: moves => c.newsOf number m ++ (c.play m).history number moves

end Course

theorem newsOf_work {board : Board} {done : Option Task}
    (hqueue : c.scheduler.queues.get? kernel = some q)
    (hstep : q.step c.scheduler.board = some (board, q', done)) (number : Nat) :
    c.newsOf number (.work kernel) =
      if q.deviceQueue = number then
        [.worked kernel (q.deed q') (done.bind fun t => (c.scheduler.books.conclude t).1)]
      else [] := by
  simp [Course.newsOf, hqueue, play_work hqueue hstep]

/-! ## What a move makes of a queue -/

/-- Where a queue comes from that a kernel has after a move. -/
inductive Follows (c : Course) (m : Move) (c' : Course) (kernel : String)
    (q' : ExecutionQueue) : Prop where
  | kept {q : ExecutionQueue} (hqueue : c.scheduler.queues.get? kernel = some q)
      (hnumber : q'.deviceQueue = q.deviceQueue) (hfault : q'.fault = q.fault)
      (hawaits : ∀ extra, q.Awaits extra → q'.Awaits extra)
  /-- It is new, and has the next number on the device. -/
  | opened {task : Task} (hm : m = .addTask task) (hkernel : kernel = task.kernel)
      (hnone : c.scheduler.queues.get? kernel = none)
      (hnumber : q'.deviceQueue = c.scheduler.board.device.queuesCreated)
      (hmade : c'.scheduler.board.device.queuesCreated =
        c.scheduler.board.device.queuesCreated + 1)
      (hfault : q'.fault = none) (hawaits : q'.Awaits [])
  | worked {q : ExecutionQueue} {board : Board} {done : Option Task} (hm : m = .work kernel)
      (hqueue : c.scheduler.queues.get? kernel = some q)
      (hstep : q.step c.scheduler.board = some (board, q', done))
      (hnumber : q'.deviceQueue = q.deviceQueue)

theorem Follows.refl (hqueue : c.scheduler.queues.get? kernel = some q') :
    Follows c m c' kernel q' := .kept hqueue rfl rfl fun _ => id

theorem follows_offer {t : Task} (h : Stirs c (.addTask t) c')
    (hqueue' : c'.scheduler.queues.get? kernel = some q') :
    Follows c (.addTask t) c' kernel q' := by
  cases h with
  | declines => exact .refl hqueue'
  | refuses => exact .refl hqueue'
  | starves => exact .refl hqueue'
  | @accepts _ program queue next _ hqueue hnext =>
      dsimp only [seated] at hqueue'
      rw [NameMap.get?_insert] at hqueue'
      split at hqueue'
      · rename_i hkernel
        obtain rfl := Option.some.inj hqueue'
        obtain ⟨-, -, rfl⟩ := ExecutionQueue.WellFormed.not_closed_of_enqueue hnext
        subst hkernel
        exact .kept hqueue rfl rfl fun _ => id
      · exact .refl hqueue'
  | @opens _ program _ hnone =>
      dsimp only [seated] at hqueue'
      rw [NameMap.get?_insert] at hqueue'
      split at hqueue'
      · rename_i hkernel
        obtain rfl := Option.some.inj hqueue'
        subst hkernel
        refine .opened rfl rfl hnone rfl ?_ rfl rfl
        simp [seated, withQueue, Device.queuesCreated]
      · exact .refl hqueue'

/-- A queue that a kernel has after a move is the one it had, or a new one for an
offered task. -/
theorem follows_play (hsound : Sound c)
    (hqueue' : (c.play m).scheduler.queues.get? kernel = some q') :
    Follows c m (c.play m) kernel q' := by
  by_cases hoffer : ∃ t, m = .addTask t
  · obtain ⟨t, rfl⟩ := hoffer
    by_cases hserves : c.serves = true
    · exact follows_offer (stirs_of_play hserves rfl) hqueue'
    · have hplay : c.play (.addTask t) = c := if_neg hserves
      rw [hplay] at hqueue'
      exact .refl hqueue'
  · cases becomes_play hqueue' with
    | kept hqueue => exact .refl hqueue
    | bound hqueue hnext =>
        rw [hnext]
        exact .kept hqueue rfl rfl fun _ => id
    | discards hqueue hnext =>
        rw [hnext]
        exact .kept hqueue rfl rfl fun _ => id
    | released hqueue hnext =>
        rw [hnext]
        exact .kept hqueue (ExecutionQueue.deviceQueue_release _) (ExecutionQueue.fault_release _)
          fun _ h => h.release
    | offered hm => exact absurd ⟨_, hm⟩ hoffer
    | worked hm hqueue hstep =>
        exact .worked hm hqueue hstep
          (ExecutionQueue.deviceQueue_of_turn (hsound.turn hqueue hstep).1)

/-- A queue that no fault has stopped is there until everything is cleared away. -/
theorem exists_of_play (hclear : m ≠ .clear) (hqueue : c.scheduler.queues.get? kernel = some q)
    (hfault : q.fault = none) : ∃ q', (c.play m).scheduler.queues.get? kernel = some q' := by
  have hchange : ∀ {c'}, Change c m c' → ∃ q', c'.scheduler.queues.get? kernel = some q' := by
    intro c' hchange
    cases hchange with
    | tends f hqueues => exact ⟨_, by rw [hqueues, NameMap.get?_mapWithName, hqueue]; rfl⟩
    | accepts _ _ _ hqueues =>
        rw [hqueues, NameMap.get?_insert]
        split
        · exact ⟨_, rfl⟩
        · exact ⟨q, hqueue⟩
    | refuses _ hqueues => exact ⟨q, by rw [hqueues, hqueue]⟩
    | works =>
        dsimp only [entered]
        rw [NameMap.get?_insert]
        split
        · exact ⟨_, rfl⟩
        · exact ⟨q, hqueue⟩
    | collects hready =>
        have hvisit := (isReady_iff.1 hready).2.2
        have hremoval := removal_collect c.scheduler (nodup_of_perm_kernels hvisit)
        refine ⟨q, ?_⟩
        show NameMap.get? (collect _ _).2.queues kernel = _
        rw [hremoval.get? hvisit, hqueue]
        simp [Option.filter, hfault]
    | clears _ _ hm => exact absurd hm hclear
  by_cases hm : m = .resetMetrics
  · subst hm
    exact ⟨q, hqueue⟩
  · exact hchange (change_of_play c m hm)

/-! ## What a move does on the device -/

theorem queuesCreated_le_play (c : Course) (m : Move) :
    c.scheduler.board.device.queuesCreated ≤
      (c.play m).scheduler.board.device.queuesCreated := by
  have hhandles := handles_play c m
  generalize (c.play m).scheduler.board = b at hhandles ⊢
  cases hhandles with
  | calm hcalm => exact hcalm.queuesCreated.ge
  | opens => simp [withQueue, Device.queuesCreated]
  | works _ _ hstep => exact (ExecutionQueue.queuesCreated_of_step hstep).ge
  | refuses => exact Nat.le_refl _

/-- Only a worker has anything launched. -/
theorem log_play (hwork : ∀ kernel, m ≠ .work kernel) :
    (c.play m).scheduler.board.device.log = c.scheduler.board.device.log := by
  have hhandles := handles_play c m
  generalize (c.play m).scheduler.board = b at hhandles ⊢
  cases hhandles with
  | calm hcalm => exact hcalm.log
  | opens => rfl
  | works hm => exact absurd hm (hwork _)
  | refuses => rfl

/-- Every program is kept under its own name. -/
theorem titled_play (h : c.scheduler.board.Titled) (m : Move) :
    (c.play m).scheduler.board.Titled := by
  have hhandles := handles_play c m
  generalize (c.play m).scheduler.board = b at hhandles ⊢
  cases hhandles with
  | calm hcalm => exact hcalm.titled h
  | opens => exact h
  | works _ _ hstep => exact (ExecutionQueue.alike_of_step hstep).titled h
  | refuses => exact h

/-! ## Numbers on the device -/

/-- Where the number of a queue comes from that a kernel has after a move. -/
inductive Given (c : Course) (m : Move) (kernel : String) (queue' : ExecutionQueue) : Prop where
  | keeps {queue : ExecutionQueue} (hqueue : c.scheduler.queues.get? kernel = some queue)
      (hnumber : queue'.deviceQueue = queue.deviceQueue)
  /-- The queue is new, and its number is one that no queue has had. -/
  | next {task : Task} (hm : m = .addTask task) (hkernel : kernel = task.kernel)
      (hnone : c.scheduler.queues.get? kernel = none)
      (hnumber : queue'.deviceQueue = c.scheduler.board.device.queuesCreated)
      (hmade : (c.play m).scheduler.board.device.queuesCreated =
        c.scheduler.board.device.queuesCreated + 1)

theorem given_play (hsound : Sound c)
    (hqueue' : (c.play m).scheduler.queues.get? kernel = some q') : Given c m kernel q' := by
  cases follows_play hsound hqueue' with
  | kept hqueue hnumber => exact .keeps hqueue hnumber
  | opened hm hkernel hnone hnumber hmade => exact .next hm hkernel hnone hnumber hmade
  | worked _ hqueue _ hnumber => exact .keeps hqueue hnumber

/-- Each queue has a number on the device that no other queue has had. -/
structure Apart (c : Course) : Prop where
  made : ∀ kernel queue, c.scheduler.queues.get? kernel = some queue →
    queue.deviceQueue < c.scheduler.board.device.queuesCreated
  unique : ∀ kernel kernel' queue queue', c.scheduler.queues.get? kernel = some queue →
    c.scheduler.queues.get? kernel' = some queue' →
    queue.deviceQueue = queue'.deviceQueue → kernel = kernel'
  given : ∀ m kernel queue', (c.play m).scheduler.queues.get? kernel = some queue' →
    Given c m kernel queue'
  grows : ∀ m, c.scheduler.board.device.queuesCreated ≤
    (c.play m).scheduler.board.device.queuesCreated

namespace Apart

theorem play (h : Apart c) (hsound : Sound c) (m : Move) : Apart (c.play m) where
  made kernel queue' hqueue' := by
    have hle := h.grows m
    cases h.given m kernel queue' hqueue' with
    | keeps hqueue hnumber =>
        have hlt := h.made kernel _ hqueue
        omega
    | next _ _ _ hnumber hmade => omega
  unique kernel₁ kernel₂ queue₁' queue₂' hqueue₁' hqueue₂' hsame := by
    cases h.given m kernel₁ queue₁' hqueue₁' with
    | keeps hqueue₁ hnumber₁ =>
        have hlt := h.made kernel₁ _ hqueue₁
        cases h.given m kernel₂ queue₂' hqueue₂' with
        | keeps hqueue₂ hnumber₂ =>
            exact h.unique kernel₁ kernel₂ _ _ hqueue₁ hqueue₂ (by omega)
        | next _ _ _ hnumber₂ => omega
    | next hm₁ hkernel₁ _ hnumber₁ =>
        cases h.given m kernel₂ queue₂' hqueue₂' with
        | keeps hqueue₂ hnumber₂ =>
            have hlt := h.made kernel₂ _ hqueue₂
            omega
        | next hm₂ hkernel₂ =>
            rw [hkernel₁, hkernel₂, Move.addTask.inj (hm₁.symm.trans hm₂)]
  given _ _ _ := given_play (hsound.play m)
  grows := queuesCreated_le_play _

theorem assemble (p : Blueprint) (device : Device) (directory : Directory) :
    Apart { scheduler := p.assemble device directory } where
  made kernel queue hqueue := by simp [get?_assemble] at hqueue
  unique kernel kernel' queue queue' hqueue := by simp [get?_assemble] at hqueue
  given _ _ _ := given_play (.assemble p device directory)
  grows := queuesCreated_le_play _

end Apart

/-- What holds of a course at any moment, as far as launches and records go. -/
structure Regular (p : Blueprint) (c : Course) : Prop where
  steady : Steady c
  titled : c.scheduler.board.Titled
  apart : Apart c
  modelled : Modelled p c

namespace Regular

theorem play (h : Regular p c) (m : Move) : Regular p (c.play m) where
  steady := h.steady.play m
  titled := titled_play h.titled m
  apart := h.apart.play h.steady.sound m
  modelled := by
    by_cases hm : m = .resetMetrics
    · subst hm
      exact ⟨h.modelled.newModel, h.modelled.shape, h.modelled.samples⟩
    · exact h.modelled.change h.steady.sound (change_of_play c m hm)

theorem run (h : Regular p c) (moves : List Move) : Regular p (c.run moves) := by
  induction moves generalizing c with
  | nil => exact h
  | cons m moves ih => exact ih (h.play m)

theorem assemble (p : Blueprint) (device : Device) (directory : Directory) :
    Regular p { scheduler := p.assemble device directory } where
  steady := .ofBlueprint p device directory []
  titled name program hprogram := by
    have hnone : (p.assemble device directory).board.programs.get? name = none := rfl
    simp [hnone] at hprogram
  apart := .assemble p device directory
  modelled := .ofBlueprint p device directory []

end Regular

/-! ## Executions and records -/

/-- An execution, and the record of the same task. -/
structure Attests (p : Blueprint) (e : Execution) (done : Task × CompletionRecord) : Prop where
  runs : e.Runs done.1
  taskId : done.2.taskId = done.1.id.getD 0
  kernel : done.2.kernel = done.1.kernel
  configuration : done.2.configuration = e.program
  work : done.2.work =
    (p.newModel done.2.configuration).operations done.2.kernel e.workItems
  actual : done.2.actual = Number.secondsOfNanos (e.span + done.1.recipe.jitter)

/-- The record of a task is made of what its execution says. -/
theorem attests_of_runs {b : Books} {t : Task} {e : Execution}
    (hshape : ∀ name, (b.model name).clear = p.newModel name) (hruns : e.Runs t)
    (hduration : t.duration = some (e.span + t.recipe.jitter)) :
    ∃ record, (b.conclude t).1 = some record ∧ Attests p e (t, record) := by
  refine ⟨_, Books.conclude_fst hruns.program hduration, hruns, rfl, rfl, rfl, ?_, rfl⟩
  show (CostModel.predict _ t.kernel t.workItems).work = _
  rw [CostModel.work_predict, ← hshape, hruns.workItems]
  rfl

/-- The executions of a queue that no record accounts for. -/
inductive Owed (number : Nat) (events : List Event) (c : Course) (extra : List Execution) :
    Prop where
  | serves {kernel : String} {queue : ExecutionQueue}
      (hqueue : c.scheduler.queues.get? kernel = some queue)
      (hnumber : queue.deviceQueue = number) (hfault : queue.fault = none)
      (hawaits : queue.Awaits extra)
  /-- The queue has stopped or is gone. -/
  | ended
      (hgone : ∀ kernel queue, c.scheduler.queues.get? kernel = some queue →
        queue.deviceQueue = number → queue.fault ≠ none)
      (hspoilt : extra = [] ∨ ∃ kernel t dropped,
        events.getLast? = some (.worked kernel (.faults t dropped) none) ∧ Spoilt t extra)

/-- What a device bears out of the records of one queue, when it was like this before. -/
structure Attested (p : Blueprint) (before : Device) (number : Nat) (events : List Event)
    (c : Course) : Prop where
  /-- Nothing is seen of a queue before it is made. -/
  unmade : c.scheduler.board.device.queuesCreated ≤ number → events = []
  accounted : Accounted events
  log : ∃ done extra,
    c.scheduler.board.device.executionsOf number =
        before.executionsOf number ++ done ++ extra ∧
      List.Forall₂ (Attests p) done (completions events) ∧ Owed number events c extra

/-! ## One move -/

/-- Where no worker moves and nothing is cleared away, the same is owed. -/
theorem Owed.keeps {extra : List Execution} (h : Owed number events c extra) (hsound : Sound c)
    (hwork : ∀ kernel, m ≠ .work kernel) (hclear : m ≠ .clear)
    (hunmade : c.scheduler.board.device.queuesCreated ≤ number → events = []) :
    Owed number events (c.play m) extra := by
  cases h with
  | @serves kernel queue hqueue hnumber hfault hawaits =>
      obtain ⟨q', hq'⟩ := exists_of_play hclear hqueue hfault
      cases follows_play hsound hq' with
      | kept hold hsame hsamefault hsameawaits =>
          obtain rfl := Option.some.inj (hqueue.symm.trans hold)
          exact .serves hq' (hsame.trans hnumber) (hsamefault.trans hfault)
            (hsameawaits _ hawaits)
      | opened _ _ hnone => simp [hnone] at hqueue
      | worked hm => exact absurd hm (hwork _)
  | ended hgone hspoilt =>
      by_cases hserves : ∃ kernel q', (c.play m).scheduler.queues.get? kernel = some q' ∧
          q'.deviceQueue = number ∧ q'.fault = none
      · obtain ⟨kernel, q', hq', hnumber, hfault⟩ := hserves
        cases follows_play hsound hq' with
        | kept hold hsame hsamefault =>
            exact absurd (hsamefault.symm.trans hfault)
              (hgone kernel _ hold (hsame.symm.trans hnumber))
        | opened _ _ _ hnext _ _ hawaits =>
            -- the number was not given to any queue before
            have hevents : events = [] := hunmade (by omega)
            have hextra : extra = [] := by
              rcases hspoilt with hextra | ⟨kernel, t, dropped, hlast, -⟩
              · exact hextra
              · simp [hevents] at hlast
            exact .serves hq' hnumber hfault (hextra ▸ hawaits)
        | worked hm => exact absurd hm (hwork _)
      · refine .ended (fun kernel q' hq' hnumber hfault => ?_) hspoilt
        exact hserves ⟨kernel, q', hq', hnumber, hfault⟩

/-- A queue that no fault has stopped knows what is owed. -/
theorem Owed.awaits {extra : List Execution} (h : Owed q.deviceQueue events c extra)
    (hapart : Apart c) (hqueue : c.scheduler.queues.get? kernel = some q)
    (hfault : q.fault = none) : q.Awaits extra := by
  cases h with
  | @serves kernel₁ queue₁ hqueue₁ hnumber _ hawaits =>
      obtain rfl := hapart.unique kernel₁ kernel queue₁ q hqueue₁ hqueue hnumber
      obtain rfl := Option.some.inj (hqueue.symm.trans hqueue₁)
      exact hawaits
  | ended hgone => exact absurd hfault (hgone kernel q hqueue rfl)

/-- A queue that is cleared away has nothing in flight. -/
theorem Owed.clear {extra : List Execution} (h : Owed number events c extra) (hsound : Sound c)
    (hclosed : c.isClosed = true) {s : Scheduler} {past : List Event} :
    Owed number events ⟨s.clear, .serving, past⟩ extra := by
  refine .ended (fun kernel queue hqueue => by simp [get?_clear] at hqueue) ?_
  cases h with
  | @serves kernel queue hqueue hnumber hfault hawaits =>
      have hfits := (hsound.wellFormed kernel queue hqueue).fits
      rw [isClosed_iff.1 hclosed kernel queue hqueue] at hfits
      unfold ExecutionQueue.Awaits at hawaits
      cases hhand : queue.hand with
      | empty =>
          rw [hhand] at hawaits
          exact .inl hawaits
      | taken => simp [hhand, Hand.Fits] at hfits
      | launched => simp [hhand, Hand.Fits] at hfits
      | reporting => simp [hhand, Hand.Fits] at hfits
  | ended _ hspoilt => exact hspoilt

namespace Attested

/-- A move that is not a step of a worker leaves the log as it is. -/
theorem quiet (h : Attested p before number events c)
    (hle : c.scheduler.board.device.queuesCreated ≤ c'.scheduler.board.device.queuesCreated)
    (hlog : c'.scheduler.board.device.log = c.scheduler.board.device.log)
    (howed : ∀ extra, Owed number events c extra → Owed number events c' extra) :
    Attested p before number events c' where
  unmade hnumber := h.unmade (Nat.le_trans hle hnumber)
  accounted := h.accounted
  log := by
    obtain ⟨done, extra, hexecutions, hdone, hextra⟩ := h.log
    refine ⟨done, extra, ?_, hdone, howed extra hextra⟩
    rw [← hexecutions, Device.executionsOf, Device.executionsOf, hlog]

section Works

variable {board : Board} {done : Option Task} (hregular : Regular p c)
  (hqueue : c.scheduler.queues.get? kernel = some q)
  (hstep : q.step c.scheduler.board = some (board, q', done))

include hregular hqueue hstep

/-- A step of the worker of another queue. -/
theorem works_other (h : Attested p before number events c) (hother : q.deviceQueue ≠ number)
    (past : List Event) :
    Attested p before number events
      { c with scheduler := c.scheduler.entered kernel board q' done, past } := by
  have hsteady := hregular.steady
  have hmade : board.device.queuesCreated = c.scheduler.board.device.queuesCreated :=
    ExecutionQueue.queuesCreated_of_step hstep
  have hnext : q'.deviceQueue = q.deviceQueue :=
    ExecutionQueue.deviceQueue_of_turn (hsteady.sound.turn hqueue hstep).1
  obtain ⟨logged, hlog, hlogged⟩ := ExecutionQueue.log_of_step
    hsteady.coherent.registered.faithful hregular.titled hstep
  obtain ⟨done', extra, hexecutions, hdone, howed⟩ := h.log
  refine ⟨fun hnumber => h.unmade (hmade ▸ hnumber), h.accounted, done', extra, ?_, hdone,
    ?_⟩
  · show board.device.executionsOf number = _
    rw [Device.executionsOf_append hlog hlogged, if_neg hother, List.append_nil, hexecutions]
  · cases howed with
    | @serves kernel₁ queue₁ hqueue₁ hnumber hfault hawaits =>
        have hne : kernel₁ ≠ kernel := by
          rintro rfl
          exact hother (Option.some.inj (hqueue.symm.trans hqueue₁) ▸ hnumber)
        exact .serves ((NameMap.get?_insert_of_ne _ _ hne).trans hqueue₁) hnumber hfault hawaits
    | ended hgone hspoilt =>
        refine .ended (fun kernel₁ queue₁ hqueue₁ hnumber => ?_) hspoilt
        dsimp only [entered] at hqueue₁
        rw [NameMap.get?_insert] at hqueue₁
        split at hqueue₁
        · rw [← Option.some.inj hqueue₁, hnext] at hnumber
          exact absurd hnumber hother
        · exact hgone kernel₁ queue₁ hqueue₁ hnumber

/-- A step of the worker of the queue itself. -/
theorem works_self (h : Attested p before q.deviceQueue events c) (past : List Event) :
    Attested p before q.deviceQueue
      (events ++ [.worked kernel (q.deed q')
        (done.bind fun t => (c.scheduler.books.conclude t).1)])
      { c with scheduler := c.scheduler.entered kernel board q' done, past } := by
  have hsteady := hregular.steady
  have hwell := hsteady.sound.wellFormed kernel q hqueue
  obtain ⟨hturn, hreported⟩ := hsteady.sound.turn hqueue hstep
  have hnext := ExecutionQueue.deviceQueue_of_turn hturn
  have hmade : board.device.queuesCreated = c.scheduler.board.device.queuesCreated :=
    ExecutionQueue.queuesCreated_of_step hstep
  have hlt := hregular.apart.made kernel q hqueue
  obtain ⟨done', extra, hexecutions, hdone, howed⟩ := h.log
  have hawaits := howed.awaits hregular.apart hqueue (ExecutionQueue.fault_of_step hwell hstep)
  obtain ⟨logged, hlog, hlogged, hsettles⟩ := ExecutionQueue.settles_of_step
    hsteady.coherent.registered.faithful hregular.titled hwell hawaits hstep
  have hexecutions' : board.device.executionsOf q.deviceQueue =
      before.executionsOf q.deviceQueue ++ done' ++ extra ++ logged := by
    rw [Device.executionsOf_append hlog hlogged, if_pos rfl, hexecutions]
  have hself := NameMap.get?_insert_self c.scheduler.queues kernel q'
  have hnotunmade : ¬ board.device.queuesCreated ≤ q.deviceQueue := by omega
  cases hsettles with
  | goes hfault hawaits' =>
      rw [Option.bind_none]
      obtain ⟨haccounted, hcompletions⟩ := h.accounted.snoc kernel hreported none rfl
      refine ⟨fun hle => absurd hle hnotunmade, haccounted, done', extra ++ logged, ?_, ?_,
        .serves hself hnext hfault hawaits'⟩
      · show board.device.executionsOf _ = _
        rw [hexecutions', List.append_assoc _ extra]
      · rw [hcompletions]
        simpa using hdone
  | @completes t e hextra hruns hduration hfault hawaits' =>
      obtain ⟨record, hrecord, hattests⟩ := attests_of_runs hregular.modelled.shape hruns hduration
      rw [show ((some t).bind fun t => (c.scheduler.books.conclude t).1) = some record from hrecord]
      obtain ⟨haccounted, hcompletions⟩ := h.accounted.snoc kernel hreported (some record) rfl
      refine ⟨fun hle => absurd hle hnotunmade, haccounted, done' ++ [e], [], ?_, ?_,
        .serves hself hnext hfault hawaits'⟩
      · show board.device.executionsOf _ = _
        rw [hexecutions', hextra]
        simp
      · rw [hcompletions]
        exact List.rel_append hdone (.cons hattests .nil)
  | @stops t hdeed hfault hspoilt =>
      rw [Option.bind_none]
      obtain ⟨haccounted, hcompletions⟩ := h.accounted.snoc kernel hreported none rfl
      refine ⟨fun hle => absurd hle hnotunmade, haccounted, done', extra, ?_, ?_, .ended ?_ ?_⟩
      · show board.device.executionsOf _ = _
        rw [hexecutions', List.append_nil]
      · rw [hcompletions]
        simpa using hdone
      · intro name queue hget hnumber
        dsimp only [entered] at hget
        rw [NameMap.get?_insert] at hget
        split at hget
        · rw [← Option.some.inj hget]
          exact hfault
        · rename_i hne
          exact absurd (hregular.apart.unique name kernel queue q hget hqueue hnumber) hne
      · refine .inr ⟨kernel, t, q.pending, ?_, hspoilt⟩
        rw [List.getLast?_concat, hdeed]

end Works

/-- One move. -/
theorem play (h : Attested p before number events c) (hregular : Regular p c) (m : Move) :
    Attested p before number (events ++ c.newsOf number m) (c.play m) := by
  have hsound := hregular.steady.sound
  have hother : (∀ kernel, m ≠ .work kernel) → m ≠ .clear → c.newsOf number m = [] →
      Attested p before number (events ++ c.newsOf number m) (c.play m) := by
    intro hwork hclear hnews
    rw [hnews, List.append_nil]
    exact h.quiet (queuesCreated_le_play c m) (log_play hwork) fun extra howed =>
      howed.keeps hsound hwork hclear h.unmade
  cases m with
  | work kernel =>
      rcases play_work_cases c kernel with hplay | ⟨queue, next, board, done, hqueue, hstep⟩
      · rw [Course.newsOf, hplay]
        simpa using h
      · rw [newsOf_work hqueue hstep, play_work hqueue hstep]
        split
        · rename_i hnumber
          subst hnumber
          exact h.works_self hregular hqueue hstep _
        · rename_i hnumber
          rw [List.append_nil]
          exact h.works_other hregular hqueue hstep hnumber _
  | clear =>
      rw [show c.newsOf number .clear = [] from rfl, List.append_nil]
      rcases play_clear_cases c with hplay | ⟨finish, -, hclosed, hplay⟩
      · rwa [hplay]
      · rw [hplay]
        exact h.quiet (Nat.le_refl _) rfl fun extra howed => howed.clear hsound hclosed
  | _ => exact hother (by simp) (by simp) rfl

theorem run (h : Attested p before number events c) (hregular : Regular p c)
    (moves : List Move) :
    Attested p before number (events ++ c.history number moves) (c.run moves) := by
  induction moves generalizing c events with
  | nil =>
      rw [Course.history, List.append_nil]
      exact h
  | cons m moves ih =>
      rw [Course.history, ← List.append_assoc]
      exact ih (h.play hregular m) (hregular.play m)

theorem assemble (p : Blueprint) (device : Device) (directory : Directory) (number : Nat) :
    Attested p device number [] { scheduler := p.assemble device directory } where
  unmade _ := rfl
  accounted := ⟨rfl, rfl⟩
  log := by
    refine ⟨[], [], by simp [Blueprint.assemble], .nil, .ended ?_ (.inl rfl)⟩
    intro kernel queue hqueue
    simp [get?_assemble] at hqueue

end Attested

/-! ## What follows -/

/-- The execution of a queue that no record accounts for, if there is one. -/
inductive Leftover (number : Nat) (events : List Event) (c : Course) : List Execution → Prop where
  | none : Leftover number events c []
  /-- Its launch has not been reported yet. -/
  | inFlight {kernel : String} {queue : ExecutionQueue} {t : Task} {notice : Notice}
      {e : Execution} (hqueue : c.scheduler.queues.get? kernel = some queue)
      (hnumber : queue.deviceQueue = number) (hhand : queue.hand = .launched t notice)
      (hruns : e.Runs t) : Leftover number events c [e]
  /-- Its launch was reported as something other than the success it was, and the last
  that was seen of the queue is that it has stopped. -/
  | spoilt {kernel : String} {t : Task} {dropped : List Task} {e : Execution}
      (hlast : events.getLast? = some (.worked kernel (.faults t dropped) Option.none))
      (hruns : e.Runs t) (hreported : t.recipe.reported .complete ≠ .complete) :
      Leftover number events c [e]

theorem Owed.leftover {extra : List Execution} (h : Owed number events c extra) :
    Leftover number events c extra := by
  cases h with
  | @serves kernel queue hqueue hnumber _ hawaits =>
      unfold ExecutionQueue.Awaits at hawaits
      split at hawaits
      · rename_i t notice hhand
        rcases hawaits with ⟨rfl, -⟩ | ⟨e, rfl, hruns, -⟩
        · exact .none
        · exact .inFlight hqueue hnumber hhand hruns
      · exact hawaits ▸ .none
  | ended _ hspoilt =>
      rcases hspoilt with rfl | ⟨kernel, t, dropped, hlast, rfl | ⟨e, rfl, hruns, hreported⟩⟩
      · exact .none
      · exact .none
      · exact .spoilt hlast hruns hreported

/-- The executions with one number are those that the device had before, then those of
the completed tasks, each of which agrees with the record, and then one more at most. -/
structure BorneOut (p : Blueprint) (before : Device) (number : Nat) (events : List Event)
    (c : Course) : Prop where
  accounted : Accounted events
  log : ∃ done extra,
    c.scheduler.board.device.executionsOf number =
        before.executionsOf number ++ done ++ extra ∧
      List.Forall₂ (Attests p) done (completions events) ∧ Leftover number events c extra

theorem Attested.borneOut (h : Attested p before number events c) :
    BorneOut p before number events c := by
  obtain ⟨done, extra, hexecutions, hdone, howed⟩ := h.log
  exact ⟨h.accounted, done, extra, hexecutions, hdone, howed.leftover⟩

namespace Course

/-- The device bears out what was seen of each queue that was ever made. -/
theorem attested (p : Blueprint) (device : Device) (directory : Directory)
    (moves : List Move) :
    Apart (ofBlueprint p device directory moves) ∧
      ∀ number, BorneOut p device number
        ((ofBlueprint p device directory []).history number moves)
        (ofBlueprint p device directory moves) := by
  have hregular := Regular.assemble p device directory
  refine ⟨(hregular.run moves).apart, fun number => ?_⟩
  exact ((Attested.assemble p device directory number).run hregular moves).borneOut

/-- The first task waits for a notice that is kept back, and the success of the second is
reported as a failure. -/
def spoiltSecond : List Move :=
  [.insertConfiguration "cfg" (Image.encode ["k"]), .hold true,
    .addTask { kernel := "k", recipe := { jitter := 5 } },
    .addTask { kernel := "k", recipe := { incident := some (.ends (.fail "lost")) } },
    .work "k", .work "k", .hold false, .release "k", .work "k", .work "k", .work "k", .work "k",
    .work "k", .wait ["k"]]

/-- Two executions, of which the second has no record. -/
example :
    ((ofBlueprint {} default { path := "" } spoiltSecond).scheduler.board.device.executionsOf
        0).length = 2 ∧
      (completions ((ofBlueprint {} default { path := "" } []).history 0 spoiltSecond)).map
        (fun done => done.1.id) = [some 0] := by
  decide

end Course

end KernelDispatch.Scheduler
