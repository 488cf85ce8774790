import KernelDispatch.Proofs.Queue.Fare
import KernelDispatch.Proofs.Scheduler.Lane

/-!
# What becomes of the tasks that are offered

Tasks are offered one after the other, and the workers and the device go on meanwhile.
A task is numbered by how many were offered before it. What becomes of it is decided by
the tasks that were offered on the same kernel before it, and not by what the workers
have done by then. So a scheduler can be described at any moment by the tasks that were
offered so far, but for how far each worker has come.

## Main definitions

* `Stirs` — what can happen while tasks are offered.
* `calls`, `dueOn` — the tasks that were offered, with their numbers.
* `CostModel.recordsOf` — the records of tasks that are completed one after the other.
* `Along` — a scheduler, from the tasks that were offered so far.

## Main results

* `stirs_of_play` — nothing else can happen.
* `Along.play` — one thing that happens.
* `Along.run` — any number of them.
-/

namespace KernelDispatch

/-! ## Tasks that are completed one after the other -/

namespace CostModel

/-- The model with the measurement of a completed task and its time. -/
def learned (m : CostModel) (task : Task × Nat) : CostModel :=
  m.record task.1.kernel
    ⟨m.operations task.1.kernel task.1.workItems, Number.secondsOfNanos task.2⟩

/-- The model with the measurements of these tasks. -/
def after (m : CostModel) (done : List (Task × Nat)) : CostModel := done.foldl learned m

/-- The record of a completed task. -/
def recordOf (m : CostModel) (program : String) (task : Task × Nat) : CompletionRecord :=
  CompletionRecord.make (task.1.id.getD 0) program task.1.kernel
    ((m.learned task).predict task.1.kernel task.1.workItems) (Number.secondsOfNanos task.2)

/-- The records of tasks that are completed one after the other. -/
def recordsOf (m : CostModel) (program : String) : List (Task × Nat) → List CompletionRecord
  | [] => []
  | task :: rest => m.recordOf program task :: recordsOf (m.learned task) program rest

variable {m m' : CostModel}

theorem recordsOf_concat (m : CostModel) (program : String) (done : List (Task × Nat))
    (task : Task × Nat) :
    m.recordsOf program (done ++ [task]) =
      m.recordsOf program done ++ [(m.after done).recordOf program task] := by
  induction done generalizing m with
  | nil => rfl
  | cons first done ih =>
      show m.recordOf program first :: recordsOf _ program (done ++ [task]) = _
      rw [ih]
      rfl

theorem after_concat (m : CostModel) (done : List (Task × Nat)) (task : Task × Nat) :
    m.after (done ++ [task]) = (m.after done).learned task := List.foldl_concat ..

theorem clear_after (m : CostModel) (done : List (Task × Nat)) :
    (m.after done).clear = m.clear := by
  induction done generalizing m with
  | nil => rfl
  | cons task done ih =>
      show ((m.learned task).after done).clear = m.clear
      rw [ih]
      rfl

/-- A measurement of a kernel is computed without those of others. -/
theorem samples_learned_congr (hclear : m'.clear = m.clear) (task : Task × Nat)
    (hsamples : m'.samples task.1.kernel = m.samples task.1.kernel) :
    (m'.learned task).samples task.1.kernel = (m.learned task).samples task.1.kernel := by
  have hbare : ∀ m : CostModel, m.learned task = m.record task.1.kernel
      ⟨m.clear.operations task.1.kernel task.1.workItems, Number.secondsOfNanos task.2⟩ :=
    fun _ => rfl
  rw [hbare, hbare, samples_record, samples_record, hclear, hsamples]

theorem recordOf_congr (hclear : m'.clear = m.clear) (program : String) (task : Task × Nat)
    (hsamples : m'.samples task.1.kernel = m.samples task.1.kernel) :
    m'.recordOf program task = m.recordOf program task := by
  have hlearned : (m'.learned task).clear = (m.learned task).clear := hclear
  unfold recordOf
  rw [predict_congr hlearned (samples_learned_congr hclear task hsamples)]

end CostModel

namespace Books

variable {b : Books} {t : Task} {configuration : String} {nanos : Nat}

/-- A completed task leaves its record by the model of its configuration. -/
theorem conclude_fst (hconfiguration : t.configuration = some configuration)
    (hduration : t.duration = some nanos) :
    (b.conclude t).1 =
      some ((b.model configuration).recordOf configuration (t.asOffered, nanos)) := by
  rw [conclude_eq hconfiguration hduration]
  rfl

/-- And its measurement in that model. -/
theorem model_conclude_learned (hconfiguration : t.configuration = some configuration)
    (hduration : t.duration = some nanos) (name : String) :
    (b.conclude t).2.model name =
      if name = configuration then (b.model name).learned (t.asOffered, nanos)
      else b.model name := by
  rw [model_conclude hconfiguration hduration]
  split
  · rename_i hname
    rw [sample_measure, hname]
    rfl
  · rfl

end Books

namespace Scheduler

variable {c c' c₀ : Course} {m : Move} {kernel : String}

/-! ## What can happen -/

/-- Whether a move offers a task, or is one of a worker or of the device. -/
def Move.stirs : Move → Bool
  | .addTask _ | .work _ | .hold _ | .release _ => true
  | _ => false

/-- The task that a move offers. -/
def Move.offer? : Move → Option Task
  | .addTask task => some task
  | _ => none

/-- The tasks that are offered by these moves. -/
def offers (moves : List Move) : List Task := moves.filterMap Move.offer?

theorem offers_cons (m : Move) (moves : List Move) :
    offers (m :: moves) = m.offer?.toList ++ offers moves := by
  unfold offers
  rw [List.filterMap_cons]
  cases m.offer? <;> rfl

/-- The board with one more queue on its device. -/
def withQueue (b : Board) : Board :=
  { b with device := { b.device with clocks := b.device.clocks ++ [0] } }

theorem alike_withQueue (b : Board) : b.Alike (withQueue b) :=
  ⟨rfl, rfl, fun _ => rfl, rfl, rfl⟩

/-- What can happen while tasks are offered. -/
inductive Stirs (c : Course) : Move → Course → Prop where
  | holds (on : Bool) : Stirs c (.hold on) { c with scheduler := c.scheduler.hold on }
  | releases (kernel : String) :
      Stirs c (.release kernel)
        { c with scheduler := c.scheduler.updateQueue kernel ExecutionQueue.release }
  | rests (kernel : String) : Stirs c (.work kernel) c
  | works {kernel : String} {queue next : ExecutionQueue} {board : Board} {done : Option Task}
      (hqueue : c.scheduler.queues.get? kernel = some queue)
      (hstep : queue.step c.scheduler.board = some (board, next, done)) :
      Stirs c (.work kernel)
        { c with
          scheduler := c.scheduler.entered kernel board next done
          past := c.past ++ [.worked kernel (queue.deed next)
            (done.bind fun t => (c.scheduler.books.conclude t).1)] }
  /-- There is nothing to make the task against. -/
  | declines (task : Task) (hcurrent : c.scheduler.current = none) :
      Stirs c (.addTask task) { c with past := c.past ++ [.refused task] }
  /-- The queue of the task takes no more tasks. -/
  | refuses {task : Task} {program : String} {queue : ExecutionQueue} {e : Error}
      (hcurrent : c.scheduler.current = some program)
      (hqueue : c.scheduler.queues.get? task.kernel = some queue)
      (hrefused : queue.enqueue { task with id := some c.scheduler.nextId } = .error e) :
      Stirs c (.addTask task)
        { c with scheduler := c.scheduler.passed, past := c.past ++ [.refused task] }
  /-- There is no queue for the task, and none to be had. -/
  | starves {task : Task} {program : String} (hcurrent : c.scheduler.current = some program)
      (hnone : c.scheduler.queues.get? task.kernel = none)
      (hrefuses : c.scheduler.board.device.refusesQueues = true) :
      Stirs c (.addTask task)
        { c with scheduler := c.scheduler.passed, past := c.past ++ [.refused task] }
  | accepts {task : Task} {program : String} {queue next : ExecutionQueue}
      (hcurrent : c.scheduler.current = some program)
      (hqueue : c.scheduler.queues.get? task.kernel = some queue)
      (hnext : queue.enqueue { task with id := some c.scheduler.nextId } = .ok next) :
      Stirs c (.addTask task)
        { c with
          scheduler := c.scheduler.seated c.scheduler.board task.kernel next
          past := c.past ++ [.accepted { task with id := some c.scheduler.nextId }] }
  /-- A queue is made for the task. -/
  | opens {task : Task} {program : String} (hcurrent : c.scheduler.current = some program)
      (hnone : c.scheduler.queues.get? task.kernel = none)
      (hrefuses : c.scheduler.board.device.refusesQueues = false) :
      Stirs c (.addTask task)
        { c with
          scheduler := c.scheduler.seated (withQueue c.scheduler.board) task.kernel
            { ExecutionQueue.start task.kernel c.scheduler.board.device.queuesCreated program with
              pending := [{ task with id := some c.scheduler.nextId }] }
          past := c.past ++ [.accepted { task with id := some c.scheduler.nextId }] }

theorem place_of_some {s : Scheduler} {t : Task} {queue : ExecutionQueue}
    (h : s.queues.get? t.kernel = some queue) (program : String) :
    s.place program t = (queue.enqueue t).map fun next => (s.board, next) := by
  unfold place
  rw [h]

theorem place_of_none {s : Scheduler} {t : Task} (h : s.queues.get? t.kernel = none)
    (program : String) :
    s.place program t =
      if s.board.device.refusesQueues then .error (.device "no more queues")
      else .ok (withQueue s.board,
        { ExecutionQueue.start t.kernel s.board.device.queuesCreated program with
          pending := [t] }) := by
  unfold place Device.createQueue
  rw [h]
  dsimp only
  by_cases hrefuses : s.board.device.refusesQueues = true
  · rw [if_pos hrefuses, if_pos hrefuses]
    rfl
  · rw [if_neg hrefuses, if_neg hrefuses]
    rfl

theorem stirs_of_offer (c : Course) (task : Task) : Stirs c (.addTask task) (c.offer task) := by
  have hadd := addTask_eq c.scheduler task
  rw [offer_eq, answered]
  cases hcurrent : c.scheduler.current with
  | none =>
      rw [hcurrent] at hadd
      rw [hadd]
      exact .declines task hcurrent
  | some program =>
      rw [hcurrent] at hadd
      dsimp only at hadd
      cases hqueue : c.scheduler.queues.get? task.kernel with
      | some queue =>
          have hplace := place_of_some (t := { task with id := some c.scheduler.nextId }) hqueue
            program
          rw [hplace] at hadd
          cases hnext : queue.enqueue { task with id := some c.scheduler.nextId } with
          | error e =>
              rw [hnext] at hadd
              rw [hadd]
              exact .refuses hcurrent hqueue hnext
          | ok next =>
              rw [hnext] at hadd
              rw [hadd]
              exact .accepts hcurrent hqueue hnext
      | none =>
          have hplace := place_of_none (t := { task with id := some c.scheduler.nextId }) hqueue
            program
          rw [hplace] at hadd
          cases hrefuses : c.scheduler.board.device.refusesQueues with
          | true =>
              rw [hrefuses] at hadd
              rw [hadd]
              exact .starves hcurrent hqueue hrefuses
          | false =>
              rw [hrefuses] at hadd
              rw [hadd]
              exact .opens hcurrent hqueue hrefuses

/-- Nothing else can happen while no reset is under way. -/
theorem stirs_of_play (hserves : c.serves = true) (hm : m.stirs = true) :
    Stirs c m (c.play m) := by
  cases m with
  | addTask task =>
      have hplay : c.play (.addTask task) = c.offer task := if_pos hserves
      rw [hplay]
      exact stirs_of_offer c task
  | work kernel =>
      rcases play_work_cases c kernel with hplay | ⟨queue, next, board, done, hqueue, hstep⟩
      · rw [hplay]
        exact .rests kernel
      · rw [play_work hqueue hstep]
        exact .works hqueue hstep
  | hold on => exact .holds on
  | release kernel => exact .releases kernel
  | _ => simp [Move.stirs] at hm

/-! ## The tasks that were offered -/

/-- The configuration that offered tasks are made against. -/
def program (s : Scheduler) : String := s.current.getD ""

/-- These tasks, with the numbers that they get when they are offered. They get none
where there is nothing to make them against. -/
def calls (s : Scheduler) (tasks : List Task) : List Task :=
  if s.current.isSome then tasks.mapIdx fun i t => { t with id := some (s.nextId + i) } else []

/-- Those of one kernel. -/
def dueOn (s : Scheduler) (kernel : String) (tasks : List Task) : List Task :=
  offered ((s.calls tasks).filter fun t => t.kernel = kernel)

theorem calls_concat (s : Scheduler) (tasks : List Task) (t : Task) :
    s.calls (tasks ++ [t]) = s.calls tasks ++
      if s.current.isSome then [{ t with id := some (s.nextId + tasks.length) }] else [] := by
  unfold calls
  split
  · rw [List.mapIdx_concat]
  · rfl

theorem length_calls (s : Scheduler) (tasks : List Task) :
    (s.calls tasks).length = if s.current.isSome then tasks.length else 0 := by
  unfold calls
  split
  · rw [List.length_mapIdx]
  · rfl

theorem dueOn_concat (s : Scheduler) (kernel : String) (tasks : List Task) (t : Task) :
    s.dueOn kernel (tasks ++ [t]) = s.dueOn kernel tasks ++
      if s.current.isSome ∧ t.kernel = kernel then
        [Task.asOffered { t with id := some (s.nextId + tasks.length) }]
      else [] := by
  unfold dueOn
  rw [calls_concat]
  by_cases hcurrent : s.current.isSome = true
  · by_cases hkernel : t.kernel = kernel
    · simp [hcurrent, hkernel]
    · simp [hcurrent, hkernel]
  · simp [hcurrent]

/-! ## One kernel -/

/-- What a kernel has gained by these completed tasks since then. -/
structure Gains (c₀ : Course) (kernel : String) (done : List (Task × Nat)) (c : Course) : Prop where
  records : recordsOn kernel c.past = recordsOn kernel c₀.past ++
    (c₀.scheduler.books.model c₀.scheduler.program).recordsOf c₀.scheduler.program done
  samples : ∀ name, (c.scheduler.books.model name).samples kernel =
    ((c₀.scheduler.books.model name).after
      (if name = c₀.scheduler.program then done else [])).samples kernel

theorem Gains.refl (c : Course) (kernel : String) : Gains c kernel [] c := by
  refine ⟨(List.append_nil _).symm, fun name => ?_⟩
  split <;> rfl

/-- Where no task of the kernel is completed, it gains nothing. -/
theorem Gains.same {done : List (Task × Nat)} (h : Gains c₀ kernel done c)
    (hrecords : recordsOn kernel c'.past = recordsOn kernel c.past)
    (hsamples : ∀ name, (c'.scheduler.books.model name).samples kernel =
      (c.scheduler.books.model name).samples kernel) : Gains c₀ kernel done c' :=
  ⟨hrecords.trans h.records, fun name => (hsamples name).trans (h.samples name)⟩

/-- A task that is completed. -/
theorem Gains.concat {done : List (Task × Nat)} {t : Task} {nanos : Nat}
    (h : Gains c₀ kernel done c)
    (hshape : ∀ name, (c.scheduler.books.model name).clear = (c₀.scheduler.books.model name).clear)
    (hkernel : t.kernel = kernel) (hconfiguration : t.configuration = some c₀.scheduler.program)
    (hduration : t.duration = some nanos)
    (hrecords : recordsOn kernel c'.past =
      recordsOn kernel c.past ++ (c.scheduler.books.conclude t).1.toList)
    (hmodel : ∀ name, c'.scheduler.books.model name =
      (c.scheduler.books.conclude t).2.model name) :
    Gains c₀ kernel (done ++ [(t.asOffered, nanos)]) c' := by
  subst hkernel
  have hclear : ∀ name done, (c.scheduler.books.model name).clear =
      ((c₀.scheduler.books.model name).after done).clear := fun name done =>
    (hshape name).trans (CostModel.clear_after _ done).symm
  have hbefore := h.samples c₀.scheduler.program
  rw [if_pos rfl] at hbefore
  constructor
  · rw [hrecords, h.records, Books.conclude_fst hconfiguration hduration,
      CostModel.recordsOf_concat, List.append_assoc,
      CostModel.recordOf_congr (hclear c₀.scheduler.program done) _ _ hbefore]
    rfl
  · intro name
    rw [hmodel, Books.model_conclude_learned hconfiguration hduration]
    split
    · rename_i hname
      subst hname
      rw [CostModel.after_concat]
      exact CostModel.samples_learned_congr (hclear _ done) (t.asOffered, nanos) hbefore
    · rename_i hname
      rw [h.samples name, if_neg hname]

/-- A queue that a kernel had then, or one that was made for the first task since. -/
inductive Origin (c₀ : Course) (kernel : String) (due : List Task) : ExecutionQueue → Prop where
  | old {q : ExecutionQueue} (hqueue : c₀.scheduler.queues.get? kernel = some q) :
      Origin c₀ kernel due q
  | new (number : Nat) (hnone : c₀.scheduler.queues.get? kernel = none)
      (hrefuses : c₀.scheduler.board.device.refusesQueues = false) (hdue : due ≠ []) :
      Origin c₀ kernel due (.start kernel number c₀.scheduler.program)

theorem Origin.snoc {due : List Task} {q : ExecutionQueue} (h : Origin c₀ kernel due q) {t : Task} :
    Origin c₀ kernel (due ++ [t]) q := by
  cases h with
  | old hqueue => exact .old hqueue
  | new number hnone hrefuses => exact .new number hnone hrefuses (by simp)

/-- What has become of the tasks of a kernel that were offered since then, and which of
them were completed. -/
inductive Lane (c₀ : Course) (kernel : String) (due : List Task) (c : Course) :
    List (Task × Nat) → Prop where
  | absent (hnone : c.scheduler.queues.get? kernel = none)
      (hbefore : c₀.scheduler.queues.get? kernel = none)
      (hdue : c₀.scheduler.board.device.refusesQueues = true ∨ due = []) : Lane c₀ kernel due c []
  | present {before q : ExecutionQueue} {done : List (Task × Nat)}
      (hqueue : c.scheduler.queues.get? kernel = some q) (horigin : Origin c₀ kernel due before)
      (hprogress : before.Progress c₀.scheduler.board c₀.scheduler.program due done q) :
      Lane c₀ kernel due c done

/-! ## What stays as it is -/

namespace Stirs

variable (h : Stirs c m c')

include h

theorem stage : c'.stage = c.stage := by
  cases h <;> rfl

theorem current : c'.scheduler.current = c.scheduler.current := by
  cases h with
  | releases => rw [updateQueue_eq]
  | _ => rfl

theorem nextId :
    c'.scheduler.nextId =
      c.scheduler.nextId + if c.scheduler.current.isSome then m.offer?.toList.length else 0 := by
  cases h with
  | declines _ hcurrent => simp [hcurrent]
  | refuses hcurrent => simp [hcurrent, passed, Move.offer?]
  | starves hcurrent => simp [hcurrent, passed, Move.offer?]
  | accepts hcurrent => simp [hcurrent, seated, Move.offer?]
  | opens hcurrent => simp [hcurrent, seated, Move.offer?]
  | releases => simp [updateQueue_eq, Move.offer?]
  | holds => simp [hold, Move.offer?]
  | rests => simp [Move.offer?]
  | works => simp [entered, Move.offer?]

/-- Nothing that happens decides what becomes of a task. -/
theorem outcome (program : String) (t : Task) :
    c'.scheduler.board.outcome program t = c.scheduler.board.outcome program t := by
  cases h with
  | holds on => exact Board.outcome_holding _ on program t
  | releases => rw [updateQueue_eq]
  | works _ hstep => exact Board.outcome_congr (ExecutionQueue.alike_of_step hstep) program t
  | opens => exact Board.outcome_congr (alike_withQueue _) program t
  | _ => rfl

theorem refusesQueues :
    c'.scheduler.board.device.refusesQueues = c.scheduler.board.device.refusesQueues := by
  cases h with
  | releases => rw [updateQueue_eq]
  | works _ hstep => exact (ExecutionQueue.alike_of_step hstep).refusesQueues
  | _ => rfl

theorem shape (hsteady : Steady c) (name : String) :
    (c'.scheduler.books.model name).clear = (c.scheduler.books.model name).clear := by
  cases h with
  | releases => rw [updateQueue_eq]
  | @works kernel queue next board done hqueue hstep =>
      cases done with
      | none => rfl
      | some t =>
          obtain ⟨-, configuration, nanos, hconfiguration, hduration⟩ :=
            hsteady.completed hqueue hstep rfl
          show ((c.scheduler.books.conclude t).2.model name).clear = _
          rw [Books.model_conclude_learned hconfiguration hduration]
          split <;> rfl
  | _ => rfl

end Stirs

/-! ## All kernels -/

/-- A scheduler, from the tasks that were offered since then. -/
structure Along (c₀ : Course) (tasks : List Task) (c : Course) : Prop where
  serves : c.serves = true
  steady : Steady c
  current : c.scheduler.current = c₀.scheduler.current
  nextId : c.scheduler.nextId = c₀.scheduler.nextId + (c₀.scheduler.calls tasks).length
  outcome : ∀ program t,
    c.scheduler.board.outcome program t = c₀.scheduler.board.outcome program t
  refusesQueues :
    c.scheduler.board.device.refusesQueues = c₀.scheduler.board.device.refusesQueues
  shape : ∀ name, (c.scheduler.books.model name).clear = (c₀.scheduler.books.model name).clear
  lane : ∀ kernel, ∃ done,
    Lane c₀ kernel (c₀.scheduler.dueOn kernel tasks) c done ∧ Gains c₀ kernel done c

namespace Along

variable {tasks : List Task}

/-- An idle scheduler, before a task is offered. -/
theorem start (hsteady : Steady c) (hserves : c.serves = true)
    (hidle : ∀ kernel q, c.scheduler.queues.get? kernel = some q → q.isIdle = true) :
    Along c [] c := by
  have hdue : ∀ kernel, c.scheduler.dueOn kernel [] = [] := fun kernel => by
    simp [dueOn, calls, offered]
  refine ⟨hserves, hsteady, rfl, ?_, fun _ _ => rfl, rfl, fun _ => rfl, fun kernel => ⟨[], ?_,
    .refl c kernel⟩⟩
  · rw [length_calls]
    simp
  · rw [hdue]
    cases hqueue : c.scheduler.queues.get? kernel with
    | none => exact .absent hqueue hqueue (.inr rfl)
    | some q =>
        have hplaced := hsteady.coherent.placed kernel q hqueue
        have hprogram : q.program = c.scheduler.program := by
          rw [program, hplaced.program, Option.getD_some]
        refine .present hqueue (.old hqueue) (.start ⟨hsteady.sound.wellFormed kernel q hqueue, rfl,
          hprogram, hsteady.sound.serving (serves_iff.1 hserves) kernel q hqueue⟩
          (hidle kernel q hqueue))

/-- A lane in which no worker has stepped and to which no task has come. -/
theorem lane_same (h : Along c₀ tasks c)
    (hqueue : c'.scheduler.queues.get? kernel = c.scheduler.queues.get? kernel)
    (hrecords : recordsOn kernel c'.past = recordsOn kernel c.past)
    (hsamples : ∀ name, (c'.scheduler.books.model name).samples kernel =
      (c.scheduler.books.model name).samples kernel) :
    ∃ done, Lane c₀ kernel (c₀.scheduler.dueOn kernel tasks) c' done ∧ Gains c₀ kernel done c' := by
  obtain ⟨done, hlane, hgains⟩ := h.lane kernel
  refine ⟨done, ?_, hgains.same hrecords hsamples⟩
  cases hlane with
  | absent hnone hbefore hdue => exact .absent (hqueue.trans hnone) hbefore hdue
  | present hsome horigin hprogress => exact .present (hqueue.trans hsome) horigin hprogress

/-- A step of the worker of a lane. -/
theorem lane_works (h : Along c₀ tasks c) {queue next : ExecutionQueue} {board : Board}
    {result : Option Task} (hqueue : c.scheduler.queues.get? kernel = some queue)
    (hstep : queue.step c.scheduler.board = some (board, next, result))
    (hnext : c'.scheduler.queues.get? kernel = some next)
    (hbooks : c'.scheduler.books = (c.scheduler.entered kernel board next result).books)
    (hpast : c'.past = c.past ++ [.worked kernel (queue.deed next)
      (result.bind fun t => (c.scheduler.books.conclude t).1)]) :
    ∃ done, Lane c₀ kernel (c₀.scheduler.dueOn kernel tasks) c' done ∧ Gains c₀ kernel done c' := by
  obtain ⟨done, hlane, hgains⟩ := h.lane kernel
  cases hlane with
  | absent hnone => simp [hnone] at hqueue
  | @present before q done hsome horigin hprogress =>
      obtain rfl : q = queue := Option.some.inj (hsome.symm.trans hqueue)
      obtain ⟨hnothing, hsomething⟩ :=
        hprogress.step h.steady.coherent.registered.faithful (fun t => h.outcome _ t) hstep
      have hrecords : recordsOn kernel c'.past = recordsOn kernel c.past ++
          (result.bind fun t => (c.scheduler.books.conclude t).1).toList := by
        rw [hpast, recordsOn_snoc]
        exact congrArg (recordsOn kernel c.past ++ ·) (if_pos rfl)
      cases result with
      | none =>
          refine ⟨done, .present hnext horigin (hnothing rfl), hgains.same ?_ fun name => ?_⟩
          · rw [hrecords]
            exact List.append_nil _
          · rw [hbooks]
            rfl
      | some t =>
          obtain ⟨nanos, hconfiguration, hduration, hafter⟩ := hsomething t rfl
          refine ⟨done ++ [(t.asOffered, nanos)], .present hnext horigin hafter, ?_⟩
          refine hgains.concat h.shape (h.steady.completed hqueue hstep rfl).1 hconfiguration
            hduration hrecords fun name => ?_
          rw [hbooks]
          rfl

/-- A step of another worker is not seen in a lane. -/
theorem lane_works_other (h : Along c₀ tasks c) {other : String} {queue next : ExecutionQueue}
    {board : Board} {result : Option Task} (hother : other ≠ kernel)
    (hqueue : c.scheduler.queues.get? other = some queue)
    (hstep : queue.step c.scheduler.board = some (board, next, result))
    (hscheduler : c'.scheduler = c.scheduler.entered other board next result)
    (hpast : c'.past = c.past ++ [.worked other (queue.deed next)
      (result.bind fun t => (c.scheduler.books.conclude t).1)]) :
    ∃ done, Lane c₀ kernel (c₀.scheduler.dueOn kernel tasks) c' done ∧ Gains c₀ kernel done c' := by
  refine h.lane_same ?_ ?_ fun name => ?_
  · rw [hscheduler]
    exact NameMap.get?_insert_of_ne _ _ hother.symm
  · rw [hpast, recordsOn_snoc, if_neg (by simpa [Event.kernel?] using hother), List.append_nil]
  · rw [hscheduler]
    cases result with
    | none => rfl
    | some t =>
        obtain ⟨hkernel, configuration, nanos, hconfiguration, hduration⟩ :=
          h.steady.completed hqueue hstep rfl
        show ((c.scheduler.books.conclude t).2.model name).samples kernel = _
        rw [Books.model_conclude_learned hconfiguration hduration]
        split
        · rw [CostModel.learned, CostModel.samples_record, if_neg]
          exact fun heq => hother (hkernel.symm.trans heq.symm)
        · rfl

/-- A notice that is let through. -/
theorem lane_releases (h : Along c₀ tasks c) (other : String) :
    ∃ done, Lane c₀ kernel (c₀.scheduler.dueOn kernel tasks)
      { c with scheduler := c.scheduler.updateQueue other ExecutionQueue.release } done ∧
        Gains c₀ kernel done
          { c with scheduler := c.scheduler.updateQueue other ExecutionQueue.release } := by
  have hget := get?_updateQueue c.scheduler other kernel ExecutionQueue.release
  have hbooks :
      (c.scheduler.updateQueue other ExecutionQueue.release).books = c.scheduler.books := by
    rw [updateQueue_eq]
  by_cases hother : kernel = other
  · rw [if_pos hother] at hget
    obtain ⟨done, hlane, hgains⟩ := h.lane kernel
    refine ⟨done, ?_, hgains.same rfl fun name => congrArg (fun b => (b.model name).samples kernel)
      hbooks⟩
    cases hlane with
    | absent hnone hbefore hdue =>
        rw [hnone] at hget
        exact .absent hget hbefore hdue
    | present hsome horigin hprogress =>
        rw [hsome] at hget
        exact .present hget horigin hprogress.release
  · rw [if_neg hother] at hget
    exact h.lane_same hget rfl fun name => congrArg (fun b => (b.model name).samples kernel) hbooks

/-- A task that is offered on another kernel, or not at all, is not seen in a lane. -/
theorem dueOn_offer_other {t : Task}
    (hother : c₀.scheduler.current.isSome = true → t.kernel ≠ kernel) :
    c₀.scheduler.dueOn kernel (tasks ++ [t]) = c₀.scheduler.dueOn kernel tasks := by
  rw [dueOn_concat, if_neg fun hboth => hother hboth.1 hboth.2, List.append_nil]

/-- A task that is offered gets the next number. -/
theorem dueOn_offer (h : Along c₀ tasks c) {t : Task} {program : String}
    (hcurrent : c.scheduler.current = some program) :
    c₀.scheduler.dueOn t.kernel (tasks ++ [t]) = c₀.scheduler.dueOn t.kernel tasks ++
      [Task.asOffered { t with id := some c.scheduler.nextId }] := by
  have hsome : c₀.scheduler.current.isSome = true := by
    rw [← h.current, hcurrent]
    rfl
  rw [dueOn_concat, if_pos ⟨hsome, rfl⟩, h.nextId, length_calls, if_pos hsome]

theorem records_refused (past : List Event) (t : Task) :
    recordsOn kernel (past ++ [.refused t]) = recordsOn kernel past := by
  rw [recordsOn_snoc, if_neg (by simp [Event.kernel?]), List.append_nil]

theorem records_accepted (past : List Event) (t : Task) :
    recordsOn kernel (past ++ [.accepted t]) = recordsOn kernel past := by
  rw [recordsOn_snoc]
  split
  · exact List.append_nil _
  · exact List.append_nil _

/-- A task that is offered on another kernel leaves a lane as it is. -/
theorem lane_offers_other (h : Along c₀ tasks c) {t : Task} (hkernel : t.kernel ≠ kernel)
    (hstirs : Stirs c (.addTask t) c') :
    ∃ done, Lane c₀ kernel (c₀.scheduler.dueOn kernel (tasks ++ [t])) c' done ∧
      Gains c₀ kernel done c' := by
  rw [dueOn_offer_other fun _ => hkernel]
  cases hstirs with
  | declines => exact h.lane_same rfl (records_refused _ _) fun _ => rfl
  | refuses => exact h.lane_same rfl (records_refused _ _) fun _ => rfl
  | starves => exact h.lane_same rfl (records_refused _ _) fun _ => rfl
  | accepts =>
      refine h.lane_same ?_ (records_accepted _ _) fun _ => rfl
      exact NameMap.get?_insert_of_ne _ _ (Ne.symm hkernel)
  | opens =>
      refine h.lane_same ?_ (records_accepted _ _) fun _ => rfl
      exact NameMap.get?_insert_of_ne _ _ (Ne.symm hkernel)

/-- The lane of a task that was offered. -/
theorem lane_offers_self (h : Along c₀ tasks c) {t : Task} (hstirs : Stirs c (.addTask t) c') :
    ∃ done, Lane c₀ t.kernel (c₀.scheduler.dueOn t.kernel (tasks ++ [t])) c' done ∧
      Gains c₀ t.kernel done c' := by
  obtain ⟨done, hlane, hgains⟩ := h.lane t.kernel
  cases hstirs with
  | declines _ hcurrent =>
      rw [dueOn_offer_other fun hsome => by simp [← h.current, hcurrent] at hsome]
      exact h.lane_same rfl (records_refused _ _) fun _ => rfl
  | @refuses t program queue e hcurrent hqueue hrefused =>
      rw [h.dueOn_offer hcurrent]
      refine ⟨done, ?_, hgains.same (records_refused _ _) fun _ => rfl⟩
      cases hlane with
      | absent hnone => simp [hnone] at hqueue
      | @present before q _ hsome horigin hprogress =>
          obtain rfl : q = queue := Option.some.inj (hsome.symm.trans hqueue)
          exact .present hsome horigin.snoc (hprogress.refuse hrefused)
  | @starves t program hcurrent hnone hrefuses =>
      rw [h.dueOn_offer hcurrent]
      refine ⟨done, ?_, hgains.same (records_refused _ _) fun _ => rfl⟩
      cases hlane with
      | absent _ hbefore => exact .absent hnone hbefore (.inl (h.refusesQueues ▸ hrefuses))
      | present hsome => simp [hnone] at hsome
  | @accepts t program queue next hcurrent hqueue hnext =>
      rw [h.dueOn_offer hcurrent]
      refine ⟨done, ?_, hgains.same (records_accepted _ _) fun _ => rfl⟩
      cases hlane with
      | absent hnone => simp [hnone] at hqueue
      | @present before q _ hsome horigin hprogress =>
          obtain rfl : q = queue := Option.some.inj (hsome.symm.trans hqueue)
          exact .present (NameMap.get?_insert_self _ _ _) horigin.snoc (hprogress.enqueue hnext)
  | @opens t program hcurrent hnone hrefuses =>
      rw [h.dueOn_offer hcurrent]
      refine ⟨done, ?_, hgains.same (records_accepted _ _) fun _ => rfl⟩
      cases hlane with
      | present hsome => simp [hnone] at hsome
      | absent _ hbefore hdue =>
          rw [← h.refusesQueues, hrefuses] at hdue
          obtain hdue : c₀.scheduler.dueOn t.kernel tasks = [] := hdue.resolve_left (by simp)
          have hprogram : c₀.scheduler.program = program := by
            rw [Scheduler.program, ← h.current, hcurrent, Option.getD_some]
          rw [hdue]
          have hfirst := ExecutionQueue.Progress.start_enqueue c₀.scheduler.board t.kernel
            c.scheduler.board.device.queuesCreated program
            { t with id := some c.scheduler.nextId }
          subst hprogram
          exact .present (NameMap.get?_insert_self _ _ _)
            (.new _ hbefore (h.refusesQueues.symm.trans hrefuses) (by simp)) hfirst

/-- A lane after a task was offered. -/
theorem lane_offers (h : Along c₀ tasks c) {t : Task} (hstirs : Stirs c (.addTask t) c') :
    ∃ done, Lane c₀ kernel (c₀.scheduler.dueOn kernel (tasks ++ [t])) c' done ∧
      Gains c₀ kernel done c' := by
  by_cases hkernel : t.kernel = kernel
  · subst hkernel
    exact h.lane_offers_self hstirs
  · exact h.lane_offers_other hkernel hstirs

/-- One thing that happens. -/
theorem play (h : Along c₀ tasks c) (hm : m.stirs = true) :
    Along c₀ (tasks ++ m.offer?.toList) (c.play m) := by
  have hstirs := stirs_of_play h.serves hm
  refine ⟨?_, h.steady.play m, hstirs.current.trans h.current, ?_, fun program t =>
    (hstirs.outcome program t).trans (h.outcome program t),
    hstirs.refusesQueues.trans h.refusesQueues, fun name =>
      (hstirs.shape h.steady name).trans (h.shape name), fun kernel => ?_⟩
  · rw [serves_iff, hstirs.stage, ← serves_iff]
    exact h.serves
  · rw [hstirs.nextId, h.nextId, h.current, length_calls, length_calls, List.length_append]
    split <;> omega
  · generalize hnext : c.play m = c' at hstirs
    cases m with
    | addTask t => exact h.lane_offers hstirs
    | hold on =>
        rw [show tasks ++ (Move.hold on).offer?.toList = tasks from List.append_nil _]
        cases hstirs with
        | holds => exact h.lane_same rfl rfl fun _ => rfl
    | release other =>
        rw [show tasks ++ (Move.release other).offer?.toList = tasks from List.append_nil _]
        cases hstirs with
        | releases => exact h.lane_releases other
    | work other =>
        rw [show tasks ++ (Move.work other).offer?.toList = tasks from List.append_nil _]
        cases hstirs with
        | rests => exact h.lane kernel
        | works hqueue hstep =>
            by_cases hother : other = kernel
            · subst hother
              exact h.lane_works hqueue hstep (NameMap.get?_insert_self _ _ _) rfl rfl
            · exact h.lane_works_other hother hqueue hstep rfl rfl
    | _ => simp [Move.stirs] at hm

/-- Any number of things that happen. -/
theorem run (h : Along c₀ tasks c) {moves : List Move} (hmoves : ∀ m ∈ moves, m.stirs = true) :
    Along c₀ (tasks ++ offers moves) (c.run moves) := by
  induction moves generalizing c tasks with
  | nil =>
      rw [show offers [] = [] from rfl, List.append_nil]
      exact h
  | cons m moves ih =>
      rw [offers_cons, ← List.append_assoc]
      exact ih (h.play (hmoves m List.mem_cons_self)) fun m' hm' =>
        hmoves m' (List.mem_cons_of_mem _ hm')

end Along

end Scheduler

end KernelDispatch
