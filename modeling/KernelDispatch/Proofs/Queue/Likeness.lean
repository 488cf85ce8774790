import KernelDispatch.Proofs.Board.Dispatch
import KernelDispatch.Proofs.Queue.Turn

/-!
# Queues that look alike

Two queues on two boards go through the same steps if they hold the same tasks and
every task fares alike on both boards. Which number a queue has on its device plays
no part in it, and neither do the numbers of the tasks. `ExecutionQueue.seen` is what
is left of a queue when the former is forgotten, and the latter too if one wants.

## Main results

* `ExecutionQueue.alike_of_step` — a step leaves the board as it was for every task.
* `ExecutionQueue.exists_step_congr` — queues that look alike take steps that look alike.
-/

namespace KernelDispatch

/-! ## What is seen -/

/-- A task as it is seen with its number, or without. -/
def Task.seen (numbered : Bool) (t : Task) : Task := if numbered then t else { t with id := none }

namespace Task

variable (numbered : Bool) (t : Task)

@[simp] theorem seen_true : t.seen true = t := rfl

@[simp] theorem kernel_seen : (t.seen numbered).kernel = t.kernel := by cases numbered <;> rfl

@[simp] theorem recipe_seen : (t.seen numbered).recipe = t.recipe := by cases numbered <;> rfl

@[simp] theorem geometry_seen : (t.seen numbered).geometry = t.geometry := by
  cases numbered <;> rfl

@[simp] theorem workItems_seen : (t.seen numbered).workItems = t.workItems := by
  cases numbered <;> rfl

@[simp] theorem configuration_seen : (t.seen numbered).configuration = t.configuration := by
  cases numbered <;> rfl

@[simp] theorem duration_seen : (t.seen numbered).duration = t.duration := by
  cases numbered <;> rfl

@[simp] theorem seen_with_configuration (name : Option String) :
    ({ t with configuration := name } : Task).seen numbered =
      { t.seen numbered with configuration := name } := by
  cases numbered <;> rfl

@[simp] theorem seen_with_duration (nanos : Option Nat) :
    ({ t with duration := nanos } : Task).seen numbered =
      { t.seen numbered with duration := nanos } := by
  cases numbered <;> rfl

end Task

/-- What a worker is seen to hold. -/
def Hand.seen (numbered : Bool) : Hand → Hand
  | .empty => .empty
  | .taken task program => .taken (task.seen numbered) program
  | .launched task notice => .launched (task.seen numbered) notice
  | .reporting task => .reporting (task.seen numbered)

/-- A launch of a task is decided without its number. -/
theorem Board.report_seen (b : Board) (numbered closing : Bool) (program : String) (t : Task) :
    b.report closing program (t.seen numbered) = b.report closing program t := by
  cases numbered <;> rfl

namespace ExecutionQueue

/-- What is seen of a queue. -/
def seen (numbered : Bool) (q : ExecutionQueue) : ExecutionQueue :=
  { q with
    deviceQueue := 0
    pending := q.pending.map (Task.seen numbered)
    hand := q.hand.seen numbered }

/-- What a deed is seen to be. -/
def Deed.seen (numbered : Bool) : Deed → Deed
  | .takes task => .takes (task.seen numbered)
  | .launches task => .launches (task.seen numbered)
  | .reports task => .reports (task.seen numbered)
  | .returns task => .returns (task.seen numbered)
  | .closes dropped => .closes (dropped.map (Task.seen numbered))
  | .faults task dropped => .faults (task.seen numbered) (dropped.map (Task.seen numbered))

theorem deed_seen (numbered : Bool) (q next : ExecutionQueue) :
    (q.seen numbered).deed (next.seen numbered) = (q.deed next).seen numbered := by
  cases hhand : q.hand <;> cases hnext : next.hand <;>
    simp [seen, deed, Hand.seen, Deed.seen, hhand, hnext]

/-- Between queues that look alike, deeds look alike. -/
theorem deed_congr {numbered : Bool} {q q' next next' : ExecutionQueue}
    (hseen : q'.seen numbered = q.seen numbered)
    (hnext : next'.seen numbered = next.seen numbered) :
    (q'.deed next').seen numbered = (q.deed next).seen numbered := by
  rw [← deed_seen, hseen, hnext, deed_seen]

/-- With its number, nothing of a deed is hidden. -/
@[simp] theorem Deed.seen_true (d : Deed) : d.seen true = d := by
  have hlist : ∀ tasks : List Task, tasks.map (Task.seen true) = tasks := fun tasks => by
    rw [show Task.seen true = id from rfl, List.map_id]
  cases d <;> simp [Deed.seen, hlist]

/-- A view of queues that keeps their faults keeps the fault of one that may be missing. -/
theorem bind_fault_map {f : ExecutionQueue → ExecutionQueue} (hf : ∀ q, (f q).fault = q.fault)
    (queue : Option ExecutionQueue) :
    (queue.map f).bind ExecutionQueue.fault = queue.bind ExecutionQueue.fault := by
  cases queue with
  | none => rfl
  | some q => exact hf q

section Clients

variable (numbered : Bool) (q : ExecutionQueue)

theorem enqueue_seen (t : Task) :
    (q.seen numbered).enqueue (t.seen numbered) = (q.enqueue t).map (seen numbered) := by
  have hclosing : (q.seen numbered).isClosing = q.isClosing := rfl
  unfold enqueue
  rw [hclosing]
  split
  · rfl
  · simp [seen, Except.map]

theorem requestDiscard_seen :
    q.requestDiscard.seen numbered = (q.seen numbered).requestDiscard := rfl

theorem release_seen : q.release.seen numbered = (q.seen numbered).release := by
  cases hhand : q.hand <;> simp [seen, release, Hand.seen, hhand]

@[simp] theorem isIdle_seen : (q.seen numbered).isIdle = q.isIdle := by
  simp [isIdle, seen]

@[simp] theorem size_seen : (q.seen numbered).size = q.size := by
  unfold size seen
  rw [List.length_map]

end Clients

/-! ## Steps -/

section Steps

variable {numbered : Bool} {q q' : ExecutionQueue} {b b' : Board} {done : Option Task}

/-- A step leaves the board as it is, but for what a launch leaves on it. -/
theorem board_of_step (h : q.step b = some (b', q', done)) :
    b' = b ∨ ∃ closing program task, b' = (b.launch q.deviceQueue closing program task).2 := by
  unfold step at h
  split at h
  · simp at h
  · split at h
    · obtain ⟨next, -, heq⟩ := Option.map_eq_some_iff.1 h
      simp only [Prod.mk.injEq] at heq
      exact .inl heq.1.symm
    · rename_i task program hhand
      refine .inr ⟨q.shutdown.isSome, program, task, ?_⟩
      split at h
      · rename_i heq
        simp only [Option.some.injEq, Prod.mk.injEq] at h
        rw [heq, h.1]
      · rename_i heq
        simp only [Option.some.injEq, Prod.mk.injEq] at h
        rw [heq, h.1]
    · split at h
      · simp at h
      · split at h
        · simp only [Option.some.injEq, Prod.mk.injEq] at h
          exact .inl h.1.symm
        · simp only [Option.some.injEq, Prod.mk.injEq] at h
          exact .inl h.1.symm
    · simp only [Option.some.injEq, Prod.mk.injEq] at h
      exact .inl h.1.symm

/-- A step leaves the board as it was for every task. -/
theorem alike_of_step (h : q.step b = some (b', q', done)) : b.Alike b' := by
  rcases board_of_step h with rfl | ⟨closing, program, task, rfl⟩
  · exact .refl _
  · exact b.alike_launch _ closing program task

theorem faithful_of_step (hb : b.Faithful) (h : q.step b = some (b', q', done)) :
    b'.Faithful := by
  rcases board_of_step h with rfl | ⟨closing, program, task, rfl⟩
  · exact hb
  · exact hb.launch _ closing program task

/-- A step makes no queue. -/
theorem queuesCreated_of_step (h : q.step b = some (b', q', done)) :
    b'.device.queuesCreated = b.device.queuesCreated := by
  rcases board_of_step h with rfl | ⟨closing, program, task, rfl⟩
  · rfl
  · exact b.queuesCreated_launch _ closing program task

theorem deviceQueue_of_turn {d : Deed} (h : Turn q d q') : q'.deviceQueue = q.deviceQueue := by
  cases h <;> rfl

theorem deviceQueue_release (q : ExecutionQueue) : q.release.deviceQueue = q.deviceQueue := by
  unfold release
  split <;> rfl

theorem fail_seen (q : ExecutionQueue) (e : Error) :
    (q.fail e).seen numbered = (q.seen numbered).fail e := by
  simp [seen, fail, Hand.seen]

theorem signal_seen (q : ExecutionQueue) (s : Signal) :
    (q.signal s).seen numbered = (q.seen numbered).signal s := by
  have hphase : (q.seen numbered).phase = q.phase := rfl
  unfold signal
  rw [hphase]
  split
  · rfl
  · exact fail_seen q _

theorem nextTask_seen (q : ExecutionQueue) :
    (q.seen numbered).nextTask = q.nextTask.map (seen numbered) := by
  have hdrop : (q.seen numbered).dropPending = q.dropPending.seen numbered := by
    simp [seen, dropPending]
  have hshutdown : (q.seen numbered).shutdown = q.shutdown := rfl
  have hpending : (q.seen numbered).pending = q.pending.map (Task.seen numbered) := rfl
  unfold nextTask
  rw [hshutdown, hpending, hdrop, ← signal_seen]
  cases hasked : q.shutdown with
  | none =>
      cases htasks : q.pending with
      | nil => rfl
      | cons task rest =>
          simp only [List.map_cons, Option.map_some, signal_seen]
          rfl
  | some asked =>
      cases asked with
      | discard => rfl
      | drain =>
          cases htasks : q.pending with
          | nil =>
              simp only [List.map_nil, Option.map_some, signal_seen]
          | cons task rest =>
              simp only [List.map_cons, Option.map_some, signal_seen]
              rfl

/-- The queue after a step, and the task that was completed by it, where this is how
launches are reported. -/
def advance (report : Bool → String → Task → Result Notice) (q : ExecutionQueue) :
    Option (ExecutionQueue × Option Task) :=
  if q.phase = .closed then none
  else
    match q.hand with
    | .empty => q.nextTask.map fun next => (next, none)
    | .taken task program =>
        match report q.shutdown.isSome program task with
        | .error e => some (q.fail e, none)
        | .ok notice =>
            let task := { task with configuration := some program }
            some ({ q with hand := .launched task notice }.signal .submitted, none)
    | .launched task notice =>
        if notice.held then none
        else
          match notice.ending.await with
          | .error e => some (q.fail e, none)
          | .ok _ =>
              let task := { task with duration := some notice.span }
              some ({ q with hand := .reporting task }.signal .deviceCompleted, some task)
    | .reporting _ =>
        some ({ q with hand := .empty, completed := q.completed + 1 }.signal .callbackReturned,
          none)

/-- The board has its part in a step by the report of a launch. -/
theorem step_eq_advance (hb : b.Faithful) (q : ExecutionQueue) :
    (q.step b).map Prod.snd = q.advance b.report := by
  unfold step advance
  split
  · rfl
  · cases hhand : q.hand with
    | empty => cases hnext : q.nextTask <;> simp
    | taken task program =>
        dsimp only
        rw [← Board.launch_eq_report hb q.deviceQueue]
        cases hlaunch : b.launch q.deviceQueue q.shutdown.isSome program task with
        | mk answer board => cases answer <;> rfl
    | launched task notice =>
        dsimp only
        split
        · rfl
        · cases notice.ending.await <;> rfl
    | reporting task => rfl

/-- What is seen after a step is decided by what was seen before. -/
theorem advance_seen {report : Bool → String → Task → Result Notice}
    (hreport : ∀ closing program t,
      report closing program (t.seen numbered) = report closing program t)
    (q : ExecutionQueue) :
    (q.seen numbered).advance report =
      (q.advance report).map fun (next, done) =>
        (next.seen numbered, done.map (Task.seen numbered)) := by
  have hphase : (q.seen numbered).phase = q.phase := rfl
  have hshutdown : (q.seen numbered).shutdown = q.shutdown := rfl
  unfold advance
  rw [hphase, hshutdown]
  split
  · rfl
  · cases hhand : q.hand with
    | empty =>
        simp only [seen, Hand.seen, hhand]
        have hnext : (q.seen numbered).nextTask = q.nextTask.map (seen numbered) :=
          nextTask_seen q
        simp only [seen, Hand.seen, hhand] at hnext
        rw [hnext]
        cases q.nextTask <;> rfl
    | taken task program =>
        have hseen : (q.seen numbered).hand = .taken (task.seen numbered) program := by
          simp [seen, Hand.seen, hhand]
        simp only [hseen, hreport]
        cases report q.shutdown.isSome program task with
        | error e => simp [fail_seen]
        | ok notice =>
            simp only [Option.map_some, signal_seen]
            cases numbered <;> rfl
    | launched task notice =>
        have hseen : (q.seen numbered).hand = .launched (task.seen numbered) notice := by
          simp [seen, Hand.seen, hhand]
        simp only [hseen]
        split
        · rfl
        · cases notice.ending.await with
          | error e => simp [fail_seen]
          | ok _ =>
              simp only [Option.map_some, signal_seen]
              cases numbered <;> rfl
    | reporting task =>
        have hseen : (q.seen numbered).hand = .reporting (task.seen numbered) := by
          simp [seen, Hand.seen, hhand]
        simp only [hseen, Option.map_some, signal_seen]
        rfl

/-- What is seen of the outcome of a step. -/
def stepSeen (numbered : Bool) (q : ExecutionQueue) (b : Board) :
    Option (ExecutionQueue × Option Task) :=
  (q.step b).map fun (_, next, done) => (next.seen numbered, done.map (Task.seen numbered))

theorem stepSeen_eq (hb : b.Faithful) (q : ExecutionQueue) :
    q.stepSeen numbered b = (q.seen numbered).advance b.report := by
  rw [advance_seen (fun closing program t => b.report_seen numbered closing program t),
    ← step_eq_advance hb, Option.map_map]
  rfl

/-- Queues that look alike take steps that look alike, on boards on which every task
fares alike. -/
theorem stepSeen_congr (hb : b.Faithful) (hb' : b'.Faithful) (halike : b.Alike b')
    (hseen : q'.seen numbered = q.seen numbered) :
    q'.stepSeen numbered b' = q.stepSeen numbered b := by
  have hreport : b'.report = b.report := by
    funext closing program t
    exact Board.report_congr halike closing program t
  rw [stepSeen_eq hb, stepSeen_eq hb', hseen, hreport]

/-- Where one of them has a step, the other has one that looks alike. -/
theorem exists_step_congr (hb : b.Faithful) (hb' : b'.Faithful) (halike : b.Alike b')
    (hseen : q'.seen numbered = q.seen numbered) {board : Board} {next : ExecutionQueue}
    (hstep : q.step b = some (board, next, done)) :
    ∃ board' next' done', q'.step b' = some (board', next', done') ∧
      next'.seen numbered = next.seen numbered ∧
        done'.map (Task.seen numbered) = done.map (Task.seen numbered) := by
  have hsame := stepSeen_congr hb hb' halike hseen
  unfold stepSeen at hsame
  rw [hstep, Option.map_some, Option.map_eq_some_iff] at hsame
  obtain ⟨⟨board', next', done'⟩, hstep', heq⟩ := hsame
  obtain ⟨hnext, hdone⟩ := Prod.mk.inj heq
  exact ⟨board', next', done', hstep', hnext, hdone⟩

theorem step_congr_none (hb : b.Faithful) (hb' : b'.Faithful) (halike : b.Alike b')
    (hseen : q'.seen numbered = q.seen numbered) (hstep : q.step b = none) :
    q'.step b' = none := by
  have hsame := stepSeen_congr hb hb' halike hseen
  unfold stepSeen at hsame
  rwa [hstep, Option.map_none, Option.map_eq_none_iff] at hsame

end Steps

end ExecutionQueue

end KernelDispatch
