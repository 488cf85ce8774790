import KernelDispatch.Queue.Worker

/-!
# One queue on a bench

On the bench a single queue runs on a board with nothing else around it. Its
completion callback notes every completed task and may react to it: it may give
up, enqueue a further task on the very queue that called it, or drop the queue.
The reactions are planned ahead, by the number of the completion.

After each operation the worker takes steps for as long as it has any, so a
bench at rest has a queue that is idle, closed, or in flight with its notice
kept back. Reactions may add tasks on the way; the plan is finite, and each
reaction that adds a task is used up, which is why the worker comes to rest.

## Main definitions

* `Bench` — board, queue, plan, and what the callback has noted.
* `Bench.settle` — the bench at rest.
* the operations of a client: `Bench.enqueue`, `Bench.finish`, and so on.
-/

namespace KernelDispatch

/-- What the callback does about a completion, besides noting it. -/
inductive Reaction where
  /-- It gives up; the queue goes on. -/
  | panics
  /-- It puts a further task on the queue. -/
  | enqueues (task : Task)
  /-- It drops the queue that called it. -/
  | abandons
deriving DecidableEq

/-- What the callback notes. -/
inductive Note where
  | completed (task : Task)
  /-- Whether a further task was taken. -/
  | followUp (answer : Result Unit)

/-- One queue on a board of its own. -/
structure Bench where
  board : Board
  queue : ExecutionQueue
  /-- Whether the queue was dropped by its owner. -/
  abandoned : Bool := false
  /-- Reactions by the number of the completion, from zero. -/
  plan : List (Nat × Reaction) := []
  /-- How many completions there have been. -/
  reported : Nat := 0
  /-- What the callback noted, oldest first. -/
  notes : List Note := []

namespace Bench

/-- A bench with a new queue, unless the device refuses one. -/
def start (board : Board) (kernel program : String) (plan : List (Nat × Reaction)) :
    Result Bench :=
  board.device.createQueue.map fun (number, device) =>
    { board := { board with device }
      queue := ExecutionQueue.start kernel number program
      plan }

/-- Whether an entry of the plan, from a completion on, adds a task. -/
def addsTask (reported : Nat) (entry : Nat × Reaction) : Bool :=
  match entry with
  | (number, .enqueues _) => decide (reported ≤ number)
  | _ => false

/-- How many tasks the plan may still add. -/
def tasksAhead (plan : List (Nat × Reaction)) (reported : Nat) : Nat :=
  plan.countP (addsTask reported)

/-- The bench after a reaction to a completion. -/
def react (b : Bench) : Reaction → Bench
  | .panics => b
  | .enqueues task =>
      match b.queue.enqueue task with
      | .ok queue => { b with queue, notes := b.notes ++ [.followUp (.ok ())] }
      | .error e => { b with notes := b.notes ++ [.followUp (.error e)] }
  | .abandons => { b with queue := b.queue.requestDiscard, abandoned := true }

/-- The bench after the callback was given a completed task. -/
def complete (b : Bench) (t : Task) : Bench :=
  let noted := { b with reported := b.reported + 1, notes := b.notes ++ [.completed t] }
  match b.plan.lookup b.reported with
  | none => noted
  | some reaction => noted.react reaction

/-- The bench after the worker's next step, if it has one. -/
def step (b : Bench) : Option Bench :=
  match b.queue.step b.board with
  | none => none
  | some (board, queue, none) => some { b with board, queue }
  | some (board, queue, some t) => some ({ b with board, queue }.complete t)

/-- A bound on the steps of the worker, tasks that the plan adds included. -/
def burden (b : Bench) : Nat := b.queue.burden + 4 * tasksAhead b.plan b.reported

/-! ## Termination -/

theorem tasksAhead_succ_le (plan : List (Nat × Reaction)) (n : Nat) :
    tasksAhead plan (n + 1) ≤ tasksAhead plan n := by
  apply List.countP_mono_left
  rintro ⟨number, reaction⟩ _ h
  cases reaction <;> simp_all [addsTask]
  omega

theorem tasksAhead_lt_of_lookup {plan : List (Nat × Reaction)} {n : Nat} {task : Task}
    (h : plan.lookup n = some (.enqueues task)) : tasksAhead plan (n + 1) < tasksAhead plan n := by
  induction plan with
  | nil => simp at h
  | cons entry rest ih =>
      obtain ⟨number, reaction⟩ := entry
      have hle := tasksAhead_succ_le rest n
      by_cases hn : n = number
      · subst hn
        simp only [List.lookup_cons_self, Option.some.injEq] at h
        subst h
        have hrest : tasksAhead ((n, Reaction.enqueues task) :: rest) (n + 1) =
            tasksAhead rest (n + 1) := by
          simp [tasksAhead, addsTask]
        have hhead : tasksAhead ((n, Reaction.enqueues task) :: rest) n =
            tasksAhead rest n + 1 := by
          simp [tasksAhead, addsTask]
        omega
      · have hbeq : (n == number) = false := by simpa using hn
        have hrest := ih (by simpa [List.lookup_cons, hbeq] using h)
        have hmono : addsTask (n + 1) (number, reaction) = true →
            addsTask n (number, reaction) = true := by
          cases reaction <;> simp_all [addsTask]
          omega
        unfold tasksAhead at hrest ⊢
        rw [List.countP_cons, List.countP_cons]
        split <;> split <;> simp_all
        omega

theorem burden_enqueue {q q' : ExecutionQueue} {t : Task} (h : q.enqueue t = .ok q') :
    q'.burden = q.burden + 4 := by
  unfold ExecutionQueue.enqueue at h
  split at h
  · simp at h
  · injection h with h
    subst h
    simp only [ExecutionQueue.burden, List.length_append, List.length_singleton]
    omega

theorem burden_complete_le (b : Bench) (t : Task) : (b.complete t).burden ≤ b.burden := by
  have hle := tasksAhead_succ_le b.plan b.reported
  unfold complete
  split
  · simp only [burden]
    omega
  · rename_i reaction hlookup
    cases reaction with
    | panics =>
        simp only [react, burden]
        omega
    | enqueues task =>
        have hlt := tasksAhead_lt_of_lookup hlookup
        simp only [react]
        split
        · rename_i queue hqueue
          have := burden_enqueue hqueue
          simp only [burden]
          omega
        · simp only [burden]
          omega
    | abandons =>
        have hsame : b.queue.requestDiscard.burden = b.queue.burden := rfl
        simp only [react, burden, hsame]
        omega

/-- Each step of the worker lowers the burden of the bench. -/
theorem burden_lt_of_step {b b' : Bench} (h : b.step = some b') : b'.burden < b.burden := by
  unfold step at h
  split at h
  · simp at h
  · rename_i hstep
    injection h with h
    subst h
    have := ExecutionQueue.burden_lt_of_step hstep
    simp only [burden]
    omega
  · rename_i board queue t hstep
    injection h with h
    subst h
    have hlt := ExecutionQueue.burden_lt_of_step hstep
    have hle := burden_complete_le { b with board, queue } t
    simp only [burden] at hle ⊢
    omega

/-! ## Operations -/

/-- The bench at rest: the worker has no step left. -/
def settle (b : Bench) : Bench :=
  match _h : b.step with
  | none => b
  | some next => settle next
termination_by b.burden
decreasing_by exact burden_lt_of_step ‹_›

/-- The bench at rest after its queue was changed. -/
def settleWith (b : Bench) (queue : ExecutionQueue) : Bench := settle { b with queue }

/-- A task offered to the queue. -/
def enqueue (b : Bench) (t : Task) : Result Unit × Bench :=
  match b.queue.enqueue t with
  | .ok queue => (.ok (), b.settleWith queue)
  | .error e => (.error e, b)

/-- New launches have their notices kept back, or not. What is kept back
stays so. -/
def hold (b : Bench) (on : Bool) : Bench :=
  { b with board := { b.board with holding := on } }

/-- The notice that is kept back let through; whether there was one. -/
def release (b : Bench) : Bool × Bench :=
  (b.queue.holdsNotice, b.settleWith b.queue.release)

/-- The whole backlog run, with no notice kept back. -/
def runBacklog (b : Bench) : Bench :=
  let held := b.board.holding
  ((b.hold false).settleWith b.queue.release).hold held

/-- The queue closed after its backlog. -/
def finish (b : Bench) : Bench := b.settleWith b.queue.requestDrain.release

/-- The queue closed and its backlog dropped; how many tasks were dropped over
the life of the queue. -/
def cancel (b : Bench) : Nat × Bench :=
  let b := b.settleWith b.queue.requestDiscard.release
  (b.queue.dropped, b)

/-- The queue dropped by its owner, which cancels it. -/
def drop (b : Bench) : Bench :=
  { b.cancel.2 with abandoned := true }

/-- The queue bound to another loaded program. -/
def setProgram (b : Bench) (program : String) : Bench :=
  { b with queue := b.queue.setProgram program }

/-- Every later launch of an entry point faults. -/
def failKernel (b : Bench) (entryPoint : String) : Bench :=
  { b with board := b.board.failKernel entryPoint }

/-- What was noted since this was last asked. -/
def takeNotes (b : Bench) : List Note × Bench := (b.notes, { b with notes := [] })

end Bench

end KernelDispatch
