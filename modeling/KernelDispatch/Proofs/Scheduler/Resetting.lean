import KernelDispatch.Proofs.Scheduler.Accounts

/-!
# Accounts after a reset

A reset removes all queues, and the tasks that they have dropped enter the
metrics. The task that a worker was holding when a fault stopped it enters them
only where the fault is collected. A reset does not collect faults: such a task
stays submitted and is counted nowhere else from then on.

## Main results

* `Course.submitted_after_reset` — what is missing after a reset.
* `Course.reset_loses_task` — a run in which something is missing.
-/

namespace KernelDispatch.Scheduler

variable {c c' : Course} {m : Move}

/-- Right after a reset there are no queues. -/
def Bare (c : Course) : Prop :=
  ∀ finish, c.past.getLast? = some (.cleared finish) →
    ∀ kernel, c.scheduler.queues.get? kernel = none

namespace Bare

theorem change (h : Bare c) (hchange : Change c m c') : Bare c' := by
  intro finish hlast kernel
  cases hchange with
  | tends f hqueues =>
      rw [hqueues, NameMap.get?_mapWithName, h finish hlast kernel]
      rfl
  | accepts => simp at hlast
  | refuses => simp at hlast
  | works => simp at hlast
  | collects => simp [Course.collected] at hlast
  | clears => exact get?_clear _ kernel

theorem ofBlueprint (p : Blueprint) (device : Device) (directory : Directory)
    {moves : List Move} (hmoves : ∀ m ∈ moves, m ≠ .resetMetrics) :
    Bare (.ofBlueprint p device directory moves) := by
  refine Course.run_induction_counting hmoves (fun _ _ h hchange => h.change hchange)
    (.assemble p device directory) ?_
  intro finish hlast
  simp at hlast

theorem total_eq_zero (h : Bare c) {finish : Option (List Error)}
    (hlast : c.past.getLast? = some (.cleared finish)) (count : ExecutionQueue → Nat) :
    c.scheduler.queues.total count = 0 := by
  apply NameMap.total_eq_zero
  intro kernel queue hqueue
  rw [h finish hlast kernel] at hqueue
  simp at hqueue

end Bare

namespace Course

/-- Right after a reset, exactly the tasks that were in hand when a fault stopped
their queue are missing, if a reset has thrown away that queue before the fault
was collected. -/
theorem submitted_after_reset (p : Blueprint) (device : Device) (directory : Directory)
    {moves : List Move} (hmoves : ∀ m ∈ moves, m ≠ .resetMetrics)
    {finish : Option (List Error)}
    (hlast : (ofBlueprint p device directory moves).past.getLast? = some (.cleared finish)) :
    (ofBlueprint p device directory moves).scheduler.books.metrics.submitted =
        (ofBlueprint p device directory moves).scheduler.books.metrics.completed +
          (ofBlueprint p device directory moves).scheduler.books.metrics.dropped +
            (ofBlueprint p device directory moves).scheduler.books.metrics.deviceFaults +
              UInt64.ofNat (tally (ofBlueprint p device directory moves).past).forgotten ∧
      (Balances (ofBlueprint p device directory moves).scheduler.books.metrics ↔
        UInt64.ofNat (tally (ofBlueprint p device directory moves).past).forgotten = 0) := by
  have hbooked := Booked.ofBlueprint p device directory hmoves
  have hzero := (Bare.ofBlueprint p device directory hmoves).total_eq_zero hlast
  have hlaw := hbooked.submitted_eq
  rw [hzero, hzero, hzero, show UInt64.ofNat (0 + 0 + 0) = 0 from rfl, UInt64.add_zero] at hlaw
  refine ⟨hlaw, ?_⟩
  rw [Balances, hlaw]
  constructor
  · intro heq
    exact (UInt64.add_right_inj _).1 (heq.trans (UInt64.add_zero _).symm)
  · intro heq
    rw [heq, UInt64.add_zero]

/-- A task goes wrong on its way to the device, and a reset follows before anyone
has waited. -/
def faultThenReset : List Move :=
  [.insertConfiguration "cfg" (Image.encode ["k"]),
    .addTask { kernel := "k", recipe := { mishap := some (.refuses "no arguments") } },
    .work "k", .work "k", .reset, .clear]

theorem submitted_after_faultThenReset :
    (∀ m ∈ faultThenReset, m ≠ .resetMetrics) ∧
      (ofBlueprint {} default { path := "" } faultThenReset).past.getLast? =
        some (.cleared none) ∧
      ¬ Balances
        (ofBlueprint {} default { path := "" } faultThenReset).scheduler.books.metrics := by
  have hmoves : ∀ m ∈ faultThenReset, m ≠ .resetMetrics := by simp [faultThenReset]
  have hlast : (ofBlueprint {} default { path := "" } faultThenReset).past.getLast? =
      some (.cleared none) := rfl
  have hforgotten :
      (tally (ofBlueprint {} default { path := "" } faultThenReset).past).forgotten = 1 := by decide
  refine ⟨hmoves, hlast, fun hbalances => ?_⟩
  have hzero := (submitted_after_reset {} default { path := "" } hmoves hlast).2.1 hbalances
  rw [hforgotten] at hzero
  exact absurd hzero (by decide)

/-- The task of that run was submitted and is counted nowhere else. -/
theorem reset_loses_task :
    ∃ moves, (∀ m ∈ moves, m ≠ .resetMetrics) ∧
      (ofBlueprint {} default { path := "" } moves).past.getLast? = some (.cleared none) ∧
        ¬ Balances (ofBlueprint {} default { path := "" } moves).scheduler.books.metrics :=
  ⟨faultThenReset, by simp [faultThenReset], rfl, by decide⟩

end Course

end KernelDispatch.Scheduler
