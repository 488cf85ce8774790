import KernelDispatch.Proofs.Queue.Turn

/-!
# Where a worker comes to rest

The worker of a queue has no step left in three cases only: the queue is closed,
or it has nothing to do and nobody asked it to close, or it waits for a notice
that is kept back. Notices are kept back by the board, and never for a queue that
was asked to close. So a queue that was asked to close is closed once its worker
is at rest, unless the notice of a launch made before is still kept back.

## Main results

* `ExecutionQueue.rests_of_step_eq_none` — the three cases.
* `ExecutionQueue.Unheld.step` — when no notice is kept back.
-/

namespace KernelDispatch

namespace Board

/-- A launch leaves it to others whether notices are kept back. -/
theorem holding_launch (b : Board) (queue : Nat) (closing : Bool) (configuration : String)
    (t : Task) : (b.launch queue closing configuration t).2.holding = b.holding := by
  unfold launch materialize submit
  cases b.configurations.get? configuration with
  | none => rfl
  | some c =>
      dsimp only
      cases (t.materialize c).1 with
      | error e => rfl
      | ok kernel =>
          dsimp only
          split
          · rename_i hsubmit
            split at hsubmit
            · rfl
            · rfl
            · rfl
          · rename_i notice board hsubmit
            split at hsubmit
            · simp at hsubmit
            · simp at hsubmit
            · simp only [Except.ok.injEq, Prod.mk.injEq] at hsubmit
              rw [← hsubmit.2]

/-- A notice is kept back if the board does so and the queue is not closing. -/
theorem held_of_launch {b : Board} {queue : Nat} {closing : Bool} {configuration : String}
    {t : Task} {notice : Notice} (h : (b.launch queue closing configuration t).1 = .ok notice) :
    notice.held = (b.holding && !closing) := by
  unfold launch materialize submit at h
  cases hget : b.configurations.get? configuration with
  | none => simp [hget] at h
  | some c =>
      rw [hget] at h
      dsimp only at h
      cases hmade : (t.materialize c).1 with
      | error e => simp [hmade] at h
      | ok kernel =>
          rw [hmade] at h
          dsimp only at h
          split at h
          · simp at h
          · rename_i made board hsubmit
            obtain rfl := Except.ok.inj h
            split at hsubmit
            · simp at hsubmit
            · simp at hsubmit
            · simp only [Except.ok.injEq, Prod.mk.injEq] at hsubmit
              rw [← hsubmit.1]

end Board

namespace ExecutionQueue

variable {q q' : ExecutionQueue} {b b' : Board} {done : Option Task}

/-- Where a worker can come to rest. -/
inductive Rests (q : ExecutionQueue) : Prop where
  | closed (h : q.phase = .closed)
  | idle (h : q.isIdle = true) (hopen : q.shutdown = none)
  | held (h : q.holdsNotice = true)

theorem rests_of_step_eq_none (hq : q.WellFormed) (h : q.step b = none) : q.Rests := by
  by_cases hclosed : q.phase = .closed
  · exact .closed hclosed
  · have hfits := hq.fits
    unfold step at h
    rw [if_neg hclosed] at h
    split at h
    · rename_i hhand
      rw [hhand] at hfits
      have hphase : q.phase = .idle := hfits.resolve_right hclosed
      rw [Option.map_eq_none_iff] at h
      unfold nextTask at h
      split at h
      · simp at h
      · simp at h
      · rename_i hopen hpending
        refine .idle ?_ hopen
        simp [isIdle, hphase, hpending, Phase.isBusy]
      · simp at h
    · split at h <;> simp at h
    · rename_i task notice hhand
      split at h
      · rename_i hheld
        refine .held ?_
        simp [holdsNotice, hhand, hheld]
      · split at h <;> simp at h
    · simp at h

/-- Nothing is left on a queue whose worker is at rest without a notice to wait
for. -/
theorem Rests.isIdle (h : q.Rests) (hq : q.WellFormed) (hnot : q.holdsNotice = false) :
    q.isIdle = true := by
  cases h with
  | closed h => exact isIdle_of_closed hq h
  | idle h => exact h
  | held h => simp [hnot] at h

/-- A queue that was asked to close is closed in the end. -/
theorem Rests.phase_eq_closed (h : q.Rests) (hasked : q.shutdown ≠ none)
    (hnot : q.holdsNotice = false) : q.phase = .closed := by
  cases h with
  | closed h => exact h
  | idle _ hopen => exact absurd hopen hasked
  | held h => simp [hnot] at h

/-- The worker of an idle queue that nobody asked to close has no step. -/
theorem step_eq_none_of_idle (hq : q.WellFormed) (hidle : q.isIdle = true)
    (hopen : q.shutdown = none) (b : Board) : q.step b = none := by
  cases h : q.step b with
  | none => rfl
  | some result =>
      obtain ⟨board, next, done⟩ := result
      obtain ⟨hturn, -⟩ := turn_of_step hq h
      exact absurd hopen (closes_of_idle hidle hturn).2.1

theorem holding_of_step (h : q.step b = some (b', q', done)) : b'.holding = b.holding := by
  unfold step at h
  split at h
  · simp at h
  · split at h
    · obtain ⟨next, -, heq⟩ := Option.map_eq_some_iff.1 h
      simp only [Prod.mk.injEq] at heq
      rw [← heq.1]
    · rename_i task program hhand
      have hlaunch := Board.holding_launch b q.deviceQueue q.shutdown.isSome program task
      split at h
      · rename_i e board heq
        simp only [Option.some.injEq, Prod.mk.injEq] at h
        rw [heq] at hlaunch
        rw [← h.1]
        exact hlaunch
      · rename_i notice board heq
        simp only [Option.some.injEq, Prod.mk.injEq] at h
        rw [heq] at hlaunch
        rw [← h.1]
        exact hlaunch
    · split at h
      · simp at h
      · split at h
        · simp only [Option.some.injEq, Prod.mk.injEq] at h
          rw [h.1]
        · simp only [Option.some.injEq, Prod.mk.injEq] at h
          rw [h.1]
    · simp only [Option.some.injEq, Prod.mk.injEq] at h
      rw [h.1]

/-- A signal does not touch what the worker holds, or leaves it with empty
hands. -/
theorem holdsNotice_signal {s : Signal} (h : q.holdsNotice = false) :
    (q.signal s).holdsNotice = false := by
  unfold signal
  split
  · exact h
  · rfl

theorem holdsNotice_of_nextTask (hhand : q.hand = .empty) (h : q.nextTask = some q') :
    q'.holdsNotice = false := by
  unfold nextTask at h
  split at h
  · obtain rfl := Option.some.inj h
    refine holdsNotice_signal ?_
    simp [holdsNotice, dropPending, hhand]
  · obtain rfl := Option.some.inj h
    refine holdsNotice_signal ?_
    simp [holdsNotice, hhand]
  · simp at h
  · obtain rfl := Option.some.inj h
    exact holdsNotice_signal rfl

/-- The notice that a step brings is not kept back, if the board keeps none back or
the queue was asked to close. -/
theorem holdsNotice_of_step (hfree : b.holding = false ∨ q.shutdown ≠ none)
    (h : q.step b = some (b', q', done)) : q'.holdsNotice = false := by
  unfold step at h
  split at h
  · simp at h
  · split at h
    · rename_i hhand
      obtain ⟨next, hnext, heq⟩ := Option.map_eq_some_iff.1 h
      simp only [Prod.mk.injEq] at heq
      rw [← heq.2.1]
      exact holdsNotice_of_nextTask hhand hnext
    · rename_i task program hhand
      split at h
      · simp only [Option.some.injEq, Prod.mk.injEq] at h
        rw [← h.2.1]
        rfl
      · rename_i notice board heq
        have hheld : notice.held = false := by
          have hok : (b.launch q.deviceQueue q.shutdown.isSome program task).1 = .ok notice := by
            rw [heq]
          rw [Board.held_of_launch hok]
          rcases hfree with hfree | hasked
          · simp [hfree]
          · simp [Option.isSome_iff_ne_none, hasked]
        simp only [Option.some.injEq, Prod.mk.injEq] at h
        rw [← h.2.1]
        exact holdsNotice_signal (by simp [holdsNotice, hheld])
    · split at h
      · simp at h
      · split at h
        · simp only [Option.some.injEq, Prod.mk.injEq] at h
          rw [← h.2.1]
          rfl
        · simp only [Option.some.injEq, Prod.mk.injEq] at h
          rw [← h.2.1]
          exact holdsNotice_signal rfl
    · simp only [Option.some.injEq, Prod.mk.injEq] at h
      rw [← h.2.1]
      exact holdsNotice_signal rfl

@[simp] theorem holdsNotice_release (q : ExecutionQueue) : q.release.holdsNotice = false := by
  cases hhand : q.hand <;> simp [release, holdsNotice, hhand]

/-- A queue whose notices are let through, now and for as long as its worker goes
on. -/
structure Unheld (b : Board) (q : ExecutionQueue) : Prop where
  free : b.holding = false ∨ q.shutdown ≠ none
  notice : q.holdsNotice = false

theorem Unheld.step (hunheld : Unheld b q) (hq : q.WellFormed)
    (h : q.step b = some (b', q', done)) : Unheld b' q' := by
  refine ⟨?_, holdsNotice_of_step hunheld.free h⟩
  rw [holding_of_step h, shutdown_of_turn (turn_of_step hq h).1]
  exact hunheld.free

end ExecutionQueue

end KernelDispatch
