import KernelDispatch.Queue.Basic

/-!
# The worker of a queue

The worker takes the first pending task, makes its kernel against the program
that is bound at that moment, launches it, waits for the notice and hands the
completed task to the callback. Each of these is one step, and between any two
of them clients may act on the queue.

A request to close is looked at before a task is taken. An error on the way, in
the task's own code or on the device, is a fault: it closes the queue and drops
the backlog, and the task in hand is neither completed nor dropped.

Every step either completes the work of a task a little further or closes the
queue, so the worker cannot run for ever; `burden_lt_of_step` says so with the
measure of `ExecutionQueue.burden`.

## Main results

* `ExecutionQueue.step` — the worker's next step, if it has one.
* `burden_lt_of_step` — each step lowers the burden.
-/

namespace KernelDispatch.ExecutionQueue

/-- The queue stopped by an error: closed, its backlog dropped. -/
def fail (q : ExecutionQueue) (e : Error) : ExecutionQueue :=
  { q with
    dropped := q.dropped + q.pending.length
    pending := []
    hand := .empty
    phase :=
      match q.phase.on .fault with
      | .ok next => next
      | .error _ => .closed
    fault := some e.message }

/-- The queue moved on by a signal; a signal that does not fit is a fault. -/
def signal (q : ExecutionQueue) (s : Signal) : ExecutionQueue :=
  match q.phase.on s with
  | .ok phase => { q with phase }
  | .error e => q.fail e

/-- The queue with its backlog dropped. -/
def dropPending (q : ExecutionQueue) : ExecutionQueue :=
  { q with dropped := q.dropped + q.pending.length, pending := [] }

/-- The step of a worker with empty hands: close if that is asked for and can
be, else take the first pending task. -/
def nextTask (q : ExecutionQueue) : Option ExecutionQueue :=
  match q.shutdown, q.pending with
  | some .discard, _ => some (q.dropPending.signal .close)
  | some .drain, [] => some (q.signal .close)
  | none, [] => none
  | _, task :: rest =>
      some ({ q with pending := rest, hand := .taken task q.program }.signal .taskAvailable)

/-- The worker's next step: the board and the queue after it, and the task that
was completed by it. The worker of a closed queue is gone, and one that waits
for work or for a notice that is kept back has no step. -/
def step (b : Board) (q : ExecutionQueue) : Option (Board × ExecutionQueue × Option Task) :=
  if q.phase = .closed then none
  else
    match q.hand with
    | .empty => q.nextTask.map fun q => (b, q, none)
    | .taken task program =>
        match b.launch q.deviceQueue q.shutdown.isSome program task with
        | (.error e, b) => some (b, q.fail e, none)
        | (.ok notice, b) =>
            let task := { task with configuration := some program }
            some (b, { q with hand := .launched task notice }.signal .submitted, none)
    | .launched task notice =>
        if notice.held then none
        else
          match notice.ending.await with
          | .error e => some (b, q.fail e, none)
          | .ok _ =>
              let task := { task with duration := some notice.span }
              some (b, { q with hand := .reporting task }.signal .deviceCompleted, some task)
    | .reporting _ =>
        some (b, { q with hand := .empty, completed := q.completed + 1 }.signal .callbackReturned,
          none)

/-! ## Termination -/

theorem phase_fail (q : ExecutionQueue) (e : Error) : (q.fail e).phase = .closed := by
  cases h : q.phase <;> simp [fail, h, Phase.on]

theorem burden_fail (q : ExecutionQueue) (e : Error) : (q.fail e).burden = 0 := by
  have h := phase_fail q e
  simp only [burden, h]
  simp [fail, Phase.movesLeft]

/-- A signal leads to a phase with fewer moves ahead, or closes the queue, but
for the one that takes a task. -/
theorem movesLeft_lt_of_on {p next : Phase} {s : Signal} (h : p.on s = .ok next)
    (hs : s ≠ .taskAvailable) (hp : p ≠ .closed) :
    next.movesLeft + (if next = .closed then 0 else 1) < p.movesLeft + 1 := by
  cases p <;> cases s <;> cases next <;> simp_all [Phase.on, Phase.movesLeft]

theorem burden_signal_lt (q : ExecutionQueue) (s : Signal) (hs : s ≠ .taskAvailable)
    (hq : q.phase ≠ .closed) : (q.signal s).burden < q.burden := by
  unfold signal
  split
  · rename_i next h
    have := movesLeft_lt_of_on h hs hq
    simp only [burden, if_neg hq]
    omega
  · rw [burden_fail]
    simp [burden, hq]

/-- Taking a task opens three further moves. -/
theorem burden_signal_taskAvailable_le (q : ExecutionQueue) (hq : q.phase ≠ .closed) :
    (q.signal .taskAvailable).burden ≤ q.burden + 3 := by
  unfold signal
  split
  · rename_i next h
    have hnext : next = .dispatching := by
      cases hp : q.phase <;> simp_all [Phase.on]
    subst hnext
    simp [burden, Phase.movesLeft, hq]
  · rw [burden_fail]
    omega

theorem burden_dropPending_le (q : ExecutionQueue) : q.dropPending.burden ≤ q.burden := by
  have hphase : q.dropPending.phase = q.phase := rfl
  have hpending : q.dropPending.pending = [] := rfl
  unfold burden
  rw [hphase, hpending]
  simp only [List.length_nil]
  omega

theorem burden_lt_of_nextTask {q q' : ExecutionQueue} (hq : q.phase ≠ .closed)
    (h : q.nextTask = some q') : q'.burden < q.burden := by
  unfold nextTask at h
  split at h
  · injection h with h
    subst h
    exact Nat.lt_of_lt_of_le (burden_signal_lt q.dropPending .close (by decide) hq)
      (burden_dropPending_le q)
  · injection h with h
    subst h
    exact burden_signal_lt q .close (by decide) hq
  · simp at h
  · rename_i task rest hpending _
    injection h with h
    subst h
    have hle := burden_signal_taskAvailable_le
      { q with pending := rest, hand := .taken task q.program } hq
    have heq : burden { q with pending := rest, hand := .taken task q.program } + 4 = q.burden := by
      simp only [burden, hpending, List.length_cons]
      omega
    omega

/-- Each step of the worker lowers the burden of its queue. -/
theorem burden_lt_of_step {b b' : Board} {q q' : ExecutionQueue} {t : Option Task}
    (h : q.step b = some (b', q', t)) : q'.burden < q.burden := by
  unfold step at h
  split at h
  · simp at h
  · rename_i hq
    have hf : ∀ e, (q.fail e).burden < q.burden := by
      intro e
      rw [burden_fail]
      simp [burden, hq]
    split at h
    · obtain ⟨next, hnext, heq⟩ := Option.map_eq_some_iff.1 h
      simp only [Prod.mk.injEq] at heq
      rw [← heq.2.1]
      exact burden_lt_of_nextTask hq hnext
    · split at h
      · simp only [Option.some.injEq, Prod.mk.injEq] at h
        rw [← h.2.1]
        exact hf _
      · simp only [Option.some.injEq, Prod.mk.injEq] at h
        rw [← h.2.1]
        exact burden_signal_lt { q with hand := _ } .submitted (by decide) hq
    · split at h
      · simp at h
      · split at h
        · simp only [Option.some.injEq, Prod.mk.injEq] at h
          rw [← h.2.1]
          exact hf _
        · simp only [Option.some.injEq, Prod.mk.injEq] at h
          rw [← h.2.1]
          exact burden_signal_lt { q with hand := _ } .deviceCompleted (by decide) hq
    · simp only [Option.some.injEq, Prod.mk.injEq] at h
      rw [← h.2.1]
      exact burden_signal_lt { q with hand := _, completed := _ } .callbackReturned (by decide) hq

end KernelDispatch.ExecutionQueue
