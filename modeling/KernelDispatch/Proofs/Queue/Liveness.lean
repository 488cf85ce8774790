import KernelDispatch.Proofs.Queue.Course
import KernelDispatch.Proofs.Queue.Rest
import Mathlib.Data.List.Induction
import Mathlib.Data.Nat.Init

/-!
# A queue comes to rest

A worker asks for no move of the phase that the table does not have, and it never gets
stuck: while something is pending or in hand, or a request to close has not been granted,
it has a step to take as soon as the notice it waits for is let through. Each of its steps
lowers the burden of the queue, and of what clients do only an accepted task raises it. So
a queue that gets no further task comes to rest, provided that the worker and the device
go on at all; and a queue that was asked to close gets none.

How often worker and device have their turn is not for the queue to say. A play without
end is a row of moves, and it is fair if the worker takes steps again and again, and
notices are let through again and again. Nothing else is asked of it: clients may do what
they like in between, and every step of the worker finds a board of its own.

## Main definitions

* `ExecutionQueue.Blames` — the error on which a worker stops.
* `ExecutionQueue.Owes` — whether a client still waits for the worker.
* `ExecutionQueue.toil` — how much work the tasks on a queue still are.
* `ExecutionQueue.Fair` — plays in which worker and device go on.

## Main results

* `on_signal_of_turn` — every move of the phase is in the table.
* `step_release_isSome_iff` — when a worker has a step.
* `Course.eventually_not_owes` — a queue that gets no further task comes to rest.
* `Course.lively` — what follows for every queue at any moment.
-/

namespace KernelDispatch

namespace Board

variable {b : Board} {queue : Nat} {closing : Bool} {program : String} {t : Task}

/-- What a task makes of a configuration is a kernel, or an error of its own. -/
theorem materialize_ne_invalidTransition {phase signal : String} :
    (b.materialize program t).1 ≠ .error (.invalidTransition phase signal) := by
  unfold materialize
  split
  · simp
  · rename_i c _
    unfold Task.materialize Configuration.kernel
    dsimp only
    split
    · rename_i mishap _
      cases mishap <;> simp [Mishap.error]
    · split
      · simp [Except.map]
      · split
        · simp [Except.map]
        · rename_i e herror
          unfold Program.compile at herror
          split at herror
          · simp at herror
          · obtain rfl := Except.error.inj herror
            simp [Except.map]

/-- A launch knows nothing of the phase of its queue. -/
theorem launch_ne_invalidTransition {phase signal : String} :
    (b.launch queue closing program t).1 ≠ .error (.invalidTransition phase signal) := by
  unfold launch
  split
  · rename_i e board hmade
    intro h
    obtain rfl := Except.error.inj h
    exact materialize_ne_invalidTransition (congrArg Prod.fst hmade)
  · rename_i kernel board _
    split
    · rename_i e hsubmit
      unfold submit at hsubmit
      split at hsubmit
      · obtain rfl := Except.error.inj hsubmit
        simp
      · obtain rfl := Except.error.inj hsubmit
        simp [Mishap.error]
      · simp at hsubmit
    · simp

end Board

namespace ExecutionQueue

variable {q q' : ExecutionQueue} {b b' : Board} {done : Option Task} {d : Deed}

/-! ## Moves of the phase -/

/-- The signal that a deed sends to the phase. -/
def Deed.signal : Deed → Signal
  | .takes _ => .taskAvailable
  | .launches _ => .submitted
  | .reports _ => .deviceCompleted
  | .returns _ => .callbackReturned
  | .closes _ => .close
  | .faults _ _ => .fault

/-- The phase has the move that a deed asks for. -/
theorem on_signal_of_turn (h : Turn q d q') : q.phase.on d.signal = .ok q'.phase := by
  cases h with
  | takes hhand hphase => simp [hphase, Deed.signal, Phase.on]
  | launches hhand hphase => simp [hphase, Deed.signal, Phase.on]
  | reports hhand hphase => simp [hphase, Deed.signal, Phase.on]
  | returns hhand hphase => simp [hphase, Deed.signal, Phase.on]
  | closes hhand hphase => simp [hphase, Deed.signal, Phase.on]
  | faults hhand hphase e =>
      rw [phase_fail]
      cases q.phase <;> rfl

/-- The error on which a worker stops. -/
inductive Blames (b : Board) (q : ExecutionQueue) (e : Error) : Prop where
  /-- The task in hand is not launched. -/
  | launch {task : Task} {program : String} (hhand : q.hand = .taken task program)
      (herror : (b.launch q.deviceQueue q.shutdown.isSome program task).1 = .error e)
  /-- The launch of the task in hand is not reported as a success. -/
  | ending {task : Task} {notice : Notice} (hhand : q.hand = .launched task notice)
      (herror : notice.ending.await = .error e)

namespace Blames

variable {e : Error}

/-- No board and no task reports a move that the phase does not have. -/
theorem ne_invalidTransition (h : Blames b q e) (phase signal : String) :
    e ≠ .invalidTransition phase signal := by
  rintro rfl
  cases h with
  | @launch task program hhand herror => exact Board.launch_ne_invalidTransition herror
  | @ending task notice hhand herror =>
      cases hending : notice.ending <;> simp [hending, Ending.await] at herror

/-- A step that ends in a stop was stopped by an error of the task in hand. -/
theorem of_step_fail (hq : q.WellFormed) (hphase : q.phase.isBusy = true)
    (h : q.step b = some (b', q.fail e, done)) : ∃ e', Blames b q e' ∧ q.fail e = q.fail e' := by
  have hfits := hq.fits
  unfold step at h
  rw [if_neg (not_closed_of_isBusy hphase)] at h
  split at h
  · rename_i hhand
    rw [hhand] at hfits
    rcases hfits with hidle | hclosed
    · simp [hidle, Phase.isBusy] at hphase
    · simp [hclosed, Phase.isBusy] at hphase
  · rename_i task program hhand
    rw [hhand] at hfits
    split at h
    · rename_i e' board hlaunch
      simp only [Option.some.injEq, Prod.mk.injEq] at h
      exact ⟨e', .launch hhand (congrArg Prod.fst hlaunch), h.2.1.symm⟩
    · dsimp only at h
      rw [signal_of_on .inFlight (by simp [show q.phase = .dispatching from hfits, Phase.on])] at h
      simp only [Option.some.injEq, Prod.mk.injEq] at h
      simpa [phase_fail] using congrArg phase h.2.1
  · rename_i task notice hhand
    rw [hhand] at hfits
    split at h
    · simp at h
    · split at h
      · rename_i e' hending
        simp only [Option.some.injEq, Prod.mk.injEq] at h
        exact ⟨e', .ending hhand hending, h.2.1.symm⟩
      · dsimp only at h
        rw [signal_of_on .completing (by simp [show q.phase = .inFlight from hfits, Phase.on])] at h
        simp only [Option.some.injEq, Prod.mk.injEq] at h
        simpa [phase_fail] using congrArg phase h.2.1
  · rename_i task hhand
    rw [hhand] at hfits
    rw [signal_of_on .idle (by simp [show q.phase = .completing from hfits, Phase.on])] at h
    simp only [Option.some.injEq, Prod.mk.injEq] at h
    simpa [phase_fail] using congrArg phase h.2.1

/-- A worker stops on an error of its task or of the device, and on nothing else. -/
theorem of_step (hq : q.WellFormed) (h : q.step b = some (b', q', done)) :
    q'.fault = none ∨ ∃ e, Blames b q e ∧ q' = q.fail e := by
  obtain ⟨hturn, -⟩ := turn_of_step hq h
  generalize q.deed q' = d at hturn
  cases hturn with
  | takes hhand hphase => exact .inl (hq.unharmed (by simp [hphase])).2
  | launches hhand hphase => exact .inl (hq.unharmed (by simp [hphase])).2
  | reports hhand hphase => exact .inl (hq.unharmed (by simp [hphase])).2
  | returns hhand hphase => exact .inl (hq.unharmed (by simp [hphase])).2
  | closes hhand hphase => exact .inl (hq.unharmed (by simp [hphase])).2
  | faults hhand hphase e => exact .inr (of_step_fail hq hphase h)

end Blames

/-! ## Steps that are owed -/

/-- Whether a client still waits for the worker: for a task that is pending or in hand,
or for a request to close that has not been granted. -/
def Owes (q : ExecutionQueue) : Prop :=
  q.isIdle = false ∨ q.shutdown ≠ none ∧ q.phase ≠ .closed

theorem not_owes_iff :
    ¬ q.Owes ↔ q.isIdle = true ∧ (q.shutdown ≠ none → q.phase = .closed) := by
  simp [Owes]

theorem isIdle_release (q : ExecutionQueue) : q.release.isIdle = q.isIdle := by
  simp [isIdle]

theorem owes_release : q.release.Owes ↔ q.Owes := by
  simp [Owes, isIdle_release]

/-- A worker that owes a step and waits for no notice has one. -/
theorem step_isSome_of_owes (hq : q.WellFormed) (howes : q.Owes) (hnot : q.holdsNotice = false)
    (b : Board) : (q.step b).isSome := by
  rw [Option.isSome_iff_ne_none]
  intro hnone
  have hrests := rests_of_step_eq_none hq hnone
  refine not_owes_iff.2 ⟨hrests.isIdle hq hnot, fun hasked => ?_⟩ howes
  exact hrests.phase_eq_closed hasked hnot

/-- A worker that owes nothing has no step. -/
theorem step_eq_none_of_not_owes (hq : q.WellFormed) (h : ¬ q.Owes) (b : Board) :
    q.step b = none := by
  obtain ⟨hidle, hclosed⟩ := not_owes_iff.1 h
  by_cases hopen : q.shutdown = none
  · exact step_eq_none_of_idle hq hidle hopen b
  · simp [step, hclosed hopen]

/-- Once its notice is let through, a worker has a step exactly if it owes one. -/
theorem step_release_isSome_iff (hq : q.WellFormed) (b : Board) :
    (q.release.step b).isSome ↔ q.Owes := by
  constructor
  · intro hsome
    by_contra hnot
    have hnone := step_eq_none_of_not_owes hq.release (mt owes_release.1 hnot) b
    simp [hnone] at hsome
  · intro howes
    exact step_isSome_of_owes hq.release (owes_release.2 howes) (holdsNotice_release q) b

/-! ## What the tasks still cost -/

/-- How much work the tasks on a queue still are: four steps for one that is pending, and
what is left of them for the one in hand. -/
def toil (q : ExecutionQueue) : Nat := 4 * q.pending.length + q.phase.movesLeft

/-- A step that takes a task or brings it further leaves less to do. -/
theorem toil_lt_of_turn (h : Turn q d q') (hd : d.signal ≠ .close) : q'.toil < q.toil := by
  cases h with
  | takes hhand hphase hpending =>
      simp only [toil, hphase, hpending, Phase.movesLeft, List.length_cons]
      omega
  | launches hhand hphase => simp [toil, hphase, Phase.movesLeft]
  | reports hhand hphase => simp [toil, hphase, Phase.movesLeft]
  | returns hhand hphase => simp [toil, hphase, Phase.movesLeft]
  | closes => simp [Deed.signal] at hd
  | faults hhand hphase e =>
      have hleft : 0 < q.phase.movesLeft := by
        cases hp : q.phase <;> simp [hp, Phase.isBusy] at hphase <;> decide
      have hnone : (q.fail e).toil = 0 := by simp [toil, phase_fail, Phase.movesLeft]
      rw [hnone, toil]
      omega

/-- Nothing is left to do after a step that closes the queue. -/
theorem toil_of_closes (h : Turn q d q') (hd : d.signal = .close) : q'.toil = 0 := by
  cases h with
  | closes => rfl
  | takes => simp [Deed.signal] at hd
  | launches => simp [Deed.signal] at hd
  | reports => simp [Deed.signal] at hd
  | returns => simp [Deed.signal] at hd
  | faults => simp [Deed.signal] at hd

/-! ## Plays without end -/

/-- A play in which the worker takes steps again and again, and notices are let through
again and again. -/
structure Fair (moves : Nat → Move) : Prop where
  works : ∀ n, ∃ k ≥ n, ∃ board, moves k = .work board
  answers : ∀ n, ∃ k ≥ n, moves k = .release

/-- Worker and device take turns, each of them on a board as it happens to be then. -/
theorem fair_turns (boards : Nat → Board) :
    Fair fun n => if n % 2 = 0 then .work (boards n) else .release where
  works n := ⟨2 * n, by omega, boards (2 * n), by simp⟩
  answers n := ⟨2 * n + 1, by omega, by simp⟩

namespace Course

variable {c : Course}

/-- Whether a move puts a task on the queue. -/
def Takes (c : Course) (m : Move) : Prop :=
  ∃ task queue, m = .enqueue task ∧ c.queue.enqueue task = .ok queue

theorem not_takes_of_shutdown (h : c.queue.shutdown ≠ none) (m : Move) : ¬ c.Takes m := by
  rintro ⟨task, queue, rfl, hok⟩
  exact h (WellFormed.not_closed_of_enqueue hok).1

/-- A move that puts no task on the queue is a step of the worker, or it leaves all tasks
where they are and keeps no notice back. -/
theorem sameTasks_or_step {m : Move} (h : ¬ c.Takes m) :
    (SameTasks c.queue (c.play m).queue ∧
        (c.queue.holdsNotice = false → (c.play m).queue.holdsNotice = false)) ∨
      ∃ board b' done, m = .work board ∧
        c.queue.step board = some (b', (c.play m).queue, done) := by
  cases m with
  | enqueue task =>
      left
      cases hanswer : c.queue.enqueue task with
      | ok queue => exact absurd ⟨task, queue, rfl, hanswer⟩ h
      | error e =>
          simp only [play, hanswer]
          exact ⟨.refl _, id⟩
  | setProgram program => exact .inl ⟨.setProgram _ program, id⟩
  | finish => exact .inl ⟨.requestDrain _, id⟩
  | cancel => exact .inl ⟨.requestDiscard _, id⟩
  | release => exact .inl ⟨.release _, fun _ => holdsNotice_release _⟩
  | work board =>
      cases hstep : c.queue.step board with
      | none =>
          left
          simp only [play, hstep]
          exact ⟨.refl _, id⟩
      | some result =>
          obtain ⟨b', q', done⟩ := result
          simp only [play, hstep]
          exact .inr ⟨board, b', done, rfl, hstep⟩

/-- A request to close is not taken back. -/
theorem shutdown_play (hq : c.queue.WellFormed) (h : c.queue.shutdown ≠ none) (m : Move) :
    (c.play m).queue.shutdown ≠ none := by
  cases m with
  | enqueue task =>
      simp only [play]
      split
      · rename_i hok
        exact absurd (WellFormed.not_closed_of_enqueue hok).1 h
      · exact h
  | setProgram program => exact h
  | finish => simp [play, requestDrain]
  | cancel => simp [play, requestDiscard]
  | release => simpa [play] using h
  | work board =>
      simp only [play]
      split
      · rename_i hstep
        rw [shutdown_of_turn (turn_of_step hq hstep).1]
        exact h
      · exact h

/-- What a queue keeps while its worker takes no step and no task is put on it. -/
structure Stays (q q' : ExecutionQueue) : Prop where
  burden : q'.burden = q.burden
  owes : q.Owes → q'.Owes
  notice : q.holdsNotice = false → q'.holdsNotice = false

namespace Stays

theorem refl (q : ExecutionQueue) : Stays q q := ⟨rfl, id, id⟩

theorem trans {q'' : ExecutionQueue} (h : Stays q q') (h' : Stays q' q'') : Stays q q'' :=
  ⟨h'.burden.trans h.burden, h'.owes ∘ h.owes, h'.notice ∘ h.notice⟩

theorem of_sameTasks (hsame : SameTasks q q')
    (hshutdown : q.shutdown ≠ none → q'.shutdown ≠ none)
    (hnotice : q.holdsNotice = false → q'.holdsNotice = false) : Stays q q' where
  burden := by rw [ExecutionQueue.burden, hsame.pending, hsame.phase, ← ExecutionQueue.burden]
  owes := by
    rintro (hbusy | ⟨hasked, hopen⟩)
    · left
      rw [isIdle, hsame.pending, hsame.phase]
      exact hbusy
    · right
      rw [hsame.phase]
      exact ⟨hshutdown hasked, hopen⟩
  notice := hnotice

end Stays

/-- A move that puts no task on the queue lowers its burden, or leaves it as it stands. -/
theorem burden_lt_or_stays {m : Move} (hq : c.queue.WellFormed) (h : ¬ c.Takes m) :
    (c.play m).queue.burden < c.queue.burden ∨ Stays c.queue (c.play m).queue := by
  rcases sameTasks_or_step h with ⟨hsame, hnotice⟩ | ⟨board, b', done, -, hstep⟩
  · exact .inr (.of_sameTasks hsame (fun hasked => shutdown_play hq hasked m) hnotice)
  · exact .inl (burden_lt_of_step hstep)

/-- Nothing comes on an idle queue but by a client. -/
theorem isIdle_play {m : Move} (hq : c.queue.WellFormed) (h : ¬ c.Takes m)
    (hidle : c.queue.isIdle = true) : (c.play m).queue.isIdle = true := by
  rcases sameTasks_or_step h with ⟨hsame, -⟩ | ⟨board, b', done, -, hstep⟩
  · rw [isIdle, hsame.pending, hsame.phase]
    exact hidle
  · exact (closes_of_idle hidle (turn_of_step hq hstep).1).2.2.1

/-- Only tasks that are put on a queue, and steps of its worker, change what is to do. -/
theorem toil_play {m : Move} (htask : ∀ task, m ≠ .enqueue task)
    (hwork : ∀ board, m ≠ .work board) : (c.play m).queue.toil = c.queue.toil := by
  have hnot : ¬ c.Takes m := by
    rintro ⟨task, queue, rfl, -⟩
    exact htask task rfl
  rcases sameTasks_or_step hnot with ⟨hsame, -⟩ | ⟨board, b', done, rfl, -⟩
  · rw [toil, hsame.pending, hsame.phase, ← toil]
  · exact absurd rfl (hwork board)

/-- The course after the first moves of a play. -/
def after (c : Course) (moves : Nat → Move) : Nat → Course
  | 0 => c
  | n + 1 => (c.after moves n).play (moves n)

/-- A play is followed move by move. -/
theorem after_eq_run (c : Course) (moves : Nat → Move) (n : Nat) :
    c.after moves n = c.run ((List.range n).map moves) := by
  induction n with
  | zero => rfl
  | succ n ih =>
      rw [after, ih, List.range_succ, List.map_append, run_append]
      rfl

section Plays

variable {moves : Nat → Move}

theorem wellFormed_after (hq : c.queue.WellFormed) (n : Nat) :
    (c.after moves n).queue.WellFormed := by
  rw [after_eq_run]
  exact wellFormed_run hq _

theorem shutdown_after (hq : c.queue.WellFormed) (h : c.queue.shutdown ≠ none) (n : Nat) :
    (c.after moves n).queue.shutdown ≠ none := by
  induction n with
  | zero => exact h
  | succ n ih => exact shutdown_play (wellFormed_after hq n) ih _

variable (hq : c.queue.WellFormed) (hnot : ∀ n, ¬ (c.after moves n).Takes (moves n))

include hq hnot

theorem isIdle_after {n k : Nat} (hidle : (c.after moves n).queue.isIdle = true) (hk : n ≤ k) :
    (c.after moves k).queue.isIdle = true := by
  induction k, hk using Nat.le_induction with
  | base => exact hidle
  | succ k _ ih => exact isIdle_play (wellFormed_after hq k) (hnot k) ih

theorem burden_lt_or_stays_after {n k : Nat} (hk : n ≤ k) :
    (∃ j ≥ n, (c.after moves j).queue.burden < (c.after moves n).queue.burden) ∨
      Stays (c.after moves n).queue (c.after moves k).queue := by
  induction k, hk using Nat.le_induction with
  | base => exact .inr (.refl _)
  | succ k hk ih =>
      rcases ih with hlower | hstays
      · exact .inl hlower
      · rcases burden_lt_or_stays (wellFormed_after hq k) (hnot k) with hlt | hnext
        · exact .inl ⟨k + 1, by omega, hstays.burden ▸ hlt⟩
        · exact .inr (hstays.trans hnext)

/-- While a worker owes a step, the burden of its queue is lowered again and again. -/
theorem exists_burden_lt (hfair : Fair moves) {n : Nat} (howes : (c.after moves n).queue.Owes) :
    ∃ k ≥ n, (c.after moves k).queue.burden < (c.after moves n).queue.burden := by
  -- a notice is let through first, and then the worker has its turn
  obtain ⟨k, hk, hrelease⟩ := hfair.answers n
  obtain ⟨l, hl, board, hwork⟩ := hfair.works (k + 1)
  rcases burden_lt_or_stays_after hq hnot (show n ≤ k + 1 by omega) with hlower | hfirst
  · exact hlower
  rcases burden_lt_or_stays_after hq hnot hl with ⟨j, hj, hlower⟩ | hsecond
  · exact ⟨j, by omega, hfirst.burden ▸ hlower⟩
  have hlet : (c.after moves (k + 1)).queue.holdsNotice = false := by
    rw [after, hrelease]
    exact holdsNotice_release _
  have hstays := hfirst.trans hsecond
  have hsome := step_isSome_of_owes (wellFormed_after hq l) (hstays.owes howes)
    (hsecond.notice hlet) board
  obtain ⟨⟨b', q', done⟩, hstep⟩ := Option.isSome_iff_exists.1 hsome
  have hnext : (c.after moves (l + 1)).queue = q' := by
    simp only [after, hwork, play, hstep]
  refine ⟨l + 1, by omega, ?_⟩
  rw [hnext, ← hstays.burden]
  exact burden_lt_of_step hstep

/-- A queue that gets no further task comes to rest. -/
theorem eventually_not_owes (hfair : Fair moves) (n : Nat) :
    ∃ k ≥ n, ¬ (c.after moves k).queue.Owes := by
  induction hburden : (c.after moves n).queue.burden using Nat.strongRecOn generalizing n with
  | ind burden ih =>
      by_cases howes : (c.after moves n).queue.Owes
      · obtain ⟨k, hk, hlt⟩ := exists_burden_lt hq hnot hfair howes
        obtain ⟨l, hl, hnotowes⟩ := ih _ (hburden ▸ hlt) k rfl
        exact ⟨l, by omega, hnotowes⟩
      · exact ⟨n, Nat.le_refl n, howes⟩

end Plays

/-- On a queue that was asked to close, every fair play comes to its closing. -/
theorem eventually_closed {moves : Nat → Move} (hq : c.queue.WellFormed) (hfair : Fair moves)
    (hasked : c.queue.shutdown ≠ none) :
    ∃ n, ∀ k ≥ n, (c.after moves k).queue.phase = .closed := by
  have hnot : ∀ n, ¬ (c.after moves n).Takes (moves n) := fun n =>
    not_takes_of_shutdown (shutdown_after hq hasked n) _
  obtain ⟨n, -, hnotowes⟩ := eventually_not_owes hq hnot hfair 0
  refine ⟨n, fun k hk => ?_⟩
  induction k, hk using Nat.le_induction with
  | base => exact (not_owes_iff.1 hnotowes).2 (shutdown_after hq hasked n)
  | succ k _ ih => exact (closed_run ih [moves k]).1

/-- On a queue that gets no further task, every fair play comes to an end of all tasks. -/
theorem eventually_idle {moves : Nat → Move} (hq : c.queue.WellFormed) (hfair : Fair moves)
    (hno : ∀ n task, moves n ≠ .enqueue task) :
    ∃ n, ∀ k ≥ n, (c.after moves k).queue.isIdle = true := by
  have hnot : ∀ n, ¬ (c.after moves n).Takes (moves n) := by
    rintro n ⟨task, queue, htask, -⟩
    exact hno n task htask
  obtain ⟨n, -, hnotowes⟩ := eventually_not_owes hq hnot hfair 0
  exact ⟨n, fun k hk => isIdle_after hq hnot (not_owes_iff.1 hnotowes).1 hk⟩

/-! ## Stops -/

/-- A fault is there already, or the worker stops now on an error that it met. -/
theorem fault_play {text : String} (hq : c.queue.WellFormed) {m : Move}
    (h : (c.play m).queue.fault = some text) :
    c.queue.fault = some text ∨
      ∃ board e, m = .work board ∧ Blames board c.queue e ∧ text = e.message := by
  cases m with
  | enqueue task =>
      left
      simp only [play] at h
      split at h
      · rename_i hok
        obtain ⟨-, -, rfl⟩ := WellFormed.not_closed_of_enqueue hok
        exact h
      · exact h
  | setProgram program => exact .inl h
  | finish => exact .inl h
  | cancel => exact .inl h
  | release => exact .inl (by simpa [play] using h)
  | work board =>
      simp only [play] at h
      split at h
      · rename_i hstep
        rcases Blames.of_step hq hstep with hnone | ⟨e, hblames, rfl⟩
        · simp [hnone] at h
        · obtain rfl := Option.some.inj h
          exact .inr ⟨board, e, rfl, hblames, rfl⟩
      · exact .inl h

/-- What stopped a queue is an error that its worker met in one of the moves. -/
theorem fault_run {text : String} (hq : c.queue.WellFormed) (hnone : c.queue.fault = none)
    {moves : List Move} (h : (c.run moves).queue.fault = some text) :
    ∃ before board rest e, moves = before ++ .work board :: rest ∧
      Blames board (c.run before).queue e ∧ text = e.message := by
  induction moves using List.reverseRecOn with
  | nil => simp [run, hnone] at h
  | append_singleton moves m ih =>
      rw [run_append] at h
      rcases fault_play (wellFormed_run hq moves) h with hbefore | ⟨board, e, rfl, hblames, htext⟩
      · obtain ⟨before, board, rest, e, rfl, hblames, htext⟩ := ih hbefore
        exact ⟨before, board, rest ++ [m], e, by simp, hblames, htext⟩
      · exact ⟨moves, board, [], e, rfl, hblames, htext⟩

/-! ## A worker never gets stuck -/

/-- What holds of a queue at any moment, after the moves made on it. -/
structure Lively (made : Course) (moves : List Move) (q : ExecutionQueue) : Prop where
  /-- Each step moves the phase as the table allows. -/
  legal : ∀ {b b' q' done}, q.step b = some (b', q', done) →
    q.phase.on (q.deed q').signal = .ok q'.phase
  /-- What has stopped the worker, if anything has, is an error that it met with a task,
  and this is never a move that the phase does not have. -/
  stopped : ∀ {text}, q.fault = some text →
    ∃ before board rest e, moves = before ++ .work board :: rest ∧
      Blames board (made.run before).queue e ∧ text = e.message ∧
        ∀ phase signal, e ≠ .invalidTransition phase signal
  emptied : q.phase = .closed → q.pending = []
  /-- While a client waits for the worker it has a step, unless it waits for a notice. -/
  goes : q.Owes → q.holdsNotice = false → ∀ b, (q.step b).isSome
  /-- And it has none but then. -/
  goes_iff : ∀ b, (q.release.step b).isSome ↔ q.Owes
  /-- A step that takes a task or brings it further leaves less to do, and one that closes
  the queue leaves nothing. -/
  lowers : ∀ {b b' q' done}, q.step b = some (b', q', done) →
    if (q.deed q').signal = .close then q'.toil = 0 else q'.toil < q.toil
  /-- What else is done to the queue leaves it at that, unless it puts a task on it. -/
  keeps : ∀ {m past}, (∀ task, m ≠ .enqueue task) → (∀ board, m ≠ .work board) →
    (play ⟨q, past⟩ m).queue.toil = q.toil
  /-- Whoever waits for the queue returns, if there is no further task. -/
  waits : ∀ {play past}, Fair play → (∀ n task, play n ≠ .enqueue task) →
    ∃ n, ∀ k ≥ n, (after ⟨q, past⟩ play k).queue.isIdle = true
  /-- Whoever closes the queue returns, whatever is tried on it meanwhile. -/
  closes : ∀ {play past}, Fair play → q.shutdown ≠ none →
    ∃ n, ∀ k ≥ n, (after ⟨q, past⟩ play k).queue.phase = .closed

/-- Whatever clients, worker and device do and in whatever order, a queue never gets stuck. -/
theorem lively (kernel : String) (deviceQueue : Nat) (program : String) (moves : List Move) :
    Lively { queue := start kernel deviceQueue program } moves
      (ofNew kernel deviceQueue program moves).queue := by
  have hq := (kept_ofNew kernel deviceQueue program moves).wellFormed
  exact
    { legal := fun hstep => on_signal_of_turn (turn_of_step hq hstep).1
      stopped := fun hfault => by
        obtain ⟨before, board, rest, e, hmoves, hblames, htext⟩ :=
          fault_run (wellFormed_start kernel deviceQueue program) rfl hfault
        exact ⟨before, board, rest, e, hmoves, hblames, htext, hblames.ne_invalidTransition⟩
      emptied := hq.emptied
      goes := step_isSome_of_owes hq
      goes_iff := step_release_isSome_iff hq
      lowers := fun hstep => by
        obtain ⟨hturn, -⟩ := turn_of_step hq hstep
        split
        · rename_i hclose
          exact toil_of_closes hturn hclose
        · rename_i hclose
          exact toil_lt_of_turn hturn hclose
      keeps := fun htask hwork => toil_play htask hwork
      waits := fun hfair hno => eventually_idle hq hfair hno
      closes := fun hfair hasked => eventually_closed hq hfair hasked }

end Course

end ExecutionQueue

end KernelDispatch
