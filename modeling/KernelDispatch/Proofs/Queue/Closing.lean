import KernelDispatch.Proofs.Queue.Bench
import KernelDispatch.Proofs.Queue.Liveness

/-!
# How a queue is closed

A queue is closed in one of two ways. Asked to finish, it runs its backlog out first; asked
to cancel, it drops the backlog, and only the task that the worker has already taken may
still come to its callback. A request to cancel overrides one to finish, and not the other
way round. Both end alike: the queue is closed, nothing is pending, it takes no task any
more, and whatever is asked of it then changes nothing.

Where the tasks go is read off the account that a queue keeps of them. A queue that is
asked to cancel takes no further task, so those it has taken are the same ever after, and
what is not among them is pending or dropped. A queue that is asked to finish, and not to
cancel before it is closed, drops a task only on a fault.

A call to finish comes back when the worker is gone, and only then can its caller cancel the
queue. On the thread of the worker it comes back at once, so a callback that finishes its own
queue and then drops it has the backlog dropped. That a queue is not asked to cancel before it
is closed is therefore a condition, `CancelledLate`, and `Course.not_runsOut_of_cancelled` is a
course that does not meet it.

## Main results

* `Course.runsOut` — what a queue that was asked to finish does with its tasks.
* `Course.not_runsOut_of_cancelled` — a callback that finishes its queue and drops it.
* `Course.throwsAway` — what a queue that was asked to cancel does with them.
* `Bench.phase_finish`, `Bench.phase_cancel` — a closed queue, once the call returns.
* `Course.shutsDown` — the closing of a queue from any moment on.
-/

namespace KernelDispatch

namespace ExecutionQueue

namespace Course

variable {c : Course}

/-! ## What is seen stays seen -/

/-- Nothing that was seen of a queue is forgotten. -/
theorem past_prefix_play (c : Course) (m : Move) : c.past <+: (c.play m).past := by
  cases m with
  | enqueue task =>
      simp only [play]
      split <;> exact List.prefix_append _ _
  | setProgram program => exact List.prefix_rfl
  | finish => exact List.prefix_rfl
  | cancel => exact List.prefix_rfl
  | release => exact List.prefix_rfl
  | work board =>
      simp only [play]
      split
      · exact List.prefix_append _ _
      · exact List.prefix_rfl

theorem past_prefix_run (c : Course) (moves : List Move) : c.past <+: (c.run moves).past := by
  induction moves generalizing c with
  | nil => exact List.prefix_rfl
  | cons m moves ih => exact (past_prefix_play c m).trans (ih (c.play m))

/-- What has become of a task stays so. -/
theorem met_run (c : Course) (moves : List Move) (fate : Fate) :
    ∃ more, met fate (c.run moves).past = met fate c.past ++ more := by
  obtain ⟨later, hlater⟩ := past_prefix_run c moves
  exact ⟨met fate later, by rw [← hlater, met, List.flatMap_append]; rfl⟩

theorem kernel_play (hq : c.queue.WellFormed) (m : Move) :
    (c.play m).queue.kernel = c.queue.kernel := by
  cases m with
  | enqueue task =>
      simp only [play]
      split
      · rename_i hok
        obtain ⟨-, -, rfl⟩ := WellFormed.not_closed_of_enqueue hok
        rfl
      · rfl
  | setProgram program => rfl
  | finish => rfl
  | cancel => rfl
  | release =>
      simp only [play, release]
      split <;> rfl
  | work board =>
      simp only [play]
      split
      · rename_i hstep
        exact kernel_of_turn (turn_of_step hq hstep).1
      · rfl

theorem kernel_run (hq : c.queue.WellFormed) (moves : List Move) :
    (c.run moves).queue.kernel = c.queue.kernel := by
  induction moves generalizing c with
  | nil => rfl
  | cons m moves ih => exact (ih (wellFormed_play hq m)).trans (kernel_play hq m)

theorem shutdown_run (hq : c.queue.WellFormed) (h : c.queue.shutdown ≠ none)
    (moves : List Move) : (c.run moves).queue.shutdown ≠ none := by
  induction moves generalizing c with
  | nil => exact h
  | cons m moves ih => exact ih (wellFormed_play hq m) (shutdown_play hq h m)

/-! ## No task comes on a closing queue -/

theorem enqueue_of_shutdown {q : ExecutionQueue} (h : q.shutdown ≠ none) (task : Task) :
    q.enqueue task = .error (.queueClosed q.kernel) := by
  simp [enqueue, isClosing, Option.isSome_iff_ne_none, h]

theorem accepted_play (h : c.queue.shutdown ≠ none) (m : Move) :
    met .accepted (c.play m).past = met .accepted c.past := by
  cases m with
  | enqueue task => simp [play, enqueue_of_shutdown h, Event.tasks]
  | setProgram program => rfl
  | finish => rfl
  | cancel => rfl
  | release => rfl
  | work board =>
      simp only [play]
      split
      · rename_i queue _ _
        cases hdeed : c.queue.deed queue <;> simp [Event.tasks, Deed.tasks]
      · rfl

/-- The accepted tasks of a queue that was asked to close are the same ever after. -/
theorem accepted_run (hq : c.queue.WellFormed) (h : c.queue.shutdown ≠ none)
    (moves : List Move) : met .accepted (c.run moves).past = met .accepted c.past := by
  induction moves generalizing c with
  | nil => rfl
  | cons m moves ih =>
      exact (ih (wellFormed_play hq m) (shutdown_play hq h m)).trans (accepted_play h m)

/-! ## Nothing moves on a closed queue -/

theorem sameTasks_play_of_closed (h : c.queue.phase = .closed) (m : Move) :
    SameTasks c.queue (c.play m).queue := by
  have hnot : ¬ c.Takes m := by
    rintro ⟨task, queue, -, hok⟩
    exact (WellFormed.not_closed_of_enqueue hok).2.1 h
  rcases sameTasks_or_step hnot with ⟨hsame, -⟩ | ⟨board, b', done, -, hstep⟩
  · exact hsame
  · simp [step, h] at hstep

/-- Whatever is asked of a closed queue, all its tasks and counters are as they were. -/
theorem sameTasks_run_of_closed (h : c.queue.phase = .closed) (moves : List Move) :
    SameTasks c.queue (c.run moves).queue := by
  induction moves generalizing c with
  | nil => exact .refl _
  | cons m moves ih =>
      have hsame := sameTasks_play_of_closed h m
      exact hsame.trans (ih (hsame.phase.trans h))

/-! ## Running out -/

/-- Whether the queue is closed by the time it is asked to cancel, if it is. -/
def CancelledLate (c : Course) (later : List Move) : Prop :=
  ∀ before rest, later = before ++ .cancel :: rest → (c.run before).queue.phase = .closed

theorem cancelledLate_of_not_mem {later : List Move} (h : .cancel ∉ later) :
    CancelledLate c later := by
  rintro before rest rfl
  simp at h

namespace CancelledLate

variable {m : Move} {later : List Move}

theorem head (h : CancelledLate c (m :: later)) (hm : m = .cancel) :
    c.queue.phase = .closed := by
  subst hm
  exact h [] later rfl

theorem tail (h : CancelledLate c (m :: later)) : CancelledLate (c.play m) later := by
  rintro before rest rfl
  exact h (m :: before) rest rfl

end CancelledLate

/-- A queue that does not drop its backlog, and has dropped nothing but on a fault. -/
structure Unspoilt (q : ExecutionQueue) : Prop where
  dropped : q.fault = none → q.dropped = 0
  mode : q.shutdown ≠ some .discard ∨ q.phase = .closed

theorem unspoilt_turn {q q' : ExecutionQueue} {d : Deed} (h : Unspoilt q) (hturn : Turn q d q') :
    Unspoilt q' := by
  cases hturn with
  | takes hhand hphase => exact ⟨h.dropped, .inl (h.mode.resolve_right (by simp [hphase]))⟩
  | launches hhand hphase => exact ⟨h.dropped, .inl (h.mode.resolve_right (by simp [hphase]))⟩
  | reports hhand hphase => exact ⟨h.dropped, .inl (h.mode.resolve_right (by simp [hphase]))⟩
  | returns hhand hphase => exact ⟨h.dropped, .inl (h.mode.resolve_right (by simp [hphase]))⟩
  | closes hhand hphase hasked =>
      have hmode := h.mode.resolve_right (by simp [hphase])
      obtain ⟨-, hpending⟩ := hasked.resolve_left hmode
      exact ⟨by simpa [hpending] using h.dropped, .inr rfl⟩
  | faults hhand hphase e => exact ⟨by simp, .inr (phase_fail q e)⟩

theorem unspoilt_play {m : Move} (hq : c.queue.WellFormed) (h : Unspoilt c.queue)
    (hm : m = .cancel → c.queue.phase = .closed) : Unspoilt (c.play m).queue := by
  cases m with
  | enqueue task =>
      simp only [play]
      split
      · rename_i hok
        obtain ⟨-, -, rfl⟩ := WellFormed.not_closed_of_enqueue hok
        exact ⟨h.dropped, h.mode⟩
      · exact h
  | setProgram program => exact ⟨h.dropped, h.mode⟩
  | finish =>
      refine ⟨h.dropped, h.mode.imp_left fun hmode => ?_⟩
      cases hasked : c.queue.shutdown with
      | none => simp [play, requestDrain, hasked]
      | some mode => simpa [play, requestDrain, hasked] using hmode
  | cancel => exact ⟨h.dropped, .inr (hm rfl)⟩
  | release => exact ⟨by simpa [play] using h.dropped, by simpa [play] using h.mode⟩
  | work board =>
      simp only [play]
      split
      · rename_i hstep
        exact unspoilt_turn h (turn_of_step hq hstep).1
      · exact h

theorem unspoilt_run {later : List Move} (hq : c.queue.WellFormed) (h : Unspoilt c.queue)
    (hlate : CancelledLate c later) : Unspoilt (c.run later).queue := by
  induction later generalizing c with
  | nil => exact h
  | cons m later ih => exact ih (wellFormed_play hq m) (unspoilt_play hq h hlate.head) hlate.tail

/-- What a queue that was asked to finish has done with its tasks, and will do. -/
structure RunsOut (before last : Course) : Prop where
  none_dropped : last.queue.dropped = 0
  /-- The tasks accepted before are those whose callback is over, the one in hand and those
  that are still pending, in this order. -/
  in_order : offered (met .accepted before.past) =
    offered (met .returned last.past) ++
      offered (last.queue.hand.task?.toList ++ last.queue.pending)
  /-- In the end each of them has had its callback. -/
  all : last.queue.phase = .closed →
    offered (met .returned last.past) = offered (met .accepted before.past)

/-- A queue without a fault that was asked to finish, and not to cancel before it was
closed, runs its tasks to the last. -/
theorem runsOut {later : List Move} (h : Kept c.queue c.past) (hunspoilt : Unspoilt c.queue)
    (hlate : CancelledLate (c.play .finish) later)
    (hfault : ((c.play .finish).run later).queue.fault = none) :
    RunsOut c ((c.play .finish).run later) := by
  have hfinish := kept_play h .finish
  have hasked : (c.play .finish).queue.shutdown ≠ none := by simp [play, requestDrain]
  have hlast := kept_run hfinish later
  have haccounted := accounted_of_kept hlast
  have hdropped : ((c.play .finish).run later).queue.dropped = 0 :=
    (unspoilt_run hfinish.wellFormed (unspoilt_play h.wellFormed hunspoilt (by simp))
      hlate).dropped hfault
  have hdiscarded : met .discarded ((c.play .finish).run later).past = [] := by
    rw [← List.length_eq_zero_iff, ← hlast.dropped, hdropped]
  have hlost : met .lost ((c.play .finish).run later).past = [] := by
    by_contra hne
    simpa [hfault] using haccounted.lost_iff_fault.1 hne
  have haccepted : met .accepted ((c.play .finish).run later).past = met .accepted c.past :=
    accepted_run hfinish.wellFormed hasked later
  have horder := haccounted.in_order
  rw [haccepted, hdiscarded, hlost, List.append_nil, List.append_nil, List.append_assoc,
    ← offered_append] at horder
  refine ⟨hdropped, horder, fun hclosed => ?_⟩
  have hhand : ((c.play .finish).run later).queue.hand.task? = none := by
    simpa [hclosed, Phase.isBusy] using haccounted.held_iff_busy
  rw [hhand, haccounted.closed hclosed] at horder
  simpa using horder.symm

/-- A board with one configuration of one kernel. -/
def oneProgram : Board :=
  Board.keep default { name := "p", program := { name := "p", entryPoints := ["k"] } }

/-- The callback of the first task is running, and the second task is pending. -/
def inCallback : List Move :=
  [.enqueue { kernel := "k" }, .enqueue { kernel := "k" },
    .work oneProgram, .work oneProgram, .work oneProgram]

/-- This callback finishes its own queue and drops it, and the worker closes the queue. -/
def droppedInCallback : Course :=
  ((ofNew "k" 0 "p" inCallback).play .finish).run [.cancel, .work oneProgram, .work oneProgram]

/-- Nobody asked to cancel before, and there is no fault, and yet the second task is dropped. -/
theorem not_runsOut_of_cancelled :
    .cancel ∉ inCallback ∧ droppedInCallback.queue.phase = .closed ∧
      droppedInCallback.queue.fault = none ∧ droppedInCallback.queue.dropped = 1 ∧
        ¬ RunsOut (ofNew "k" 0 "p" inCallback) droppedInCallback := by
  refine ⟨by simp [inCallback], by decide, by decide, by decide, fun h => ?_⟩
  exact absurd h.none_dropped (by decide)

/-! ## Throwing away -/

theorem taken_play (hq : c.queue.WellFormed) (h : c.queue.shutdown = some .discard) (m : Move) :
    met .taken (c.play m).past = met .taken c.past ∧
      (c.play m).queue.shutdown = some .discard := by
  cases m with
  | enqueue task =>
      have hrefused := enqueue_of_shutdown (q := c.queue) (by simp [h]) task
      simpa [play, hrefused, Event.tasks] using h
  | setProgram program => exact ⟨rfl, h⟩
  | finish => exact ⟨rfl, by simp [play, requestDrain, h]⟩
  | cancel => exact ⟨rfl, rfl⟩
  | release => exact ⟨rfl, by simpa [play] using h⟩
  | work board =>
      simp only [play]
      split
      · rename_i queue _ hstep
        obtain ⟨hturn, -⟩ := turn_of_step hq hstep
        refine ⟨?_, (shutdown_of_turn hturn).trans h⟩
        generalize c.queue.deed queue = d at hturn
        cases hturn with
        | takes hhand hphase hpending hopen => exact absurd h hopen
        | launches => simp [Event.tasks, Deed.tasks]
        | reports => simp [Event.tasks, Deed.tasks]
        | returns => simp [Event.tasks, Deed.tasks]
        | closes => simp [Event.tasks, Deed.tasks]
        | faults => simp [Event.tasks, Deed.tasks]
      · exact ⟨rfl, h⟩

/-- A worker that is to drop the backlog takes no further task. -/
theorem taken_run (hq : c.queue.WellFormed) (h : c.queue.shutdown = some .discard)
    (moves : List Move) : met .taken (c.run moves).past = met .taken c.past := by
  induction moves generalizing c with
  | nil => rfl
  | cons m moves ih =>
      obtain ⟨hmet, hdiscard⟩ := taken_play hq h m
      exact (ih (wellFormed_play hq m) hdiscard).trans hmet

/-- What a queue that was asked to cancel has done with its tasks, and will do. -/
structure ThrowsAway (before last : Course) : Prop where
  taken : met .taken last.past = met .taken before.past
  /-- At most one callback begins, and it is that of the task which the worker held. -/
  callbacks : ∃ more, met .reported last.past = met .reported before.past ++ more ∧
    offered more <+: offered before.queue.hand.unreported?.toList
  /-- The tasks that were pending are pending or dropped, each of them once. -/
  pending : offered (last.queue.pending ++ met .discarded last.past) =
    offered (before.queue.pending ++ met .discarded before.past)
  dropped : last.queue.dropped + last.queue.pending.length =
    before.queue.dropped + before.queue.pending.length
  /-- In the end all of them are dropped. -/
  all : last.queue.phase = .closed →
    last.queue.dropped = before.queue.dropped + before.queue.pending.length

/-- A queue that was asked to cancel drops what is pending, also if the task in hand goes
wrong, and runs no callback but that of the task in hand. -/
theorem throwsAway (h : Kept c.queue c.past) (later : List Move) :
    ThrowsAway c ((c.play .cancel).run later) := by
  have hcancel := kept_play h .cancel
  have hlast := kept_run hcancel later
  have htaken : met .taken ((c.play .cancel).run later).past = met .taken c.past :=
    taken_run hcancel.wellFormed rfl later
  have haccepted : met .accepted ((c.play .cancel).run later).past = met .accepted c.past :=
    accepted_run hcancel.wellFormed (by simp [play, requestDiscard]) later
  have hpending : offered (((c.play .cancel).run later).queue.pending ++
      met .discarded ((c.play .cancel).run later).past) =
        offered (c.queue.pending ++ met .discarded c.past) := by
    -- the accepted tasks are those taken and these
    have horder := hlast.order
    rw [← hlast.taken, htaken, haccepted, h.order, ← h.taken] at horder
    exact (List.append_cancel_left horder).symm
  have hdropped : ((c.play .cancel).run later).queue.dropped +
      ((c.play .cancel).run later).queue.pending.length =
        c.queue.dropped + c.queue.pending.length := by
    have hlength := congrArg List.length hpending
    simp only [length_offered, List.length_append] at hlength
    rw [hlast.dropped, h.dropped]
    omega
  refine ⟨htaken, ?_, hpending, hdropped, fun hclosed => ?_⟩
  · by_cases hclosed : c.queue.phase = .closed
    · have hreported : met .reported ((c.play .cancel).run later).past = met .reported c.past :=
        (closed_run (c := c.play .cancel) hclosed later).2 .reported
      exact ⟨[], by simp [hreported], List.nil_prefix⟩
    · obtain ⟨more, hmore⟩ := met_run (c.play .cancel) later .reported
      have hheld := hlast.taken
      rw [htaken, h.taken, hmore, (h.unharmed hclosed).2.1, List.append_nil, offered_append,
        List.append_assoc] at hheld
      exact ⟨more, hmore, ⟨_, (List.append_cancel_left hheld).symm⟩⟩
  · rw [← hdropped, hlast.wellFormed.emptied hclosed, List.length_nil, Nat.add_zero]

end Course

end ExecutionQueue

/-! ## On a bench -/

namespace Bench

open ExecutionQueue (Course Kept)

variable {b b' : Bench}

/-- A bench whose queue was asked to close and waits for no notice. -/
structure Parting (b : Bench) : Prop where
  wellFormed : b.queue.WellFormed
  asked : b.queue.shutdown ≠ none
  notice : b.queue.holdsNotice = false

namespace Parting

/-- A callback puts no task on a queue that was asked to close. -/
theorem react_enqueues (h : b.queue.shutdown ≠ none) (task : Task) :
    b.react (.enqueues task) =
      { b with notes := b.notes ++ [.followUp (.error (.queueClosed b.queue.kernel))] } := by
  simp only [react, Course.enqueue_of_shutdown h]

theorem react (h : Parting b) (r : Reaction) : Parting (b.react r) := by
  cases r with
  | panics => exact h
  | enqueues task =>
      rw [react_enqueues h.asked]
      exact ⟨h.wellFormed, h.asked, h.notice⟩
  | abandons =>
      exact ⟨h.wellFormed.requestDiscard, by simp [Bench.react, ExecutionQueue.requestDiscard],
        h.notice⟩

theorem complete (h : Parting b) (t : Task) : Parting (b.complete t) := by
  have hnoted : Parting
      { b with reported := b.reported + 1, notes := b.notes ++ [.completed t] } :=
    ⟨h.wellFormed, h.asked, h.notice⟩
  unfold Bench.complete
  split
  · exact hnoted
  · exact hnoted.react _

theorem step (h : Parting b) (hstep : b.step = some b') : Parting b' := by
  have hnext : ∀ {board queue done}, b.queue.step b.board = some (board, queue, done) →
      Parting { b with board, queue } := by
    intro board queue done hqueue
    have hturn := (ExecutionQueue.turn_of_step h.wellFormed hqueue).1
    refine ⟨h.wellFormed.step hqueue, ?_,
      ExecutionQueue.holdsNotice_of_step (.inr h.asked) hqueue⟩
    rw [ExecutionQueue.shutdown_of_turn hturn]
    exact h.asked
  unfold Bench.step at hstep
  split at hstep
  · simp at hstep
  · rename_i hqueue
    rw [← Option.some.inj hstep]
    exact hnext hqueue
  · rename_i hqueue
    rw [← Option.some.inj hstep]
    exact (hnext hqueue).complete _

/-- The worker of such a bench comes to rest with its queue closed. -/
theorem phase_settle (h : Parting b) : b.settle.queue.phase = .closed := by
  induction b using settle.induct with
  | case1 b hnone =>
      rw [settle.eq_def]
      split
      · have hrest : b.queue.step b.board = none := by
          unfold Bench.step at hnone
          split at hnone
          · assumption
          · simp at hnone
          · simp at hnone
        exact (ExecutionQueue.rests_of_step_eq_none h.wellFormed hrest).phase_eq_closed h.asked
          h.notice
      · rename_i hsome
        simp [hnone] at hsome
  | case2 b next hnext ih =>
      rw [settle.eq_def]
      split
      · rename_i hnone
        simp [hnone] at hnext
      · rename_i next' hnext'
        rw [hnext, Option.some.injEq] at hnext'
        rw [← hnext']
        exact ih (h.step hnext)

end Parting

/-- The queue is closed when a request to finish returns. -/
theorem phase_finish (hq : b.queue.WellFormed) : b.finish.queue.phase = .closed :=
  Parting.phase_settle
    ⟨hq.requestDrain.release, by simp [ExecutionQueue.requestDrain],
      ExecutionQueue.holdsNotice_release _⟩

/-- The queue is closed when a request to cancel returns. -/
theorem phase_cancel (hq : b.queue.WellFormed) : b.cancel.2.queue.phase = .closed :=
  Parting.phase_settle
    ⟨hq.requestDiscard.release, by simp [ExecutionQueue.requestDiscard],
      ExecutionQueue.holdsNotice_release _⟩

/-- A request to cancel tells how many tasks were dropped, and these are all that were
pending when it was made and those dropped before. -/
theorem dropped_cancel {past : List ExecutionQueue.Event} (h : Kept b.queue past) :
    b.cancel.1 = b.queue.dropped + b.queue.pending.length := by
  have hreleased := h.wellFormed.requestDiscard.release
  obtain ⟨moves, later, hrun, -⟩ :=
    leads_settle (b := { b with queue := b.queue.requestDiscard.release }) hreleased
  have hcourse : (Course.play ⟨b.queue, past⟩ .cancel).run (.release :: moves) =
      ⟨b.cancel.2.queue, past ++ later⟩ := hrun past
  have hthrown := (Course.throwsAway (c := ⟨b.queue, past⟩) h (.release :: moves)).all
  rw [hcourse] at hthrown
  exact hthrown (phase_cancel h.wellFormed)

end Bench

/-! ## Closing at any moment -/

namespace ExecutionQueue

namespace Course

/-- What holds at any moment of the closing of a queue, after the moves made on it. -/
structure ShutsDown (kernel : String) (moves : List Move) (c : Course) : Prop where
  /-- Asked to finish, and not to cancel before it is closed, the queue runs its backlog out. -/
  finish : .cancel ∉ moves → ∀ {later}, CancelledLate (c.play .finish) later →
    ((c.play .finish).run later).queue.fault = none →
      RunsOut c ((c.play .finish).run later)
  /-- Asked to cancel, it drops its backlog, whatever was asked before. -/
  cancel : ∀ later, ThrowsAway c ((c.play .cancel).run later)
  /-- Asked to do either, it is closed in the end. -/
  closes : ∀ {play}, Fair play → c.queue.shutdown ≠ none →
    ∃ n, ∀ k ≥ n, (c.after play k).queue.phase = .closed
  /-- And from the request on it takes no task, from a client or from a callback. -/
  refuses : c.queue.shutdown ≠ none → ∀ later task,
    (c.run later).queue.enqueue task = .error (.queueClosed kernel) ∧
      ((c.run later).play (.enqueue task)).queue = (c.run later).queue ∧
        ∀ b : Bench, b.queue = (c.run later).queue →
          b.enqueue task = (.error (.queueClosed kernel), b) ∧
            b.react (.enqueues task) =
              { b with notes := b.notes ++ [.followUp (.error (.queueClosed kernel))] }
  /-- When a call to finish returns, the queue is closed. -/
  finished : ∀ b : Bench, b.queue = c.queue → b.finish.queue.phase = .closed
  /-- When a call to cancel returns, the queue is closed as well, and the answer is how
  many tasks it has dropped in all. -/
  cancelled : ∀ b : Bench, b.queue = c.queue →
    b.cancel.2.queue.phase = .closed ∧ b.cancel.1 = b.cancel.2.queue.dropped ∧
      b.cancel.1 = c.queue.dropped + c.queue.pending.length
  /-- Nothing is pending on a closed queue, and nothing that is asked of it changes its
  tasks or counters. -/
  closed : c.queue.phase = .closed →
    c.queue.pending = [] ∧ ∀ later, SameTasks c.queue (c.run later).queue

/-- A queue closes as it was asked to, at whatever moment the requests come and in whatever
order. -/
theorem shutsDown (kernel : String) (deviceQueue : Nat) (program : String) (moves : List Move) :
    ShutsDown kernel moves (ofNew kernel deviceQueue program moves) := by
  have hkept := kept_ofNew kernel deviceQueue program moves
  have hq := hkept.wellFormed
  have hkernel : (ofNew kernel deviceQueue program moves).queue.kernel = kernel :=
    kernel_run (wellFormed_start kernel deviceQueue program) moves
  refine
    { finish := fun hnot _ hlate hfault => runsOut hkept ?_ hlate hfault
      cancel := throwsAway hkept
      closes := fun hfair hasked => eventually_closed hq hfair hasked
      refuses := fun hasked later task => ?_
      finished := fun b hb => Bench.phase_finish (by rw [hb]; exact hq)
      cancelled := fun b hb => ?_
      closed := fun hclosed => ⟨hq.emptied hclosed, sameTasks_run_of_closed hclosed⟩ }
  · exact unspoilt_run (c := { queue := start kernel deviceQueue program })
      (wellFormed_start kernel deviceQueue program) ⟨fun _ => rfl, .inl (by simp [start])⟩
      (cancelledLate_of_not_mem hnot)
  · have hlast := enqueue_of_shutdown (shutdown_run hq hasked later) task
    rw [kernel_run hq, hkernel] at hlast
    refine ⟨hlast, by simp only [play, hlast], fun b hb => ?_⟩
    constructor
    · simp only [Bench.enqueue, hb, hlast]
    · simp only [Bench.react, hb, hlast]
  · have hb' : Kept b.queue (ofNew kernel deviceQueue program moves).past := by rw [hb]; exact hkept
    refine ⟨Bench.phase_cancel hb'.wellFormed, rfl, ?_⟩
    rw [Bench.dropped_cancel hb', hb]

end Course

end ExecutionQueue

end KernelDispatch
