import KernelDispatch.Proofs.Queue.Turn
import KernelDispatch.Queue.Bench
import Mathlib.Tactic.ByContra

/-!
# The course of a queue

Clients and the worker of a queue act in any order. A course is a queue together
with what has been seen of it so far, and it is played by a list of moves, which
may be any list at all: a client's call can come at any moment, also while a
callback runs, and each step of the worker finds the board as it happens to be
then. A move that cannot be made leaves the course as it is.

On the way to its callback a task is given the configuration that it was made
against and the time that it took. `Task.asOffered` forgets both, so that tasks
can be compared from their acceptance to their end.

## Main results

* `Course.Kept` — where the accepted tasks are, in the order of acceptance.
* `Course.Kept.play` — every move keeps it.
* `Course.accepted_in_order` — what follows for every course of a queue.
-/

namespace KernelDispatch

/-- The task as it was offered: without what its dispatch has added to it. -/
def Task.asOffered (t : Task) : Task := { t with configuration := none, duration := none }

@[simp] theorem Task.asOffered_configuration (t : Task) (c : Option String) :
    ({ t with configuration := c } : Task).asOffered = t.asOffered := rfl

@[simp] theorem Task.asOffered_duration (t : Task) (d : Option Nat) :
    ({ t with duration := d } : Task).asOffered = t.asOffered := rfl

/-- Tasks as they were offered. -/
def offered (tasks : List Task) : List Task := tasks.map Task.asOffered

@[simp] theorem offered_nil : offered [] = [] := rfl

@[simp] theorem offered_cons (t : Task) (tasks : List Task) :
    offered (t :: tasks) = t.asOffered :: offered tasks := rfl

@[simp] theorem offered_append (ts us : List Task) :
    offered (ts ++ us) = offered ts ++ offered us := List.map_append

@[simp] theorem length_offered (tasks : List Task) : (offered tasks).length = tasks.length :=
  List.length_map _

namespace ExecutionQueue

/-- What clients and the worker may do to a queue. -/
inductive Move where
  | enqueue (task : Task)
  | setProgram (program : String)
  | finish
  | cancel
  /-- A notice that is kept back is let through. -/
  | release
  /-- The worker takes its next step on the board as it is then. -/
  | work (board : Board)

/-- What is seen of a queue. -/
inductive Event where
  | accepted (task : Task)
  | refused (task : Task)
  | worked (deed : Deed)
deriving DecidableEq

/-- A queue and what has been seen of it, oldest first. -/
structure Course where
  queue : ExecutionQueue
  past : List Event := []

namespace Course

/-- The course after a move. -/
def play (c : Course) : Move → Course
  | .enqueue task =>
      match c.queue.enqueue task with
      | .ok queue => ⟨queue, c.past ++ [.accepted task]⟩
      | .error _ => { c with past := c.past ++ [.refused task] }
  | .setProgram program => { c with queue := c.queue.setProgram program }
  | .finish => { c with queue := c.queue.requestDrain }
  | .cancel => { c with queue := c.queue.requestDiscard }
  | .release => { c with queue := c.queue.release }
  | .work board =>
      match c.queue.step board with
      | some (_, queue, _) => ⟨queue, c.past ++ [.worked (c.queue.deed queue)]⟩
      | none => c

/-- The course after these moves. -/
def run (c : Course) (moves : List Move) : Course := moves.foldl play c

/-- The course of a new queue. -/
def ofNew (kernel : String) (deviceQueue : Nat) (program : String) (moves : List Move) : Course :=
  run { queue := start kernel deviceQueue program } moves

end Course

/-! ## What has become of the tasks -/

/-- The tasks that meet a fate in an event, in their order. -/
def Event.tasks : Fate → Event → List Task
  | .accepted, .accepted task => [task]
  | fate, .worked deed => deed.tasks fate
  | _, _ => []

/-- The tasks that have met a fate, in the order in which they met it. -/
def met (fate : Fate) (past : List Event) : List Task := past.flatMap (Event.tasks fate)

@[simp] theorem met_snoc (fate : Fate) (past : List Event) (e : Event) :
    met fate (past ++ [e]) = met fate past ++ e.tasks fate := by
  simp [met]

/-- Where the accepted tasks are. The callbacks that have begun come first; the
last of them may still be running. -/
structure Kept (q : ExecutionQueue) (past : List Event) : Prop where
  wellFormed : q.WellFormed
  order : offered (met .accepted past) =
    offered (met .reported past) ++ offered (q.hand.unreported?.toList ++ met .lost past) ++
      offered (q.pending ++ met .discarded past)
  taken : offered (met .taken past) =
    offered (met .reported past) ++ offered (q.hand.unreported?.toList ++ met .lost past)
  running : met .returned past ++ q.hand.task?.toList =
    met .reported past ++ q.hand.unreported?.toList
  completed : q.completed = (met .returned past).length
  dropped : q.dropped = (met .discarded past).length
  lost : q.faultCount = (met .lost past).length

namespace Kept

variable {q q' : ExecutionQueue} {past : List Event}

/-- Nothing is lost or dropped while a queue is open. -/
theorem unharmed (h : Kept q past) (hphase : q.phase ≠ .closed) :
    q.fault = none ∧ met .lost past = [] ∧ met .discarded past = [] := by
  obtain ⟨hnone, hfault⟩ := h.wellFormed.unharmed hphase
  have hlost := h.lost
  have hdropped := h.dropped
  rw [faultCount, hfault] at hlost
  rw [hnone] at hdropped
  exact ⟨hfault, List.length_eq_zero_iff.1 hlost.symm, List.length_eq_zero_iff.1 hdropped.symm⟩

/-- A task moves on to its next place, and the order stays. -/
theorem order_worked {d : Deed} (h : Kept q past) (hturn : Turn q d q') :
    offered (met .accepted (past ++ [.worked d])) =
      offered (met .reported (past ++ [.worked d])) ++
        offered (q'.hand.unreported?.toList ++ met .lost (past ++ [.worked d])) ++
          offered (q'.pending ++ met .discarded (past ++ [.worked d])) := by
  have horder := h.order
  cases hturn with
  | takes hhand hphase hpending =>
      obtain ⟨-, hlost, hdiscarded⟩ := h.unharmed (by simp [hphase])
      rw [hhand, hlost, hdiscarded, hpending] at horder
      simpa [Event.tasks, Deed.tasks, hlost, hdiscarded] using horder
  | launches hhand =>
      rw [hhand] at horder
      simpa [Event.tasks, Deed.tasks] using horder
  | reports hhand =>
      rw [hhand] at horder
      simpa [Event.tasks, Deed.tasks] using horder
  | returns hhand =>
      rw [hhand] at horder
      simpa [Event.tasks, Deed.tasks] using horder
  | closes hhand hphase =>
      obtain ⟨-, -, hdiscarded⟩ := h.unharmed (by simp [hphase])
      rw [hhand, hdiscarded] at horder
      simpa [Event.tasks, Deed.tasks, hhand, hdiscarded] using horder
  | faults hhand hphase e =>
      obtain ⟨-, hlost, hdiscarded⟩ := h.unharmed (not_closed_of_isBusy hphase)
      rw [hhand, hlost, hdiscarded] at horder
      simpa [Event.tasks, Deed.tasks, hlost, hdiscarded] using horder

theorem taken_worked {d : Deed} (h : Kept q past) (hturn : Turn q d q') :
    offered (met .taken (past ++ [.worked d])) =
      offered (met .reported (past ++ [.worked d])) ++
        offered (q'.hand.unreported?.toList ++ met .lost (past ++ [.worked d])) := by
  have htaken := h.taken
  cases hturn with
  | takes hhand hphase =>
      obtain ⟨-, hlost, -⟩ := h.unharmed (by simp [hphase])
      rw [hhand, hlost] at htaken
      simpa [Event.tasks, Deed.tasks, hlost] using htaken
  | launches hhand =>
      rw [hhand] at htaken
      simpa [Event.tasks, Deed.tasks] using htaken
  | reports hhand =>
      rw [hhand] at htaken
      simpa [Event.tasks, Deed.tasks] using htaken
  | returns hhand =>
      rw [hhand] at htaken
      simpa [Event.tasks, Deed.tasks] using htaken
  | closes hhand =>
      rw [hhand] at htaken
      simpa [Event.tasks, Deed.tasks, hhand] using htaken
  | faults hhand hphase e =>
      obtain ⟨-, hlost, -⟩ := h.unharmed (not_closed_of_isBusy hphase)
      rw [hhand, hlost] at htaken
      simpa [Event.tasks, Deed.tasks, hlost] using htaken

theorem running_worked {d : Deed} (h : Kept q past) (hturn : Turn q d q') :
    met .returned (past ++ [.worked d]) ++ q'.hand.task?.toList =
      met .reported (past ++ [.worked d]) ++ q'.hand.unreported?.toList := by
  have hrunning := h.running
  cases hturn with
  | faults hhand =>
      rw [Hand.task?_of_unreported? hhand, hhand] at hrunning
      simpa [Event.tasks, Deed.tasks] using hrunning
  | takes hhand =>
      rw [hhand] at hrunning
      simpa [Event.tasks, Deed.tasks] using hrunning
  | launches hhand =>
      rw [hhand] at hrunning
      simpa [Event.tasks, Deed.tasks] using hrunning
  | reports hhand =>
      rw [hhand] at hrunning
      simpa [Event.tasks, Deed.tasks] using hrunning
  | returns hhand =>
      rw [hhand] at hrunning
      simpa [Event.tasks, Deed.tasks] using hrunning
  | closes hhand =>
      rw [hhand] at hrunning
      simpa [Event.tasks, Deed.tasks, hhand] using hrunning

/-- Every deed of the worker keeps the accepted tasks in their places. -/
theorem worked {d : Deed} (h : Kept q past) (hturn : Turn q d q') :
    Kept q' (past ++ [.worked d]) where
  wellFormed := h.wellFormed.turn hturn
  order := h.order_worked hturn
  taken := h.taken_worked hturn
  running := h.running_worked hturn
  completed := by
    rw [completed_of_turn hturn, h.completed]
    simp [Event.tasks]
  dropped := by
    rw [dropped_of_turn hturn, h.dropped]
    simp [Event.tasks]
  lost := by
    rw [faultCount_of_turn h.wellFormed hturn, h.lost]
    simp [Event.tasks]

/-- What clients do to a queue leaves all its tasks where they are. -/
theorem of_sameTasks (h : Kept q past) (hwell : q'.WellFormed) (hsame : SameTasks q q') :
    Kept q' past where
  wellFormed := hwell
  order := by rw [hsame.unreported, hsame.pending, h.order]
  taken := by rw [hsame.unreported, h.taken]
  running := by rw [hsame.held, hsame.unreported, h.running]
  completed := by rw [hsame.completed, h.completed]
  dropped := by rw [hsame.dropped, h.dropped]
  lost := by rw [faultCount, hsame.fault, ← h.lost, faultCount]

theorem accepted {t : Task} (h : Kept q past) (hok : q.enqueue t = .ok q') :
    Kept q' (past ++ [.accepted t]) := by
  have hwell := h.wellFormed.enqueue hok
  obtain ⟨-, hopen, rfl⟩ := WellFormed.not_closed_of_enqueue hok
  obtain ⟨-, hnolost, hnodiscarded⟩ := h.unharmed hopen
  refine ⟨hwell, ?_, ?_, ?_, ?_, ?_, ?_⟩
  · simp [Event.tasks, h.order, hnodiscarded]
  · simpa [Event.tasks] using h.taken
  · simpa [Event.tasks] using h.running
  · simpa [Event.tasks] using h.completed
  · simpa [Event.tasks] using h.dropped
  · simpa [Event.tasks, faultCount] using h.lost

theorem refused (h : Kept q past) (t : Task) : Kept q (past ++ [.refused t]) := by
  refine ⟨h.wellFormed, ?_, ?_, ?_, ?_, ?_, ?_⟩
  · simpa [Event.tasks] using h.order
  · simpa [Event.tasks] using h.taken
  · simpa [Event.tasks] using h.running
  · simpa [Event.tasks] using h.completed
  · simpa [Event.tasks] using h.dropped
  · simpa [Event.tasks] using h.lost

end Kept

namespace Course

/-- Every move keeps the accepted tasks in their places. -/
theorem kept_play {c : Course} (h : Kept c.queue c.past) (m : Move) :
    Kept (c.play m).queue (c.play m).past := by
  have hwell := h.wellFormed
  cases m with
  | enqueue task =>
      simp only [play]
      split
      · rename_i hok
        exact h.accepted hok
      · exact h.refused task
  | setProgram program => exact h.of_sameTasks (hwell.setProgram program) (.setProgram _ program)
  | finish => exact h.of_sameTasks hwell.requestDrain (.requestDrain _)
  | cancel => exact h.of_sameTasks hwell.requestDiscard (.requestDiscard _)
  | release => exact h.of_sameTasks hwell.release (.release _)
  | work board =>
      simp only [play]
      split
      · rename_i hstep
        exact h.worked (turn_of_step hwell hstep).1
      · exact h

theorem kept_run {c : Course} (h : Kept c.queue c.past) (moves : List Move) :
    Kept (c.run moves).queue (c.run moves).past := by
  induction moves generalizing c with
  | nil => exact h
  | cons m moves ih => exact ih (kept_play h m)

theorem kept_ofNew (kernel : String) (deviceQueue : Nat) (program : String) (moves : List Move) :
    Kept (ofNew kernel deviceQueue program moves).queue
      (ofNew kernel deviceQueue program moves).past := by
  refine kept_run (c := { queue := start kernel deviceQueue program }) ?_ moves
  exact ⟨wellFormed_start _ _ _, rfl, rfl, rfl, rfl, rfl, rfl⟩

theorem run_append (c : Course) (moves moves' : List Move) :
    c.run (moves ++ moves') = (c.run moves).run moves' := List.foldl_append

theorem wellFormed_play {c : Course} (h : c.queue.WellFormed) (m : Move) :
    (c.play m).queue.WellFormed := by
  cases m with
  | enqueue task =>
      simp only [play]
      split
      · rename_i hok
        exact h.enqueue hok
      · exact h
  | setProgram program => exact h.setProgram program
  | finish => exact h.requestDrain
  | cancel => exact h.requestDiscard
  | release => exact h.release
  | work board =>
      simp only [play]
      split
      · rename_i hstep
        exact h.turn (turn_of_step h hstep).1
      · exact h

theorem wellFormed_run {c : Course} (h : c.queue.WellFormed) (moves : List Move) :
    (c.run moves).queue.WellFormed := by
  induction moves generalizing c with
  | nil => exact h
  | cons m moves ih => exact ih (wellFormed_play h m)

/-! ## Closed queues -/

/-- Nothing more happens on a closed queue, whatever is done to it. -/
theorem closed_run {c : Course} (h : c.queue.phase = .closed) (moves : List Move) :
    (c.run moves).queue.phase = .closed ∧
      ∀ fate, met fate (c.run moves).past = met fate c.past := by
  induction moves generalizing c with
  | nil => exact ⟨h, fun _ => rfl⟩
  | cons m moves ih =>
      have hplay : (c.play m).queue.phase = .closed ∧
          ∀ fate, met fate (c.play m).past = met fate c.past := by
        cases m with
        | enqueue task =>
            have hrefused : c.queue.enqueue task = .error (.queueClosed c.queue.kernel) := by
              simp [enqueue, isClosing, h]
            simp only [play, hrefused]
            exact ⟨h, fun fate => by cases fate <;> simp [Event.tasks]⟩
        | work board =>
            have hnone : c.queue.step board = none := by simp [step, h]
            have hplay : c.play (.work board) = c := by simp only [play, hnone]
            rw [hplay]
            exact ⟨h, fun _ => rfl⟩
        | release =>
            exact ⟨(phase_release c.queue).trans h, fun _ => rfl⟩
        | setProgram => exact ⟨h, fun _ => rfl⟩
        | finish => exact ⟨h, fun _ => rfl⟩
        | cancel => exact ⟨h, fun _ => rfl⟩
      obtain ⟨hclosed, hmet⟩ := ih hplay.1
      exact ⟨hclosed, fun fate => (hmet fate).trans (hplay.2 fate)⟩

/-! ## Every task is accounted for -/

/-- What holds of the tasks of a queue at any moment. -/
structure Accounted (c : Course) : Prop where
  /-- The accepted tasks are, in their order: those whose callback is over, the
  one that the worker holds or was holding when it stopped on a fault, and those
  that are pending or were dropped. -/
  in_order : offered (met .accepted c.past) =
    offered (met .returned c.past) ++ offered (c.queue.hand.task?.toList ++ met .lost c.past) ++
      offered (c.queue.pending ++ met .discarded c.past)
  /-- There is one such task in the middle, or none. -/
  held : (c.queue.hand.task?.toList ++ met .lost c.past).length =
    if c.queue.phase.isBusy ∨ c.queue.fault.isSome then 1 else 0
  held_iff_busy : c.queue.hand.task?.isSome ↔ c.queue.phase.isBusy
  lost_iff_fault : met .lost c.past ≠ [] ↔ c.queue.fault.isSome
  /-- Tasks are dropped when the queue closes, and then none is pending. -/
  closed : c.queue.phase = .closed → c.queue.pending = []
  discarded : met .discarded c.past ≠ [] → c.queue.phase = .closed
  /-- Callbacks begin in the order of acceptance, and never for a task that was
  lost or dropped. -/
  callbacks : offered (met .accepted c.past) =
    offered (met .reported c.past) ++
      offered (c.queue.hand.unreported?.toList ++ met .lost c.past) ++
        offered (c.queue.pending ++ met .discarded c.past)
  /-- The tasks taken are those put away and the one in hand. -/
  taken : offered (met .taken c.past) =
    offered (met .returned c.past) ++ offered (c.queue.hand.task?.toList ++ met .lost c.past)
  /-- After a fault nothing happens any more. -/
  silent : c.queue.fault.isSome → ∀ moves fate,
    met fate (c.run moves).past = met fate c.past
  completed : c.queue.completed = (met .returned c.past).length
  dropped : c.queue.dropped = (met .discarded c.past).length
  balance : (met .accepted c.past).length =
    c.queue.completed + c.queue.dropped + c.queue.size + if c.queue.fault.isSome then 1 else 0
  /-- A refused task leaves no trace. -/
  refused : ∀ task e, c.queue.enqueue task = .error e →
    (c.play (.enqueue task)).queue = c.queue ∧
      ∀ b : Bench, b.queue = c.queue → b.enqueue task = (.error e, b)

theorem held_iff_busy_of_fits {phase : Phase} {hand : Hand} (h : hand.Fits phase) :
    hand.task?.isSome ↔ phase.isBusy := by
  cases hand with
  | empty => rcases h with h | h <;> simp [h, Phase.isBusy]
  | taken => simp [show phase = .dispatching from h, Phase.isBusy]
  | launched => simp [show phase = .inFlight from h, Phase.isBusy]
  | reporting => simp [show phase = .completing from h, Phase.isBusy]

theorem accounted_of_kept {c : Course} (h : Kept c.queue c.past) : c.Accounted := by
  have hheld := held_iff_busy_of_fits h.wellFormed.fits
  have hlost : met .lost c.past ≠ [] ↔ c.queue.fault.isSome := by
    rw [← List.length_pos_iff, ← h.lost, faultCount]
    split
    · rename_i hfault
      simp [hfault]
    · rename_i hfault
      simp [hfault]
  have hopen : c.queue.fault.isSome → c.queue.phase = .closed := by
    intro hfault
    by_contra hphase
    simp [(h.unharmed hphase).1] at hfault
  have hhand : c.queue.hand.task?.toList.length = if c.queue.phase.isBusy then 1 else 0 := by
    by_cases hbusy : c.queue.phase.isBusy
    · obtain ⟨task, htask⟩ := Option.isSome_iff_exists.1 (hheld.2 hbusy)
      simp [htask, hbusy]
    · have hnone : c.queue.hand.task? = none := by simpa using mt hheld.1 hbusy
      simp [hnone, hbusy]
  -- a worker that stopped on a fault holds nothing
  have hone : (c.queue.hand.task?.toList ++ met .lost c.past).length =
      if c.queue.phase.isBusy ∨ c.queue.fault.isSome then 1 else 0 := by
    rw [List.length_append, hhand, ← h.lost, faultCount]
    by_cases hfault : c.queue.fault.isSome
    · have hnotbusy : c.queue.phase.isBusy = false := by rw [hopen hfault]; rfl
      simp [hnotbusy, hfault]
    · simp [hfault]
  have hinorder : offered (met .accepted c.past) =
      offered (met .returned c.past) ++
        offered (c.queue.hand.task?.toList ++ met .lost c.past) ++
          offered (c.queue.pending ++ met .discarded c.past) := by
    have hrunning := congrArg offered h.running
    simp only [offered_append] at hrunning
    rw [h.order]
    simp only [offered_append, ← List.append_assoc, hrunning]
  exact
    { in_order := hinorder
      held := hone
      held_iff_busy := hheld
      lost_iff_fault := hlost
      closed := h.wellFormed.emptied
      discarded := fun hdiscarded => by
        by_contra hphase
        exact hdiscarded (h.unharmed hphase).2.2
      callbacks := h.order
      taken := by
        have hrunning := congrArg offered h.running
        simp only [offered_append] at hrunning
        rw [h.taken]
        simp only [offered_append, ← List.append_assoc, hrunning]
      silent := fun hfault moves => (closed_run (hopen hfault) moves).2
      completed := h.completed
      dropped := h.dropped
      balance := by
        have hlength := congrArg List.length hinorder
        simp only [offered_append, List.length_append, length_offered, hhand] at hlength
        rw [← h.lost, faultCount] at hlength
        rw [hlength, h.completed, h.dropped, size]
        omega
      refused := fun task e hrefused => by
        refine ⟨by simp only [play, hrefused], fun b hb => ?_⟩
        simp only [Bench.enqueue, hb, hrefused] }

/-- Whatever clients and worker do and in whatever order, each accepted task of
a queue is in its place. -/
theorem accepted_in_order (kernel : String) (deviceQueue : Nat) (program : String)
    (moves : List Move) : (ofNew kernel deviceQueue program moves).Accounted :=
  accounted_of_kept (kept_ofNew kernel deviceQueue program moves)

end Course

end ExecutionQueue

end KernelDispatch
