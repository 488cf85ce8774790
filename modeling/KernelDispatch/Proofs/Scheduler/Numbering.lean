import KernelDispatch.Proofs.Scheduler.Calls
import KernelDispatch.Proofs.Scheduler.Waiting

/-!
# The numbers of tasks, and who is refused

A task that is offered while something is current uses up a number, and it does so
before anything is known of its queue. So a call that is refused leaves a gap, and the
next number counts the calls and not the tasks: all those since everything began anew.
No number can come twice until then, whatever becomes of the queues meanwhile; they may
be removed by the call that collects a fault, and made again by the next task.

A call is refused for one of two reasons. Nothing has been loaded yet, or a fault has
stopped the queue of the kernel and nobody has collected it. In either case nothing but
the number is used up.

## Main definitions

* `Ascending` — tasks that are numbered upwards.
* `Answers` — what becomes of an offered task.
* `Course.counted` — how many numbers were used since everything began anew.
* `Numbered` — that no number comes twice.

## Main results

* `answers` — an offered task is answered so at any moment.
* `Numbered.play` — one move.
* `Course.numbered` — what follows for every course.
-/

namespace KernelDispatch

/-! ## Tasks that are numbered upwards -/

/-- Tasks that are numbered upwards, all of them below a bound. -/
def Ascending (bound : Nat) (tasks : List Task) : Prop :=
  ∃ numbers : List Nat, tasks.map Task.id = numbers.map some ∧ numbers.Pairwise (· < ·) ∧
    ∀ n ∈ numbers, n < bound

namespace Ascending

variable {bound : Nat} {tasks tasks' : List Task}

theorem nil (bound : Nat) : Ascending bound [] := ⟨[], rfl, .nil, by simp⟩

/-- Without some of the tasks, or below a higher bound. -/
theorem sublist (h : Ascending bound tasks)
    (hsublist : (tasks'.map Task.id).Sublist (tasks.map Task.id)) {bound' : Nat}
    (hbound : bound ≤ bound') : Ascending bound' tasks' := by
  obtain ⟨numbers, htasks, hpairwise, hlt⟩ := h
  rw [htasks, List.sublist_map_iff] at hsublist
  obtain ⟨numbers', hsublist, htasks'⟩ := hsublist
  exact ⟨numbers', htasks', hpairwise.sublist hsublist, fun n hn =>
    Nat.lt_of_lt_of_le (hlt n (hsublist.subset hn)) hbound⟩

/-- The bound itself is the number of one more task. -/
theorem concat (h : Ascending bound tasks) (t : Task) :
    Ascending (bound + 1) (tasks ++ [{ t with id := some bound }]) := by
  obtain ⟨numbers, htasks, hpairwise, hlt⟩ := h
  refine ⟨numbers ++ [bound], ?_, ?_, ?_⟩
  · rw [List.map_append, List.map_append, htasks]
    rfl
  · rw [List.pairwise_append]
    refine ⟨hpairwise, List.pairwise_singleton _ _, fun n hn m hm => ?_⟩
    rw [List.mem_singleton.1 hm]
    exact hlt n hn
  · intro n hn
    rcases List.mem_append.1 hn with hn | hn
    · exact Nat.lt_succ_of_lt (hlt n hn)
    · rw [List.mem_singleton.1 hn]
      exact Nat.lt_succ_self bound

theorem lt (h : Ascending bound tasks) {t : Task} (ht : t ∈ tasks) : t.id ≠ some bound := by
  obtain ⟨numbers, htasks, -, hlt⟩ := h
  intro hid
  have hmem : some bound ∈ numbers.map some := by
    rw [← htasks, ← hid]
    exact List.mem_map_of_mem ht
  have hlt := hlt bound (by simpa using hmem)
  omega

end Ascending

namespace ExecutionQueue

variable {q q' : ExecutionQueue}

/-- The tasks that a queue is not done with: the one in hand, and those pending. -/
def held (q : ExecutionQueue) : List Task := q.hand.task?.toList ++ q.pending

theorem SameTasks.tasks (h : SameTasks q q') : q'.held = q.held := by
  rw [ExecutionQueue.held, h.held, h.pending, ExecutionQueue.held]

/-- The worker adds no task, and leaves the others in their order. -/
theorem held_of_turn {d : Deed} (h : Turn q d q') :
    (q'.held.map Task.id).Sublist (q.held.map Task.id) := by
  cases h with
  | takes hhand hphase hpending => simp [held, hhand, hpending]
  | launches hhand => simp [held, hhand]
  | reports hhand => simp [held, hhand]
  | returns hhand => simp [held, hhand]
  | closes hhand => simp [held, hhand]
  | faults => exact List.nil_sublist _

/-- A queue that nobody has asked to close turns tasks away exactly when a fault has
stopped it. -/
theorem isClosing_iff (hq : q.WellFormed) (hopen : q.shutdown = none) :
    q.isClosing = true ↔ q.fault.isSome = true := by
  rw [isClosing, hopen, Option.isSome_none, Bool.false_or, beq_iff_eq]
  constructor
  · intro hclosed
    rw [← Option.ne_none_iff_isSome]
    exact fun hfault => hq.caused hclosed hfault hopen
  · intro hfault
    by_contra hclosed
    rw [(hq.unharmed hclosed).2] at hfault
    cases hfault

end ExecutionQueue

namespace Scheduler

variable {c c' : Course} {m : Move} {s : Scheduler} {t : Task}

/-! ## What an offered task is answered -/

/-- How a call that offers a task is answered, and what it leaves behind. -/
structure Answers (s : Scheduler) (t : Task) : Prop where
  /-- It fails for two reasons only. -/
  fails : (s.addTask t).1.isOk = false ↔ s.current = none ∨ s.isStopped t.kernel = true
  noConfiguration : s.current = none → (s.addTask t).1 = .error .noConfiguration
  queueClosed : s.current ≠ none → s.isStopped t.kernel = true →
    (s.addTask t).1 = .error (.queueClosed t.kernel)
  /-- A call that fails changes nothing but the next number. -/
  harmless : (s.addTask t).1.isOk = false →
    (s.addTask t).2 = { s with nextId := (s.addTask t).2.nextId }
  /-- It uses up a number if something is current, and returns no other. -/
  used : (s.addTask t).2.nextId = s.nextId + if s.current.isSome then 1 else 0
  returned : ∀ acceptance, (s.addTask t).1 = .ok acceptance → acceptance.id = s.nextId
  /-- A queue is made on the device exactly where the kernel has none. -/
  created : (s.addTask t).2.board.device.queuesCreated = s.board.device.queuesCreated +
    if s.current.isSome && (s.queues.get? t.kernel).isNone then 1 else 0

/-- A task is put on a queue unless a fault has stopped it. -/
theorem place_of_open {queue : ExecutionQueue} (hqueue : s.queues.get? t.kernel = some queue)
    (hwell : queue.WellFormed) (hopen : queue.shutdown = none) (hnamed : queue.kernel = t.kernel)
    (program : String) :
    s.place program t =
      if s.isStopped t.kernel then .error (.queueClosed t.kernel)
      else .ok (s.board, { queue with pending := queue.pending ++ [t] }) := by
  have hstopped : s.isStopped t.kernel = queue.isClosing := by
    rw [isStopped, hqueue, Option.bind_some, Bool.eq_iff_iff, queue.isClosing_iff hwell hopen]
  rw [place_of_some hqueue, hstopped, ExecutionQueue.enqueue, hnamed]
  split <;> rfl

namespace Answers

/-- Nothing is current. -/
theorem of_none (hcurrent : s.current = none) (t : Task) : Answers s t := by
  have hadd : s.addTask t = (.error .noConfiguration, s) := by
    rw [addTask_eq, hcurrent]
  constructor
  case harmless => exact fun _ => by rw [hadd]
  all_goals simp [hadd, hcurrent, Except.isOk, Except.toBool]

/-- The queue of the kernel turns the task away. -/
theorem of_stopped {program : String} (hcurrent : s.current = some program)
    (hstopped : s.isStopped t.kernel = true)
    (hplace : s.place program { t with id := some s.nextId } = .error (.queueClosed t.kernel)) :
    Answers s t := by
  have hadd : s.addTask t = (.error (.queueClosed t.kernel), s.passed) := by
    rw [addTask_eq, hcurrent]
    dsimp only
    rw [hplace]
  have hqueue : s.queues.get? t.kernel ≠ none := by
    intro hnone
    simp [isStopped, hnone] at hstopped
  constructor <;> simp [hadd, hcurrent, hstopped, hqueue, passed, Except.isOk, Except.toBool]

/-- The task is put on a queue. -/
theorem of_placed {program : String} {board : Board} {next : ExecutionQueue}
    (hcurrent : s.current = some program) (hstopped : s.isStopped t.kernel = false)
    (hplace : s.place program { t with id := some s.nextId } = .ok (board, next))
    (hmade : board.device.queuesCreated = s.board.device.queuesCreated +
      if (s.queues.get? t.kernel).isNone then 1 else 0) : Answers s t := by
  have hadd : ∃ acceptance, s.addTask t = (.ok acceptance, s.seated board t.kernel next) ∧
      acceptance.id = s.nextId := by
    rw [addTask_eq, hcurrent]
    dsimp only
    rw [hplace]
    exact ⟨_, rfl, rfl⟩
  obtain ⟨acceptance, hadd, hid⟩ := hadd
  constructor <;>
    simp [hadd, hcurrent, hstopped, hid, hmade, seated, Except.isOk, Except.toBool]

end Answers

theorem answers (hsteady : Steady c) (hstage : c.stage = .serving)
    (hwilling : c.scheduler.board.device.refusesQueues = false) (t : Task) :
    Answers c.scheduler t := by
  cases hcurrent : c.scheduler.current with
  | none => exact .of_none hcurrent t
  | some program =>
      cases hqueue : c.scheduler.queues.get? t.kernel with
      | none =>
          have hplace :=
            place_of_none (t := { t with id := some c.scheduler.nextId }) hqueue program
          refine .of_placed hcurrent (by simp [isStopped, hqueue])
            (hplace.trans (if_neg (by simp [hwilling]))) ?_
          simp [hqueue, withQueue, Device.queuesCreated]
      | some queue =>
          have hplace := place_of_open (t := { t with id := some c.scheduler.nextId }) hqueue
            (hsteady.sound.wellFormed _ queue hqueue) (hsteady.sound.serving hstage _ queue hqueue)
            (hsteady.coherent.placed _ queue hqueue).named program
          cases hstopped : c.scheduler.isStopped t.kernel with
          | true =>
              exact .of_stopped hcurrent hstopped (hplace.trans (if_pos hstopped))
          | false =>
              refine .of_placed hcurrent hstopped (hplace.trans (if_neg (by simp [hstopped]))) ?_
              simp [hqueue]

/-! ## What a move does to the board -/

/-- What a move does to the board, as far as launches and queues go. -/
inductive Handles (c : Course) (m : Move) : Board → Prop where
  | calm {b : Board} (hcalm : c.scheduler.board.Calm b) : Handles c m b
  /-- A queue is made for an offered task. -/
  | opens {t : Task} (hm : m = .addTask t) (hserves : c.serves = true) :
      Handles c m (withQueue c.scheduler.board)
  | works {kernel : String} {queue next : ExecutionQueue} {b : Board} {done : Option Task}
      (hm : m = .work kernel) (hqueue : c.scheduler.queues.get? kernel = some queue)
      (hstep : queue.step c.scheduler.board = some (b, next, done)) : Handles c m b
  | refuses (on : Bool) (hm : m = .refuseQueues on) :
      Handles c m (c.scheduler.refuseQueues on).board

theorem handles_play (c : Course) (m : Move) : Handles c m (c.play m).scheduler.board := by
  have hother : (∀ kernel, m ≠ .work kernel) → (∀ t, m = .addTask t → c.serves = false) →
      (∀ on, m ≠ .refuseQueues on) → Handles c m (c.play m).scheduler.board :=
    fun hwork hoffer hrefuse => .calm (calm_play c hwork hoffer hrefuse)
  cases m with
  | addTask t =>
      cases hserves : c.serves with
      | false => exact hother (by simp) (fun _ _ => hserves) (by simp)
      | true =>
          have hstirs : Stirs c (.addTask t) (c.play (.addTask t)) := stirs_of_play hserves rfl
          generalize c.play (.addTask t) = c' at hstirs ⊢
          cases hstirs with
          | opens => exact .opens rfl hserves
          | _ => exact .calm (.refl _)
  | work kernel =>
      rcases play_work_cases c kernel with hplay | ⟨queue, next, board, done, hqueue, hstep⟩
      · rw [hplay]
        exact .calm (.refl _)
      · rw [play_work hqueue hstep]
        exact .works rfl hqueue hstep
  | refuseQueues on => exact .refuses on rfl
  | _ => exact hother (by simp) (by simp) (by simp)

/-! ## How many numbers were used -/

namespace Course

/-- How many numbers have been used since everything began anew, if it were so many
before the move. -/
def count (c : Course) (m : Move) (n : Nat) : Nat :=
  match m with
  | .addTask _ => if c.serves && c.scheduler.current.isSome then n + 1 else n
  | .clear => if c.serves || !c.isClosed then n else 0
  | _ => n

theorem count_of_other {c : Course} {m : Move} (hoffer : ∀ t, m ≠ .addTask t)
    (hclear : m ≠ .clear) (n : Nat) : c.count m n = n := by
  cases m with
  | addTask t => exact absurd rfl (hoffer t)
  | clear => exact absurd rfl hclear
  | _ => rfl

/-- How many it is after these moves: as many as tasks were offered since then while
something was current. -/
def counted (c : Course) (n : Nat) : List Move → Nat
  | [] => n
  | m :: moves => (c.play m).counted (c.count m n) moves

end Course

theorem nextId_collected {visit : List String} (hready : c.isReady visit = true)
    (stage : Stage) : (c.collected visit stage).scheduler.nextId = c.scheduler.nextId := by
  have hvisit := nodup_of_perm_kernels (isReady_iff.1 hready).2.2
  show (c.scheduler.collect (c.scheduler.faultedAmong visit)).2.nextId = _
  rw [(removal_collect c.scheduler hvisit).rest]

theorem nextId_play (c : Course) (m : Move) :
    (c.play m).scheduler.nextId = c.count m c.scheduler.nextId := by
  cases m with
  | addConfiguration name => exact (registers_addConfiguration _ name).nextId
  | insertConfiguration name image => exact (registers_insertConfiguration _ name image).nextId
  | setConfiguration name =>
      simp only [Course.play]
      split
      · unfold setConfiguration
        split <;> rfl
      · rfl
  | addTask t =>
      simp only [Course.play, Course.count]
      cases c.serves with
      | false => rfl
      | true =>
          rw [if_pos rfl, scheduler_offer, (numbers_addTask c.scheduler t).1]
          cases c.scheduler.current <;> rfl
  | wait visit =>
      simp only [Course.play]
      split
      · rename_i hready
        exact nextId_collected hready .serving
      · rfl
  | finish visit =>
      simp only [Course.play]
      split
      · rename_i hready
        exact nextId_collected hready _
      · rfl
  | reset =>
      simp only [Course.play]
      split <;> rfl
  | cancel kernel =>
      simp only [Course.play, updateQueue_eq]
      split <;> rfl
  | clear =>
      cases hstage : c.stage with
      | serving => simp [Course.play, Course.count, Course.serves, hstage]
      | resetting finish =>
          by_cases hclosed : c.isClosed = true
          · rw [play_clear hstage hclosed]
            simp [Course.count, Course.serves, hstage, hclosed, clear]
          · simp [Course.play, Course.count, hstage, hclosed]
  | work kernel =>
      rcases play_work_cases c kernel with hplay | ⟨queue, next, board, done, hqueue, hstep⟩
      · rw [hplay]
        rfl
      · rw [play_work hqueue hstep]
        rfl
  | release kernel =>
      simp only [Course.play, updateQueue_eq]
      rfl
  | _ => rfl

/-- The number that an offered task gets is counted by the offers before it. -/
theorem nextId_run (c : Course) (moves : List Move) :
    (c.run moves).scheduler.nextId = c.counted c.scheduler.nextId moves := by
  induction moves generalizing c with
  | nil => rfl
  | cons m moves ih =>
      rw [Course.counted, ← nextId_play c m]
      exact ih (c.play m)

/-! ## No number comes twice -/

/-- The numbers that were given out since everything began anew, and those of the tasks
that the queues are not done with. -/
structure Numbered (c : Course) : Prop where
  returned : Ascending c.scheduler.nextId (met .accepted (sinceCleared c.past))
  held : ∀ kernel queue, c.scheduler.queues.get? kernel = some queue →
    Ascending c.scheduler.nextId queue.held
  apart : ∀ kernel kernel' queue queue', kernel ≠ kernel' →
    c.scheduler.queues.get? kernel = some queue →
    c.scheduler.queues.get? kernel' = some queue' →
    (queue.held.map Task.id).Disjoint (queue'.held.map Task.id)

/-- Something other than a task that is accepted or a clean sweep was seen. -/
theorem accepted_snoc {past : List Event} {e : Event} (hclears : e.clears = false)
    (hnone : e.tasks .accepted = []) :
    met .accepted (sinceCleared (past ++ [e])) = met .accepted (sinceCleared past) := by
  rw [sinceCleared_snoc, hclears, if_neg Bool.false_ne_true, met_snoc, hnone, List.append_nil]

theorem accepted_worked (past : List Event) (kernel : String) (d : ExecutionQueue.Deed)
    (record : Option CompletionRecord) :
    met .accepted (sinceCleared (past ++ [.worked kernel d record])) =
      met .accepted (sinceCleared past) :=
  accepted_snoc rfl (by cases d <;> rfl)

/-- A move that offers nothing accepts nothing. -/
theorem accepted_play (c : Course) (hoffer : ∀ t, m ≠ .addTask t) (hclear : m ≠ .clear) :
    met .accepted (sinceCleared (c.play m).past) = met .accepted (sinceCleared c.past) := by
  cases m with
  | addTask t => exact absurd rfl (hoffer t)
  | clear => exact absurd rfl hclear
  | work kernel =>
      rcases play_work_cases c kernel with hplay | ⟨queue, next, board, done, hqueue, hstep⟩
      · rw [hplay]
      · rw [play_work hqueue hstep]
        exact accepted_worked _ _ _ _
  | wait visit =>
      simp only [Course.play]
      split
      · exact accepted_snoc rfl rfl
      · rfl
  | finish visit =>
      simp only [Course.play]
      split
      · exact accepted_snoc rfl rfl
      · rfl
  | setConfiguration name =>
      simp only [Course.play]
      split <;> rfl
  | reset =>
      simp only [Course.play]
      split <;> rfl
  | cancel kernel =>
      simp only [Course.play]
      split <;> rfl
  | _ => rfl

/-- A move that offers nothing adds no task to a queue. -/
theorem held_play (hsound : Sound c) (hoffer : ∀ t, m ≠ .addTask t) {kernel : String}
    {q' : ExecutionQueue} (hqueue' : (c.play m).scheduler.queues.get? kernel = some q') :
    ∃ q, c.scheduler.queues.get? kernel = some q ∧
      (q'.held.map Task.id).Sublist (q.held.map Task.id) := by
  cases becomes_play hqueue' with
  | kept hqueue => exact ⟨q', hqueue, List.Sublist.refl _⟩
  | @bound q name hqueue hnext =>
      refine ⟨q, hqueue, ?_⟩
      rw [hnext]
      exact List.Sublist.refl _
  | @discards q hqueue hnext =>
      refine ⟨q, hqueue, ?_⟩
      rw [hnext]
      exact List.Sublist.refl _
  | @released q hqueue hnext =>
      refine ⟨q, hqueue, ?_⟩
      rw [hnext, (ExecutionQueue.SameTasks.release q).tasks]
  | offered hm => exact absurd hm (hoffer _)
  | @worked q board done hm hqueue hstep =>
      exact ⟨q, hqueue, ExecutionQueue.held_of_turn (hsound.turn hqueue hstep).1⟩

namespace Numbered

/-- Numbers may be used up and tasks taken off the queues. -/
theorem keeps (h : Numbered c) (hnextId : c.scheduler.nextId ≤ c'.scheduler.nextId)
    (hpast : met .accepted (sinceCleared c'.past) = met .accepted (sinceCleared c.past))
    (hheld : ∀ kernel q', c'.scheduler.queues.get? kernel = some q' →
      ∃ q, c.scheduler.queues.get? kernel = some q ∧
        (q'.held.map Task.id).Sublist (q.held.map Task.id)) : Numbered c' where
  returned := h.returned.sublist (by rw [hpast]) hnextId
  held kernel q' hqueue' := by
    obtain ⟨q, hqueue, hsublist⟩ := hheld kernel q' hqueue'
    exact (h.held kernel q hqueue).sublist hsublist hnextId
  apart kernel kernel' q₁ q₁' hne hqueue hqueue' := by
    obtain ⟨q, hq, hsublist⟩ := hheld kernel q₁ hqueue
    obtain ⟨q', hq', hsublist'⟩ := hheld kernel' q₁' hqueue'
    exact List.disjoint_of_subset_left hsublist.subset
      (List.disjoint_of_subset_right hsublist'.subset (h.apart kernel kernel' q q' hne hq hq'))

/-- A task with the next number is put at the end of a queue, which may be new. -/
theorem seats {board : Board} {before next : ExecutionQueue} (h : Numbered c)
    (hbefore : c.scheduler.queues.get? t.kernel = some before ∨ before.held = [])
    (hnext : next.held = before.held ++ [{ t with id := some c.scheduler.nextId }]) :
    Numbered
      { c with
        scheduler := c.scheduler.seated board t.kernel next
        past := c.past ++ [.accepted { t with id := some c.scheduler.nextId }] } := by
  have hascending : Ascending c.scheduler.nextId before.held := by
    rcases hbefore with hqueue | hnone
    · exact h.held _ before hqueue
    · rw [hnone]
      exact .nil _
  have hget : ∀ {name queue},
      (c.scheduler.seated board t.kernel next).queues.get? name = some queue →
        name = t.kernel ∧ queue = next ∨
          name ≠ t.kernel ∧ c.scheduler.queues.get? name = some queue := by
    intro name queue hqueue
    dsimp only [seated] at hqueue
    rw [NameMap.get?_insert] at hqueue
    split at hqueue
    · rename_i hname
      exact .inl ⟨hname, (Option.some.inj hqueue).symm⟩
    · rename_i hname
      exact .inr ⟨hname, hqueue⟩
  -- the other queues hold neither the tasks of this one nor the next number
  have hapart : ∀ {name queue}, name ≠ t.kernel → c.scheduler.queues.get? name = some queue →
      (queue.held.map Task.id).Disjoint (next.held.map Task.id) := by
    intro name queue hname hqueue
    rw [hnext, List.map_append, List.disjoint_append_right]
    constructor
    · rcases hbefore with hold | hnone
      · exact h.apart name t.kernel queue before hname hqueue hold
      · simp [hnone]
    · intro number hmem hnumber
      obtain ⟨held, hheld, hid⟩ := List.mem_map.1 hmem
      rw [List.map_singleton, List.mem_singleton] at hnumber
      exact (h.held name queue hqueue).lt hheld (hid.trans hnumber)
  constructor
  · rw [sinceCleared_snoc, if_neg (by simp [Event.clears]), met_snoc]
    exact h.returned.concat t
  · intro name queue hqueue
    rcases hget hqueue with ⟨-, rfl⟩ | ⟨-, hqueue⟩
    · rw [hnext]
      exact hascending.concat t
    · exact (h.held name queue hqueue).sublist (List.Sublist.refl _) (Nat.le_succ _)
  · intro name name' queue queue' hne hqueue hqueue'
    rcases hget hqueue with ⟨rfl, rfl⟩ | ⟨hname, hold⟩
    · rcases hget hqueue' with ⟨hname', -⟩ | ⟨hname', hold'⟩
      · exact absurd hname'.symm hne
      · exact List.disjoint_comm.1 (hapart hname' hold')
    · rcases hget hqueue' with ⟨-, rfl⟩ | ⟨-, hold'⟩
      · exact hapart hname hold
      · exact h.apart name name' queue queue' hne hold hold'

/-- A task is offered. -/
theorem offer (h : Numbered c) (hstirs : Stirs c (.addTask t) c') : Numbered c' := by
  have hsame : ∀ s : Scheduler, s.queues = c.scheduler.queues →
      c.scheduler.nextId ≤ s.nextId →
        Numbered { c with scheduler := s, past := c.past ++ [.refused t] } := fun s hqueues hle =>
    h.keeps hle (accepted_snoc rfl rfl) fun kernel q hq =>
      ⟨q, hqueues ▸ hq, List.Sublist.refl _⟩
  cases hstirs with
  | declines => exact hsame _ rfl (Nat.le_refl _)
  | refuses => exact hsame _ rfl (Nat.le_succ _)
  | starves => exact hsame _ rfl (Nat.le_succ _)
  | @accepts _ program queue next _ hqueue hnext =>
      refine h.seats (.inl hqueue) ?_
      rw [(ExecutionQueue.WellFormed.not_closed_of_enqueue hnext).2.2]
      exact (List.append_assoc _ _ _).symm
  | @opens _ program =>
      have hnew : (ExecutionQueue.start t.kernel 0 program).held = [] := rfl
      exact h.seats (.inr hnew) rfl

/-- One move. -/
theorem play (h : Numbered c) (hsound : Sound c) (m : Move) : Numbered (c.play m) := by
  have hother : (∀ t, m ≠ .addTask t) → m ≠ .clear → Numbered (c.play m) := fun hoffer hclear =>
    h.keeps (by rw [nextId_play, Course.count_of_other hoffer hclear])
      (accepted_play c hoffer hclear) fun kernel q hq => held_play hsound hoffer hq
  cases m with
  | addTask t =>
      by_cases hserves : c.serves = true
      · exact h.offer (stirs_of_play hserves rfl)
      · rwa [show c.play (.addTask t) = c from if_neg hserves]
  | clear =>
      rcases play_clear_cases c with hplay | ⟨finish, -, -, hplay⟩
      · rwa [hplay]
      · rw [hplay]
        constructor
        · rw [sinceCleared_snoc, show (Event.cleared finish).clears = true from rfl, if_pos rfl]
          exact .nil _
        · intro kernel q hq
          simp [get?_clear] at hq
        · intro kernel kernel' q q' _ hq
          simp [get?_clear] at hq
  | _ => exact hother (by simp) (by simp)

theorem run (h : Numbered c) (hsound : Sound c) (moves : List Move) :
    Numbered (c.run moves) := by
  induction moves generalizing c with
  | nil => exact h
  | cons m moves ih => exact ih (h.play hsound m) (hsound.play m)

theorem assemble (p : Blueprint) (device : Device) (directory : Directory) :
    Numbered { scheduler := p.assemble device directory } where
  returned := .nil _
  held kernel q hq := by simp [get?_assemble] at hq
  apart kernel kernel' q q' _ hq := by simp [get?_assemble] at hq

end Numbered

/-! ## Who is refused -/

/-- How tasks are admitted. -/
structure Admission (c : Course) : Prop where
  /-- A queue counts as stopped from the fault on until that is collected. -/
  stopped : ∀ kernel, c.scheduler.isStopped kernel = true ↔
    kernel ∈ (stops (recent c.past)).map Prod.fst
  answers : c.stage = .serving → ∀ t, Answers c.scheduler t
  /-- Nothing else makes a queue on the device. -/
  made : ∀ m, (∀ t, m = .addTask t → c.serves = false) →
    (c.play m).scheduler.board.device.queuesCreated = c.scheduler.board.device.queuesCreated

/-- Where the device makes queues, it goes on to, unless it is told not to. -/
theorem refusesQueues_play (hm : m ≠ .refuseQueues true)
    (hwilling : c.scheduler.board.device.refusesQueues = false) :
    (c.play m).scheduler.board.device.refusesQueues = false := by
  have hhandles := handles_play c m
  generalize (c.play m).scheduler.board = b at hhandles ⊢
  cases hhandles with
  | calm hcalm => exact hcalm.refusesQueues.trans hwilling
  | opens => exact hwilling
  | works _ _ hstep => exact (ExecutionQueue.alike_of_step hstep).refusesQueues.trans hwilling
  | refuses on hon =>
      cases on with
      | true => exact absurd hon hm
      | false => rfl

theorem refusesQueues_run {moves : List Move} (hmoves : .refuseQueues true ∉ moves)
    (hwilling : c.scheduler.board.device.refusesQueues = false) :
    (c.run moves).scheduler.board.device.refusesQueues = false := by
  induction moves generalizing c with
  | nil => exact hwilling
  | cons m moves ih =>
      rw [List.mem_cons, not_or] at hmoves
      exact ih hmoves.2 (refusesQueues_play (Ne.symm hmoves.1) hwilling)

/-- Only an offered task has a queue made. -/
theorem queuesCreated_play (hoffer : ∀ t, m = .addTask t → c.serves = false) :
    (c.play m).scheduler.board.device.queuesCreated =
      c.scheduler.board.device.queuesCreated := by
  have hhandles := handles_play c m
  generalize (c.play m).scheduler.board = b at hhandles ⊢
  cases hhandles with
  | calm hcalm => exact hcalm.queuesCreated
  | opens hm hserves => simp [hoffer _ hm] at hserves
  | works _ _ hstep => exact ExecutionQueue.queuesCreated_of_step hstep
  | refuses => rfl

/-- On a device that makes queues, an offered task is numbered by how many were offered
before it while something was current, since everything began anew. No number comes
twice until then. A task is refused for two reasons only, and nothing but its number is
used up by it. -/
theorem Course.numbered (p : Blueprint) (device : Device) (directory : Directory)
    {moves : List Move} (hwilling : device.refusesQueues = false)
    (hmoves : .refuseQueues true ∉ moves) :
    (ofBlueprint p device directory moves).scheduler.nextId =
        (ofBlueprint p device directory []).counted 0 moves ∧
      Numbered (ofBlueprint p device directory moves) ∧
      Admission (ofBlueprint p device directory moves) := by
  have hsteady := Steady.ofBlueprint p device directory moves
  refine ⟨nextId_run _ moves, (Numbered.assemble p device directory).run
    (.assemble p device directory) moves, (Stopped.ofBlueprint p device directory moves).kernels,
    fun hstage t => ?_, fun m => queuesCreated_play⟩
  exact Scheduler.answers hsteady hstage (refusesQueues_run hmoves hwilling) t

/-- A task is refused while nothing is current, and another one while its queue is
stopped. Then the fault is collected, a second queue made, and everything begun anew. -/
def refusedTwice : List Move :=
  [.addTask { kernel := "a" }, .insertConfiguration "cfg" (Image.encode ["a", "k"]),
    .addTask { kernel := "a", recipe := { mishap := some (.refuses "no arguments") } },
    .work "a", .work "a", .addTask { kernel := "a" }, .addTask { kernel := "k" },
    .work "k", .work "k", .work "k", .work "k", .wait ["a", "k"], .addTask { kernel := "a" },
    .reset, .cancel "a", .work "a", .cancel "k", .work "k", .clear, .addTask { kernel := "k" }]

theorem Course.numbered_refusedTwice :
    (met .accepted (ofBlueprint {} default { path := "" } refusedTwice).past).map Task.id =
        [some 0, some 2, some 3, some 0] ∧
      (ofBlueprint {} default { path := "" } refusedTwice).scheduler.nextId =
        (ofBlueprint {} default { path := "" } []).counted 0 refusedTwice ∧
      Numbered (ofBlueprint {} default { path := "" } refusedTwice) ∧
      Admission (ofBlueprint {} default { path := "" } refusedTwice) :=
  ⟨by decide, numbered {} default { path := "" } rfl (by simp [refusedTwice])⟩

end Scheduler

end KernelDispatch
