import KernelDispatch.Proofs.Scheduler.Collection
import KernelDispatch.Proofs.Scheduler.Course
import KernelDispatch.Proofs.Scheduler.Entry

/-!
# What a move does

A move does one of six things to the queues, the counters and the models. Many
moves leave all tasks where they are; one accepts a task, one refuses it, one is a
step of a worker, one collects faults and one clears everything away. `Change`
lists them with everything that each of them changes, and what is said of all
courses is proved from that list. Setting the counters back is the one move that
the list leaves out.

## Main results

* `change_of_play` — a move makes a change of the list.
* `Sound.change` — what holds of the queues at any moment.
-/

namespace KernelDispatch.Scheduler

open ExecutionQueue (SameTasks Turn)

/-- A queue to which no task comes and from which none goes. It may be asked to
close only while a reset is under way. -/
structure Tended (stage : Stage) (q q' : ExecutionQueue) : Prop where
  same : SameTasks q q'
  wellFormed : q.WellFormed → q'.WellFormed
  shutdown : stage = .serving → q'.shutdown = q.shutdown

theorem Tended.refl (stage : Stage) (q : ExecutionQueue) : Tended stage q q :=
  ⟨.refl q, id, fun _ => rfl⟩

/-- What a move can do, with all that it changes. -/
inductive Change (c : Course) (m : Move) : Course → Prop where
  /-- All tasks stay where they are. -/
  | tends {s : Scheduler} {stage : Stage} (f : String → ExecutionQueue → ExecutionQueue)
      (hqueues : s.queues = c.scheduler.queues.mapWithName f)
      (htended : ∀ kernel queue, Tended c.stage queue (f kernel queue))
      (hmetrics : s.books.metrics = c.scheduler.books.metrics)
      (hmodels : c.scheduler.books.SameModels s.books)
      (hstage : stage = c.stage ∨ c.stage = .serving ∧ stage = .resetting none ∧ m = .reset) :
      Change c m ⟨s, stage, c.past⟩
  /-- A task is put on the queue of its kernel, which may be a new one. -/
  | accepts {s : Scheduler} {task : Task} {queue next : ExecutionQueue}
      (hstage : c.stage = .serving)
      (hqueue : c.scheduler.queues.get? task.kernel = some queue ∨
        c.scheduler.queues.get? task.kernel = none ∧
          ∃ number program, queue = .start task.kernel number program)
      (hnext : queue.enqueue task = .ok next)
      (hqueues : s.queues = c.scheduler.queues.insert task.kernel next)
      (hmetrics : s.books.metrics = c.scheduler.books.metrics.recordSubmitted)
      (hmodels : c.scheduler.books.SameModels s.books) :
      Change c m ⟨s, c.stage, c.past ++ [.accepted task]⟩
  | refuses {s : Scheduler} (task : Task) (hqueues : s.queues = c.scheduler.queues)
      (hbooks : s.books = c.scheduler.books) : Change c m ⟨s, c.stage, c.past ++ [.refused task]⟩
  | works {kernel : String} {board : Board} {queue next : ExecutionQueue} {done : Option Task}
      (hqueue : c.scheduler.queues.get? kernel = some queue)
      (hstep : queue.step c.scheduler.board = some (board, next, done)) :
      Change c m ⟨c.scheduler.entered kernel board next done, c.stage,
        c.past ++ [.worked kernel (queue.deed next)
          (done.bind fun t => (c.scheduler.books.conclude t).1)]⟩
  | collects {visit : List String} {stage : Stage} (hready : c.isReady visit = true)
      (hstage : stage = .serving ∨ stage = .resetting (some (c.reports visit))) :
      Change c m (c.collected visit stage)
  | clears {finish : Option (List Error)} (hstage : c.stage = .resetting finish)
      (hclosed : c.isClosed = true) (hm : m = .clear) :
      Change c m ⟨c.scheduler.clear, .serving, c.past ++ [.cleared finish]⟩

/-! ## The moves -/

section Moves

variable {c : Course} {m : Move}

/-- A move that touches neither queues nor books. -/
theorem Change.of_same {s : Scheduler} {stage : Stage} (hqueues : s.queues = c.scheduler.queues)
    (hmetrics : s.books.metrics = c.scheduler.books.metrics)
    (hmodels : c.scheduler.books.SameModels s.books)
    (hstage : stage = c.stage ∨ c.stage = .serving ∧ stage = .resetting none ∧ m = .reset) :
    Change c m ⟨s, stage, c.past⟩ := by
  refine .tends (fun _ q => q) ?_ (fun _ q => .refl _ q) hmetrics hmodels hstage
  apply NameMap.ext_get?
  intro name
  simp [hqueues]

theorem Change.refl (c : Course) (m : Move) : Change c m c :=
  .of_same rfl rfl (.refl _) (.inl rfl)

theorem serves_iff : c.serves = true ↔ c.stage = .serving := by
  unfold Course.serves
  split
  · rename_i h
    simp [h]
  · rename_i h
    simp [h]

/-- A configuration without measurements is no news to the books. -/
theorem sameModels_withModel (b : Books) (name : String) : b.SameModels (b.withModel name) := by
  unfold Books.withModel
  split
  · exact .refl b
  · rename_i hnot
    have hnone : b.models.get? name = none := by
      simpa [NameMap.contains] using hnot
    refine ⟨fun other => ?_, fun _ => rfl⟩
    unfold Books.model
    by_cases hname : other = name
    · subst hname
      simp only [NameMap.get?_insert_self, hnone]
      rfl
    · simp only [NameMap.get?_insert_of_ne _ _ hname]
      rfl

theorem metrics_withModel (b : Books) (name : String) :
    (b.withModel name).metrics = b.metrics := by
  unfold Books.withModel
  split <;> rfl

theorem updateQueue_eq (s : Scheduler) (kernel : String) (f : ExecutionQueue → ExecutionQueue) :
    s.updateQueue kernel f =
      { s with queues := s.queues.mapWithName fun name q => if name = kernel then f q else q } := by
  unfold updateQueue
  split
  · rename_i queue hqueue
    congr 1
    apply NameMap.ext_get?
    intro name
    rw [NameMap.get?_insert, NameMap.get?_mapWithName]
    by_cases hname : name = kernel
    · subst hname
      simp [hqueue]
    · simp [hname]
  · rename_i hnone
    have hsame : s.queues.mapWithName (fun name q => if name = kernel then f q else q) =
        s.queues := by
      apply NameMap.ext_get?
      intro name
      rw [NameMap.get?_mapWithName]
      by_cases hname : name = kernel
      · subst hname
        simp [hnone]
      · simp [hname]
    rw [hsame]

theorem get?_updateQueue (s : Scheduler) (kernel name : String)
    (f : ExecutionQueue → ExecutionQueue) :
    (s.updateQueue kernel f).queues.get? name =
      if name = kernel then (s.queues.get? name).map f else s.queues.get? name := by
  rw [updateQueue_eq]
  show NameMap.get? (NameMap.mapWithName _ _) name = _
  rw [NameMap.get?_mapWithName]
  split
  · rfl
  · exact Option.map_id'

/-- A queue is tended in place. -/
theorem Change.of_updateQueue (kernel : String) {f : ExecutionQueue → ExecutionQueue}
    (h : ∀ q, Tended c.stage q (f q)) :
    Change c m ⟨c.scheduler.updateQueue kernel f, c.stage, c.past⟩ := by
  rw [updateQueue_eq]
  refine .tends (fun name q => if name = kernel then f q else q) rfl ?_ rfl (.refl _) (.inl rfl)
  intro name queue
  split
  · exact h queue
  · exact .refl _ queue

theorem Change.of_setConfiguration (name : String) :
    Change c m ⟨(c.scheduler.setConfiguration name).2, c.stage, c.past⟩ := by
  unfold setConfiguration
  split
  · refine .tends (fun _ q => q.setProgram name) rfl ?_ rfl (.refl _) (.inl rfl)
    intro _ queue
    exact ⟨.setProgram queue name, fun h => h.setProgram name, fun _ => rfl⟩
  · exact .refl c _

theorem Change.of_addConfiguration (name : String) :
    Change c m ⟨(c.scheduler.addConfiguration name).2, c.stage, c.past⟩ := by
  unfold addConfiguration
  split
  · exact .refl c _
  · dsimp only
    split
    · exact .refl c _
    · split
      · exact .refl c _
      · exact .of_same rfl (metrics_withModel _ _) (sameModels_withModel _ _) (.inl rfl)

theorem Change.of_insertConfiguration (name : String) (image : ByteArray) :
    Change c m ⟨(c.scheduler.insertConfiguration name image).2, c.stage, c.past⟩ := by
  unfold insertConfiguration
  split
  · exact .refl c _
  · split
    · exact .of_same rfl rfl (.refl _) (.inl rfl)
    · exact .of_same rfl (metrics_withModel _ _) (sameModels_withModel _ _) (.inl rfl)

/-- What an offered task changes. -/
theorem Change.of_offer (hstage : c.stage = .serving) (task : Task) :
    Change c m (c.offer task) := by
  unfold Course.offer addTask
  cases hcurrent : c.scheduler.current with
  | none => exact .refuses task rfl rfl
  | some program =>
      dsimp only
      unfold queueFor
      cases hget : c.scheduler.queues.get? task.kernel with
      | some queue =>
          dsimp only
          cases hnext : queue.enqueue { task with id := some c.scheduler.nextId } with
          | error e => exact .refuses task rfl rfl
          | ok next => exact .accepts hstage (.inl hget) hnext rfl rfl ⟨fun _ => rfl, fun _ => rfl⟩
      | none =>
          cases hqueue : c.scheduler.board.device.createQueue with
          | error e => exact .refuses task rfl rfl
          | ok made =>
              obtain ⟨number, device⟩ := made
              have hnew : (ExecutionQueue.start task.kernel number program).enqueue
                  { task with id := some c.scheduler.nextId } =
                  .ok { ExecutionQueue.start task.kernel number program with
                    pending := [{ task with id := some c.scheduler.nextId }] } := rfl
              simp only [Except.map, hnew]
              refine .accepts hstage (.inr ⟨hget, number, program, rfl⟩) hnew ?_ rfl
                ⟨fun _ => rfl, fun _ => rfl⟩
              exact NameMap.insert_insert _ _ _ _

theorem Change.of_work (kernel : String) : Change c m (c.work kernel) := by
  unfold Course.work
  split
  · exact .refl c _
  · rename_i queue hqueue
    split
    · exact .refl c _
    · rename_i hstep
      exact .works hqueue hstep

/-- Every move but one makes a change of the list. -/
theorem change_of_play (c : Course) (m : Move) (hm : m ≠ .resetMetrics) :
    Change c m (c.play m) := by
  cases m with
  | addConfiguration name => exact .of_addConfiguration name
  | insertConfiguration name image => exact .of_insertConfiguration name image
  | setConfiguration name =>
      simp only [Course.play]
      split
      · exact .of_setConfiguration name
      · exact .refl c _
  | addTask task =>
      simp only [Course.play]
      split
      · rename_i hserves
        exact .of_offer (serves_iff.1 hserves) task
      · exact .refl c _
  | wait visit =>
      simp only [Course.play]
      split
      · rename_i hready
        exact .collects hready (.inl rfl)
      · exact .refl c _
  | finish visit =>
      simp only [Course.play]
      split
      · rename_i hready
        exact .collects hready (.inr rfl)
      · exact .refl c _
  | reset =>
      simp only [Course.play]
      split
      · rename_i hserves
        exact .of_same rfl rfl (.refl _) (.inr ⟨serves_iff.1 hserves, rfl, rfl⟩)
      · exact .refl c _
  | cancel kernel =>
      simp only [Course.play]
      split
      · exact .refl c _
      · rename_i hserves
        refine .of_updateQueue kernel fun q => ⟨.requestDiscard q, fun h => h.requestDiscard, ?_⟩
        intro hstage
        exact absurd (serves_iff.2 hstage) hserves
  | clear =>
      simp only [Course.play]
      split
      · exact .refl c _
      · rename_i finish hstage
        split
        · rename_i hclosed
          exact .clears hstage hclosed rfl
        · exact .refl c _
  | work kernel => exact .of_work kernel
  | hold on => exact .of_same rfl rfl (.refl _) (.inl rfl)
  | release kernel =>
      exact .of_updateQueue kernel fun q =>
        ⟨.release q, fun h => h.release, fun _ => ExecutionQueue.shutdown_release q⟩
  | failKernel entryPoint => exact .of_same rfl rfl (.refl _) (.inl rfl)
  | refuseQueues on => exact .of_same rfl rfl (.refl _) (.inl rfl)
  | resetMetrics => exact absurd rfl hm

/-! ## The queues -/

theorem isReady_iff {visit : List String} :
    c.isReady visit = true ↔ c.stage = .serving ∧
      (∀ kernel queue, c.scheduler.queues.get? kernel = some queue → queue.isIdle = true) ∧
        visit.Perm c.scheduler.kernels := by
  unfold Course.isReady
  rw [Bool.and_eq_true, Bool.and_eq_true, serves_iff, NameMap.all_values_iff, List.isPerm_iff,
    and_assoc]

theorem isClosed_iff :
    c.isClosed = true ↔
      ∀ kernel queue, c.scheduler.queues.get? kernel = some queue → queue.phase = .closed := by
  unfold Course.isClosed
  rw [NameMap.all_values_iff]
  simp

theorem play_wait {visit : List String} (hready : c.isReady visit = true) :
    c.play (.wait visit) = c.collected visit .serving := if_pos hready

theorem play_finish {visit : List String} (hready : c.isReady visit = true) :
    c.play (.finish visit) = c.collected visit (.resetting (some (c.reports visit))) :=
  if_pos hready

theorem play_clear {finish : Option (List Error)} (hstage : c.stage = .resetting finish)
    (hclosed : c.isClosed = true) :
    c.play .clear = ⟨c.scheduler.clear, .serving, c.past ++ [.cleared finish]⟩ := by
  simp only [Course.play, hstage, hclosed, if_true]

theorem play_work {kernel : String} {queue next : ExecutionQueue} {board : Board}
    {done : Option Task} (hqueue : c.scheduler.queues.get? kernel = some queue)
    (hstep : queue.step c.scheduler.board = some (board, next, done)) :
    c.play (.work kernel) =
      { c with
        scheduler := c.scheduler.entered kernel board next done
        past := c.past ++ [.worked kernel (queue.deed next)
          (done.bind fun t => (c.scheduler.books.conclude t).1)] } := by
  simp only [Course.play, Course.work, hqueue, hstep]

/-- A worker that cannot step leaves everything as it is. -/
theorem play_work_cases (c : Course) (kernel : String) :
    c.play (.work kernel) = c ∨ ∃ queue next board done,
      c.scheduler.queues.get? kernel = some queue ∧
        queue.step c.scheduler.board = some (board, next, done) := by
  cases hqueue : c.scheduler.queues.get? kernel with
  | none => exact .inl (by simp only [Course.play, Course.work, hqueue])
  | some queue =>
      cases hstep : queue.step c.scheduler.board with
      | none => exact .inl (by simp only [Course.play, Course.work, hqueue, hstep])
      | some result => exact .inr ⟨queue, result.2.1, result.1, result.2.2, rfl, hstep⟩

/-- Nothing is cleared away before a reset has closed all queues. -/
theorem play_clear_cases (c : Course) :
    c.play .clear = c ∨ ∃ finish, c.stage = .resetting finish ∧ c.isClosed = true ∧
      c.play .clear = ⟨c.scheduler.clear, .serving, c.past ++ [.cleared finish]⟩ := by
  cases hstage : c.stage with
  | serving => exact .inl (by simp only [Course.play, hstage])
  | resetting finish =>
      by_cases hclosed : c.isClosed = true
      · exact .inr ⟨finish, rfl, hclosed, play_clear hstage hclosed⟩
      · exact .inl (by simp [Course.play, hstage, hclosed])

end Moves

theorem get?_clear (s : Scheduler) (kernel : String) : s.clear.queues.get? kernel = none := rfl

theorem get?_assemble (p : Blueprint) (device : Device) (directory : Directory)
    (kernel : String) : (p.assemble device directory).queues.get? kernel = none := rfl

/-- What holds of the queues at any moment. -/
structure Sound (c : Course) : Prop where
  wellFormed : ∀ kernel queue, c.scheduler.queues.get? kernel = some queue → queue.WellFormed
  /-- Only a reset asks queues to close. -/
  serving : c.stage = .serving → ∀ kernel queue, c.scheduler.queues.get? kernel = some queue →
    queue.shutdown = none
  /-- The reset of a finish finds nothing to do. -/
  finishing : ∀ reports, c.stage = .resetting (some reports) →
    ∀ kernel queue, c.scheduler.queues.get? kernel = some queue →
      queue.isIdle = true ∧ queue.fault = none

namespace Sound

variable {c c' : Course} {m : Move}

theorem change_tends {s : Scheduler} {stage : Stage} {past : List Event}
    {f : String → ExecutionQueue → ExecutionQueue} (h : Sound c)
    (hqueues : s.queues = c.scheduler.queues.mapWithName f)
    (htended : ∀ kernel queue, Tended c.stage queue (f kernel queue))
    (hstage : stage = c.stage ∨ c.stage = .serving ∧ stage = .resetting none ∧ m = .reset) :
    Sound ⟨s, stage, past⟩ := by
  have hget : ∀ {kernel queue}, s.queues.get? kernel = some queue →
      ∃ q, c.scheduler.queues.get? kernel = some q ∧ f kernel q = queue := by
    intro kernel queue hqueue
    rw [hqueues, NameMap.get?_mapWithName, Option.map_eq_some_iff] at hqueue
    exact hqueue
  constructor
  · intro kernel queue hqueue
    obtain ⟨q, hq, rfl⟩ := hget hqueue
    exact (htended kernel q).wellFormed (h.wellFormed kernel q hq)
  · intro hserving kernel queue hqueue
    obtain ⟨q, hq, rfl⟩ := hget hqueue
    have hsame : c.stage = .serving := by
      rcases hstage with hstage | ⟨hstage, -⟩
      · exact hstage ▸ hserving
      · exact hstage
    rw [(htended kernel q).shutdown hsame]
    exact h.serving hsame kernel q hq
  · intro reports hfinish kernel queue hqueue
    obtain ⟨q, hq, rfl⟩ := hget hqueue
    have hsame : c.stage = .resetting (some reports) := by
      rcases hstage with hstage | ⟨-, hstage, -⟩
      · exact hstage ▸ hfinish
      · rw [hstage] at hfinish
        simp at hfinish
    obtain ⟨hidle, hfault⟩ := h.finishing reports hsame kernel q hq
    obtain ⟨hphase, -, -, hpending, -, -, hsamefault⟩ := (htended kernel q).same
    rw [ExecutionQueue.isIdle, hphase, hpending, hsamefault]
    exact ⟨hidle, hfault⟩

/-- One queue is put in the place of another, or is new. -/
theorem change_insert {s : Scheduler} {past : List Event} {kernel : String}
    {next : ExecutionQueue} (h : Sound c)
    (hqueues : s.queues = c.scheduler.queues.insert kernel next) (hwell : next.WellFormed)
    (hserving : c.stage = .serving → next.shutdown = none)
    (hfinish : ∀ reports, c.stage = .resetting (some reports) →
      next.isIdle = true ∧ next.fault = none) : Sound ⟨s, c.stage, past⟩ := by
  have hget : ∀ {name queue}, s.queues.get? name = some queue →
      queue = next ∨ c.scheduler.queues.get? name = some queue := by
    intro name queue hqueue
    rw [hqueues, NameMap.get?_insert] at hqueue
    split at hqueue
    · exact .inl (Option.some.inj hqueue).symm
    · exact .inr hqueue
  constructor
  · intro name queue hqueue
    rcases hget hqueue with rfl | hqueue
    · exact hwell
    · exact h.wellFormed name queue hqueue
  · intro hstage name queue hqueue
    rcases hget hqueue with rfl | hqueue
    · exact hserving hstage
    · exact h.serving hstage name queue hqueue
  · intro reports hstage name queue hqueue
    rcases hget hqueue with rfl | hqueue
    · exact hfinish reports hstage
    · exact h.finishing reports hstage name queue hqueue

theorem turn {kernel : String} {board board' : Board} {queue next : ExecutionQueue}
    {done : Option Task} (h : Sound c) (hqueue : c.scheduler.queues.get? kernel = some queue)
    (hstep : queue.step board = some (board', next, done)) :
    Turn queue (queue.deed next) next ∧ done = (queue.deed next).reported? :=
  ExecutionQueue.turn_of_step (h.wellFormed kernel queue hqueue) hstep

/-- Every change keeps the queues sound. -/
theorem change (h : Sound c) (hchange : Change c m c') : Sound c' := by
  cases hchange with
  | tends f hqueues htended _ _ hstage => exact h.change_tends hqueues htended hstage
  | @accepts s task queue next hstage hqueue hnext hqueues =>
      have hwell : queue.WellFormed := by
        rcases hqueue with hqueue | ⟨-, number, program, rfl⟩
        · exact h.wellFormed _ queue hqueue
        · exact ExecutionQueue.wellFormed_start _ number program
      obtain ⟨hopen, -, hnexteq⟩ := ExecutionQueue.WellFormed.not_closed_of_enqueue hnext
      refine h.change_insert hqueues (hwell.enqueue hnext) (fun _ => ?_) (fun reports hfinish => ?_)
      · rw [hnexteq]
        exact hopen
      · rw [hstage] at hfinish
        simp at hfinish
  | refuses task hqueues =>
      constructor
      · rw [hqueues]
        exact h.wellFormed
      · rw [hqueues]
        exact h.serving
      · rw [hqueues]
        exact h.finishing
  | @works kernel board queue next done hqueue hstep =>
      have hwell := h.wellFormed kernel queue hqueue
      obtain ⟨hturn, -⟩ := h.turn hqueue hstep
      refine h.change_insert rfl (hwell.turn hturn) (fun hserving => ?_) (fun reports hfinish => ?_)
      · rw [ExecutionQueue.shutdown_of_turn hturn]
        exact h.serving hserving kernel queue hqueue
      · obtain ⟨hidle, hfault⟩ := h.finishing reports hfinish kernel queue hqueue
        obtain ⟨-, -, hnext, hsame⟩ := ExecutionQueue.closes_of_idle hidle hturn
        exact ⟨hnext, hsame.trans hfault⟩
  | @collects visit stage hready hstage =>
      obtain ⟨hserving, hidle, hvisit⟩ := isReady_iff.1 hready
      have hremoval := removal_collect c.scheduler (nodup_of_perm_kernels hvisit)
      constructor
      · intro kernel queue hqueue
        exact h.wellFormed kernel queue (hremoval.kept hvisit hqueue).1
      · intro _ kernel queue hqueue
        exact h.serving hserving kernel queue (hremoval.kept hvisit hqueue).1
      · intro _ _ kernel queue hqueue
        obtain ⟨hbefore, hfault⟩ := hremoval.kept hvisit hqueue
        exact ⟨hidle kernel queue hbefore, hfault⟩
  | clears =>
      refine ⟨fun kernel queue hqueue => ?_, fun _ kernel queue hqueue => ?_,
        fun _ _ kernel queue hqueue => ?_⟩
      all_goals simp [get?_clear] at hqueue

/-- Setting the counters back touches no queue. -/
theorem resetMetrics (h : Sound c) :
    Sound { c with scheduler := c.scheduler.resetMetrics } :=
  ⟨h.wellFormed, h.serving, h.finishing⟩

theorem play (h : Sound c) (m : Move) : Sound (c.play m) := by
  by_cases hm : m = .resetMetrics
  · subst hm
    exact h.resetMetrics
  · exact h.change (change_of_play c m hm)

theorem run (h : Sound c) (moves : List Move) : Sound (c.run moves) := by
  induction moves generalizing c with
  | nil => exact h
  | cons m moves ih => exact ih (h.play m)

theorem assemble (p : Blueprint) (device : Device) (directory : Directory) :
    Sound { scheduler := p.assemble device directory } := by
  constructor
  · intro kernel queue hqueue
    simp [get?_assemble] at hqueue
  · intro _ kernel queue hqueue
    simp [get?_assemble] at hqueue
  · intro _ _ kernel queue hqueue
    simp [get?_assemble] at hqueue

theorem ofBlueprint (p : Blueprint) (device : Device) (directory : Directory)
    (moves : List Move) : Sound (.ofBlueprint p device directory moves) :=
  (assemble p device directory).run moves

end Sound

/-- What every change keeps holds after any moves, as long as it does not break
where the counters are set back. -/
theorem Course.run_induction {P : Course → Prop} {c : Course} {moves : List Move}
    (hchange : ∀ {c c' : Course} {m : Move}, m ∈ moves → Sound c → P c → Change c m c' → P c')
    (hreset : ∀ {c : Course}, .resetMetrics ∈ moves → P c →
      P { c with scheduler := c.scheduler.resetMetrics })
    (hsound : Sound c) (h : P c) : P (c.run moves) := by
  induction moves generalizing c with
  | nil => exact h
  | cons m moves ih =>
      have hfirst : P (c.play m) := by
        by_cases hm : m = .resetMetrics
        · subst hm
          exact hreset List.mem_cons_self h
        · exact hchange List.mem_cons_self hsound h (change_of_play c m hm)
      refine ih ?_ ?_ (hsound.play m) hfirst
      · intro c c' m' hm'
        exact hchange (List.mem_cons_of_mem _ hm')
      · intro c hm'
        exact hreset (List.mem_cons_of_mem _ hm')

/-- What every change keeps holds after any moves that leave the counters to
count. -/
theorem Course.run_induction_counting {P : Course → Prop} {c : Course} {moves : List Move}
    (hmoves : ∀ m ∈ moves, m ≠ .resetMetrics)
    (hchange : ∀ {c c' : Course} {m : Move}, m ∈ moves → Sound c → P c → Change c m c' → P c')
    (hsound : Sound c) (h : P c) : P (c.run moves) :=
  Course.run_induction hchange (fun hm _ => absurd rfl (hmoves _ hm)) hsound h

end KernelDispatch.Scheduler
