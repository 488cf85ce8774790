import KernelDispatch.Proofs.Board.Dispatch
import KernelDispatch.Proofs.Scheduler.Change

/-!
# The operations, one by one

`Change` says what a move does to tasks and counters. Where configurations and
files matter as well, more has to be known: which image a registration reads, what
a board and the books are left with, and onto which queue an offered task is put.
Each operation has its equation here, or a short list of what it can do.

Only a completed task adds to the models and reaches the observers. `Books.Quiet`
says that no task was completed, and it holds of every other operation but the one
that clears everything away.

## Main results

* `addTask_eq` — an offered task, from the queue that it is put on.
* `Registers` — what a registration can do.
* `quiet_play` — moves in which no task is completed.
* `calm_play` — moves of which the device hears nothing.
-/

namespace KernelDispatch

/-- Books in which no further task was concluded. -/
structure Books.Quiet (b b' : Books) : Prop where
  models : b.SameModels b'
  observers : b'.observers = b.observers
  collected : b'.collected = b.collected
  directory : b'.directory = b.directory

theorem Books.Quiet.refl (b : Books) : b.Quiet b := ⟨.refl b, rfl, rfl, rfl⟩

theorem Books.quiet_withModel (b : Books) (name : String) : b.Quiet (b.withModel name) := by
  refine ⟨Scheduler.sameModels_withModel b name, ?_, ?_, ?_⟩
  all_goals
    unfold withModel
    split <;> rfl

/-- A board on which nothing was launched and no queue was made. -/
structure Board.Calm (b b' : Board) : Prop where
  log : b'.device.log = b.device.log
  queuesCreated : b'.device.queuesCreated = b.device.queuesCreated
  refusesQueues : b'.device.refusesQueues = b.device.refusesQueues
  titled : b.Titled → b'.Titled

theorem Board.Calm.refl (b : Board) : b.Calm b := ⟨rfl, rfl, rfl, id⟩

theorem Board.Titled.keep {b : Board} {c : Configuration} (hb : b.Titled)
    (hc : c.program.name = c.name) : (b.keep c).Titled := by
  intro name p hget
  rw [get?_programs] at hget
  dsimp only [Board.keep] at hget
  rw [NameMap.get?_insert] at hget
  split at hget
  · rename_i hname
    rw [← Option.some.inj hget, hc, hname]
  · exact hb name p ((get?_programs b name).trans hget)

namespace Scheduler

variable {s s' : Scheduler}

/-! ## Offered tasks -/

/-- The queue of its kernel with a task at its end, and the board after a new queue
was made if there was none. -/
def place (s : Scheduler) (program : String) (t : Task) : Result (Board × ExecutionQueue) :=
  match s.queues.get? t.kernel with
  | some queue => (queue.enqueue t).map fun queue => (s.board, queue)
  | none =>
      s.board.device.createQueue.map fun (number, device) =>
        ({ s.board with device },
          { ExecutionQueue.start t.kernel number program with pending := [t] })

/-- The scheduler that has accepted a task. -/
def seated (s : Scheduler) (board : Board) (kernel : String) (queue : ExecutionQueue) :
    Scheduler :=
  { s with
    nextId := s.nextId + 1
    board
    queues := s.queues.insert kernel queue
    books := { s.books with metrics := s.books.metrics.recordSubmitted } }

/-- The scheduler that has used up a number and accepted nothing. -/
def passed (s : Scheduler) : Scheduler := { s with nextId := s.nextId + 1 }

/-- An offered task is numbered and then put on the queue of its kernel, if it can
be. -/
theorem addTask_eq (s : Scheduler) (t : Task) :
    s.addTask t =
      match s.current with
      | none => (.error .noConfiguration, s)
      | some program =>
          match s.place program { t with id := some s.nextId } with
          | .error e => (.error e, s.passed)
          | .ok (board, queue) =>
              (.ok
                { id := s.nextId
                  loggedCost :=
                    if s.settings.logCosts then
                      some ((s.seated board t.kernel queue).queuedCostUnder program)
                    else none },
                s.seated board t.kernel queue) := by
  unfold addTask seated passed
  cases hcurrent : s.current with
  | none => rfl
  | some program =>
      dsimp only
      unfold queueFor place
      cases hget : s.queues.get? t.kernel with
      | some queue =>
          dsimp only
          cases queue.enqueue { t with id := some s.nextId } with
          | error e => rfl
          | ok next => rfl
      | none =>
          dsimp only
          cases s.board.device.createQueue with
          | error e => rfl
          | ok made =>
              obtain ⟨number, device⟩ := made
              have hnew : (ExecutionQueue.start t.kernel number program).enqueue
                  { t with id := some s.nextId } =
                  .ok { ExecutionQueue.start t.kernel number program with
                    pending := [{ t with id := some s.nextId }] } := rfl
              simp only [Except.map, hnew, NameMap.insert_insert]

/-- Numbers are given to the tasks that are offered while something is current. -/
theorem numbers_addTask (s : Scheduler) (t : Task) :
    (s.addTask t).2.nextId = s.nextId + (if s.current.isSome then 1 else 0) ∧
      ∀ acceptance, (s.addTask t).1 = .ok acceptance → acceptance.id = s.nextId := by
  rw [addTask_eq]
  cases hcurrent : s.current with
  | none => exact ⟨rfl, by simp⟩
  | some program =>
      dsimp only
      cases s.place program { t with id := some s.nextId } with
      | error e => exact ⟨rfl, by simp⟩
      | ok made => exact ⟨rfl, fun acceptance h => by rw [← Except.ok.inj h]⟩

/-- What is seen of a task that is offered. -/
def answered (s : Scheduler) (t : Task) : Event :=
  match (s.addTask t).1 with
  | .ok _ => .accepted { t with id := some s.nextId }
  | .error _ => .refused t

theorem offer_eq (c : Course) (t : Task) :
    c.offer t =
      { c with
        scheduler := (c.scheduler.addTask t).2
        past := c.past ++ [c.scheduler.answered t] } := by
  have hid := (numbers_addTask c.scheduler t).2
  unfold Course.offer answered
  cases hadd : c.scheduler.addTask t with
  | mk answer s =>
      cases answer with
      | error e => rfl
      | ok acceptance =>
          have hnumber := hid acceptance (by rw [hadd])
          simp only [hnumber]

/-- A queue to which a task was added, or which was made for it. -/
theorem place_cases {program : String} {t : Task} {board : Board} {queue : ExecutionQueue}
    (h : s.place program t = .ok (board, queue)) :
    s.board.Alike board ∧ board.configurations = s.board.configurations ∧
      ((∃ before, s.queues.get? t.kernel = some before ∧ before.enqueue t = .ok queue) ∨
        s.queues.get? t.kernel = none ∧ ∃ number,
          queue = { ExecutionQueue.start t.kernel number program with pending := [t] }) := by
  unfold place at h
  split at h
  · rename_i before hbefore
    cases hnext : before.enqueue t with
    | error e => simp [hnext, Except.map] at h
    | ok next =>
        obtain ⟨rfl, rfl⟩ : s.board = board ∧ next = queue := by
          simpa [hnext, Except.map] using h
        exact ⟨.refl _, rfl, .inl ⟨before, hbefore, hnext⟩⟩
  · rename_i hnone
    unfold Device.createQueue at h
    split at h
    · simp [Except.map] at h
    · simp only [Except.map, Except.ok.injEq, Prod.mk.injEq] at h
      rw [← h.1]
      exact ⟨⟨rfl, rfl, fun _ => rfl, rfl, rfl⟩, rfl, .inr ⟨hnone, _, h.2.symm⟩⟩

/-! ## Registration -/

/-- The image that is kept for a name. -/
def imageOf (s : Scheduler) (name : String) : Option ByteArray :=
  s.books.directory.read? (s.settings.imagePath name)

/-- The scheduler for which one more program was loaded. -/
def counted (s : Scheduler) : Scheduler :=
  { s with board := { s.board with device := s.board.device.countProgram } }

theorem addConfiguration_eq (s : Scheduler) (name : String) :
    s.addConfiguration name =
      if s.board.configurations.contains name then (.ok (), s)
      else
        match s.imageOf name with
        | none => (.error (.configuration s!"cannot read {s.settings.imagePath name}"), s)
        | some image =>
            match Configuration.ofImage name image with
            | .error e => (.error e, s)
            | .ok c => (.ok (), s.counted.register c) := by
  unfold addConfiguration imageOf
  simp only [Board.load_eq]
  split
  · rfl
  · cases s.books.directory.read? (s.settings.imagePath name) with
    | none => rfl
    | some image =>
        dsimp only
        cases Configuration.ofImage name image with
        | error e => rfl
        | ok c => rfl

theorem insertConfiguration_eq (s : Scheduler) (name : String) (image : ByteArray) :
    s.insertConfiguration name image =
      match Configuration.ofImage name image with
      | .error e => (.error e, s)
      | .ok c =>
          match s.board.configurations.get? name with
          | some earlier => (.ok earlier, s.counted)
          | none => (.ok c, s.counted.register c) := by
  unfold insertConfiguration
  rw [Board.load_eq]
  cases Configuration.ofImage name image with
  | error e => rfl
  | ok c => rfl

/-- What a registration can do. -/
inductive Registers (s : Scheduler) : Scheduler → Prop where
  | same : Registers s s
  | counted : Registers s s.counted
  /-- A name that was not taken is registered. -/
  | registered (c : Configuration) (hremembers : c.Remembers)
      (htitled : c.program.name = c.name)
      (hnew : s.board.configurations.get? c.name = none) : Registers s (s.counted.register c)

theorem registers_addConfiguration (s : Scheduler) (name : String) :
    Registers s (s.addConfiguration name).2 := by
  rw [addConfiguration_eq]
  split
  · exact .same
  · rename_i hnew
    split
    · exact .same
    · split
      · exact .same
      · rename_i c hc
        obtain ⟨hremembers, hname⟩ := Configuration.remembers_of_ofImage hc
        refine .registered c hremembers ((Configuration.program_of_ofImage hc).trans hname.symm) ?_
        simpa [NameMap.contains, hname] using hnew

theorem registers_insertConfiguration (s : Scheduler) (name : String) (image : ByteArray) :
    Registers s (s.insertConfiguration name image).2 := by
  rw [insertConfiguration_eq]
  split
  · exact .same
  · rename_i c hc
    obtain ⟨hremembers, hname⟩ := Configuration.remembers_of_ofImage hc
    split
    · exact .counted
    · rename_i hnew
      exact .registered c hremembers ((Configuration.program_of_ofImage hc).trans hname.symm)
        (hname ▸ hnew)

namespace Registers

theorem queues (h : Registers s s') : s'.queues = s.queues := by
  cases h <;> rfl

theorem nextId (h : Registers s s') : s'.nextId = s.nextId := by
  cases h <;> rfl

theorem settings (h : Registers s s') : s'.settings = s.settings := by
  cases h <;> rfl

/-- The current configuration is kept if there is one. -/
theorem current (h : Registers s s') {name : String} (hcurrent : s.current = some name) :
    s'.current = some name := by
  cases h with
  | same => exact hcurrent
  | counted => exact hcurrent
  | registered c =>
      show some (s.current.getD c.name) = some name
      rw [hcurrent, Option.getD_some]

theorem quiet (h : Registers s s') : s.books.Quiet s'.books := by
  cases h with
  | same => exact .refl _
  | counted => exact .refl _
  | registered c => exact Books.quiet_withModel _ _

theorem calm (h : Registers s s') : s.board.Calm s'.board := by
  cases h with
  | same => exact .refl _
  | counted => exact ⟨rfl, rfl, rfl, id⟩
  | registered c _ htitled =>
      exact ⟨rfl, rfl, rfl, fun hb => (show s.counted.board.Titled from hb).keep htitled⟩

end Registers

section Moves

variable {c : Course} {m : Move}

/-! ## Moves in which no task is completed -/

theorem quiet_collect (s : Scheduler) {visit : List String} (hvisit : visit.Nodup) :
    s.books.Quiet (s.collect (s.faultedAmong visit)).2.books := by
  rw [(removal_collect s hvisit).rest]
  exact ⟨⟨fun _ => rfl, fun _ => rfl⟩, rfl, rfl, rfl⟩

theorem quiet_addTask (s : Scheduler) (t : Task) : s.books.Quiet (s.addTask t).2.books := by
  rw [addTask_eq]
  split
  · exact .refl _
  · split
    · exact .refl _
    · exact ⟨⟨fun _ => rfl, fun _ => rfl⟩, rfl, rfl, rfl⟩

theorem scheduler_offer (c : Course) (t : Task) :
    (c.offer t).scheduler = (c.scheduler.addTask t).2 := by rw [offer_eq]

theorem Change.exists_past {c' : Course} (h : Change c m c') :
    ∃ news, c'.past = c.past ++ news := by
  cases h with
  | tends => exact ⟨[], (List.append_nil _).symm⟩
  | accepts => exact ⟨_, rfl⟩
  | refuses => exact ⟨_, rfl⟩
  | works => exact ⟨_, rfl⟩
  | collects => exact ⟨_, rfl⟩
  | clears => exact ⟨_, rfl⟩

/-- What has been seen is not forgotten. -/
theorem exists_past_play (c : Course) (m : Move) : ∃ news, (c.play m).past = c.past ++ news := by
  by_cases hm : m = .resetMetrics
  · subst hm
    exact ⟨[], (List.append_nil _).symm⟩
  · exact (change_of_play c m hm).exists_past

theorem exists_past_run (c : Course) (moves : List Move) :
    ∃ news, (c.run moves).past = c.past ++ news := by
  induction moves generalizing c with
  | nil => exact ⟨[], (List.append_nil _).symm⟩
  | cons m moves ih =>
      obtain ⟨first, hfirst⟩ := exists_past_play c m
      obtain ⟨rest, hrest⟩ := ih (c.play m)
      refine ⟨first ++ rest, ?_⟩
      rw [← List.append_assoc, ← hfirst]
      exact hrest

/-- Only a step of a worker completes a task, and only the end of a reset clears the
models. -/
theorem quiet_play (c : Course) (hwork : ∀ kernel, m ≠ .work kernel) (hclear : m ≠ .clear) :
    c.scheduler.books.Quiet (c.play m).scheduler.books := by
  cases m with
  | addConfiguration name => exact (registers_addConfiguration _ name).quiet
  | insertConfiguration name image => exact (registers_insertConfiguration _ name image).quiet
  | setConfiguration name =>
      simp only [Course.play]
      split
      · unfold setConfiguration
        split <;> exact .refl _
      · exact .refl _
  | addTask task =>
      simp only [Course.play]
      split
      · rw [scheduler_offer]
        exact quiet_addTask _ task
      · exact .refl _
  | wait visit =>
      simp only [Course.play]
      split
      · rename_i hready
        exact quiet_collect _ (nodup_of_perm_kernels (isReady_iff.1 hready).2.2)
      · exact .refl _
  | finish visit =>
      simp only [Course.play]
      split
      · rename_i hready
        exact quiet_collect _ (nodup_of_perm_kernels (isReady_iff.1 hready).2.2)
      · exact .refl _
  | reset =>
      simp only [Course.play]
      split <;> exact .refl _
  | cancel kernel =>
      simp only [Course.play, updateQueue_eq]
      split <;> exact .refl _
  | clear => exact absurd rfl hclear
  | work kernel => exact absurd rfl (hwork kernel)
  | hold on => exact .refl _
  | release kernel =>
      simp only [Course.play, updateQueue_eq]
      exact .refl _
  | failKernel entryPoint => exact .refl _
  | refuseQueues on => exact .refl _
  | resetMetrics => exact ⟨⟨fun _ => rfl, fun _ => rfl⟩, rfl, rfl, rfl⟩

/-! ## Moves of which the device hears nothing -/

theorem calm_collect (s : Scheduler) {visit : List String} (hvisit : visit.Nodup) :
    s.board.Calm (s.collect (s.faultedAmong visit)).2.board := by
  rw [(removal_collect s hvisit).rest]
  exact .refl _

/-- Only a step of a worker launches anything, and only an offered task has a queue
made. -/
theorem calm_play (c : Course) (hwork : ∀ kernel, m ≠ .work kernel)
    (hoffer : ∀ t, m = .addTask t → c.serves = false) (hrefuse : ∀ on, m ≠ .refuseQueues on) :
    c.scheduler.board.Calm (c.play m).scheduler.board := by
  cases m with
  | addConfiguration name => exact (registers_addConfiguration _ name).calm
  | insertConfiguration name image => exact (registers_insertConfiguration _ name image).calm
  | setConfiguration name =>
      simp only [Course.play]
      split
      · unfold setConfiguration
        split <;> exact .refl _
      · exact .refl _
  | addTask task =>
      simp only [Course.play, hoffer task rfl]
      exact .refl _
  | wait visit =>
      simp only [Course.play]
      split
      · rename_i hready
        exact calm_collect _ (nodup_of_perm_kernels (isReady_iff.1 hready).2.2)
      · exact .refl _
  | finish visit =>
      simp only [Course.play]
      split
      · rename_i hready
        exact calm_collect _ (nodup_of_perm_kernels (isReady_iff.1 hready).2.2)
      · exact .refl _
  | reset =>
      simp only [Course.play]
      split <;> exact .refl _
  | cancel kernel =>
      simp only [Course.play, updateQueue_eq]
      split <;> exact .refl _
  | clear =>
      simp only [Course.play]
      split
      · exact .refl _
      · split <;> exact .refl _
  | work kernel => exact absurd rfl (hwork kernel)
  | hold on => exact ⟨rfl, rfl, rfl, id⟩
  | release kernel =>
      simp only [Course.play, updateQueue_eq]
      exact .refl _
  | failKernel entryPoint => exact ⟨rfl, rfl, rfl, id⟩
  | refuseQueues on => exact absurd rfl (hrefuse on)
  | resetMetrics => exact .refl _

/-! ## The queue of one kernel -/

/-- What a move has made of the queue that a kernel has after it. -/
inductive Becomes (c : Course) (m : Move) (kernel : String) (q' : ExecutionQueue) : Prop where
  | kept (hqueue : c.scheduler.queues.get? kernel = some q')
      (hcurrent : ∀ name, c.scheduler.current = some name →
        (c.play m).scheduler.current = some name)
  | bound {q : ExecutionQueue} {name : String} (hqueue : c.scheduler.queues.get? kernel = some q)
      (hnext : q' = q.setProgram name) (hcurrent : (c.play m).scheduler.current = some name)
  | discards {q : ExecutionQueue} (hqueue : c.scheduler.queues.get? kernel = some q)
      (hnext : q' = q.requestDiscard)
      (hcurrent : (c.play m).scheduler.current = c.scheduler.current)
  | released {q : ExecutionQueue} (hqueue : c.scheduler.queues.get? kernel = some q)
      (hnext : q' = q.release) (hcurrent : (c.play m).scheduler.current = c.scheduler.current)
  | offered {task : Task} {program : String} {board : Board} (hm : m = .addTask task)
      (hkernel : task.kernel = kernel) (hprogram : c.scheduler.current = some program)
      (hplace : c.scheduler.place program { task with id := some c.scheduler.nextId } =
        .ok (board, q'))
      (hcurrent : (c.play m).scheduler.current = c.scheduler.current)
  | worked {q : ExecutionQueue} {board : Board} {done : Option Task} (hm : m = .work kernel)
      (hqueue : c.scheduler.queues.get? kernel = some q)
      (hstep : q.step c.scheduler.board = some (board, q', done))
      (hcurrent : (c.play m).scheduler.current = c.scheduler.current)

namespace Becomes

variable {kernel : String} {q' : ExecutionQueue}

/-- A move that cannot be made leaves the queue alone. -/
theorem of_same (hplay : (c.play m).scheduler = c.scheduler)
    (h : (c.play m).scheduler.queues.get? kernel = some q') : Becomes c m kernel q' := by
  rw [hplay] at h
  refine .kept h fun name hname => ?_
  rw [hplay, hname]

theorem of_registers (hregisters : Registers c.scheduler (c.play m).scheduler)
    (h : (c.play m).scheduler.queues.get? kernel = some q') : Becomes c m kernel q' := by
  rw [hregisters.queues] at h
  exact .kept h fun _ => hregisters.current

theorem of_setConfiguration (name : String)
    (hplay : (c.play m).scheduler = (c.scheduler.setConfiguration name).2)
    (h : (c.play m).scheduler.queues.get? kernel = some q') : Becomes c m kernel q' := by
  unfold setConfiguration at hplay
  split at hplay
  · rw [hplay] at h
    dsimp only at h
    rw [NameMap.get?_map, Option.map_eq_some_iff] at h
    obtain ⟨q, hqueue, hnext⟩ := h
    exact .bound hqueue hnext.symm (by rw [hplay])
  · exact of_same hplay h

theorem of_addTask {task : Task} (hm : m = .addTask task)
    (hplay : (c.play m).scheduler = (c.scheduler.addTask task).2)
    (h : (c.play m).scheduler.queues.get? kernel = some q') : Becomes c m kernel q' := by
  rw [addTask_eq] at hplay
  cases hcurrent : c.scheduler.current with
  | none =>
      rw [hcurrent] at hplay
      exact of_same hplay h
  | some program =>
      rw [hcurrent] at hplay
      dsimp only at hplay
      cases hplace : c.scheduler.place program { task with id := some c.scheduler.nextId } with
      | error e =>
          rw [hplace] at hplay
          rw [hplay] at h
          exact .kept h fun name hname => by rw [hplay]; exact hname
      | ok made =>
          obtain ⟨board, queue⟩ := made
          rw [hplace] at hplay
          have hafter : (c.play m).scheduler.current = c.scheduler.current := by rw [hplay]; rfl
          rw [hplay] at h
          dsimp only [seated] at h
          rw [NameMap.get?_insert] at h
          split at h
          · rename_i hkernel
            obtain rfl := Option.some.inj h
            exact .offered hm hkernel.symm hcurrent hplace hafter
          · exact .kept h fun name hname => hafter.trans hname

theorem of_collected {visit : List String} {stage : Stage} (hready : c.isReady visit = true)
    (hplay : c.play m = c.collected visit stage)
    (h : (c.play m).scheduler.queues.get? kernel = some q') : Becomes c m kernel q' := by
  have hvisit := (isReady_iff.1 hready).2.2
  have hremoval := removal_collect c.scheduler (nodup_of_perm_kernels hvisit)
  rw [hplay] at h
  refine .kept (hremoval.kept hvisit h).1 fun name hname => ?_
  rw [hplay]
  exact (congrArg Scheduler.current hremoval.rest).trans hname

/-- One queue is changed in its place. -/
theorem of_updateQueue (name : String) {f : ExecutionQueue → ExecutionQueue}
    (hf : ∀ q, (c.play m).scheduler.current = c.scheduler.current →
      c.scheduler.queues.get? kernel = some q → Becomes c m kernel (f q))
    (hplay : (c.play m).scheduler = c.scheduler.updateQueue name f)
    (h : (c.play m).scheduler.queues.get? kernel = some q') : Becomes c m kernel q' := by
  rw [updateQueue_eq] at hplay
  have hafter : (c.play m).scheduler.current = c.scheduler.current := by rw [hplay]
  rw [hplay] at h
  dsimp only at h
  rw [NameMap.get?_mapWithName, Option.map_eq_some_iff] at h
  obtain ⟨q, hqueue, rfl⟩ := h
  split
  · exact hf q hafter hqueue
  · exact .kept hqueue fun other hother => hafter.trans hother

theorem of_work {name : String} (hm : m = .work name)
    (h : (c.play m).scheduler.queues.get? kernel = some q') : Becomes c m kernel q' := by
  subst hm
  rcases play_work_cases c name with hplay | ⟨q, next, board, done, hqueue, hstep⟩
  · exact of_same (congrArg Course.scheduler hplay) h
  · have hplay : (c.play (.work name)).scheduler = c.scheduler.entered name board next done :=
      congrArg Course.scheduler (play_work hqueue hstep)
    have hafter : (c.play (.work name)).scheduler.current = c.scheduler.current := by
      rw [hplay]
      rfl
    rw [hplay] at h
    dsimp only [entered] at h
    rw [NameMap.get?_insert] at h
    split at h
    · rename_i hkernel
      obtain rfl := Option.some.inj h
      subst hkernel
      exact .worked rfl hqueue hstep hafter
    · exact .kept h fun other hother => hafter.trans hother

end Becomes

/-- A queue that a kernel has after a move is the one it had, changed in one way or
none, or a new one for an offered task. -/
theorem becomes_play {kernel : String} {q' : ExecutionQueue}
    (h : (c.play m).scheduler.queues.get? kernel = some q') : Becomes c m kernel q' := by
  cases m with
  | addConfiguration name =>
      exact .of_registers (registers_addConfiguration c.scheduler name) h
  | insertConfiguration name image =>
      exact .of_registers (registers_insertConfiguration c.scheduler name image) h
  | setConfiguration name =>
      by_cases hserves : c.serves = true
      · exact .of_setConfiguration name (by simp only [Course.play, hserves, if_true]) h
      · exact .of_same (by simp [Course.play, hserves]) h
  | addTask task =>
      by_cases hserves : c.serves = true
      · exact .of_addTask rfl (by simp only [Course.play, hserves, if_true, scheduler_offer]) h
      · exact .of_same (by simp [Course.play, hserves]) h
  | wait visit =>
      by_cases hready : c.isReady visit = true
      · exact .of_collected hready (play_wait hready) h
      · exact .of_same (by simp [Course.play, hready]) h
  | finish visit =>
      by_cases hready : c.isReady visit = true
      · exact .of_collected hready (play_finish hready) h
      · exact .of_same (by simp [Course.play, hready]) h
  | reset =>
      refine .of_same ?_ h
      simp only [Course.play]
      split <;> rfl
  | cancel name =>
      by_cases hserves : c.serves = true
      · exact .of_same (by simp [Course.play, hserves]) h
      · refine .of_updateQueue name (fun q hafter hqueue => .discards hqueue rfl hafter) ?_ h
        simp [Course.play, hserves]
  | clear =>
      cases hstage : c.stage with
      | serving => exact .of_same (by simp only [Course.play, hstage]) h
      | resetting finish =>
          by_cases hclosed : c.isClosed = true
          · rw [play_clear hstage hclosed, get?_clear] at h
            simp at h
          · exact .of_same (by simp [Course.play, hstage, hclosed]) h
  | work name => exact .of_work rfl h
  | hold on => exact .kept h fun _ => id
  | release name =>
      exact .of_updateQueue name (fun q hafter hqueue => .released hqueue rfl hafter) rfl h
  | failKernel entryPoint => exact .kept h fun _ => id
  | refuseQueues on => exact .kept h fun _ => id
  | resetMetrics => exact .kept h fun _ => id

/-- What is seen of a worker was a step of it, and nothing else was seen with it. -/
theorem step_of_worked {kernel : String} {d : ExecutionQueue.Deed}
    {record : Option CompletionRecord} {news : List Event}
    (hnews : (c.play m).past = c.past ++ news) (h : .worked kernel d record ∈ news) :
    ∃ queue next board done, c.scheduler.queues.get? kernel = some queue ∧
      queue.step c.scheduler.board = some (board, next, done) ∧ d = queue.deed next ∧
        record = done.bind fun t => (c.scheduler.books.conclude t).1 := by
  have hchange : ∀ {c'}, Change c m c' → c'.past = c.past ++ news →
      ∃ queue next board done, c.scheduler.queues.get? kernel = some queue ∧
        queue.step c.scheduler.board = some (board, next, done) ∧ d = queue.deed next ∧
          record = done.bind fun t => (c.scheduler.books.conclude t).1 := by
    intro c' hchange hpast
    cases hchange with
    | tends =>
        rw [List.self_eq_append_right.1 hpast] at h
        simp at h
    | accepts =>
        rw [← List.append_cancel_left hpast] at h
        simp at h
    | refuses =>
        rw [← List.append_cancel_left hpast] at h
        simp at h
    | works hqueue hstep =>
        rw [← List.append_cancel_left hpast, List.mem_singleton] at h
        obtain ⟨rfl, rfl, rfl⟩ := Event.worked.inj h
        exact ⟨_, _, _, _, hqueue, hstep, rfl, rfl⟩
    | collects =>
        rw [← List.append_cancel_left hpast] at h
        simp at h
    | clears =>
        rw [← List.append_cancel_left hpast] at h
        simp at h
  by_cases hm : m = .resetMetrics
  · subst hm
    rw [List.self_eq_append_right.1 hnews] at h
    simp at h
  · exact hchange (change_of_play c m hm) hnews

end Moves

end Scheduler

end KernelDispatch
