import KernelDispatch.Proofs.Scheduler.Agreement

/-!
# Lanes

What becomes of the tasks of one kernel is decided by its queue, by the measurements
of that kernel, and by what all kernels share: the loaded programs, the current
configuration and the state of the device. Two schedulers that are alike in these are
alike in them after any operation that both of them carry out. An operation on the
queue of another kernel is carried out by one of them alone.

How far the likeness goes is told by two things: which kernels are looked at, and
whether the numbers of tasks are.

## Main definitions

* `Matches` — schedulers that are alike where these kernels are concerned.

## Main results

* `Matches.addTask`, `Matches.entered` and so on — an operation of both.
* `matches_foreign_addTask` and so on — an operation that is not looked at.
-/

namespace KernelDispatch

/-- A record as it is seen with the number of its task, or without. -/
def CompletionRecord.seen (numbered : Bool) (r : CompletionRecord) : CompletionRecord :=
  if numbered then r else { r with taskId := 0 }

theorem CostModel.clear_record (m : CostModel) (kernel : String) (sample : Sample Float) :
    (m.record kernel sample).clear = m.clear := rfl

/-- Models with the same settings and the same measurements of a kernel estimate alike. -/
theorem CostModel.predict_congr {m m' : CostModel} (hclear : m'.clear = m.clear)
    {kernel : String} (hsamples : m'.samples kernel = m.samples kernel) (n : UInt64) :
    m'.predict kernel n = m.predict kernel n := by
  have hbare : ∀ m : CostModel, m.predict kernel n = Prediction.make m.clear.prior
      (m.samples kernel) (m.clear.operations kernel n) (m.clear.offlineTime kernel n) :=
    fun _ => rfl
  rw [hbare, hbare, hclear, hsamples]

namespace Scheduler

variable {numbered : Bool} {lane : String → Prop} {s s' s'' : Scheduler}

/-- Schedulers that are alike where these kernels are concerned. -/
structure Matches (numbered : Bool) (lane : String → Prop) (s s' : Scheduler) : Prop where
  settings : s'.settings = s.settings
  alike : s.board.Alike s'.board
  current : s'.current = s.current
  queues : ∀ kernel, lane kernel →
    (s'.queues.get? kernel).map (ExecutionQueue.seen numbered) =
      (s.queues.get? kernel).map (ExecutionQueue.seen numbered)
  newModel : ∀ name, s'.books.newModel name = s.books.newModel name
  shape : ∀ name, (s'.books.model name).clear = (s.books.model name).clear
  samples : ∀ kernel, lane kernel → ∀ name,
    (s'.books.model name).samples kernel = (s.books.model name).samples kernel

namespace Matches

theorem refl (numbered : Bool) (lane : String → Prop) (s : Scheduler) :
    Matches numbered lane s s :=
  ⟨rfl, .refl _, rfl, fun _ _ => rfl, fun _ => rfl, fun _ => rfl, fun _ _ _ => rfl⟩

theorem symm (h : Matches numbered lane s s') : Matches numbered lane s' s :=
  ⟨h.settings.symm, h.alike.symm, h.current.symm, fun kernel hlane => (h.queues kernel hlane).symm,
    fun name => (h.newModel name).symm, fun name => (h.shape name).symm,
    fun kernel hlane name => (h.samples kernel hlane name).symm⟩

theorem trans (h : Matches numbered lane s s') (h' : Matches numbered lane s' s'') :
    Matches numbered lane s s'' :=
  ⟨h'.settings.trans h.settings, h.alike.trans h'.alike, h'.current.trans h.current,
    fun kernel hlane => (h'.queues kernel hlane).trans (h.queues kernel hlane),
    fun name => (h'.newModel name).trans (h.newModel name),
    fun name => (h'.shape name).trans (h.shape name),
    fun kernel hlane name => (h'.samples kernel hlane name).trans (h.samples kernel hlane name)⟩

/-- Books in which no task was completed match. -/
theorem of_quiet (hsettings : s'.settings = s.settings) (halike : s.board.Alike s'.board)
    (hcurrent : s'.current = s.current)
    (hqueues : ∀ kernel, lane kernel → s'.queues.get? kernel = s.queues.get? kernel)
    (hbooks : s.books.SameModels s'.books) : Matches numbered lane s s' :=
  ⟨hsettings, halike, hcurrent, fun kernel hlane => by rw [hqueues kernel hlane],
    hbooks.newModel, fun name => by rw [hbooks.model], fun _ _ name => by rw [hbooks.model]⟩

end Matches

/-! ## Operations that are not looked at -/

section Foreign

variable {kernel : String} (hforeign : ¬ lane kernel)

include hforeign

theorem get?_insert_foreign (queues : NameMap ExecutionQueue) (queue : ExecutionQueue)
    {other : String} (hother : lane other) :
    (queues.insert kernel queue).get? other = queues.get? other :=
  NameMap.get?_insert_of_ne _ _ fun heq => hforeign (heq ▸ hother)

/-- A task of another kernel is put on a queue that is not looked at. -/
theorem matches_foreign_addTask {t : Task} (hkernel : t.kernel = kernel) :
    Matches numbered lane s (s.addTask t).2 := by
  rw [addTask_eq]
  split
  · exact .refl _ _ _
  · split
    · exact .of_quiet rfl (.refl _) rfl (fun _ _ => rfl) (.refl _)
    · rename_i board queue hplace
      subst hkernel
      exact .of_quiet rfl (place_cases hplace).1 rfl
        (fun other hother => get?_insert_foreign hforeign _ _ hother) ⟨fun _ => rfl, fun _ => rfl⟩

theorem matches_foreign_updateQueue (f : ExecutionQueue → ExecutionQueue) :
    Matches numbered lane s (s.updateQueue kernel f) := by
  refine .of_quiet ?_ ?_ ?_ (fun other hother => ?_) ?_
  · rw [updateQueue_eq]
  · rw [updateQueue_eq]
    exact .refl _
  · rw [updateQueue_eq]
  · have hne : other ≠ kernel := fun heq => hforeign (heq ▸ hother)
    rw [get?_updateQueue, if_neg hne]
  · rw [updateQueue_eq]
    exact .refl _

/-- A step of another worker adds a measurement of its own kernel at most. -/
theorem matches_foreign_entered {board : Board} {queue next : ExecutionQueue}
    {done : Option Task} (hstep : queue.step s.board = some (board, next, done))
    (hdone : ∀ t, done = some t → t.kernel = kernel ∧ ∃ name nanos,
      t.configuration = some name ∧ t.duration = some nanos) :
    Matches numbered lane s (s.entered kernel board next done) := by
  have hqueues : ∀ other, lane other →
      (s.entered kernel board next done).queues.get? other = s.queues.get? other :=
    fun other hother => get?_insert_foreign hforeign _ _ hother
  have halike := ExecutionQueue.alike_of_step hstep
  cases done with
  | none => exact .of_quiet rfl halike rfl hqueues (.refl _)
  | some t =>
      obtain ⟨hkernel, configuration, nanos, hconfiguration, hduration⟩ := hdone t rfl
      have hmodel : ∀ name, (s.entered kernel board next (some t)).books.model name = _ :=
        Books.model_conclude hconfiguration hduration
      refine ⟨rfl, halike, rfl, fun other hother => by rw [hqueues other hother],
        Books.newModel_conclude hconfiguration hduration, fun name => ?_,
        fun other hother name => ?_⟩
      · rw [hmodel]
        split
        · exact CostModel.clear_record _ _ _
        · rfl
      · have hne : other ≠ t.kernel := fun heq => hforeign (hkernel ▸ heq ▸ hother)
        rw [hmodel]
        split
        · rw [CostModel.samples_record, if_neg hne]
        · rfl

end Foreign

/-! ## Operations that both carry out -/

namespace Matches

/-- The queue of a kernel that is looked at, on the other side. -/
theorem exists_queue (h : Matches numbered lane s s') {kernel : String} (hlane : lane kernel)
    {q : ExecutionQueue} (hq : s.queues.get? kernel = some q) :
    ∃ q', s'.queues.get? kernel = some q' ∧ q'.seen numbered = q.seen numbered := by
  have hsame := h.queues kernel hlane
  rw [hq, Option.map_some, Option.map_eq_some_iff] at hsame
  exact hsame

theorem get?_eq_none (h : Matches numbered lane s s') {kernel : String} (hlane : lane kernel)
    (hq : s.queues.get? kernel = none) : s'.queues.get? kernel = none := by
  have hsame := h.queues kernel hlane
  rwa [hq, Option.map_none, Option.map_eq_none_iff] at hsame

/-- Where nothing but queues and board has changed, only these are looked at. -/
theorem of_books (h : Matches numbered lane s s') {t t' : Scheduler}
    (hsettings : t.settings = s.settings) (hsettings' : t'.settings = s'.settings)
    (halike : t.board.Alike t'.board) (hcurrent : t'.current = t.current)
    (hqueues : ∀ kernel, lane kernel →
      (t'.queues.get? kernel).map (ExecutionQueue.seen numbered) =
        (t.queues.get? kernel).map (ExecutionQueue.seen numbered))
    (hbooks : s.books.SameModels t.books) (hbooks' : s'.books.SameModels t'.books) :
    Matches numbered lane t t' := by
  refine ⟨?_, halike, hcurrent, hqueues, fun name => ?_, fun name => ?_,
    fun kernel hlane name => ?_⟩
  · rw [hsettings', hsettings, h.settings]
  · rw [hbooks'.newModel, hbooks.newModel, h.newModel]
  · rw [hbooks'.model, hbooks.model, h.shape]
  · rw [hbooks'.model, hbooks.model, h.samples kernel hlane]

/-! ### Registration -/

theorem counted (h : Matches numbered lane s s') : Matches numbered lane s.counted s'.counted :=
  ⟨h.settings, ⟨h.alike.programs, h.alike.timing, h.alike.failing, h.alike.refusesQueues,
    h.alike.holding⟩, h.current, h.queues, h.newModel, h.shape, h.samples⟩

theorem register (h : Matches numbered lane s s') (c : Configuration) :
    Matches numbered lane (s.register c) (s'.register c) := by
  have hprograms : (s'.board.keep c).programs = (s.board.keep c).programs := by
    apply NameMap.ext_get?
    intro name
    have hget := congrArg (fun programs => programs.get? name) h.alike.programs
    simp only [Board.get?_programs, Board.keep, NameMap.get?_insert] at hget ⊢
    split
    · rfl
    · exact hget
  refine h.of_books rfl rfl ⟨hprograms, h.alike.timing, h.alike.failing, h.alike.refusesQueues,
    h.alike.holding⟩ ?_ h.queues (sameModels_withModel _ _) (sameModels_withModel _ _)
  show some (s'.current.getD c.name) = some (s.current.getD c.name)
  rw [h.current]

/-- The same image is read on both sides. -/
theorem addConfiguration (h : Matches numbered lane s s') {name : String}
    (himage : s'.imageOf name = s.imageOf name) :
    (s'.addConfiguration name).1 = (s.addConfiguration name).1 ∧
      Matches numbered lane (s.addConfiguration name).2 (s'.addConfiguration name).2 := by
  rw [addConfiguration_eq, addConfiguration_eq, h.alike.contains, himage, h.settings]
  split
  · exact ⟨rfl, h⟩
  · cases s.imageOf name with
    | none => exact ⟨rfl, h⟩
    | some image =>
        dsimp only
        cases Configuration.ofImage name image with
        | error e => exact ⟨rfl, h⟩
        | ok c => exact ⟨rfl, h.counted.register c⟩

theorem insertConfiguration (h : Matches numbered lane s s') (name : String)
    (image : ByteArray) :
    Matches numbered lane (s.insertConfiguration name image).2
      (s'.insertConfiguration name image).2 := by
  have hcontains := h.alike.contains name
  rw [insertConfiguration_eq, insertConfiguration_eq]
  cases Configuration.ofImage name image with
  | error e => exact h
  | ok c =>
      dsimp only
      unfold NameMap.contains at hcontains
      cases hget : s.board.configurations.get? name with
      | none =>
          have hget' : s'.board.configurations.get? name = none := by
            simpa [hget] using hcontains
          rw [hget']
          exact h.counted.register c
      | some earlier =>
          obtain ⟨earlier', hget'⟩ :=
            Option.isSome_iff_exists.1 (hcontains.trans (by rw [hget]; rfl))
          rw [hget']
          exact h.counted

theorem setConfiguration (h : Matches numbered lane s s') (name : String) :
    (s'.setConfiguration name).1 = (s.setConfiguration name).1 ∧
      Matches numbered lane (s.setConfiguration name).2 (s'.setConfiguration name).2 := by
  unfold Scheduler.setConfiguration
  rw [h.alike.contains]
  split
  · refine ⟨rfl, h.of_books rfl rfl h.alike rfl (fun kernel hlane => ?_) (.refl _) (.refl _)⟩
    have hsame := congrArg (Option.map fun q => q.setProgram name) (h.queues kernel hlane)
    rw [Option.map_map, Option.map_map] at hsame
    rw [NameMap.get?_map, NameMap.get?_map, Option.map_map, Option.map_map]
    exact hsame
  · exact ⟨rfl, h⟩

/-! ### Tasks -/

/-- What is seen of a queue that is put in the place of another. -/
theorem insert_queue {queues queues' : NameMap ExecutionQueue}
    (hqueues : ∀ kernel, lane kernel →
      (queues'.get? kernel).map (ExecutionQueue.seen numbered) =
        (queues.get? kernel).map (ExecutionQueue.seen numbered))
    {q q' : ExecutionQueue} (hseen : q'.seen numbered = q.seen numbered) (name kernel : String)
    (hlane : lane kernel) :
    ((queues'.insert name q').get? kernel).map (ExecutionQueue.seen numbered) =
      ((queues.insert name q).get? kernel).map (ExecutionQueue.seen numbered) := by
  rw [NameMap.get?_insert, NameMap.get?_insert]
  split
  · rw [Option.map_some, Option.map_some, hseen]
  · exact hqueues kernel hlane

/-- A task that is offered to both is put on queues that look alike, or refused by both
for the same reason. -/
theorem place (h : Matches numbered lane s s') (program : String) {t t' : Task}
    (hseen : t'.seen numbered = t.seen numbered) (hlane : lane t.kernel) :
    ((s'.place program t').map fun made => made.2.seen numbered) =
      (s.place program t).map fun made => made.2.seen numbered := by
  have hkernel : t'.kernel = t.kernel := by
    rw [← Task.kernel_seen numbered, hseen, Task.kernel_seen]
  unfold Scheduler.place
  rw [hkernel]
  cases hget : s.queues.get? t.kernel with
  | none =>
      rw [h.get?_eq_none hlane hget]
      dsimp only
      unfold Device.createQueue
      rw [h.alike.refusesQueues]
      split
      · rfl
      · simp [Except.map, ExecutionQueue.seen, ExecutionQueue.start, hseen]
  | some q =>
      obtain ⟨q', hget', hq'⟩ := h.exists_queue hlane hget
      rw [hget']
      dsimp only
      have henqueue := ExecutionQueue.enqueue_seen numbered q t
      have henqueue' := ExecutionQueue.enqueue_seen numbered q' t'
      rw [hq', hseen, henqueue] at henqueue'
      cases hnext : q.enqueue t with
      | error e =>
          rw [hnext] at henqueue'
          cases hnext' : q'.enqueue t' with
          | error e' =>
              rw [hnext'] at henqueue'
              exact henqueue'.symm
          | ok next' => simp [hnext', Except.map] at henqueue'
      | ok next =>
          rw [hnext] at henqueue'
          cases hnext' : q'.enqueue t' with
          | error e' => simp [hnext', Except.map] at henqueue'
          | ok next' =>
              rw [hnext'] at henqueue'
              exact henqueue'.symm

/-- An offered task is accepted by both or refused by both. -/
theorem addTask (h : Matches numbered lane s s') (hid : numbered = true → s'.nextId = s.nextId)
    {t : Task} (hlane : lane t.kernel) :
    ((s'.addTask t).1.map fun _ => ()) = ((s.addTask t).1.map fun _ => ()) ∧
      Matches numbered lane (s.addTask t).2 (s'.addTask t).2 := by
  have hseen : ({ t with id := some s'.nextId } : Task).seen numbered =
      ({ t with id := some s.nextId } : Task).seen numbered := by
    cases numbered with
    | false => rfl
    | true => rw [hid rfl]
  rw [addTask_eq, addTask_eq, h.current]
  cases hcurrent : s.current with
  | none => exact ⟨rfl, h⟩
  | some program =>
      dsimp only
      have hplace := h.place program hseen hlane
      cases hmade : s.place program { t with id := some s.nextId } with
      | error e =>
          rw [hmade] at hplace
          cases hmade' : s'.place program { t with id := some s'.nextId } with
          | ok made' => simp [hmade', Except.map] at hplace
          | error e' =>
              rw [hmade'] at hplace
              refine ⟨by simpa [Except.map] using hplace, ?_⟩
              exact h.of_books rfl rfl h.alike h.current h.queues (.refl _) (.refl _)
      | ok made =>
          rw [hmade] at hplace
          cases hmade' : s'.place program { t with id := some s'.nextId } with
          | error e' => simp [hmade', Except.map] at hplace
          | ok made' =>
              rw [hmade'] at hplace
              have hqueue : made'.2.seen numbered = made.2.seen numbered := by
                simpa [Except.map] using hplace
              have halike : made.1.Alike made'.1 :=
                ((place_cases hmade).1.symm.trans h.alike).trans (place_cases hmade').1
              refine ⟨rfl, ?_⟩
              exact h.of_books rfl rfl halike h.current
                (fun kernel hkernel => insert_queue h.queues hqueue _ kernel hkernel)
                ⟨fun _ => rfl, fun _ => rfl⟩ ⟨fun _ => rfl, fun _ => rfl⟩

/-! ### Steps of workers -/

/-- Tasks that look alike leave records that look alike. -/
theorem measure (h : Matches numbered lane s s') {t t' : Task}
    (hseen : t'.seen numbered = t.seen numbered) (hlane : lane t.kernel) (configuration : String)
    (nanos : Nat) :
    (s'.books.measure t' configuration nanos).1.seen numbered =
        (s.books.measure t configuration nanos).1.seen numbered ∧
      (s'.books.measure t' configuration nanos).1.sample =
        (s.books.measure t configuration nanos).1.sample := by
  have hkernel : t'.kernel = t.kernel := by
    rw [← Task.kernel_seen numbered, hseen, Task.kernel_seen]
  have hitems : t'.workItems = t.workItems := by
    rw [← Task.workItems_seen numbered, hseen, Task.workItems_seen]
  have hoperations : ∀ n, (s'.books.model configuration).operations t.kernel n =
      (s.books.model configuration).operations t.kernel n := by
    intro n
    show (s'.books.model configuration).clear.operations t.kernel n = _
    rw [h.shape]
    rfl
  have hsample : (s'.books.measure t' configuration nanos).1.sample =
      (s.books.measure t configuration nanos).1.sample := by
    rw [Books.sample_measure, Books.sample_measure, hkernel, hitems, hoperations]
  refine ⟨?_, hsample⟩
  have hpredict : ((s'.books.model configuration).record t.kernel
      (s.books.measure t configuration nanos).1.sample).predict t.kernel t.workItems =
        ((s.books.model configuration).record t.kernel
          (s.books.measure t configuration nanos).1.sample).predict t.kernel t.workItems := by
    apply CostModel.predict_congr
    · exact h.shape configuration
    · rw [CostModel.samples_record, CostModel.samples_record, h.samples _ hlane]
  have hrecord := Books.record_measure s.books t configuration nanos
  have hrecord' := Books.record_measure s'.books t' configuration nanos
  rw [hsample, hkernel, hitems, hpredict] at hrecord'
  rw [hrecord']
  refine Eq.trans ?_ (congrArg (CompletionRecord.seen numbered) hrecord.symm)
  cases numbered with
  | false => rfl
  | true => rw [show t'.id = t.id from congrArg Task.id hseen]

/-- A step of a worker that both take. -/
theorem entered (h : Matches numbered lane s s') (kernel : String) {board board' : Board}
    {q next q' next' : ExecutionQueue} {done done' : Option Task}
    (hstep : q.step s.board = some (board, next, done))
    (hstep' : q'.step s'.board = some (board', next', done'))
    (hnext : next'.seen numbered = next.seen numbered)
    (hdone : done'.map (Task.seen numbered) = done.map (Task.seen numbered))
    (hbound : ∀ t, done = some t → lane t.kernel ∧ ∃ name nanos,
      t.configuration = some name ∧ t.duration = some nanos) :
    ((done'.bind fun t => (s'.books.conclude t).1).map (CompletionRecord.seen numbered) =
        (done.bind fun t => (s.books.conclude t).1).map (CompletionRecord.seen numbered)) ∧
      Matches numbered lane (s.entered kernel board next done)
        (s'.entered kernel board' next' done') := by
  have halike : board.Alike board' :=
    ((ExecutionQueue.alike_of_step hstep).symm.trans h.alike).trans
      (ExecutionQueue.alike_of_step hstep')
  have hqueues := fun name hlane => insert_queue h.queues hnext kernel name hlane
  cases done with
  | none =>
      obtain rfl : done' = none := by simpa using hdone
      refine ⟨?_, h.of_books rfl rfl halike h.current hqueues (.refl _) (.refl _)⟩
      simp only [Option.bind_none]
  | some t =>
      obtain ⟨t', rfl, hseen⟩ : ∃ t', done' = some t' ∧ t'.seen numbered = t.seen numbered :=
        Option.map_eq_some_iff.1 hdone
      obtain ⟨hlane, configuration, nanos, hconfiguration, hduration⟩ := hbound t rfl
      have hkernel' : t'.kernel = t.kernel := by
        rw [← Task.kernel_seen numbered, hseen, Task.kernel_seen]
      have hconfiguration' : t'.configuration = some configuration := by
        rw [← Task.configuration_seen numbered, hseen, Task.configuration_seen, hconfiguration]
      have hduration' : t'.duration = some nanos := by
        rw [← Task.duration_seen numbered, hseen, Task.duration_seen, hduration]
      obtain ⟨hrecord, hsample⟩ := h.measure hseen hlane configuration nanos
      have hmodel : ∀ name, (s.entered kernel board next (some t)).books.model name = _ :=
        Books.model_conclude hconfiguration hduration
      have hmodel' : ∀ name, (s'.entered kernel board' next' (some t')).books.model name = _ :=
        Books.model_conclude hconfiguration' hduration'
      refine ⟨?_, h.settings, halike, h.current, hqueues, fun name => ?_, fun name => ?_,
        fun other hother name => ?_⟩
      · simp only [Option.bind_some, Books.conclude_eq hconfiguration hduration,
          Books.conclude_eq hconfiguration' hduration', Option.map_some, hrecord]
      · rw [show (s.entered kernel board next (some t)).books.newModel name = _ from
          Books.newModel_conclude hconfiguration hduration name]
        exact (Books.newModel_conclude hconfiguration' hduration' name).trans (h.newModel name)
      · rw [hmodel, hmodel']
        split
        · rw [CostModel.clear_record, CostModel.clear_record, h.shape]
        · exact h.shape name
      · rw [hmodel, hmodel', hsample, hkernel']
        split
        · rw [CostModel.samples_record, CostModel.samples_record, h.samples other hother]
        · exact h.samples other hother name

/-- What becomes of two courses when the worker of a kernel is to take a step on both. -/
inductive BothWork (numbered : Bool) (lane : String → Prop) (kernel : String) (c c' : Course) :
    Prop where
  /-- Neither worker has a step. -/
  | rests (hplay : c.play (.work kernel) = c) (hplay' : c'.play (.work kernel) = c')
  | steps {queue next queue' next' : ExecutionQueue} {board board' : Board}
      {done done' : Option Task} (hqueue : c.scheduler.queues.get? kernel = some queue)
      (hstep : queue.step c.scheduler.board = some (board, next, done))
      (hqueue' : c'.scheduler.queues.get? kernel = some queue')
      (hstep' : queue'.step c'.scheduler.board = some (board', next', done'))
      (hdone : done'.map (Task.seen numbered) = done.map (Task.seen numbered))
      (hdeed : (queue'.deed next').seen numbered = (queue.deed next).seen numbered)
      (hrecord : (done'.bind fun t => (c'.scheduler.books.conclude t).1).map
          (CompletionRecord.seen numbered) =
        (done.bind fun t => (c.scheduler.books.conclude t).1).map
          (CompletionRecord.seen numbered))
      (hsame : Matches numbered lane (c.scheduler.entered kernel board next done)
        (c'.scheduler.entered kernel board' next' done'))

theorem bothWork {c c' : Course} (h : Matches numbered lane c.scheduler c'.scheduler)
    (hsteady : Steady c) (hsteady' : Steady c') (kernel : String) (hlane : lane kernel) :
    BothWork numbered lane kernel c c' := by
  have hfaithful := hsteady.coherent.registered.faithful
  have hfaithful' := hsteady'.coherent.registered.faithful
  cases hqueue : c.scheduler.queues.get? kernel with
  | none =>
      have hqueue' := h.get?_eq_none hlane hqueue
      apply BothWork.rests
      · simp only [Course.play, Course.work, hqueue]
      · simp only [Course.play, Course.work, hqueue']
  | some queue =>
      obtain ⟨queue', hqueue', hseen⟩ := h.exists_queue hlane hqueue
      cases hstep : queue.step c.scheduler.board with
      | none =>
          have hstep' := ExecutionQueue.step_congr_none hfaithful hfaithful' h.alike hseen hstep
          apply BothWork.rests
          · simp only [Course.play, Course.work, hqueue, hstep]
          · simp only [Course.play, Course.work, hqueue', hstep']
      | some result =>
          obtain ⟨board, next, done⟩ := result
          obtain ⟨board', next', done', hstep', hnext, hdone⟩ :=
            ExecutionQueue.exists_step_congr hfaithful hfaithful' h.alike hseen hstep
          have hbound : ∀ t, done = some t → lane t.kernel ∧ ∃ name nanos,
              t.configuration = some name ∧ t.duration = some nanos := by
            intro t ht
            obtain ⟨hkernel, hbound⟩ := hsteady.completed hqueue hstep ht
            exact ⟨hkernel ▸ hlane, hbound⟩
          obtain ⟨hrecord, hsame⟩ := h.entered kernel hstep hstep' hnext hdone hbound
          exact .steps hqueue hstep hqueue' hstep' hdone (ExecutionQueue.deed_congr hseen hnext)
            hrecord hsame

/-! ### The other operations -/

theorem updateQueue (h : Matches numbered lane s s') (kernel : String)
    {f : ExecutionQueue → ExecutionQueue}
    (hf : ∀ q : ExecutionQueue, (f q).seen numbered = f (q.seen numbered)) :
    Matches numbered lane (s.updateQueue kernel f) (s'.updateQueue kernel f) := by
  have hqueues : ∀ other, lane other →
      ((s'.updateQueue kernel f).queues.get? other).map (ExecutionQueue.seen numbered) =
        ((s.updateQueue kernel f).queues.get? other).map (ExecutionQueue.seen numbered) := by
    intro other hother
    rw [get?_updateQueue, get?_updateQueue]
    split
    · have hsame := congrArg (Option.map f) (h.queues other hother)
      simp only [Option.map_map, Function.comp_def, hf] at hsame ⊢
      exact hsame
    · exact h.queues other hother
  rw [updateQueue_eq, updateQueue_eq] at hqueues ⊢
  exact h.of_books rfl rfl h.alike h.current hqueues (.refl _) (.refl _)

/-- The queues that are looked at are kept or removed on both sides. -/
theorem collect (h : Matches numbered lane s s') {visit visit' : List String}
    (hvisit : visit.Perm s.kernels) (hvisit' : visit'.Perm s'.kernels) :
    Matches numbered lane (s.collect (s.faultedAmong visit)).2
      (s'.collect (s'.faultedAmong visit')).2 := by
  have hremoval := removal_collect s (nodup_of_perm_kernels hvisit)
  have hremoval' := removal_collect s' (nodup_of_perm_kernels hvisit')
  have hqueues : ∀ kernel, lane kernel →
      ((s'.collect (s'.faultedAmong visit')).2.queues.get? kernel).map
          (ExecutionQueue.seen numbered) =
        ((s.collect (s.faultedAmong visit)).2.queues.get? kernel).map
          (ExecutionQueue.seen numbered) := by
    intro kernel hlane
    rw [hremoval.get? hvisit, hremoval'.get? hvisit']
    cases hget : s.queues.get? kernel with
    | none => rw [h.get?_eq_none hlane hget]
    | some q =>
        obtain ⟨q', hget', hq'⟩ := h.exists_queue hlane hget
        have hfault : (q'.seen numbered).fault = (q.seen numbered).fault := by rw [hq']
        change q'.fault = q.fault at hfault
        rw [hget', Option.filter_some, Option.filter_some, hfault]
        split
        · rw [Option.map_some, Option.map_some, hq']
        · rfl
  rw [hremoval.rest, hremoval'.rest]
  exact h.of_books rfl rfl h.alike h.current hqueues ⟨fun _ => rfl, fun _ => rfl⟩
    ⟨fun _ => rfl, fun _ => rfl⟩

/-- Nothing is left of queues and measurements on either side. -/
theorem clear (h : Matches numbered lane s s') : Matches numbered lane s.clear s'.clear := by
  have hmodel : ∀ s : Scheduler, ∀ name, s.clear.books.model name = s.books.newModel name :=
    fun s => Books.model_freshModels _ _
  refine ⟨h.settings, h.alike, h.current, fun kernel _ => rfl, h.newModel, fun name => ?_,
    fun kernel _ name => ?_⟩
  · rw [hmodel, hmodel, h.newModel]
  · rw [hmodel, hmodel, h.newModel]

theorem hold (h : Matches numbered lane s s') (on : Bool) :
    Matches numbered lane (s.hold on) (s'.hold on) :=
  h.of_books rfl rfl ⟨h.alike.programs, h.alike.timing, h.alike.failing, h.alike.refusesQueues, rfl⟩
    h.current h.queues (.refl _) (.refl _)

theorem failKernel (h : Matches numbered lane s s') (entryPoint : String) :
    Matches numbered lane (s.failKernel entryPoint) (s'.failKernel entryPoint) := by
  refine h.of_books rfl rfl ⟨h.alike.programs, h.alike.timing, fun other => ?_,
    h.alike.refusesQueues, h.alike.holding⟩ h.current h.queues (.refl _) (.refl _)
  have hfailing := h.alike.failing other
  show (entryPoint :: s'.board.device.failing).contains other =
    (entryPoint :: s.board.device.failing).contains other
  rw [List.contains_cons, List.contains_cons, hfailing]

theorem refuseQueues (h : Matches numbered lane s s') (on : Bool) :
    Matches numbered lane (s.refuseQueues on) (s'.refuseQueues on) :=
  h.of_books rfl rfl ⟨h.alike.programs, h.alike.timing, h.alike.failing, rfl, h.alike.holding⟩
    h.current h.queues (.refl _) (.refl _)

theorem resetMetrics (h : Matches numbered lane s s') :
    Matches numbered lane s.resetMetrics s'.resetMetrics :=
  h.of_books rfl rfl h.alike h.current h.queues ⟨fun _ => rfl, fun _ => rfl⟩
    ⟨fun _ => rfl, fun _ => rfl⟩

end Matches

end Scheduler

end KernelDispatch
