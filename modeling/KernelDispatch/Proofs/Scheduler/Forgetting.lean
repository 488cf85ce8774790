import KernelDispatch.Proofs.Scheduler.Agreement
import KernelDispatch.Proofs.Scheduler.Lane

/-!
# Nothing is left of the past after a reset

A reset leaves what was registered and what is current, and it leaves the device as it
is. Everything else that a scheduler answers from is as in a new one: there are no
queues, no measurements, and tasks are numbered from zero. Remembered kernels and the
counters stay as well, but no answer depends on the former, and the latter are what the
metrics are for.

So a scheduler that was reset and a new one, on which the same configurations were
registered, go through any further moves side by side. The same is seen of both, and
they answer alike.

## Main definitions

* `Twins` — schedulers that go side by side.
* `AnswerAlike` — what they answer.
* `Move.setsUp` — moves that prepare a new scheduler.

## Main results

* `Twins.play` — they stay side by side, and the same is seen of both.
* `Course.forgotten_by_reset` — what follows for every course.
-/

namespace KernelDispatch

/-- A completed task leaves the observers, and a trace in the directory that depends on
its record alone. -/
theorem Books.directory_conclude {b b' : Books} (hobservers : b'.observers = b.observers)
    (hdirectory : b'.directory = b.directory) {t : Task}
    (hrecord : (b'.conclude t).1 = (b.conclude t).1) :
    (b'.conclude t).2.directory = (b.conclude t).2.directory ∧
      (b'.conclude t).2.observers = (b.conclude t).2.observers := by
  obtain ⟨hsame, -, hwritten⟩ := b.informed_conclude t
  obtain ⟨hsame', -, hwritten'⟩ := b'.informed_conclude t
  rw [hsame, hsame', hwritten, hwritten', hobservers, hdirectory, hrecord]
  exact ⟨rfl, rfl⟩

namespace Scheduler

variable {s s' : Scheduler} {c c' : Course} {m : Move}

/-! ## Side by side -/

/-- Schedulers of which the same is seen from now on. -/
structure Twins (c c' : Course) : Prop where
  same : Matches true (fun _ => True) c.scheduler c'.scheduler
  nextId : c'.scheduler.nextId = c.scheduler.nextId
  observers : c'.scheduler.books.observers = c.scheduler.books.observers
  directory : c'.scheduler.books.directory = c.scheduler.books.directory
  stage : c'.stage = c.stage

namespace Matches

variable (h : Matches true (fun _ => True) s s')

include h

/-- With all kernels looked at, nothing but the numbers of device queues is not. -/
theorem queues_map :
    s'.queues.map (ExecutionQueue.seen true) = s.queues.map (ExecutionQueue.seen true) := by
  apply NameMap.ext_get?
  intro kernel
  rw [NameMap.get?_map, NameMap.get?_map]
  exact h.queues kernel trivial

theorem kernels : s'.kernels = s.kernels := by
  have hnames := congrArg NameMap.names h.queues_map
  rwa [NameMap.names_map, NameMap.names_map] at hnames

theorem values_map :
    s'.queues.values.map (ExecutionQueue.seen true) =
      s.queues.values.map (ExecutionQueue.seen true) := by
  have hvalues := congrArg NameMap.values h.queues_map
  rwa [NameMap.values_map, NameMap.values_map] at hvalues

/-- What is computed from what is seen of the queues is the same. -/
theorem map_values {β : Type} {f : ExecutionQueue → β} (hf : ∀ q, f (q.seen true) = f q) :
    s'.queues.values.map f = s.queues.values.map f := by
  have hvalues := congrArg (List.map f) h.values_map
  simpa only [List.map_map, Function.comp_def, hf] using hvalues

theorem all_values {p : ExecutionQueue → Bool} (hp : ∀ q, p (q.seen true) = p q) :
    s'.queues.values.all p = s.queues.values.all p := by
  have hmap : s'.queues.values.map p = s.queues.values.map p := h.map_values hp
  have hall := congrArg (fun answers => answers.all id) hmap
  simpa only [List.all_map, Function.comp_def, id] using hall

theorem faults (visit : List String) :
    (s'.collect (s'.faultedAmong visit)).1 = (s.collect (s.faultedAmong visit)).1 := by
  have hqueue : ∀ (s : Scheduler) kernel,
      ((s.queues.get? kernel).bind fun queue => queue.fault.map fun fault =>
          (kernel, queue, fault)).map (fun stopped => stopReport stopped.1 stopped.2.2) =
        ((s.queues.get? kernel).map (ExecutionQueue.seen true)).bind fun queue =>
          queue.fault.map fun fault => stopReport kernel fault := by
    intro s kernel
    cases s.queues.get? kernel with
    | none => rfl
    | some queue => cases hfault : queue.fault <;> simp [ExecutionQueue.seen, hfault]
  show (s'.faultedAmong visit).map (fun stopped => stopReport stopped.1 stopped.2.2) =
    (s.faultedAmong visit).map fun stopped => stopReport stopped.1 stopped.2.2
  unfold faultedAmong
  rw [List.map_filterMap, List.map_filterMap]
  apply List.filterMap_congr
  intro kernel _
  rw [hqueue, hqueue, h.queues kernel trivial]

end Matches

/-- What both see of a move that both make, and that completes no task. -/
structure Goes (c c' : Course) (m : Move) : Prop where
  news : ∃ news, (c.play m).past = c.past ++ news ∧ (c'.play m).past = c'.past ++ news
  same : Matches true (fun _ => True) (c.play m).scheduler (c'.play m).scheduler
  nextId : (c'.play m).scheduler.nextId = (c.play m).scheduler.nextId
  stage : (c'.play m).stage = (c.play m).stage

namespace Twins

theorem refl (c : Course) : Twins c c := ⟨.refl _ _ _, rfl, rfl, rfl, rfl⟩

variable (h : Twins c c')

include h

theorem serves : c'.serves = c.serves := by
  unfold Course.serves
  rw [h.stage]

theorem isReady (visit : List String) : c'.isReady visit = c.isReady visit := by
  unfold Course.isReady
  rw [h.serves, h.same.kernels, h.same.all_values fun q => ExecutionQueue.isIdle_seen true q]

theorem isClosed : c'.isClosed = c.isClosed :=
  h.same.all_values fun _ => rfl

theorem reports (visit : List String) : c'.reports visit = c.reports visit := h.same.faults visit

theorem imageOf (name : String) : c'.scheduler.imageOf name = c.scheduler.imageOf name := by
  unfold Scheduler.imageOf
  rw [h.directory, h.same.settings]

/-- A move that neither can make. -/
theorem goes_of_same (hplay : c.play m = c) (hplay' : c'.play m = c') : Goes c c' m := by
  refine ⟨⟨[], ?_, ?_⟩, ?_, ?_, ?_⟩
  · rw [hplay, List.append_nil]
  · rw [hplay', List.append_nil]
  · rw [hplay, hplay']
    exact h.same
  · rw [hplay, hplay', h.nextId]
  · rw [hplay, hplay', h.stage]

/-- A move that changes the scheduler and is not seen. -/
theorem goes_of_scheduler {s s' : Scheduler} (hplay : c.play m = { c with scheduler := s })
    (hplay' : c'.play m = { c' with scheduler := s' }) (hsame : Matches true (fun _ => True) s s')
    (hnextId : s'.nextId = s.nextId) : Goes c c' m := by
  refine ⟨⟨[], ?_, ?_⟩, ?_, ?_, ?_⟩
  · rw [hplay, List.append_nil]
  · rw [hplay', List.append_nil]
  · rw [hplay, hplay']
    exact hsame
  · rw [hplay, hplay']
    exact hnextId
  · rw [hplay, hplay']
    exact h.stage

/-- An offered task is numbered alike, and accepted by both or refused by both. -/
theorem goes_offer {t : Task} (hplay : c.play m = c.offer t) (hplay' : c'.play m = c'.offer t) :
    Goes c c' m := by
  obtain ⟨hanswer, hsame⟩ := h.same.addTask (fun _ => h.nextId) (t := t) trivial
  have hevent : c'.scheduler.answered t = c.scheduler.answered t := by
    unfold answered
    rw [h.nextId]
    cases hadd : (c.scheduler.addTask t).1 <;> cases hadd' : (c'.scheduler.addTask t).1 <;>
      simp [hadd, hadd', Except.map] at hanswer ⊢
  refine ⟨⟨[c.scheduler.answered t], ?_, ?_⟩, ?_, ?_, ?_⟩
  · rw [hplay, offer_eq]
  · rw [hplay', offer_eq, hevent]
  · rw [hplay, hplay', scheduler_offer, scheduler_offer]
    exact hsame
  · rw [hplay, hplay', scheduler_offer, scheduler_offer, (numbers_addTask _ t).1,
      (numbers_addTask _ t).1, h.nextId, h.same.current]
  · rw [hplay, hplay', offer_eq, offer_eq]
    exact h.stage

theorem goes_collected {visit : List String} {stage : Stage} (hready : c.isReady visit = true)
    (hplay : c.play m = c.collected visit stage)
    (hplay' : c'.play m = c'.collected visit stage) : Goes c c' m := by
  have hvisit := (isReady_iff.1 hready).2.2
  have hvisit' : visit.Perm c'.scheduler.kernels := by rwa [h.same.kernels]
  have hrest := (removal_collect c.scheduler (nodup_of_perm_kernels hvisit)).rest
  have hrest' := (removal_collect c'.scheduler (nodup_of_perm_kernels hvisit')).rest
  refine ⟨⟨[.waited (c.reports visit)], ?_, ?_⟩, ?_, ?_, ?_⟩
  · rw [hplay]
    rfl
  · rw [hplay', ← h.reports]
    rfl
  · rw [hplay, hplay']
    exact h.same.collect hvisit hvisit'
  · rw [hplay, hplay']
    exact ((congrArg Scheduler.nextId hrest').trans h.nextId).trans
      (congrArg Scheduler.nextId hrest).symm
  · rw [hplay, hplay']
    rfl

theorem goes_updateQueue {kernel : String} {f : ExecutionQueue → ExecutionQueue}
    (hf : ∀ q : ExecutionQueue, (f q).seen true = f (q.seen true))
    (hplay : c.play m = { c with scheduler := c.scheduler.updateQueue kernel f })
    (hplay' : c'.play m = { c' with scheduler := c'.scheduler.updateQueue kernel f }) :
    Goes c c' m := by
  refine h.goes_of_scheduler hplay hplay' (h.same.updateQueue kernel hf) ?_
  rw [updateQueue_eq, updateQueue_eq]
  exact h.nextId

/-- Both make a move that completes no task, or neither can make it. -/
theorem goes (hwork : ∀ kernel, m ≠ .work kernel) (hclear : m ≠ .clear) : Goes c c' m := by
  cases m with
  | addConfiguration name =>
      refine h.goes_of_scheduler rfl rfl (h.same.addConfiguration (h.imageOf name)).2 ?_
      rw [(registers_addConfiguration _ name).nextId, (registers_addConfiguration _ name).nextId]
      exact h.nextId
  | insertConfiguration name image =>
      refine h.goes_of_scheduler rfl rfl (h.same.insertConfiguration name image) ?_
      rw [(registers_insertConfiguration _ name image).nextId,
        (registers_insertConfiguration _ name image).nextId]
      exact h.nextId
  | setConfiguration name =>
      by_cases hserves : c.serves = true
      · have hserves' : c'.serves = true := h.serves.trans hserves
        refine h.goes_of_scheduler (if_pos hserves) (if_pos hserves')
          (h.same.setConfiguration name).2 ?_
        unfold Scheduler.setConfiguration
        split <;> split <;> exact h.nextId
      · have hserves' : ¬ c'.serves = true := by rwa [h.serves]
        exact h.goes_of_same (if_neg hserves) (if_neg hserves')
  | addTask task =>
      by_cases hserves : c.serves = true
      · exact h.goes_offer (if_pos hserves) (if_pos (h.serves.trans hserves))
      · have hserves' : ¬ c'.serves = true := by rwa [h.serves]
        exact h.goes_of_same (if_neg hserves) (if_neg hserves')
  | wait visit =>
      by_cases hready : c.isReady visit = true
      · exact h.goes_collected hready (play_wait hready)
          (play_wait ((h.isReady visit).trans hready))
      · have hready' : ¬ c'.isReady visit = true := by rwa [h.isReady]
        exact h.goes_of_same (if_neg hready) (if_neg hready')
  | finish visit =>
      by_cases hready : c.isReady visit = true
      · have hplay' := play_finish ((h.isReady visit).trans hready)
        rw [h.reports] at hplay'
        exact h.goes_collected hready (play_finish hready) hplay'
      · have hready' : ¬ c'.isReady visit = true := by rwa [h.isReady]
        exact h.goes_of_same (if_neg hready) (if_neg hready')
  | reset =>
      by_cases hserves : c.serves = true
      · have hplay : c.play .reset = { c with stage := .resetting none } := if_pos hserves
        have hplay' : c'.play .reset = { c' with stage := .resetting none } :=
          if_pos (h.serves.trans hserves)
        refine ⟨⟨[], ?_, ?_⟩, ?_, ?_, ?_⟩
        · rw [hplay, List.append_nil]
        · rw [hplay', List.append_nil]
        · rw [hplay, hplay']
          exact h.same
        · rw [hplay, hplay']
          exact h.nextId
        · rw [hplay, hplay']
      · have hserves' : ¬ c'.serves = true := by rwa [h.serves]
        exact h.goes_of_same (if_neg hserves) (if_neg hserves')
  | cancel kernel =>
      by_cases hserves : c.serves = true
      · exact h.goes_of_same (if_pos hserves) (if_pos (h.serves.trans hserves))
      · have hserves' : ¬ c'.serves = true := by rwa [h.serves]
        exact h.goes_updateQueue (fun q => ExecutionQueue.requestDiscard_seen true q)
          (if_neg hserves) (if_neg hserves')
  | clear => exact absurd rfl hclear
  | work kernel => exact absurd rfl (hwork kernel)
  | hold on => exact h.goes_of_scheduler rfl rfl (h.same.hold on) h.nextId
  | release kernel =>
      exact h.goes_updateQueue (fun q => ExecutionQueue.release_seen true q) rfl rfl
  | failKernel entryPoint =>
      exact h.goes_of_scheduler rfl rfl (h.same.failKernel entryPoint) h.nextId
  | refuseQueues on => exact h.goes_of_scheduler rfl rfl (h.same.refuseQueues on) h.nextId
  | resetMetrics => exact h.goes_of_scheduler rfl rfl h.same.resetMetrics h.nextId

/-- A step of a worker is taken by both, and completes the same task with the same
record. -/
theorem play_work (hsteady : Steady c) (hsteady' : Steady c') (kernel : String) :
    (∃ news, (c.play (.work kernel)).past = c.past ++ news ∧
      (c'.play (.work kernel)).past = c'.past ++ news) ∧
        Twins (c.play (.work kernel)) (c'.play (.work kernel)) := by
  cases h.same.bothWork hsteady hsteady' kernel trivial with
  | rests hplay hplay' =>
      rw [hplay, hplay']
      exact ⟨⟨[], (List.append_nil _).symm, (List.append_nil _).symm⟩, h⟩
  | @steps queue next queue' next' board board' done done' hqueue hstep hqueue' hstep' hdone hdeed
      hrecord hsame =>
      rw [ExecutionQueue.Deed.seen_true, ExecutionQueue.Deed.seen_true] at hdeed
      rw [show CompletionRecord.seen true = id from rfl, Option.map_id, id, id] at hrecord
      rw [show Task.seen true = id from rfl, Option.map_id, id, id] at hdone
      subst hdone
      have hbooks : (c'.scheduler.entered kernel board' next' done').books.directory =
            (c.scheduler.entered kernel board next done').books.directory ∧
          (c'.scheduler.entered kernel board' next' done').books.observers =
            (c.scheduler.entered kernel board next done').books.observers := by
        cases hdone : done' with
        | none => exact ⟨h.directory, h.observers⟩
        | some t =>
            rw [hdone, Option.bind_some, Option.bind_some] at hrecord
            exact Books.directory_conclude h.observers h.directory hrecord
      rw [Scheduler.play_work hqueue hstep, Scheduler.play_work hqueue' hstep', hdeed, hrecord]
      exact ⟨⟨_, rfl, rfl⟩, hsame, h.nextId, hbooks.2, hbooks.1, h.stage⟩

/-- What both make stays side by side, and the same is seen of both. -/
theorem play (hsteady : Steady c) (hsteady' : Steady c') (m : Move) :
    (∃ news, (c.play m).past = c.past ++ news ∧ (c'.play m).past = c'.past ++ news) ∧
      Twins (c.play m) (c'.play m) := by
  have hother : (∀ kernel, m ≠ .work kernel) → m ≠ .clear →
      (∃ news, (c.play m).past = c.past ++ news ∧ (c'.play m).past = c'.past ++ news) ∧
        Twins (c.play m) (c'.play m) := by
    intro hwork hclear
    have hgoes := h.goes hwork hclear
    have hquiet := quiet_play c hwork hclear
    have hquiet' := quiet_play c' hwork hclear
    refine ⟨hgoes.news, hgoes.same, hgoes.nextId, ?_, ?_, hgoes.stage⟩
    · rw [hquiet.observers, hquiet'.observers, h.observers]
    · rw [hquiet.directory, hquiet'.directory, h.directory]
  cases m with
  | work kernel => exact h.play_work hsteady hsteady' kernel
  | clear =>
      cases hstage : c.stage with
      | serving =>
          have hplay : c.play .clear = c := by simp only [Course.play, hstage]
          have hplay' : c'.play .clear = c' := by simp only [Course.play, h.stage, hstage]
          rw [hplay, hplay']
          exact ⟨⟨[], (List.append_nil _).symm, (List.append_nil _).symm⟩, h⟩
      | resetting finish =>
          have hstage' := h.stage.trans hstage
          by_cases hclosed : c.isClosed = true
          · rw [play_clear hstage hclosed, play_clear hstage' (h.isClosed.trans hclosed)]
            exact ⟨⟨_, rfl, rfl⟩, h.same.clear, rfl, h.observers, h.directory, rfl⟩
          · have hclosed' : ¬ c'.isClosed = true := by rwa [h.isClosed]
            have hplay : c.play .clear = c := by simp [Course.play, hstage, hclosed]
            have hplay' : c'.play .clear = c' := by simp [Course.play, hstage', hclosed']
            rw [hplay, hplay']
            exact ⟨⟨[], (List.append_nil _).symm, (List.append_nil _).symm⟩, h⟩
  | _ => exact hother (by simp) (by simp)

theorem run (hsteady : Steady c) (hsteady' : Steady c') (moves : List Move) :
    (∃ news, (c.run moves).past = c.past ++ news ∧ (c'.run moves).past = c'.past ++ news) ∧
      Twins (c.run moves) (c'.run moves) := by
  induction moves generalizing c c' with
  | nil => exact ⟨⟨[], (List.append_nil _).symm, (List.append_nil _).symm⟩, h⟩
  | cons m moves ih =>
      obtain ⟨⟨first, hfirst, hfirst'⟩, hplay⟩ := h.play hsteady hsteady' m
      obtain ⟨⟨rest, hrest, hrest'⟩, hrun⟩ := ih hplay (hsteady.play m) (hsteady'.play m)
      refine ⟨⟨first ++ rest, ?_, ?_⟩, hrun⟩
      · rw [← List.append_assoc, ← hfirst]
        exact hrest
      · rw [← List.append_assoc, ← hfirst']
        exact hrest'

end Twins

/-! ## Answers -/

namespace Matches

section Answers

variable (h : Matches true (fun _ => True) s s')

include h

theorem predictWith (name kernel : String) (n : UInt64) :
    (s'.books.model name).predict kernel n = (s.books.model name).predict kernel n :=
  CostModel.predict_congr (h.shape name) (h.samples kernel trivial name) n

theorem queuedCostUnder (name : String) : s'.queuedCostUnder name = s.queuedCostUnder name := by
  have hcost : (fun t : Task => (s'.books.model name).cost t.kernel t.workItems) =
      fun t => (s.books.model name).cost t.kernel t.workItems := by
    funext t
    unfold CostModel.cost
    rw [h.predictWith]
  have hpending : ∀ (cost : Task → Float32) (q : ExecutionQueue),
      (q.seen true).pendingCost cost = q.pendingCost cost := by
    intro cost q
    unfold ExecutionQueue.pendingCost ExecutionQueue.seen
    rw [show Task.seen true = id from rfl, List.map_id]
  unfold Scheduler.queuedCostUnder
  dsimp only
  rw [hcost, h.map_values (hpending _)]

theorem pending : s'.pending = s.pending := by
  have htotal : ∀ s : Scheduler, (s.queues.map (ExecutionQueue.seen true)).total
      ExecutionQueue.size = s.pending := fun s =>
    NameMap.total_mapWithName s.queues fun _ q => ExecutionQueue.size_seen true q
  rw [← htotal, h.queues_map, htotal]

theorem currentModel_eq {β : Type} {f : CostModel → β}
    (hf : ∀ name, f (s'.books.model name) = f (s.books.model name)) :
    s'.currentModel.map f = s.currentModel.map f := by
  unfold currentModel
  rw [h.current]
  cases s.current with
  | none => rfl
  | some name => exact congrArg Except.ok (hf name)

theorem acceptance (hid : s'.nextId = s.nextId) (t : Task) :
    (s'.addTask t).1 = (s.addTask t).1 := by
  obtain ⟨hanswer, hsame⟩ := h.addTask (fun _ => hid) (t := t) trivial
  rw [addTask_eq, addTask_eq, h.current] at hanswer hsame ⊢
  cases hcurrent : s.current with
  | none => rfl
  | some program =>
      rw [hcurrent] at hanswer hsame
      dsimp only at hanswer hsame ⊢
      cases hmade : s.place program { t with id := some s.nextId } with
      | error e =>
          rw [hmade] at hanswer
          cases hmade' : s'.place program { t with id := some s'.nextId } with
          | error e' => simpa [hmade', Except.map] using hanswer
          | ok made' => simp [hmade', Except.map] at hanswer
      | ok made =>
          rw [hmade] at hanswer hsame
          cases hmade' : s'.place program { t with id := some s'.nextId } with
          | error e' => simp [hmade', Except.map] at hanswer
          | ok made' =>
              rw [hmade'] at hsame
              dsimp only at hsame ⊢
              rw [hsame.queuedCostUnder, h.settings, hid]

end Answers

end Matches

/-- What two schedulers answer alike. -/
structure AnswerAlike (c c' : Course) : Prop where
  stage : c'.stage = c.stage
  /-- They can wait and end a reset at the same moments, and the same faults are reported
  then. -/
  ready : ∀ visit, c'.isReady visit = c.isReady visit
  closed : c'.isClosed = c.isClosed
  reports : ∀ visit, c'.reports visit = c.reports visit
  addTask : ∀ t, (c'.scheduler.addTask t).1 = (c.scheduler.addTask t).1
  addConfiguration : ∀ name,
    (c'.scheduler.addConfiguration name).1 = (c.scheduler.addConfiguration name).1
  setConfiguration : ∀ name,
    (c'.scheduler.setConfiguration name).1 = (c.scheduler.setConfiguration name).1
  current : c'.scheduler.current = c.scheduler.current
  configurations : c'.scheduler.configurationNames = c.scheduler.configurationNames
  kernels : c'.scheduler.kernels = c.scheduler.kernels
  pending : c'.scheduler.pending = c.scheduler.pending
  sampleCount : ∀ kernel, c'.scheduler.sampleCount kernel = c.scheduler.sampleCount kernel
  line : ∀ kernel, c'.scheduler.line kernel = c.scheduler.line kernel
  predict : ∀ t, c'.scheduler.predict t = c.scheduler.predict t
  cost : ∀ t, c'.scheduler.cost t = c.scheduler.cost t
  queuedCost : c'.scheduler.queuedCost = c.scheduler.queuedCost

theorem Twins.answerAlike (h : Twins c c') : AnswerAlike c c' := by
  have hsame := h.same
  have hpredict := hsame.predictWith
  refine
    { stage := h.stage
      ready := h.isReady
      closed := h.isClosed
      reports := h.reports
      addTask := hsame.acceptance h.nextId
      addConfiguration := fun name => (hsame.addConfiguration (h.imageOf name)).1
      setConfiguration := fun name => (hsame.setConfiguration name).1
      current := hsame.current
      configurations := hsame.alike.names
      kernels := hsame.kernels
      pending := hsame.pending
      sampleCount := fun kernel => ?_
      line := fun kernel => ?_
      predict := fun t => hsame.currentModel_eq fun name => hpredict name t.kernel t.workItems
      cost := fun t => hsame.currentModel_eq fun name => ?_
      queuedCost := ?_ }
  · have hcount := hsame.currentModel_eq (f := fun m => (m.samples kernel).length) fun name => by
      rw [hsame.samples kernel trivial]
    unfold Scheduler.sampleCount
    cases hmodel : c.scheduler.currentModel <;> cases hmodel' : c'.scheduler.currentModel <;>
      simp_all [Except.map]
  · have hline := hsame.currentModel_eq (f := fun m => m.line kernel) fun name => by
      unfold CostModel.line
      rw [hsame.samples kernel trivial]
    unfold Scheduler.line
    cases hmodel : c.scheduler.currentModel <;> cases hmodel' : c'.scheduler.currentModel <;>
      simp_all [Except.map]
  · unfold CostModel.cost
    rw [hpredict]
  · unfold Scheduler.queuedCost
    rw [hsame.current]
    cases c.scheduler.current with
    | none => rfl
    | some name => exact hsame.queuedCostUnder name

/-! ## New schedulers -/

/-- Whether a move prepares a new scheduler: it registers or selects a configuration, or
tells the device what to do. -/
def Move.setsUp : Move → Bool
  | .addConfiguration _ | .insertConfiguration _ _ | .setConfiguration _ => true
  | .hold _ | .failKernel _ | .refuseQueues _ => true
  | _ => false

/-- A scheduler to which no task was offered since it was built, or since it was
reset. -/
structure Untouched (p : Blueprint) (directory : Directory) (c : Course) : Prop where
  stage : c.stage = .serving
  queues : ∀ kernel, c.scheduler.queues.get? kernel = none
  nextId : c.scheduler.nextId = 0
  settings : c.scheduler.settings = p.settings
  observers : c.scheduler.books.observers = p.observers ++ Blueprint.settingsObservers p.settings
  directory : c.scheduler.books.directory = directory
  newModel : ∀ name, c.scheduler.books.newModel name = p.newModel name
  model : ∀ name, c.scheduler.books.model name = p.newModel name

namespace Untouched

variable {p : Blueprint} {directory : Directory}

theorem next (h : Untouched p directory c) {s : Scheduler}
    (hqueues : ∀ kernel, s.queues.get? kernel = none) (hnextId : s.nextId = c.scheduler.nextId)
    (hsettings : s.settings = c.scheduler.settings) (hquiet : c.scheduler.books.Quiet s.books) :
    Untouched p directory { c with scheduler := s } where
  stage := h.stage
  queues := hqueues
  nextId := hnextId.trans h.nextId
  settings := hsettings.trans h.settings
  observers := hquiet.observers.trans h.observers
  directory := hquiet.directory.trans h.directory
  newModel name := (hquiet.models.newModel name).trans (h.newModel name)
  model name := (hquiet.models.model name).trans (h.model name)

theorem registers (h : Untouched p directory c) {s : Scheduler}
    (hregisters : Registers c.scheduler s) : Untouched p directory { c with scheduler := s } := by
  refine h.next ?_ hregisters.nextId hregisters.settings hregisters.quiet
  rw [hregisters.queues]
  exact h.queues

/-- A registration or a word to the device leaves a scheduler untouched, and is not
seen. -/
theorem play (h : Untouched p directory c) (hm : m.setsUp = true) :
    Untouched p directory (c.play m) ∧ (c.play m).past = c.past := by
  cases m with
  | addConfiguration name => exact ⟨h.registers (registers_addConfiguration _ name), rfl⟩
  | insertConfiguration name image =>
      exact ⟨h.registers (registers_insertConfiguration _ name image), rfl⟩
  | setConfiguration name =>
      have hplay : c.play (.setConfiguration name) =
          { c with scheduler := (c.scheduler.setConfiguration name).2 } :=
        if_pos (serves_iff.2 h.stage)
      rw [hplay]
      refine ⟨?_, rfl⟩
      unfold Scheduler.setConfiguration
      split
      · refine h.next (fun kernel => ?_) rfl rfl (.refl _)
        dsimp only
        rw [NameMap.get?_map, h.queues kernel, Option.map_none]
      · exact h
  | hold on => exact ⟨h.next h.queues rfl rfl (.refl _), rfl⟩
  | failKernel entryPoint => exact ⟨h.next h.queues rfl rfl (.refl _), rfl⟩
  | refuseQueues on => exact ⟨h.next h.queues rfl rfl (.refl _), rfl⟩
  | addTask => simp [Move.setsUp] at hm
  | wait => simp [Move.setsUp] at hm
  | finish => simp [Move.setsUp] at hm
  | reset => simp [Move.setsUp] at hm
  | cancel => simp [Move.setsUp] at hm
  | clear => simp [Move.setsUp] at hm
  | work => simp [Move.setsUp] at hm
  | release => simp [Move.setsUp] at hm
  | resetMetrics => simp [Move.setsUp] at hm

theorem run (h : Untouched p directory c) {setup : List Move}
    (hsetup : ∀ m ∈ setup, m.setsUp = true) :
    Untouched p directory (c.run setup) ∧ (c.run setup).past = c.past := by
  induction setup generalizing c with
  | nil => exact ⟨h, rfl⟩
  | cons m setup ih =>
      obtain ⟨hplay, hpast⟩ := h.play (hsetup m List.mem_cons_self)
      obtain ⟨hrun, hrest⟩ := ih hplay fun m hm => hsetup m (List.mem_cons_of_mem _ hm)
      exact ⟨hrun, hrest.trans hpast⟩

theorem ofBlueprint (p : Blueprint) (device : Device) (directory : Directory)
    {setup : List Move} (hsetup : ∀ m ∈ setup, m.setsUp = true) :
    Untouched p directory (.ofBlueprint p device directory setup) ∧
      (Course.ofBlueprint p device directory setup).past = [] := by
  have hstart : Untouched p directory { scheduler := p.assemble device directory } :=
    ⟨rfl, fun _ => rfl, rfl, rfl, rfl, rfl, fun _ => rfl, fun _ => rfl⟩
  exact hstart.run hsetup

/-- Untouched schedulers with the same device and the same configurations go side by
side. -/
theorem twins (h : Untouched p directory c) (h' : Untouched p directory c')
    (halike : c.scheduler.board.Alike c'.scheduler.board)
    (hcurrent : c'.scheduler.current = c.scheduler.current) : Twins c c' := by
  refine ⟨⟨?_, halike, hcurrent, fun kernel _ => ?_, fun name => ?_, fun name => ?_,
    fun kernel _ name => ?_⟩, ?_, ?_, ?_, ?_⟩
  · rw [h.settings, h'.settings]
  · rw [h.queues, h'.queues]
  · rw [h.newModel, h'.newModel]
  · rw [h.model, h'.model]
  · rw [h.model, h'.model]
  · rw [h.nextId, h'.nextId]
  · rw [h.observers, h'.observers]
  · rw [h.directory, h'.directory]
  · rw [h.stage, h'.stage]

end Untouched

/-- A scheduler that was reset is untouched. -/
theorem Untouched.clear {p : Blueprint} (hfixed : Fixed p c) (hmodelled : Modelled p c)
    (past : List Event) :
    Untouched p c.scheduler.books.directory ⟨c.scheduler.clear, .serving, past⟩ where
  stage := rfl
  queues _ := rfl
  nextId := rfl
  settings := hfixed.settings
  observers := hfixed.observers
  directory := rfl
  newModel := hmodelled.newModel
  model name := (Books.model_freshModels _ _ name).trans (hmodelled.newModel name)

namespace Course

/-- The course of a new scheduler on a device, beside the same files as this one. -/
def anew (c : Course) (p : Blueprint) (device : Device) (moves : List Move) : Course :=
  ofBlueprint p device c.scheduler.books.directory moves

/-- A scheduler that was reset at any moment, be it on its own or as the end of a finish,
and a new one on a device in the same state, on which the same configurations were
registered and the same one was made current, see the same of any further moves and
answer alike after them. -/
theorem forgotten_by_reset (p : Blueprint) (device device' : Device) (directory : Directory)
    {moves setup : List Move} {finish : Option (List Error)}
    (hstage : (ofBlueprint p device directory moves).stage = .resetting finish)
    (hclosed : (ofBlueprint p device directory moves).isClosed = true)
    (hsetup : ∀ m ∈ setup, m.setsUp = true)
    (halike : (ofBlueprint p device directory moves).scheduler.board.Alike
      ((ofBlueprint p device directory moves).anew p device' setup).scheduler.board)
    (hcurrent : ((ofBlueprint p device directory moves).anew p device' setup).scheduler.current =
      (ofBlueprint p device directory moves).scheduler.current)
    (script : List Move) :
    (∃ news,
      (((ofBlueprint p device directory moves).play .clear).run script).past =
          ((ofBlueprint p device directory moves).play .clear).past ++ news ∧
        (((ofBlueprint p device directory moves).anew p device' setup).run script).past =
          news) ∧
      AnswerAlike (((ofBlueprint p device directory moves).play .clear).run script)
        (((ofBlueprint p device directory moves).anew p device' setup).run script) := by
  have hused := Untouched.clear (.ofBlueprint p device directory moves)
    (.ofBlueprint p device directory moves)
    ((ofBlueprint p device directory moves).past ++ [.cleared finish])
  obtain ⟨hnew, hpast⟩ := Untouched.ofBlueprint p device'
    (ofBlueprint p device directory moves).scheduler.books.directory hsetup
  have hsteady : Steady (ofBlueprint p device directory (moves ++ [.clear])) :=
    .ofBlueprint p device directory _
  have hclear : ofBlueprint p device directory (moves ++ [.clear]) =
      (ofBlueprint p device directory moves).play .clear := run_append _ _ _
  rw [← play_clear hstage hclosed] at hused
  rw [hclear] at hsteady
  have hboard : ((ofBlueprint p device directory moves).play .clear).scheduler.board =
      (ofBlueprint p device directory moves).scheduler.board := by
    rw [play_clear hstage hclosed]
    rfl
  have hsame : ((ofBlueprint p device directory moves).play .clear).scheduler.current =
      (ofBlueprint p device directory moves).scheduler.current := by
    rw [play_clear hstage hclosed]
    rfl
  rw [← hboard] at halike
  rw [← hsame] at hcurrent
  obtain ⟨⟨news, hused', hnew'⟩, htwins⟩ :=
    (hused.twins hnew halike hcurrent).run hsteady (.ofBlueprint p device' _ setup) script
  rw [hpast, List.nil_append] at hnew'
  exact ⟨⟨news, hused', hnew'⟩, htwins.answerAlike⟩

/-- One task is completed, a second is pending behind a third that is in hand when a reset
begins, and another configuration is current by then. -/
def busyThenReset : List Move :=
  [.insertConfiguration "a" (Image.encode ["k"]), .insertConfiguration "b" (Image.encode ["k"]),
    .addTask { kernel := "k" }, .work "k", .work "k", .work "k", .work "k",
    .addTask { kernel := "k" }, .addTask { kernel := "k" }, .work "k", .setConfiguration "b", .reset,
    .cancel "k", .work "k", .work "k", .work "k", .work "k"]

/-- What that run has registered and made current. -/
def registeredAnew : List Move :=
  [.insertConfiguration "b" (Image.encode ["k"]), .insertConfiguration "a" (Image.encode ["k"])]

theorem forgotten_by_reset_busy :
    (ofBlueprint {} default { path := "" } busyThenReset).isClosed = true ∧
      (ofBlueprint {} default { path := "" } busyThenReset).scheduler.nextId = 3 ∧
        ∀ script, AnswerAlike
          (((ofBlueprint {} default { path := "" } busyThenReset).play .clear).run script)
          (((ofBlueprint {} default { path := "" } busyThenReset).anew {} default
            registeredAnew).run script) := by
  have hclosed : (ofBlueprint {} default { path := "" } busyThenReset).isClosed = true := by decide
  have halike : (ofBlueprint {} default { path := "" } busyThenReset).scheduler.board.Alike
      ((ofBlueprint {} default { path := "" } busyThenReset).anew {} default
        registeredAnew).scheduler.board := ⟨rfl, rfl, fun _ => rfl, rfl, rfl⟩
  refine ⟨hclosed, rfl, fun script => ?_⟩
  exact (forgotten_by_reset {} default default { path := "" } rfl hclosed
    (by simp [registeredAnew, Move.setsUp]) halike rfl script).2

end Course

end Scheduler

end KernelDispatch
