import KernelDispatch.Proofs.Queue.Likeness
import KernelDispatch.Proofs.Scheduler.Learning
import KernelDispatch.Proofs.Scheduler.Operations
import Mathlib.Data.List.ReduceOption

/-!
# What the parts of a scheduler agree on

The current configuration, the configurations that are loaded, the models and the
queues are changed at different places. They agree at every moment: something is
current as soon as something is loaded, each loaded configuration has its model, and
each queue is bound to the current configuration and holds tasks of its own kernel.

A worker notes what is current when it takes a task. From then on the task belongs to
that configuration, and it is the one that its kernel is made against and that its
record names, whatever is made current meanwhile.

## Main definitions

* `Registered`, `Placed`, `Coherent` — configurations, queues, and both.
* `Hand.Carries` — what a worker holds of a task that it has taken.
* `asked` — a scheduler that was asked a question.

## Main results

* `Coherent.play` — every move keeps the agreement.
* `carried_run` — what becomes of a task that was taken.
* `Course.parts_agree` — what follows for every course.
-/

namespace KernelDispatch

/-! ## Models that are made where they are missing -/

namespace Books

theorem contains_withModel (b : Books) (configuration name : String) :
    (b.withModel configuration).models.contains name =
      (decide (name = configuration) || b.models.contains name) := by
  unfold withModel
  split
  · rename_i hmodel
    by_cases hname : name = configuration
    · simp [hname, hmodel]
    · simp [hname]
  · by_cases hname : name = configuration
    · simp [NameMap.contains, hname]
    · simp [NameMap.contains, NameMap.get?_insert_of_ne _ _ hname, hname]

/-- A completed task has a model made for its configuration at most. -/
theorem contains_conclude {b : Books} {t : Task} {configuration : String} {nanos : Nat}
    (hconfiguration : t.configuration = some configuration) (hduration : t.duration = some nanos)
    (name : String) :
    (b.conclude t).2.models.contains name =
      (decide (name = configuration) || b.models.contains name) := by
  rw [conclude_eq hconfiguration hduration, models_enter]
  show (b.models.insert configuration _).contains name = _
  by_cases hname : name = configuration
  · simp [NameMap.contains, hname]
  · simp [NameMap.contains, NameMap.get?_insert_of_ne _ _ hname, hname]

theorem contains_freshModels (b : Books) (names : List String) (name : String) :
    (b.freshModels names).models.contains name = decide (name ∈ names) := by
  unfold freshModels NameMap.contains
  dsimp only
  rw [get?_foldl_insert]
  by_cases hname : name ∈ names
  · simp [hname]
  · simp [hname, NameMap.get?, NameMap.empty, NameMap.find?]

end Books

/-- The configuration that a worker's task belongs to. -/
def Hand.configuration? : Hand → Option String
  | .empty => none
  | .taken _ program => some program
  | .launched task _ | .reporting task => task.configuration

/-- What a worker can hold as long as it has taken no other task than this, which was
taken while this configuration was current. -/
inductive Hand.Carries (t : Task) (name : String) : Hand → Prop where
  | taken : Carries t name (.taken t name)
  | launched (notice : Notice) :
      Carries t name (.launched { t with configuration := some name } notice)
  | reporting (nanos : Nat) :
      Carries t name (.reporting { t with configuration := some name, duration := some nanos })
  | empty : Carries t name .empty

/-- What a worker can do as long as it takes no other task than this. -/
inductive ExecutionQueue.Deed.Carries (t : Task) (name : String) : Deed → Prop where
  | launches : Carries t name (.launches { t with configuration := some name })
  | reports (nanos : Nat) :
      Carries t name (.reports { t with configuration := some name, duration := some nanos })
  | returns (nanos : Nat) :
      Carries t name (.returns { t with configuration := some name, duration := some nanos })
  | closes (dropped : List Task) : Carries t name (.closes dropped)
  | unmade (dropped : List Task) : Carries t name (.faults t dropped)
  | unfinished (dropped : List Task) :
      Carries t name (.faults { t with configuration := some name } dropped)

namespace Scheduler

variable {s s' : Scheduler} {c : Course} {m : Move}

/-! ## Configurations -/

/-- Whether a configuration is loaded. -/
def isLoaded (s : Scheduler) (name : String) : Bool := s.board.configurations.contains name

/-- How the current configuration, the loaded ones and the models agree. -/
structure Registered (s : Scheduler) : Prop where
  faithful : s.board.Faithful
  current : ∀ name, s.isLoaded name = true → s.current.isSome = true
  loaded : ∀ name, s.current = some name → s.isLoaded name = true
  models : ∀ name, s.books.models.contains name = s.isLoaded name

/-- A scheduler whose parts agree in turn, and in which nothing was unloaded. -/
structure Extends (s s' : Scheduler) : Prop where
  registered : Registered s'
  loaded : ∀ name, s.isLoaded name = true → s'.isLoaded name = true

namespace Registered

theorem refl (h : Registered s) : Extends s s := ⟨h, fun _ => id⟩

theorem of_eq (h : Registered s)
    (hconfigurations : s'.board.configurations = s.board.configurations)
    (hcurrent : s'.current = s.current) (hmodels : s'.books.models = s.books.models) :
    Extends s s' := by
  have hloaded : ∀ name, s'.isLoaded name = s.isLoaded name := fun name => by
    rw [isLoaded, hconfigurations, isLoaded]
  refine ⟨⟨⟨?_, ?_⟩, ?_, ?_, ?_⟩, fun name hname => (hloaded name).trans hname⟩
  · rw [hconfigurations]
    exact h.faithful.named
  · rw [hconfigurations]
    exact h.faithful.remembers
  · intro name hname
    rw [hcurrent]
    exact h.current name (hloaded name ▸ hname)
  · intro name hname
    rw [hloaded]
    exact h.loaded name (hcurrent ▸ hname)
  · intro name
    rw [hmodels, hloaded, h.models]

theorem register (h : Registered s) {c : Configuration} (hremembers : c.Remembers) :
    Extends s (s.counted.register c) := by
  have hget : ∀ name, (s.counted.register c).board.configurations.get? name =
      if name = c.name then some c else s.board.configurations.get? name := fun name =>
    NameMap.get?_insert _ _ _ _
  have hloaded : ∀ name, (s.counted.register c).isLoaded name =
      (decide (name = c.name) || s.isLoaded name) := by
    intro name
    unfold isLoaded NameMap.contains
    rw [hget]
    split
    · rename_i hname
      simp [hname]
    · rename_i hname
      simp [hname]
  refine ⟨⟨⟨fun name c' hc' => ?_, fun name c' hc' => ?_⟩, fun _ _ => rfl, fun name hname => ?_,
    fun name => ?_⟩, fun name hname => ?_⟩
  · rw [hget] at hc'
    split at hc'
    · rename_i hname
      exact Option.some.inj hc' ▸ hname.symm
    · exact h.faithful.named name c' hc'
  · rw [hget] at hc'
    split at hc'
    · exact Option.some.inj hc' ▸ hremembers
    · exact h.faithful.remembers name c' hc'
  · rw [hloaded]
    have hsome : s.current.getD c.name = name := Option.some.inj hname
    cases hcurrent : s.current with
    | none =>
        rw [hcurrent, Option.getD_none] at hsome
        simp [hsome]
    | some before =>
        rw [hcurrent, Option.getD_some] at hsome
        simp [← hsome, h.loaded before hcurrent]
  · rw [hloaded, ← h.models]
    exact Books.contains_withModel _ _ _
  · rw [hloaded, hname, Bool.or_true]

theorem registers (h : Registered s) (hregisters : Registers s s') : Extends s s' := by
  cases hregisters with
  | same => exact h.refl
  | counted => exact h.of_eq rfl rfl rfl
  | registered c hremembers => exact h.register hremembers

theorem setConfiguration (h : Registered s) (name : String) :
    Extends s (s.setConfiguration name).2 := by
  unfold Scheduler.setConfiguration
  split
  · rename_i hname
    refine ⟨⟨h.faithful, fun _ _ => rfl, fun other hother => ?_, h.models⟩, fun _ => id⟩
    obtain rfl := Option.some.inj hother
    exact hname
  · exact h.refl

theorem addTask (h : Registered s) (t : Task) : Extends s (s.addTask t).2 := by
  rw [addTask_eq]
  split
  · exact h.refl
  · split
    · exact h.of_eq rfl rfl rfl
    · rename_i hplace
      exact h.of_eq (place_cases hplace).2.1 rfl rfl

theorem collect (h : Registered s) {visit : List String} (hvisit : visit.Nodup) :
    Extends s (s.collect (s.faultedAmong visit)).2 := by
  rw [(removal_collect s hvisit).rest]
  exact h.of_eq rfl rfl rfl

theorem updateQueue (h : Registered s) (kernel : String) (f : ExecutionQueue → ExecutionQueue) :
    Extends s (s.updateQueue kernel f) := by
  rw [updateQueue_eq]
  exact h.of_eq rfl rfl rfl

/-- A reset makes a model for every loaded configuration. -/
theorem clear (h : Registered s) : Extends s s.clear := by
  refine ⟨⟨h.faithful, h.current, h.loaded, fun name => ?_⟩, fun _ => id⟩
  have hfresh : s.clear.books.models.contains name = decide (name ∈ s.configurationNames) :=
    Books.contains_freshModels _ _ _
  rw [hfresh]
  show _ = s.isLoaded name
  rw [isLoaded, NameMap.contains, Bool.eq_iff_iff, decide_eq_true_iff, configurationNames,
    NameMap.mem_names_iff, Option.isSome_iff_exists]

/-- A completed task belongs to a loaded configuration, which has its model. -/
theorem entered (h : Registered s) (kernel : String) {board : Board} {queue next : ExecutionQueue}
    {done : Option Task} (hstep : queue.step s.board = some (board, next, done))
    (hdone : ∀ t, done = some t → ∃ name nanos, t.configuration = some name ∧
      t.duration = some nanos ∧ s.isLoaded name = true) :
    Extends s (s.entered kernel board next done) := by
  have hloaded : ∀ name, (s.entered kernel board next done).isLoaded name = s.isLoaded name :=
    (ExecutionQueue.alike_of_step hstep).contains
  refine ⟨⟨ExecutionQueue.faithful_of_step h.faithful hstep, fun name hname => ?_,
    fun name hname => ?_, fun name => ?_⟩, fun name hname => (hloaded name).trans hname⟩
  · exact h.current name (hloaded name ▸ hname)
  · rw [hloaded]
    exact h.loaded name hname
  · rw [hloaded, ← h.models]
    cases done with
    | none => rfl
    | some t =>
        obtain ⟨configuration, nanos, hconfiguration, hduration, hname⟩ := hdone t rfl
        have hconclude : (s.entered kernel board next (some t)).books.models.contains name =
            (decide (name = configuration) || s.books.models.contains name) :=
          Books.contains_conclude hconfiguration hduration name
        rw [hconclude]
        by_cases heq : name = configuration
        · simp [heq, h.models, hname]
        · simp [heq]

end Registered

/-! ## Queues -/

/-- How the queue of a kernel agrees with a scheduler. -/
structure Placed (s : Scheduler) (kernel : String) (q : ExecutionQueue) : Prop where
  named : q.kernel = kernel
  program : s.current = some q.program
  tasks : ∀ t ∈ q.hand.task?.toList ++ q.pending, t.kernel = kernel
  held : ∀ name, q.hand.configuration? = some name → s.isLoaded name = true

/-- How the parts of a scheduler agree. -/
structure Coherent (s : Scheduler) : Prop where
  registered : Registered s
  placed : ∀ kernel queue, s.queues.get? kernel = some queue → Placed s kernel queue

namespace Placed

open ExecutionQueue (Turn)

variable {kernel : String} {q q' : ExecutionQueue} {d : ExecutionQueue.Deed}

/-- A deed of the worker leaves the queue in its place: what is taken belongs to the
current configuration. -/
theorem turn (h : Placed s kernel q) (hs : Registered s) (hturn : Turn q d q') :
    Placed s kernel q' := by
  have hcurrent : s.isLoaded q.program = true := hs.loaded _ h.program
  cases hturn with
  | takes hhand hphase hpending =>
      refine ⟨h.named, h.program, fun t ht => h.tasks t ?_, fun name hname => ?_⟩
      · simpa [hhand, hpending] using ht
      · exact Option.some.inj hname ▸ hcurrent
  | @launches task program hhand =>
      refine ⟨h.named, h.program, fun t ht => ?_, fun name hname => h.held name ?_⟩
      · have hheld : task.kernel = kernel := h.tasks task (by simp [hhand])
        rcases List.mem_append.1 ht with ht | ht
        · obtain rfl := Option.mem_toList.1 ht |> Option.some.inj
          exact hheld
        · exact h.tasks t (List.mem_append_right _ ht)
      · rw [hhand]
        exact hname
  | @reports task notice hhand =>
      refine ⟨h.named, h.program, fun t ht => ?_, fun name hname => h.held name ?_⟩
      · have hheld : task.kernel = kernel := h.tasks task (by simp [hhand])
        rcases List.mem_append.1 ht with ht | ht
        · obtain rfl := Option.mem_toList.1 ht |> Option.some.inj
          exact hheld
        · exact h.tasks t (List.mem_append_right _ ht)
      · rw [hhand]
        exact hname
  | returns hhand =>
      refine ⟨h.named, h.program, fun t ht => h.tasks t (List.mem_append_right _ ht), ?_⟩
      simp [Hand.configuration?]
  | closes hhand =>
      exact ⟨h.named, h.program, by simp [hhand], by simp [hhand, Hand.configuration?]⟩
  | faults hhand hphase e =>
      exact ⟨h.named, h.program, by simp, by simp [Hand.configuration?]⟩

theorem release (h : Placed s kernel q) : Placed s kernel q.release := by
  cases hhand : q.hand with
  | launched task notice =>
      have hrelease :
          q.release = { q with hand := .launched task { notice with held := false } } := by
        simp [ExecutionQueue.release, hhand]
      have htasks := h.tasks
      have hheld := h.held
      rw [hhand] at htasks hheld
      rw [hrelease]
      exact ⟨h.named, h.program, htasks, hheld⟩
  | empty =>
      have hrelease : q.release = q := by simp [ExecutionQueue.release, hhand]
      rwa [hrelease]
  | taken task program =>
      have hrelease : q.release = q := by simp [ExecutionQueue.release, hhand]
      rwa [hrelease]
  | reporting task =>
      have hrelease : q.release = q := by simp [ExecutionQueue.release, hhand]
      rwa [hrelease]

end Placed

/-- Every move leaves the queues in their places. -/
theorem placed_play (hsound : Sound c) (h : Coherent c.scheduler)
    (hext : Extends c.scheduler (c.play m).scheduler) {kernel : String} {q' : ExecutionQueue}
    (hqueue' : (c.play m).scheduler.queues.get? kernel = some q') :
    Placed (c.play m).scheduler kernel q' := by
  -- what stays of a queue stays in its place
  have hmoved : ∀ {q}, Placed c.scheduler kernel q →
      (c.play m).scheduler.current = some q.program → Placed (c.play m).scheduler kernel q :=
    fun hq hprogram => ⟨hq.named, hprogram, hq.tasks, fun name hname =>
      hext.loaded name (hq.held name hname)⟩
  cases becomes_play hqueue' with
  | kept hqueue hcurrent =>
      have hq := h.placed kernel q' hqueue
      exact hmoved hq (hcurrent _ hq.program)
  | @bound q name hqueue hnext hcurrent =>
      have hq := h.placed kernel q hqueue
      rw [hnext]
      exact ⟨hq.named, hcurrent, hq.tasks, fun name hname => hext.loaded name (hq.held name hname)⟩
  | @discards q hqueue hnext hcurrent =>
      have hq := h.placed kernel q hqueue
      rw [hnext]
      exact ⟨hq.named, hcurrent.trans hq.program, hq.tasks, fun name hname =>
        hext.loaded name (hq.held name hname)⟩
  | @released q hqueue hnext hcurrent =>
      have hq := (h.placed kernel q hqueue).release
      rw [hnext]
      exact hmoved hq (hcurrent.trans hq.program)
  | @offered task program board hm hkernel hprogram hplace hcurrent =>
      rw [← hcurrent] at hprogram
      subst hkernel
      obtain ⟨-, -, ⟨before, hbefore, hnext⟩ | ⟨hnone, number, rfl⟩⟩ := place_cases hplace
      · obtain ⟨-, -, rfl⟩ := ExecutionQueue.WellFormed.not_closed_of_enqueue hnext
        have hq := h.placed task.kernel before hbefore
        refine ⟨hq.named, hcurrent.trans hq.program, fun t ht => ?_, fun name hname =>
          hext.loaded name (hq.held name hname)⟩
        rw [← List.append_assoc, List.mem_append] at ht
        rcases ht with ht | ht
        · exact hq.tasks t ht
        · exact List.mem_singleton.1 ht ▸ rfl
      · refine ⟨rfl, hprogram, fun t ht => ?_, fun name hname => ?_⟩
        · obtain rfl : t = { task with id := some c.scheduler.nextId } := by
            simpa [ExecutionQueue.start] using ht
          rfl
        · simp [ExecutionQueue.start, Hand.configuration?] at hname
  | @worked q board done hm hqueue hstep hcurrent =>
      obtain ⟨hturn, -⟩ := hsound.turn hqueue hstep
      have hq := (h.placed kernel q hqueue).turn h.registered hturn
      exact hmoved hq (hcurrent.trans hq.program)

/-- A step of a worker leaves a model for what it completes. -/
theorem extends_work (hsound : Sound c) (h : Coherent c.scheduler) (kernel : String) :
    Extends c.scheduler (c.work kernel).scheduler := by
  unfold Course.work
  split
  · exact h.registered.refl
  · rename_i queue hqueue
    split
    · exact h.registered.refl
    · rename_i board next done hstep
      obtain ⟨hturn, hdone⟩ := hsound.turn hqueue hstep
      have hplaced := (h.placed kernel queue hqueue).turn h.registered hturn
      refine h.registered.entered kernel hstep fun t ht => ?_
      rw [ht] at hdone
      obtain ⟨name, nanos, hname, hnanos⟩ :=
        ExecutionQueue.bound_of_turn (hsound.wellFormed kernel queue hqueue) hturn hdone.symm
      refine ⟨name, nanos, hname, hnanos, hplaced.held name ?_⟩
      rw [(ExecutionQueue.hand_of_reported hturn hdone.symm)]
      exact hname

theorem extends_play (hsound : Sound c) (h : Coherent c.scheduler) (m : Move) :
    Extends c.scheduler (c.play m).scheduler := by
  have hreg := h.registered
  cases m with
  | addConfiguration name => exact hreg.registers (registers_addConfiguration _ name)
  | insertConfiguration name image =>
      exact hreg.registers (registers_insertConfiguration _ name image)
  | setConfiguration name =>
      simp only [Course.play]
      split
      · exact hreg.setConfiguration name
      · exact hreg.refl
  | addTask task =>
      simp only [Course.play]
      split
      · rw [scheduler_offer]
        exact hreg.addTask task
      · exact hreg.refl
  | wait visit =>
      simp only [Course.play]
      split
      · rename_i hready
        exact hreg.collect (nodup_of_perm_kernels (isReady_iff.1 hready).2.2)
      · exact hreg.refl
  | finish visit =>
      simp only [Course.play]
      split
      · rename_i hready
        exact hreg.collect (nodup_of_perm_kernels (isReady_iff.1 hready).2.2)
      · exact hreg.refl
  | reset =>
      simp only [Course.play]
      split <;> exact hreg.refl
  | cancel kernel =>
      simp only [Course.play]
      split
      · exact hreg.refl
      · exact hreg.updateQueue kernel _
  | clear =>
      simp only [Course.play]
      split
      · exact hreg.refl
      · split
        · exact hreg.clear
        · exact hreg.refl
  | work kernel => exact extends_work hsound h kernel
  | hold on => exact hreg.of_eq rfl rfl rfl
  | release kernel => exact hreg.updateQueue kernel _
  | failKernel entryPoint => exact hreg.of_eq rfl rfl rfl
  | refuseQueues on => exact hreg.of_eq rfl rfl rfl
  | resetMetrics => exact hreg.of_eq rfl rfl rfl

namespace Coherent

/-- Every move keeps the agreement. -/
theorem play (h : Coherent c.scheduler) (hsound : Sound c) (m : Move) :
    Coherent (c.play m).scheduler := by
  have hext := extends_play hsound h m
  exact ⟨hext.registered, fun _ _ hqueue => placed_play hsound h hext hqueue⟩

theorem run (h : Coherent c.scheduler) (hsound : Sound c) (moves : List Move) :
    Coherent (c.run moves).scheduler := by
  induction moves generalizing c with
  | nil => exact h
  | cons m moves ih => exact ih (h.play hsound m) (hsound.play m)

theorem assemble (p : Blueprint) (device : Device) (directory : Directory) :
    Coherent (p.assemble device directory) := by
  have hnone : ∀ name, (p.assemble device directory).board.configurations.get? name = none :=
    fun _ => rfl
  refine ⟨⟨⟨fun name c hc => ?_, fun name c hc => ?_⟩, fun name hname => ?_, fun name hname => ?_,
    fun _ => rfl⟩, fun kernel queue hqueue => ?_⟩
  · simp [hnone] at hc
  · simp [hnone] at hc
  · simp [isLoaded, NameMap.contains, hnone] at hname
  · simp [Blueprint.assemble] at hname
  · simp [get?_assemble] at hqueue

theorem ofBlueprint (p : Blueprint) (device : Device) (directory : Directory)
    (moves : List Move) : Coherent (Course.ofBlueprint p device directory moves).scheduler :=
  (assemble p device directory).run (.assemble p device directory) moves

end Coherent

/-- What holds of a scheduler at any moment. -/
structure Steady (c : Course) : Prop where
  sound : Sound c
  coherent : Coherent c.scheduler

theorem Steady.play (h : Steady c) (m : Move) : Steady (c.play m) :=
  ⟨h.sound.play m, h.coherent.play h.sound m⟩

theorem Steady.run (h : Steady c) (moves : List Move) : Steady (c.run moves) :=
  ⟨h.sound.run moves, h.coherent.run h.sound moves⟩

/-- A task that a worker completes is of its kernel, and knows its configuration and its
duration. -/
theorem Steady.completed (h : Steady c) {kernel : String} {board : Board}
    {queue next : ExecutionQueue} {done : Option Task}
    (hqueue : c.scheduler.queues.get? kernel = some queue)
    (hstep : queue.step c.scheduler.board = some (board, next, done)) {t : Task}
    (ht : done = some t) :
    t.kernel = kernel ∧ ∃ name nanos, t.configuration = some name ∧ t.duration = some nanos := by
  obtain ⟨hturn, hdone⟩ := h.sound.turn hqueue hstep
  have hreported := hdone.symm.trans ht
  have hplaced := (h.coherent.placed kernel queue hqueue).turn h.coherent.registered hturn
  refine ⟨hplaced.tasks t ?_,
    ExecutionQueue.bound_of_turn (h.sound.wellFormed kernel queue hqueue) hturn hreported⟩
  rw [ExecutionQueue.hand_of_reported hturn hreported]
  exact List.mem_append_left _ (List.mem_singleton_self t)

theorem Steady.ofBlueprint (p : Blueprint) (device : Device) (directory : Directory)
    (moves : List Move) : Steady (.ofBlueprint p device directory moves) :=
  ⟨.ofBlueprint p device directory moves, .ofBlueprint p device directory moves⟩

/-! ## What settings and observers do -/

/-- Settings and observers are what the scheduler was built with. -/
structure Fixed (p : Blueprint) (c : Course) : Prop where
  settings : c.scheduler.settings = p.settings
  observers : c.scheduler.books.observers = p.observers ++ Blueprint.settingsObservers p.settings

namespace Fixed

variable {p : Blueprint}

theorem settings_collected {visit : List String} (hready : c.isReady visit = true)
    (stage : Stage) : (c.collected visit stage).scheduler.settings = c.scheduler.settings := by
  have hvisit := nodup_of_perm_kernels (isReady_iff.1 hready).2.2
  show (c.scheduler.collect (c.scheduler.faultedAmong visit)).2.settings = _
  rw [(removal_collect c.scheduler hvisit).rest]

theorem settings_play (c : Course) (m : Move) :
    (c.play m).scheduler.settings = c.scheduler.settings := by
  cases m with
  | addConfiguration name => exact (registers_addConfiguration _ name).settings
  | insertConfiguration name image => exact (registers_insertConfiguration _ name image).settings
  | setConfiguration name =>
      simp only [Course.play]
      split
      · unfold setConfiguration
        split <;> rfl
      · rfl
  | addTask task =>
      simp only [Course.play]
      split
      · rw [scheduler_offer, addTask_eq]
        split
        · rfl
        · split <;> rfl
      · rfl
  | wait visit =>
      simp only [Course.play]
      split
      · rename_i hready
        exact settings_collected hready _
      · rfl
  | finish visit =>
      simp only [Course.play]
      split
      · rename_i hready
        exact settings_collected hready _
      · rfl
  | reset =>
      simp only [Course.play]
      split <;> rfl
  | cancel kernel =>
      simp only [Course.play, updateQueue_eq]
      split <;> rfl
  | clear =>
      simp only [Course.play]
      split
      · rfl
      · split <;> rfl
  | work kernel =>
      simp only [Course.play, Course.work]
      split
      · rfl
      · split <;> rfl
  | hold on => rfl
  | release kernel =>
      simp only [Course.play, updateQueue_eq]
  | failKernel entryPoint => rfl
  | refuseQueues on => rfl
  | resetMetrics => rfl

theorem observers_play (c : Course) (m : Move) :
    (c.play m).scheduler.books.observers = c.scheduler.books.observers := by
  have hother : (∀ kernel, m ≠ .work kernel) → m ≠ .clear →
      (c.play m).scheduler.books.observers = c.scheduler.books.observers :=
    fun hwork hclear => (quiet_play c hwork hclear).observers
  cases m with
  | work kernel =>
      simp only [Course.play, Course.work]
      split
      · rfl
      · split
        · rfl
        · rename_i board next done _
          cases done with
          | none => rfl
          | some t => exact (Books.informed_conclude _ t).1
  | clear =>
      simp only [Course.play]
      split
      · rfl
      · split <;> rfl
  | _ => exact hother (by simp) (by simp)

theorem run (h : Fixed p c) (moves : List Move) : Fixed p (c.run moves) := by
  induction moves generalizing c with
  | nil => exact h
  | cons m moves ih =>
      exact ih ⟨(settings_play c m).trans h.settings, (observers_play c m).trans h.observers⟩

theorem ofBlueprint (p : Blueprint) (device : Device) (directory : Directory)
    (moves : List Move) : Fixed p (.ofBlueprint p device directory moves) :=
  run ⟨rfl, rfl⟩ moves

end Fixed

/-! ## Taken tasks -/

section Carried

open ExecutionQueue (Turn Deed)

variable {kernel name : String} {t : Task}

/-- Whether a worker takes a task in an event. -/
def Event.takesOn (kernel : String) : Event → Bool
  | .worked other (.takes _) _ => other == kernel
  | _ => false

/-- What can be seen of a worker as long as it takes no other task than this. -/
def Event.Carries (kernel : String) (t : Task) (name : String) : Event → Prop
  | .worked other d record => other = kernel → d.Carries t name ∧
      ∀ r, record = some r →
        r.configuration = name ∧ r.kernel = t.kernel ∧ r.taskId = t.id.getD 0
  | _ => True

/-- The task in hand goes on with the configuration that it was taken with. -/
theorem carries_of_turn {q q' : ExecutionQueue} {d : Deed} (h : q.hand.Carries t name)
    (hturn : Turn q d q') (hnew : ∀ task, d ≠ .takes task) :
    d.Carries t name ∧ q'.hand.Carries t name := by
  cases hturn with
  | @takes task => exact absurd rfl (hnew task)
  | launches hhand hphase notice =>
      rw [hhand] at h
      cases h with
      | taken => exact ⟨.launches, .launched notice⟩
  | @reports task notice hhand =>
      rw [hhand] at h
      cases h with
      | launched => exact ⟨.reports notice.span, .reporting notice.span⟩
  | returns hhand =>
      rw [hhand] at h
      cases h with
      | reporting nanos => exact ⟨.returns nanos, .empty⟩
  | closes hhand =>
      refine ⟨.closes _, ?_⟩
      rw [hhand]
      exact .empty
  | @faults task hhand hphase e =>
      refine ⟨?_, .empty⟩
      cases hheld : q.hand with
      | empty => simp [hheld] at hhand
      | reporting task => simp [hheld] at hhand
      | taken task program =>
          rw [hheld] at h hhand
          obtain rfl := Option.some.inj hhand
          cases h with
          | taken => exact .unmade _
      | launched task notice =>
          rw [hheld] at h hhand
          obtain rfl := Option.some.inj hhand
          cases h with
          | launched => exact .unfinished _

theorem carries_release {q : ExecutionQueue} (h : q.hand.Carries t name) :
    q.release.hand.Carries t name := by
  unfold ExecutionQueue.release
  split
  · rename_i hhand
    rw [hhand] at h
    cases h with
    | launched => exact .launched _
  · exact h

/-- The record of a completed task names the configuration that the task was taken
with. -/
theorem carries_record {d : Deed} (h : d.Carries t name) {done : Option Task}
    (hdone : done = d.reported?) (b : Books) {r : CompletionRecord}
    (hr : (done.bind fun t => (b.conclude t).1) = some r) :
    r.configuration = name ∧ r.kernel = t.kernel ∧ r.taskId = t.id.getD 0 := by
  subst hdone
  cases h with
  | reports nanos =>
      rw [Deed.reported?, Option.bind_some, Books.conclude_eq rfl rfl] at hr
      obtain rfl := Option.some.inj hr
      exact ⟨rfl, rfl, rfl⟩
  | launches => simp [Deed.reported?] at hr
  | returns => simp [Deed.reported?] at hr
  | closes => simp [Deed.reported?] at hr
  | unmade => simp [Deed.reported?] at hr
  | unfinished => simp [Deed.reported?] at hr

/-- A move by which no further task is taken leaves the task in hand with its
configuration. -/
theorem carried_play (hsound : Sound c)
    (h : ∀ q, c.scheduler.queues.get? kernel = some q → q.hand.Carries t name)
    {news : List Event} (hnews : (c.play m).past = c.past ++ news)
    (hnone : ∀ e ∈ news, e.takesOn kernel = false) :
    (∀ e ∈ news, e.Carries kernel t name) ∧
      ∀ q, (c.play m).scheduler.queues.get? kernel = some q → q.hand.Carries t name := by
  have hdeed : ∀ {d record}, .worked kernel d record ∈ news → ∀ task, d ≠ .takes task := by
    intro d record hmem task hd
    have htakes := hnone _ hmem
    simp [hd, Event.takesOn] at htakes
  constructor
  · intro e he
    cases e with
    | worked other d record =>
        intro hother
        subst hother
        obtain ⟨queue, next, board, done, hqueue, hstep, rfl, rfl⟩ := step_of_worked hnews he
        obtain ⟨hturn, hdone⟩ := hsound.turn hqueue hstep
        have hcarries := (carries_of_turn (h queue hqueue) hturn (hdeed he)).1
        exact ⟨hcarries, fun r hr => carries_record hcarries hdone _ hr⟩
    | accepted => trivial
    | refused => trivial
    | waited => trivial
    | cleared => trivial
  · intro q' hqueue'
    cases becomes_play hqueue' with
    | kept hqueue => exact h q' hqueue
    | bound hqueue hnext =>
        have hbefore := h _ hqueue
        rw [hnext]
        exact hbefore
    | discards hqueue hnext =>
        have hbefore := h _ hqueue
        rw [hnext]
        exact hbefore
    | released hqueue hnext =>
        rw [hnext]
        exact carries_release (h _ hqueue)
    | @offered task program board hm hkernel hprogram hplace =>
        subst hkernel
        obtain ⟨-, -, ⟨before, hbefore, hnext⟩ | ⟨hnone, number, rfl⟩⟩ := place_cases hplace
        · obtain ⟨-, -, rfl⟩ := ExecutionQueue.WellFormed.not_closed_of_enqueue hnext
          exact h before hbefore
        · exact .empty
    | @worked q board done hm hqueue hstep =>
        subst hm
        obtain ⟨hturn, -⟩ := hsound.turn hqueue hstep
        rw [play_work hqueue hstep] at hnews
        have hmem := List.append_cancel_left hnews ▸ List.mem_singleton_self _
        exact (carries_of_turn (h q hqueue) hturn (hdeed hmem)).2

theorem carried_run (hsound : Sound c)
    (h : ∀ q, c.scheduler.queues.get? kernel = some q → q.hand.Carries t name)
    (later : List Move) {news : List Event} (hnews : (c.run later).past = c.past ++ news)
    (hnone : ∀ e ∈ news, e.takesOn kernel = false) :
    (∀ e ∈ news, e.Carries kernel t name) ∧
      ∀ q, (c.run later).scheduler.queues.get? kernel = some q → q.hand.Carries t name := by
  induction later generalizing c news with
  | nil =>
      rw [List.self_eq_append_right.1 hnews]
      exact ⟨by simp, h⟩
  | cons m later ih =>
      obtain ⟨first, hfirst⟩ := exists_past_play c m
      obtain ⟨rest, hrest⟩ := exists_past_run (c.play m) later
      have hsplit : news = first ++ rest := by
        have hpast : ((c.play m).run later).past = c.past ++ news := hnews
        rw [hrest, hfirst, List.append_assoc] at hpast
        exact (List.append_cancel_left hpast).symm
      subst hsplit
      obtain ⟨hevents, hhand⟩ := carried_play hsound h hfirst fun e he =>
        hnone e (List.mem_append_left _ he)
      obtain ⟨hevents', hhand'⟩ := ih (hsound.play m) hhand hrest fun e he =>
        hnone e (List.mem_append_right _ he)
      refine ⟨fun e he => ?_, hhand'⟩
      rcases List.mem_append.1 he with he | he
      · exact hevents e he
      · exact hevents' e he

end Carried

/-! ## Questions -/

/-- The scheduler that a question about the current model leaves: the model is made if
it is missing. -/
def asked (s : Scheduler) : Scheduler :=
  match s.current with
  | some name => { s with books := s.books.withModel name }
  | none => s

/-- There is nothing to make. -/
theorem asked_eq (h : Registered s) : s.asked = s := by
  unfold asked
  split
  · rename_i name hname
    have hmodel : s.books.models.contains name = true := (h.models name).trans (h.loaded name hname)
    simp [Books.withModel, hmodel]
  · rfl

namespace Course

/-- The course after a move, or after a question. -/
def playAsking (c : Course) : Option Move → Course
  | some m => c.play m
  | none => { c with scheduler := c.scheduler.asked }

/-- The course after these moves and questions. -/
def runAsking (c : Course) (moves : List (Option Move)) : Course := moves.foldl playAsking c

theorem runAsking_eq (h : Coherent c.scheduler) (hsound : Sound c) (moves : List (Option Move)) :
    c.runAsking moves = c.run moves.reduceOption := by
  induction moves generalizing c with
  | nil => rfl
  | cons m moves ih =>
      cases m with
      | none =>
          have hasked : c.playAsking none = c := by
            simp only [playAsking, asked_eq h.registered]
          rw [List.reduceOption_cons_of_none, ← ih h hsound]
          exact congrArg (fun c => c.runAsking moves) hasked
      | some m =>
          rw [List.reduceOption_cons_of_some]
          exact ih (h.play hsound m) (hsound.play m)

/-- What the parts of a scheduler agree on at any moment. -/
structure Agrees (p : Blueprint) (c : Course) : Prop where
  /-- Something is current as soon as something is loaded. -/
  current_iff : c.scheduler.current.isSome = true ↔ ∃ name, c.scheduler.isLoaded name = true
  /-- The current configuration is one that is kept under its own name. -/
  current : ∀ name, c.scheduler.current = some name →
    ∃ configuration, c.scheduler.configuration? name = some configuration ∧
      configuration.name = name
  queues : ∀ kernel queue, c.scheduler.queues.get? kernel = some queue →
    queue.kernel = kernel ∧ c.scheduler.current = some queue.program ∧
      ∀ t ∈ queue.hand.task?.toList ++ queue.pending, t.kernel = kernel
  models_iff : ∀ name, c.scheduler.books.models.contains name = c.scheduler.isLoaded name
  models : ∀ name model, c.scheduler.books.models.get? name = some model →
    model.configuration = name ∧ model.table = p.table ∧ model.prior = p.settings.hybridPrior
  /-- The kernel of a task in hand is made against the program that is kept under the
  name of its configuration. -/
  made : ∀ kernel queue t name, c.scheduler.queues.get? kernel = some queue →
    queue.hand = .taken t name → ∃ configuration,
      c.scheduler.configuration? name = some configuration ∧
        (c.scheduler.board.materialize name t).1 = t.kernelFor configuration.program
  /-- A task that is taken belongs to what is current then, whatever comes later. -/
  taken : ∀ kernel t record,
    (c.play (.work kernel)).past = c.past ++ [.worked kernel (.takes t) record] →
      ∃ name queue, c.scheduler.current = some name ∧
        (c.play (.work kernel)).scheduler.queues.get? kernel = some queue ∧
        queue.hand = .taken t name ∧
        ∀ later news, ((c.play (.work kernel)).run later).past =
            (c.play (.work kernel)).past ++ news →
          (∀ e ∈ news, e.takesOn kernel = false) →
            (∀ e ∈ news, e.Carries kernel t name) ∧
              ∀ q, ((c.play (.work kernel)).run later).scheduler.queues.get? kernel = some q →
                q.hand.Carries t name
  /-- No question has a part in what comes later. -/
  asked : ∀ moves, c.runAsking moves = c.run moves.reduceOption

theorem agrees_of_coherent {p : Blueprint} (h : Coherent c.scheduler) (hsound : Sound c)
    (hmodelled : Modelled p c) : Agrees p c := by
  have hreg := h.registered
  refine
    { current_iff := ⟨fun hsome => ?_, fun ⟨name, hname⟩ => hreg.current name hname⟩
      current := fun name hname => ?_
      queues := fun kernel queue hqueue => ?_
      models_iff := hreg.models
      models := fun name model hmodel => ?_
      made := fun kernel queue t name hqueue hhand => ?_
      taken := fun kernel t record hnews => ?_
      asked := runAsking_eq h hsound }
  · obtain ⟨name, hname⟩ := Option.isSome_iff_exists.1 hsome
    exact ⟨name, hreg.loaded name hname⟩
  · obtain ⟨configuration, hget⟩ := Option.isSome_iff_exists.1 (hreg.loaded name hname)
    exact ⟨configuration, hget, hreg.faithful.named name configuration hget⟩
  · have hplaced := h.placed kernel queue hqueue
    exact ⟨hplaced.named, hplaced.program, hplaced.tasks⟩
  · have hshape := hmodelled.shape name
    rw [Books.model, hmodel, Option.getD_some] at hshape
    exact ⟨congrArg CostModel.configuration hshape, congrArg CostModel.table hshape,
      congrArg CostModel.prior hshape⟩
  · have hloaded := (h.placed kernel queue hqueue).held name (by rw [hhand]; rfl)
    obtain ⟨configuration, hget⟩ := Option.isSome_iff_exists.1 hloaded
    refine ⟨configuration, hget, ?_⟩
    rw [Board.materialize_fst hreg.faithful, Board.get?_programs, hget]
    rfl
  · have hmem : .worked kernel (.takes t) record ∈
        [Event.worked kernel (.takes t) record] := List.mem_singleton_self _
    obtain ⟨queue, next, board, done, hqueue, hstep, hdeed, -⟩ := step_of_worked hnews hmem
    obtain ⟨hturn, -⟩ := hsound.turn hqueue hstep
    have hafter : (c.play (.work kernel)).scheduler.queues.get? kernel = some next := by
      rw [play_work hqueue hstep]
      exact NameMap.get?_insert_self _ _ _
    have hhand : next.hand = .taken t queue.program := by
      rw [← hdeed] at hturn
      cases hturn with
      | takes => rfl
    refine ⟨queue.program, next, (h.placed kernel queue hqueue).program, hafter, hhand, ?_⟩
    intro later news hpast hnone
    refine carried_run (hsound.play _) (fun q hq => ?_) later hpast hnone
    rw [hafter, Option.some.injEq] at hq
    rw [← hq, hhand]
    exact .taken

/-- In every course, at every moment, the parts of the scheduler agree. -/
theorem parts_agree (p : Blueprint) (device : Device) (directory : Directory)
    (moves : List Move) : Agrees p (ofBlueprint p device directory moves) :=
  agrees_of_coherent (.ofBlueprint p device directory moves)
    (.ofBlueprint p device directory moves) (.ofBlueprint p device directory moves)

end Course

end Scheduler

end KernelDispatch
