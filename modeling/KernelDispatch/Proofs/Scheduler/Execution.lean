import KernelDispatch.Proofs.Queue.Rest
import KernelDispatch.Proofs.Scheduler.Waiting

/-!
# How the operations of a scheduler run

The operations that wait let the workers step in one fixed order: one worker
until it has no step left, then the next. So each of them is a course with
particular moves, and what is proved of all courses holds of these operations.
They also end as a course demands it: a wait goes on with every queue idle, and a
reset ends with every queue closed.

## Main results

* `Leads` — moves on the way from one scheduler to another.
* `Attends.foldl` — queues brought one after the other to where they are wanted.
* `Course.run_wait`, `Course.run_finish`, `Course.run_reset` — the three operations
  as courses.
-/

namespace KernelDispatch.Scheduler

variable {s s' s'' : Scheduler} {stage : Stage} {kernel : String}

/-- A step is that of the queue. -/
theorem exists_of_step (h : s.step kernel = some s') :
    ∃ queue board next done, s.queues.get? kernel = some queue ∧
      queue.step s.board = some (board, next, done) ∧ s' = s.entered kernel board next done := by
  unfold step at h
  split at h
  · simp at h
  · rename_i queue hqueue
    split at h
    · simp at h
    · rename_i board next done hstep
      exact ⟨queue, board, next, done, hqueue, hstep, (Option.some.inj h).symm⟩

/-- Moves that begin or end no reset, and let the counters count, lead from one
scheduler to another. -/
def Leads (stage : Stage) (s s' : Scheduler) : Prop :=
  ∃ (moves : List Move) (later : List Event),
    (∀ m ∈ moves, m ≠ .clear ∧ m ≠ .reset ∧ m ≠ .resetMetrics) ∧
      ∀ past, Course.run ⟨s, stage, past⟩ moves = ⟨s', stage, past ++ later⟩

namespace Leads

theorem refl (stage : Stage) (s : Scheduler) : Leads stage s s :=
  ⟨[], [], by simp, by simp [Course.run]⟩

theorem trans (h : Leads stage s s') (h' : Leads stage s' s'') : Leads stage s s'' := by
  obtain ⟨moves, later, hmoves, hrun⟩ := h
  obtain ⟨moves', later', hmoves', hrun'⟩ := h'
  refine ⟨moves ++ moves', later ++ later', fun m hm => ?_, fun past => ?_⟩
  · rcases List.mem_append.1 hm with hm | hm
    · exact hmoves m hm
    · exact hmoves' m hm
  · rw [Course.run_append, hrun, hrun', List.append_assoc]

theorem of_play (m : Move) (hm : m ≠ .clear ∧ m ≠ .reset ∧ m ≠ .resetMetrics) (later : List Event)
    (h : ∀ past, Course.play ⟨s, stage, past⟩ m = ⟨s', stage, past ++ later⟩) :
    Leads stage s s' := by
  refine ⟨[m], later, ?_, h⟩
  intro m' hm'
  rwa [List.mem_singleton.1 hm']

/-- Whether the queues are sound does not depend on the past. -/
theorem sound {past : List Event} (h : Leads stage s s') (hsound : Sound ⟨s, stage, past⟩) :
    Sound ⟨s', stage, []⟩ := by
  obtain ⟨moves, later, -, hrun⟩ := h
  have hafter := hsound.run moves
  rw [hrun] at hafter
  exact ⟨hafter.wellFormed, hafter.serving, hafter.finishing⟩

theorem of_step (h : s.step kernel = some s') : Leads stage s s' := by
  obtain ⟨queue, board, next, done, hqueue, hstep, rfl⟩ := exists_of_step h
  refine of_play (.work kernel) (by simp)
    [.worked kernel (queue.deed next) (done.bind fun t => (s.books.conclude t).1)] fun past => ?_
  simp only [Course.play, Course.work, hqueue, hstep]

theorem of_hold (stage : Stage) (s : Scheduler) (on : Bool) : Leads stage s (s.hold on) :=
  of_play (.hold on) (by simp) [] (by simp [Course.play])

theorem of_release (stage : Stage) (s : Scheduler) (kernel : String) :
    Leads stage s (s.updateQueue kernel ExecutionQueue.release) :=
  of_play (.release kernel) (by simp) [] (by simp [Course.play])

/-- Only a reset asks queues to discard. -/
theorem of_discard (finish : Option (List Error)) (s : Scheduler) (kernel : String) :
    Leads (.resetting finish) s (s.updateQueue kernel ExecutionQueue.requestDiscard) :=
  of_play (.cancel kernel) (by simp) [] (by simp [Course.play, Course.serves])

end Leads

/-! ## One worker -/

/-- What every step of a worker keeps is kept until it is at rest. -/
theorem settle_induction {P : Scheduler → Prop} (h : P s)
    (hstep : ∀ {s s'}, P s → s.step kernel = some s' → P s') : P (s.settle kernel) := by
  induction s using settle.induct kernel with
  | case1 s hnone =>
      rw [settle.eq_def]
      split
      · exact h
      · rename_i hsome
        simp [hnone] at hsome
  | case2 s next hnext ih =>
      rw [settle.eq_def]
      split
      · exact h
      · rename_i next' hnext'
        rw [hnext, Option.some.injEq] at hnext'
        rw [← hnext']
        exact ih (hstep h hnext)

theorem Leads.settle (stage : Stage) (s : Scheduler) (kernel : String) :
    Leads stage s (s.settle kernel) :=
  settle_induction (.refl stage s) fun h hstep => h.trans (.of_step hstep)

theorem settle_eq_self (h : s.step kernel = none) : s.settle kernel = s := by
  rw [settle.eq_def]
  split
  · rfl
  · rename_i hsome
    simp [h] at hsome

theorem step_settle (s : Scheduler) (kernel : String) :
    (s.settle kernel).step kernel = none := by
  induction s using settle.induct kernel with
  | case1 s hnone =>
      rw [settle_eq_self hnone]
      exact hnone
  | case2 s next hnext ih =>
      rw [settle.eq_def]
      split
      · rename_i hnone
        exact hnone
      · rename_i next' hnext'
        rw [hnext, Option.some.injEq] at hnext'
        rw [← hnext']
        exact ih

theorem step_eq_none_iff :
    s.step kernel = none ↔
      ∀ queue, s.queues.get? kernel = some queue → queue.step s.board = none := by
  unfold step
  cases s.queues.get? kernel with
  | none => simp
  | some queue => cases hstep : queue.step s.board <;> simp [hstep]

theorem get?_settle_of_ne {name : String} (s : Scheduler) (h : name ≠ kernel) :
    (s.settle kernel).queues.get? name = s.queues.get? name := by
  refine settle_induction (P := fun s' => s'.queues.get? name = s.queues.get? name) rfl ?_
  intro s₁ s₂ hsame hstep
  obtain ⟨queue, board, next, done, -, -, rfl⟩ := exists_of_step hstep
  rw [← hsame]
  exact NameMap.get?_insert_of_ne _ _ h

/-- What every step of its worker keeps of a queue and the board is kept until the
worker is at rest. -/
theorem settle_queue {P : Board → ExecutionQueue → Prop} (hsound : Sound ⟨s, stage, []⟩)
    (hstep : ∀ {b b' q q' done}, q.WellFormed → P b q →
      q.step b = some (b', q', done) → P b' q')
    (h : ∀ queue, s.queues.get? kernel = some queue → P s.board queue) :
    ∀ queue, (s.settle kernel).queues.get? kernel = some queue →
      P (s.settle kernel).board queue := by
  refine (settle_induction (P := fun s => Sound ⟨s, stage, []⟩ ∧
    ∀ queue, s.queues.get? kernel = some queue → P s.board queue) ⟨hsound, h⟩ ?_).2
  rintro s₁ s₂ ⟨hsound₁, h₁⟩ hstep₁
  refine ⟨(Leads.of_step hstep₁).sound hsound₁, fun queue hqueue => ?_⟩
  obtain ⟨before, board, next, done, hbefore, hqueuestep, rfl⟩ := exists_of_step hstep₁
  have hnext : next = queue :=
    Option.some.inj ((NameMap.get?_insert_self _ _ _).symm.trans hqueue)
  rw [← hnext]
  exact hstep (hsound₁.wellFormed kernel before hbefore) (h₁ before hbefore) hqueuestep

/-- Where a worker has come to rest. -/
theorem rests_of_step_eq_none {past : List Event} {queue : ExecutionQueue}
    (hsound : Sound ⟨s, stage, past⟩) (hnone : s.step kernel = none)
    (hqueue : s.queues.get? kernel = some queue) : queue.Rests :=
  ExecutionQueue.rests_of_step_eq_none (hsound.wellFormed kernel queue hqueue)
    (step_eq_none_iff.1 hnone queue hqueue)

/-! ## One worker after the other -/

/-- An operation on one kernel that leaves its queue where it is wanted. -/
structure Attends (stage : Stage) (f : Scheduler → String → Scheduler)
    (wanted : ExecutionQueue → Prop) : Prop where
  leads : ∀ s kernel, Leads stage s (f s kernel)
  others : ∀ s kernel other, other ≠ kernel →
    (f s kernel).queues.get? other = s.queues.get? other
  done : ∀ s kernel queue, Sound ⟨s, stage, []⟩ →
    (f s kernel).queues.get? kernel = some queue → wanted queue

theorem Attends.foldl {f : Scheduler → String → Scheduler} {wanted : ExecutionQueue → Prop}
    (h : Attends stage f wanted) (kernels : List String) (hsound : Sound ⟨s, stage, []⟩) :
    Leads stage s (kernels.foldl f s) ∧
      ∀ name queue, (kernels.foldl f s).queues.get? name = some queue →
        if name ∈ kernels then wanted queue else s.queues.get? name = some queue := by
  induction kernels generalizing s with
  | nil =>
      refine ⟨.refl stage s, fun name queue hqueue => ?_⟩
      rw [if_neg List.not_mem_nil]
      exact hqueue
  | cons kernel rest ih =>
      have hfirst := h.leads s kernel
      obtain ⟨hleads, hrest⟩ := ih (hfirst.sound hsound)
      refine ⟨hfirst.trans hleads, fun name queue hqueue => ?_⟩
      have hname := hrest name queue hqueue
      by_cases hmem : name ∈ rest
      · rw [if_pos hmem] at hname
        rw [if_pos (List.mem_cons_of_mem _ hmem)]
        exact hname
      · rw [if_neg hmem] at hname
        by_cases hkernel : name = kernel
        · subst hkernel
          rw [if_pos List.mem_cons_self]
          exact h.done s name queue hsound hname
        · rw [if_neg (by simp [hkernel, hmem]), ← h.others s kernel name hkernel]
          exact hname

theorem attends_runBacklog (stage : Stage) :
    Attends stage runBacklog fun q => q.isIdle = true := by
  constructor
  · intro s kernel
    exact (((Leads.of_hold stage s false).trans (.of_release stage _ kernel)).trans
      (.settle stage _ kernel)).trans (.of_hold stage _ _)
  · intro s kernel other hother
    show NameMap.get? (settle _ kernel).queues other = _
    rw [get?_settle_of_ne _ hother, get?_updateQueue, if_neg hother]
    rfl
  · intro s kernel queue hsound hqueue
    have hsound' : Sound ⟨(s.hold false).updateQueue kernel ExecutionQueue.release, stage, []⟩ :=
      ((Leads.of_hold stage s false).trans (.of_release stage _ kernel)).sound hsound
    have hunheld : ∀ q, ((s.hold false).updateQueue kernel ExecutionQueue.release).queues.get?
        kernel = some q →
          q.Unheld ((s.hold false).updateQueue kernel ExecutionQueue.release).board := by
      intro q hq
      rw [get?_updateQueue, if_pos rfl, Option.map_eq_some_iff] at hq
      obtain ⟨before, -, rfl⟩ := hq
      refine ⟨.inl ?_, ExecutionQueue.holdsNotice_release before⟩
      rw [updateQueue_eq]
      rfl
    have hsettled := settle_queue hsound' (fun hq h hstep => h.step hq hstep) hunheld queue hqueue
    have hafter := (Leads.settle stage _ kernel).sound hsound'
    exact (rests_of_step_eq_none hafter (step_settle _ kernel) hqueue).isIdle
      (hafter.wellFormed kernel queue hqueue) hsettled.notice

theorem updateQueue_updateQueue (s : Scheduler) (kernel : String)
    (f g : ExecutionQueue → ExecutionQueue) :
    (s.updateQueue kernel f).updateQueue kernel g = s.updateQueue kernel fun q => g (f q) := by
  rw [updateQueue_eq, updateQueue_eq, updateQueue_eq]
  congr 1
  apply NameMap.ext_get?
  intro name
  simp only [NameMap.get?_mapWithName, Option.map_map]
  congr 1
  funext q
  by_cases hname : name = kernel <;> simp [hname]

theorem attends_cancel (finish : Option (List Error)) :
    Attends (.resetting finish) cancel fun q => q.phase = .closed := by
  have hleads : ∀ s kernel, Leads (.resetting finish) s
      (s.updateQueue kernel fun q => q.requestDiscard.release) := by
    intro s kernel
    have htwo := (Leads.of_discard finish s kernel).trans (.of_release _ _ kernel)
    rwa [updateQueue_updateQueue] at htwo
  constructor
  · intro s kernel
    exact (hleads s kernel).trans (.settle _ _ kernel)
  · intro s kernel other hother
    show NameMap.get? (settle _ kernel).queues other = _
    rw [get?_settle_of_ne _ hother, get?_updateQueue, if_neg hother]
  · intro s kernel queue hsound hqueue
    have hsound' : Sound ⟨s.updateQueue kernel fun q => q.requestDiscard.release,
        .resetting finish, []⟩ := (hleads s kernel).sound hsound
    have hasked : ∀ q, (s.updateQueue kernel fun q => q.requestDiscard.release).queues.get?
        kernel = some q → q.shutdown ≠ none ∧
          q.Unheld (s.updateQueue kernel fun q => q.requestDiscard.release).board := by
      intro q hq
      rw [get?_updateQueue, if_pos rfl, Option.map_eq_some_iff] at hq
      obtain ⟨before, -, rfl⟩ := hq
      have hshutdown : before.requestDiscard.release.shutdown ≠ none := by
        simp [ExecutionQueue.requestDiscard]
      exact ⟨hshutdown, .inr hshutdown, ExecutionQueue.holdsNotice_release _⟩
    have hsettled := settle_queue (P := fun b q => q.shutdown ≠ none ∧ q.Unheld b) hsound'
      (fun hq h hstep => ⟨(ExecutionQueue.shutdown_of_turn
        (ExecutionQueue.turn_of_step hq hstep).1).trans_ne h.1, h.2.step hq hstep⟩)
      hasked queue hqueue
    have hafter : Sound ⟨s.cancel kernel, .resetting finish, []⟩ :=
      (Leads.settle _ _ kernel).sound hsound'
    exact (rests_of_step_eq_none hafter (step_settle _ kernel) hqueue).phase_eq_closed
      hsettled.1 hsettled.2.notice

/-! ## The operations that wait -/

theorem holdsNotice_eq {queue : ExecutionQueue} (h : s.queues.get? kernel = some queue) :
    s.holdsNotice kernel = queue.holdsNotice := by
  unfold holdsNotice
  rw [h]
  rfl

/-- With the backlogs run, every queue is idle. -/
theorem isIdle_releaseAll (hsound : Sound ⟨s, .serving, []⟩)
    (hrest : ∀ kernel, s.step kernel = none) :
    ∀ kernel queue, s.releaseAll.queues.get? kernel = some queue → queue.isIdle = true := by
  intro kernel queue hqueue
  have hfold := ((attends_runBacklog .serving).foldl (s.kernels.filter s.holdsNotice) hsound).2
  have hdone := hfold kernel queue hqueue
  by_cases hmem : kernel ∈ s.kernels.filter s.holdsNotice
  · rwa [if_pos hmem] at hdone
  · rw [if_neg hmem] at hdone
    have hkernel : kernel ∈ s.kernels := NameMap.mem_names_iff.2 (by simp [hdone])
    have hnot : queue.holdsNotice = false := by
      rw [← holdsNotice_eq hdone]
      simpa [hkernel] using hmem
    exact (rests_of_step_eq_none hsound (hrest kernel) hdone).isIdle
      (hsound.wellFormed kernel queue hdone) hnot

theorem settleAll_eq_self (kernels : List String) (h : ∀ kernel, s.step kernel = none) :
    s.settleAll kernels = s := by
  unfold settleAll
  induction kernels with
  | nil => rfl
  | cons kernel rest ih =>
      rw [List.foldl_cons, settle_eq_self (h kernel)]
      exact ih

theorem leads_releaseAll (hsound : Sound ⟨s, .serving, []⟩) : Leads .serving s s.releaseAll :=
  ((attends_runBacklog .serving).foldl (s.kernels.filter s.holdsNotice) hsound).1

theorem settled_releaseAll (hsound : Sound ⟨s, .serving, []⟩)
    (hrest : ∀ kernel, s.step kernel = none) : s.releaseAll.settled = s.releaseAll := by
  have hafter : Sound ⟨s.releaseAll, .serving, []⟩ := (leads_releaseAll hsound).sound hsound
  refine settleAll_eq_self _ fun kernel => step_eq_none_iff.2 fun queue hqueue => ?_
  exact ExecutionQueue.step_eq_none_of_idle (hafter.wellFormed kernel queue hqueue)
    (isIdle_releaseAll hsound hrest kernel queue hqueue)
    (hafter.serving rfl kernel queue hqueue) _

namespace Course

/-- Where the workers are at rest, a wait runs the backlogs that are kept back and
is then ready to visit the queues in the order of their kernels. -/
theorem run_wait {past : List Event} (hsound : Sound ⟨s, .serving, past⟩)
    (hrest : ∀ kernel, s.step kernel = none) :
    ∃ moves : List Move, (∀ m ∈ moves, m ≠ .clear ∧ m ≠ .reset ∧ m ≠ .resetMetrics) ∧
      (run ⟨s, .serving, past⟩ moves).isReady s.releaseAll.kernels = true ∧
        ∃ later, (run ⟨s, .serving, past⟩ moves).play (.wait s.releaseAll.kernels) =
          ⟨s.wait.2, .serving, past ++ later ++ [.waited s.wait.1]⟩ := by
  have hsound' : Sound ⟨s, .serving, []⟩ := (Leads.refl _ s).sound hsound
  obtain ⟨moves, later, hmoves, hrun⟩ := leads_releaseAll hsound'
  have hready : (run ⟨s, .serving, past⟩ moves).isReady s.releaseAll.kernels = true := by
    rw [hrun]
    exact isReady_iff.2 ⟨rfl, isIdle_releaseAll hsound' hrest, .refl _⟩
  refine ⟨moves, hmoves, hready, later, ?_⟩
  rw [wait, settled_releaseAll hsound' hrest]
  rw [hrun] at hready ⊢
  exact if_pos hready

/-- Once a reset has begun, every queue is cancelled and then everything cleared
away. -/
theorem run_cancels {past : List Event} {finish : Option (List Error)}
    (hsound : Sound ⟨s, .resetting finish, past⟩) :
    ∃ moves : List Move, (∀ m ∈ moves, m ≠ .clear ∧ m ≠ .reset ∧ m ≠ .resetMetrics) ∧
      (run ⟨s, .resetting finish, past⟩ moves).isClosed = true ∧
        ∃ later, (run ⟨s, .resetting finish, past⟩ moves).play .clear =
          ⟨s.reset, .serving, past ++ later ++ [.cleared finish]⟩ := by
  have hsound' : Sound ⟨s, .resetting finish, []⟩ := (Leads.refl _ s).sound hsound
  obtain ⟨hleads, hdone⟩ := (attends_cancel finish).foldl s.kernels hsound'
  obtain ⟨moves, later, hmoves, hrun⟩ := hleads
  have hclosed : (run ⟨s, .resetting finish, past⟩ moves).isClosed = true := by
    rw [hrun]
    apply isClosed_iff.2
    intro kernel queue hqueue
    have hqueue' := hdone kernel queue hqueue
    by_cases hmem : kernel ∈ s.kernels
    · rwa [if_pos hmem] at hqueue'
    · rw [if_neg hmem] at hqueue'
      exact absurd (NameMap.mem_names_iff.2 (by simp [hqueue'])) hmem
  refine ⟨moves, hmoves, hclosed, later, ?_⟩
  rw [hrun] at hclosed ⊢
  exact play_clear rfl hclosed

theorem run_reset {past : List Event} (hsound : Sound ⟨s, .serving, past⟩) :
    ∃ moves : List Move, (∀ m ∈ moves, m ≠ .clear ∧ m ≠ .reset ∧ m ≠ .resetMetrics) ∧
      ∃ later, run ⟨s, .serving, past⟩ (.reset :: moves ++ [.clear]) =
        ⟨s.reset, .serving, past ++ later ++ [.cleared none]⟩ := by
  obtain ⟨moves, hmoves, -, later, hclear⟩ := run_cancels (hsound.play .reset)
  refine ⟨moves, hmoves, later, ?_⟩
  rw [run_append]
  exact hclear

/-- A finish is a wait and a reset without a return in between. -/
theorem run_finish {past : List Event} (hsound : Sound ⟨s, .serving, past⟩)
    (hrest : ∀ kernel, s.step kernel = none) :
    ∃ moves moves' : List Move,
      (∀ m ∈ moves ++ moves', m ≠ .clear ∧ m ≠ .reset ∧ m ≠ .resetMetrics) ∧
        ∃ later, run ⟨s, .serving, past⟩
            (moves ++ .finish s.releaseAll.kernels :: moves' ++ [.clear]) =
          ⟨s.finish.2, .serving, past ++ later ++ [.cleared (some s.finish.1)]⟩ := by
  obtain ⟨moves, hmoves, hready, later, hwait⟩ := run_wait hsound hrest
  have hbegun : (run ⟨s, .serving, past⟩ moves).play (.finish s.releaseAll.kernels) =
      ⟨s.wait.2, .resetting (some s.wait.1), past ++ later ++ [.waited s.wait.1]⟩ := by
    rw [play_wait hready, collected, mk.injEq] at hwait
    obtain ⟨hscheduler, -, hpast⟩ := hwait
    have hreports : (run ⟨s, .serving, past⟩ moves).reports s.releaseAll.kernels = s.wait.1 := by
      simpa using (List.append_inj' hpast rfl).2
    rw [play_finish hready, collected, hscheduler, hpast, hreports]
  have hsound' := (hsound.run moves).play (.finish s.releaseAll.kernels)
  rw [hbegun] at hsound'
  obtain ⟨moves', hmoves', -, later', hclear⟩ := run_cancels hsound'
  refine ⟨moves, moves', fun m hm => ?_, later ++ .waited s.wait.1 :: later', ?_⟩
  · rcases List.mem_append.1 hm with hm | hm
    · exact hmoves m hm
    · exact hmoves' m hm
  · have hrun : run ⟨s, .serving, past⟩
        (moves ++ .finish s.releaseAll.kernels :: moves' ++ [.clear]) =
      (run ((run ⟨s, .serving, past⟩ moves).play (.finish s.releaseAll.kernels)) moves').play
        .clear := by
      rw [run_append, run_append]
      rfl
    rw [hrun, hbegun, hclear, finish]
    simp

end Course

end KernelDispatch.Scheduler
