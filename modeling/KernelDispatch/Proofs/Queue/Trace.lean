import KernelDispatch.Proofs.Queue.Likeness

/-!
# What a queue leaves on the device

A launch leaves an execution on the device unless the device itself faults it, and it
does so before anyone is told how the launch has ended. The worker completes the task
when the launch is reported as a success, and stops when it is not. So the executions of
a queue are those of the tasks that it has completed, and there may be one more: that of
the task in flight, or of the task on which the worker has stopped, because the success
of its launch was reported as something else.

## Main definitions

* `Execution.Runs` — a launch of a task, as the device saw it.
* `ExecutionQueue.Awaits` — the executions that no completed task accounts for yet.
* `ExecutionQueue.Settles` — what a step does to them.

## Main results

* `Board.launches_of_launch` — what a launch leaves on the device.
* `ExecutionQueue.settles_of_step` — what a step leaves there.
-/

namespace KernelDispatch

/-! ## Launches -/

/-- A launch of a task, as the device saw it. -/
structure Execution.Runs (e : Execution) (t : Task) : Prop where
  program : t.configuration = some e.program
  entryPoint : e.entryPoint = t.recipe.entryPoint.getD t.kernel
  args : e.args = t.recipe.args
  workItems : e.workItems = t.workItems
  ordered : e.started ≤ e.finished

/-- How long an execution took. -/
def Execution.span (e : Execution) : Nat := e.finished - e.started

/-- A kernel names its program and its entry point, and has the arguments of its task. -/
theorem Task.eq_of_kernelFor {t : Task} {p : Program} {kernel : Kernel}
    (h : t.kernelFor p = .ok kernel) :
    kernel = ⟨p.name, t.recipe.entryPoint.getD t.kernel, t.recipe.args⟩ := by
  unfold kernelFor at h
  split at h
  · simp at h
  · unfold Program.compile at h
    split at h
    · simpa [Except.map, Kernel.bind] using h.symm
    · simp [Except.map] at h

namespace Board

variable {b b' : Board} {queue : Nat} {closing : Bool} {program : String} {t : Task}
  {notice : Notice}

/-- What is left on the device by a launch of a task, and what is told of it. -/
inductive Launches (b : Board) (queue : Nat) (t : Task) (notice : Notice) (b' : Board) :
    Prop where
  /-- The device faults the launch. -/
  | faults (hlog : b'.device.log = b.device.log) (hending : notice.ending ≠ .complete)
  | runs {e : Execution} (hlog : b'.device.log = b.device.log ++ [e]) (hqueue : e.queue = queue)
      (hruns : e.Runs t) (hending : notice.ending = t.recipe.reported .complete)
      (hspan : notice.span = e.span + t.recipe.jitter)

theorem launches_of_submit {kernel : Kernel}
    (hkernel : kernel = ⟨program, t.recipe.entryPoint.getD t.kernel, t.recipe.args⟩)
    (h : b.submit queue closing t kernel = .ok (notice, b')) :
    b.Launches queue { t with configuration := some program } notice b' := by
  subst hkernel
  unfold submit at h
  split at h
  · simp at h
  · simp at h
  · simp only [Except.ok.injEq, Prod.mk.injEq] at h
    obtain ⟨rfl, rfl⟩ := h
    let l := b.device.bind queue
      ⟨program, t.recipe.entryPoint.getD t.kernel, t.recipe.args⟩ t.workItems
    cases hfaults : l.faults with
    | true =>
        refine .faults (b.device.log_perform_of_faults hfaults) ?_
        show t.recipe.reported l.ending ≠ .complete
        rw [Launch.ending_of_faults hfaults]
        simp [Recipe.reported]
    | false =>
        refine .runs (e := l.execution (b.device.clock queue))
          (b.device.log_perform_of_runs hfaults) rfl
          ⟨rfl, rfl, rfl, rfl, Nat.le_add_right _ _⟩ ?_ ?_
        · show t.recipe.reported l.ending = _
          rw [Launch.ending_of_runs hfaults]
        · show l.span + t.recipe.jitter = _
          rw [Execution.span, Launch.execution, Nat.add_sub_cancel_left]

/-- A launch that is refused leaves nothing on the device. -/
theorem device_of_refused {e : Error} (h : b.launch queue closing program t = (.error e, b')) :
    b'.device = b.device := by
  have hmaterialize := device_materialize b program t
  unfold launch at h
  split at h
  · rename_i hmade
    rw [hmade] at hmaterialize
    rw [← (Prod.mk.inj h).2]
    exact hmaterialize
  · rename_i hmade
    rw [hmade] at hmaterialize
    split at h
    · rw [← (Prod.mk.inj h).2]
      exact hmaterialize
    · simp at h

theorem launches_of_launch (hb : b.Faithful) (htitled : b.Titled)
    (h : b.launch queue closing program t = (.ok notice, b')) :
    b.Launches queue { t with configuration := some program } notice b' := by
  have hmade := materialize_fst hb program t
  have hdevice := device_materialize b program t
  unfold launch at h
  split at h
  · simp at h
  · rename_i kernel board hmaterialize
    rw [hmaterialize] at hmade hdevice
    have hkernel : kernel = ⟨program, t.recipe.entryPoint.getD t.kernel, t.recipe.args⟩ := by
      cases hget : b.programs.get? program with
      | none => simp [hget] at hmade
      | some p =>
          rw [hget] at hmade
          rw [Task.eq_of_kernelFor hmade.symm, htitled program p hget]
    split at h
    · simp at h
    · rename_i hsubmit
      simp only [Prod.mk.injEq, Except.ok.injEq] at h
      obtain ⟨rfl, rfl⟩ := h
      have hlaunches := launches_of_submit hkernel hsubmit
      dsimp only at hdevice
      cases hlaunches with
      | faults hlog hending => exact .faults (hlog.trans (congrArg Device.log hdevice)) hending
      | runs hlog hqueue hruns hending hspan =>
          exact .runs (by rw [hlog, hdevice]) hqueue hruns hending hspan

/-- Whatever a launch leaves on the device is of its queue. -/
theorem log_of_launch (hb : b.Faithful) (htitled : b.Titled) (queue : Nat) (closing : Bool)
    (program : String) (t : Task) :
    ∃ logged, (b.launch queue closing program t).2.device.log = b.device.log ++ logged ∧
      ∀ e ∈ logged, e.queue = queue := by
  cases hlaunch : b.launch queue closing program t with
  | mk answer b' =>
      cases answer with
      | error e =>
          exact ⟨[], by rw [device_of_refused hlaunch, List.append_nil], by simp⟩
      | ok notice =>
          cases launches_of_launch hb htitled hlaunch with
          | faults hlog => exact ⟨[], by rw [hlog, List.append_nil], by simp⟩
          | @runs e hlog hqueue => exact ⟨[e], hlog, by simpa using hqueue⟩

end Board

/-! ## Executions that are not accounted for -/

/-- An execution at most, of a task whose success was reported as something else. -/
def Spoilt (t : Task) (extra : List Execution) : Prop :=
  extra = [] ∨ ∃ e, extra = [e] ∧ e.Runs t ∧ t.recipe.reported .complete ≠ .complete

namespace ExecutionQueue

variable {q q' : ExecutionQueue} {b b' : Board} {done : Option Task} {extra : List Execution}

/-- The executions of a queue that no completed task accounts for yet: none, or that of
the task in flight. There is one if the launch is going to be reported as a success. -/
def Awaits (q : ExecutionQueue) (extra : List Execution) : Prop :=
  match q.hand with
  | .launched t notice =>
      extra = [] ∧ notice.ending ≠ .complete ∨
        ∃ e, extra = [e] ∧ e.Runs t ∧ notice.ending = t.recipe.reported .complete ∧
          notice.span = e.span + t.recipe.jitter
  | _ => extra = []

/-- What a step of the worker does to these executions. -/
inductive Settles (q q' : ExecutionQueue) (extra : List Execution) :
    List Execution → Option Task → Prop where
  /-- They are still to be accounted for, with those that the step has left. -/
  | goes {logged : List Execution} (hfault : q'.fault = none)
      (hawaits : q'.Awaits (extra ++ logged)) : Settles q q' extra logged none
  | completes {t : Task} {e : Execution} (hextra : extra = [e]) (hruns : e.Runs t)
      (hduration : t.duration = some (e.span + t.recipe.jitter)) (hfault : q'.fault = none)
      (hawaits : q'.Awaits []) : Settles q q' extra [] (some t)
  /-- The worker has stopped. -/
  | stops {t : Task} (hdeed : q.deed q' = .faults t q.pending) (hfault : q'.fault ≠ none)
      (hspoilt : Spoilt t extra) : Settles q q' extra [] none

/-- A launch whose report is a success has run. -/
theorem Awaits.complete {t : Task} {notice : Notice} (h : q.Awaits extra)
    (hhand : q.hand = .launched t notice) (hending : notice.ending = .complete) :
    ∃ e, extra = [e] ∧ e.Runs t ∧ notice.span = e.span + t.recipe.jitter := by
  unfold Awaits at h
  rw [hhand] at h
  rcases h with ⟨-, hnot⟩ | ⟨e, hextra, hruns, -, hspan⟩
  · exact absurd hending hnot
  · exact ⟨e, hextra, hruns, hspan⟩

/-- A launch whose report is something else may have run. -/
theorem Awaits.spoilt {t : Task} {notice : Notice} (h : q.Awaits extra)
    (hhand : q.hand = .launched t notice) (hending : notice.ending ≠ .complete) :
    Spoilt t extra := by
  unfold Awaits at h
  rw [hhand] at h
  rcases h with ⟨hextra, -⟩ | ⟨e, hextra, hruns, hreported, -⟩
  · exact .inl hextra
  · exact .inr ⟨e, hextra, hruns, hreported ▸ hending⟩

/-- The launch of a task that was taken. -/
theorem settles_of_taken {task : Task} {program : String} (hb : b.Faithful)
    (htitled : b.Titled) (hq : q.WellFormed) (hhand : q.hand = .taken task program)
    (hstep : q.step b = some (b', q', done)) :
    ∃ logged, b'.device.log = b.device.log ++ logged ∧
      (∀ e ∈ logged, e.queue = q.deviceQueue) ∧ Settles q q' [] logged done := by
  have hphase : q.phase = .dispatching := by
    have hfits := hq.fits
    rwa [hhand] at hfits
  unfold step at hstep
  rw [if_neg (by simp [hphase]), hhand] at hstep
  dsimp only at hstep
  split at hstep
  · rename_i e board hlaunch
    obtain ⟨rfl, rfl, rfl⟩ : board = b' ∧ q.fail e = q' ∧ none = done := by simpa using hstep
    refine ⟨[], ?_, by simp, .stops (t := task) ?_ (by simp) (.inl rfl)⟩
    · rw [Board.device_of_refused hlaunch, List.append_nil]
    · simp [deed, hhand]
  · rename_i notice board hlaunch
    rw [signal_of_on .inFlight (by simp [hphase, Phase.on])] at hstep
    simp only [Option.some.injEq, Prod.mk.injEq] at hstep
    obtain ⟨rfl, rfl, rfl⟩ := hstep
    have hfault := (hq.unharmed (by simp [hphase])).2
    cases Board.launches_of_launch hb htitled hlaunch with
    | faults hlog hending =>
        exact ⟨[], by rw [hlog, List.append_nil], by simp, .goes hfault (.inl ⟨rfl, hending⟩)⟩
    | @runs e hlog hqueue hruns hending hspan =>
        exact ⟨[e], hlog, by simpa using hqueue,
          .goes hfault (.inr ⟨e, rfl, hruns, hending, hspan⟩)⟩

/-- The end of a launch. -/
theorem settles_of_launched {task : Task} {notice : Notice} (hq : q.WellFormed)
    (hhand : q.hand = .launched task notice) (hawaits : q.Awaits extra)
    (hstep : q.step b = some (b', q', done)) : b' = b ∧ Settles q q' extra [] done := by
  have hphase : q.phase = .inFlight := by
    have hfits := hq.fits
    rwa [hhand] at hfits
  have hfault := (hq.unharmed (by simp [hphase])).2
  unfold step at hstep
  rw [if_neg (by simp [hphase]), hhand] at hstep
  dsimp only at hstep
  split at hstep
  · simp at hstep
  · split at hstep
    · rename_i e hend
      obtain ⟨rfl, rfl, rfl⟩ : b = b' ∧ q.fail e = q' ∧ none = done := by simpa using hstep
      have hending : notice.ending ≠ .complete := by
        intro hcomplete
        simp [hcomplete, Ending.await] at hend
      exact ⟨rfl, .stops (t := task) (by simp [deed, hhand]) (by simp)
        (hawaits.spoilt hhand hending)⟩
    · rename_i hend
      have hending : notice.ending = .complete := by
        cases hcases : notice.ending <;> simp [hcases, Ending.await] at hend ⊢
      rw [signal_of_on .completing (by simp [hphase, Phase.on])] at hstep
      simp only [Option.some.injEq, Prod.mk.injEq] at hstep
      obtain ⟨rfl, rfl, rfl⟩ := hstep
      obtain ⟨e, hextra, hruns, hspan⟩ := hawaits.complete hhand hending
      refine ⟨rfl, .completes hextra ?_ (congrArg some hspan) hfault rfl⟩
      exact ⟨hruns.program, hruns.entryPoint, hruns.args, hruns.workItems, hruns.ordered⟩

/-- A worker that has no task to launch or to wait for does nothing on the device. -/
theorem settles_of_unreported (hq : q.WellFormed) (hhand : q.hand.unreported? = none)
    (hstep : q.step b = some (b', q', done)) : b' = b ∧ Settles q q' [] [] done := by
  obtain ⟨hturn, hdone⟩ := turn_of_step hq hstep
  have hboard : b' = b := by
    unfold step at hstep
    split at hstep
    · simp at hstep
    · split at hstep
      · obtain ⟨next, -, heq⟩ := Option.map_eq_some_iff.1 hstep
        exact (Prod.mk.inj heq).1.symm
      · rename_i htaken
        simp [htaken] at hhand
      · rename_i hlaunched
        simp [hlaunched] at hhand
      · simp only [Option.some.injEq, Prod.mk.injEq] at hstep
        exact hstep.1.symm
  refine ⟨hboard, ?_⟩
  rw [hdone]
  generalize q.deed q' = d at hturn
  cases hturn with
  | takes _ hphase => exact .goes (hq.unharmed (by simp [hphase])).2 rfl
  | launches htaken => simp [htaken] at hhand
  | reports hlaunched => simp [hlaunched] at hhand
  | returns _ hphase => exact .goes (hq.unharmed (by simp [hphase])).2 rfl
  | closes hempty hphase =>
      refine .goes (hq.unharmed (by simp [hphase])).2 ?_
      unfold Awaits
      rw [hempty]
      rfl
  | faults htask => simp [htask] at hhand

/-- What a step leaves on the device, and what becomes of the executions that are not
accounted for. -/
theorem settles_of_step (hb : b.Faithful) (htitled : b.Titled) (hq : q.WellFormed)
    (hawaits : q.Awaits extra) (hstep : q.step b = some (b', q', done)) :
    ∃ logged, b'.device.log = b.device.log ++ logged ∧
      (∀ e ∈ logged, e.queue = q.deviceQueue) ∧ Settles q q' extra logged done := by
  have hquiet : b' = b ∧ Settles q q' extra [] done →
      ∃ logged, b'.device.log = b.device.log ++ logged ∧
        (∀ e ∈ logged, e.queue = q.deviceQueue) ∧ Settles q q' extra logged done := by
    rintro ⟨rfl, hsettles⟩
    exact ⟨[], (List.append_nil _).symm, by simp, hsettles⟩
  have hnone := hawaits
  unfold Awaits at hnone
  cases hhand : q.hand with
  | launched task notice => exact hquiet (settles_of_launched hq hhand hawaits hstep)
  | taken task program =>
      rw [hhand] at hnone
      rw [hnone]
      exact settles_of_taken hb htitled hq hhand hstep
  | empty =>
      rw [hhand] at hnone
      rw [hnone] at hquiet ⊢
      exact hquiet (settles_of_unreported hq (by rw [hhand]; rfl) hstep)
  | reporting task =>
      rw [hhand] at hnone
      rw [hnone] at hquiet ⊢
      exact hquiet (settles_of_unreported hq (by rw [hhand]; rfl) hstep)

theorem log_of_step (hb : b.Faithful) (htitled : b.Titled)
    (hstep : q.step b = some (b', q', done)) :
    ∃ logged, b'.device.log = b.device.log ++ logged ∧ ∀ e ∈ logged, e.queue = q.deviceQueue := by
  rcases board_of_step hstep with rfl | ⟨closing, program, task, rfl⟩
  · exact ⟨[], (List.append_nil _).symm, by simp⟩
  · exact Board.log_of_launch hb htitled _ closing program task

/-- A queue that a fault has stopped takes no step. -/
theorem fault_of_step (hq : q.WellFormed) (hstep : q.step b = some (b', q', done)) :
    q.fault = none := by
  unfold step at hstep
  split at hstep
  · simp at hstep
  · rename_i hopen
    exact (hq.unharmed hopen).2

/-! ## Queues that no worker moves -/

theorem Awaits.release (h : q.Awaits extra) : q.release.Awaits extra := by
  unfold ExecutionQueue.release
  cases hhand : q.hand with
  | launched task notice =>
      unfold Awaits at h ⊢
      rw [hhand] at h
      exact h
  | _ => exact h

end ExecutionQueue

end KernelDispatch
