import KernelDispatch.Proofs.Queue.Course

/-!
# What runs on a bench

On a bench the worker steps until it is at rest, and the callback reacts to a
completion before the worker goes on. Every operation there is a course of the
queue, so its tasks are accounted for as on any course. The callback notes the
tasks that were reported on that course, each of them once and in their order.

## Main results

* `Bench.Leads` — a course from one bench to another, with what was noted on it.
* `Bench.leads_settle` — the worker at rest.
* `Bench.leads_enqueue`, `Bench.leads_finish`, and so on — the operations.
-/

namespace KernelDispatch

namespace Bench

open ExecutionQueue (Course Event Move met)

variable {b b' b'' : Bench}

/-- The completed tasks among the notes. -/
def noted (notes : List Note) : List Task :=
  notes.filterMap fun note =>
    match note with
    | .completed task => some task
    | .followUp _ => none

/-- A course of the queue leads from one bench to another, and the callback has
noted what was reported on it. -/
def Leads (b b' : Bench) : Prop :=
  ∃ (moves : List Move) (later : List Event),
    (∀ past, Course.run ⟨b.queue, past⟩ moves = ⟨b'.queue, past ++ later⟩) ∧
      noted b'.notes = noted b.notes ++ met .reported later ∧
        b'.reported = b.reported + (met .reported later).length

namespace Leads

/-- The callback is not called. -/
theorem of_same (hqueue : b'.queue = b.queue) (hnotes : noted b'.notes = noted b.notes)
    (hreported : b'.reported = b.reported) : Leads b b' :=
  ⟨[], [], by simp [Course.run, hqueue], by simp [hnotes, met], by simp [hreported, met]⟩

theorem refl (b : Bench) : Leads b b := of_same rfl rfl rfl

theorem trans (h : Leads b b') (h' : Leads b' b'') : Leads b b'' := by
  obtain ⟨moves, later, hrun, hnotes, hreported⟩ := h
  obtain ⟨moves', later', hrun', hnotes', hreported'⟩ := h'
  have hmet : met .reported (later ++ later') = met .reported later ++ met .reported later' :=
    List.flatMap_append
  refine ⟨moves ++ moves', later ++ later', fun past => ?_, ?_, ?_⟩
  · rw [Course.run_append, hrun, hrun', List.append_assoc]
  · rw [hnotes', hnotes, hmet, List.append_assoc]
  · rw [hreported', hreported, hmet, List.length_append, Nat.add_assoc]

/-- A client's call that is not seen. -/
theorem of_play (m : Move) (h : ∀ past, Course.play ⟨b.queue, past⟩ m = ⟨b'.queue, past⟩)
    (hnotes : noted b'.notes = noted b.notes) (hreported : b'.reported = b.reported) :
    Leads b b' := by
  refine ⟨[m], [], fun past => ?_, by simp [hnotes, met], by simp [hreported, met]⟩
  rw [List.append_nil]
  exact h past

theorem wellFormed (h : Leads b b') (hq : b.queue.WellFormed) : b'.queue.WellFormed := by
  obtain ⟨moves, later, hrun, -⟩ := h
  have hafter := Course.wellFormed_run (c := ⟨b.queue, []⟩) hq moves
  rwa [hrun] at hafter

end Leads

/-! ## The worker and the callback -/

/-- What the callback does about a completion is what any client may do. -/
theorem leads_react (b : Bench) (r : Reaction) : Leads b (b.react r) := by
  cases r with
  | panics => exact .refl b
  | enqueues task =>
      simp only [react]
      split
      · rename_i queue hok
        refine ⟨[.enqueue task], [.accepted task], fun past => ?_, ?_, by simp [met, Event.tasks]⟩
        · simp only [Course.run, List.foldl, Course.play, hok]
        · simp [noted, met, Event.tasks]
      · rename_i e hrefused
        refine ⟨[.enqueue task], [.refused task], fun past => ?_, ?_, by simp [met, Event.tasks]⟩
        · simp only [Course.run, List.foldl, Course.play, hrefused]
        · simp [noted, met, Event.tasks]
  | abandons => exact .of_play .cancel (fun _ => rfl) rfl rfl

theorem leads_step (hq : b.queue.WellFormed) (h : b.step = some b') : Leads b b' := by
  have hmet : ∀ {queue done}, done = (b.queue.deed queue).reported? →
      met .reported [.worked (b.queue.deed queue)] = done.toList := by
    rintro queue done rfl
    simp [met, Event.tasks, ExecutionQueue.tasks_reported]
  unfold step at h
  split at h
  · simp at h
  · rename_i board queue hstep
    rw [← Option.some.inj h]
    have hdone := hmet (ExecutionQueue.turn_of_step hq hstep).2
    refine ⟨[.work b.board], [.worked (b.queue.deed queue)], fun past => ?_, ?_, ?_⟩
    · simp only [Course.run, List.foldl, Course.play, hstep]
    · simp [hdone]
    · simp [hdone]
  · rename_i board queue task hstep
    rw [← Option.some.inj h]
    have hdone := hmet (ExecutionQueue.turn_of_step hq hstep).2
    have htold : Leads b { b with
        board, queue, reported := b.reported + 1, notes := b.notes ++ [.completed task] } := by
      refine ⟨[.work b.board], [.worked (b.queue.deed queue)], fun past => ?_, ?_, ?_⟩
      · simp only [Course.run, List.foldl, Course.play, hstep]
      · simp [hdone, noted]
      · simp [hdone]
    unfold complete
    split
    · exact htold
    · exact htold.trans (leads_react _ _)

theorem leads_settle (hq : b.queue.WellFormed) : Leads b b.settle := by
  induction b using settle.induct with
  | case1 b hnone =>
      rw [settle.eq_def]
      split
      · exact .refl b
      · rename_i hsome
        simp [hnone] at hsome
  | case2 b next hnext ih =>
      rw [settle.eq_def]
      split
      · exact .refl b
      · rename_i next' hnext'
        rw [hnext, Option.some.injEq] at hnext'
        rw [← hnext']
        have hfirst := leads_step hq hnext
        exact hfirst.trans (ih (hfirst.wellFormed hq))

theorem leads_settleWith {queue : ExecutionQueue} (hq : b.queue.WellFormed)
    (h : Leads b { b with queue }) : Leads b (b.settleWith queue) :=
  h.trans (leads_settle (h.wellFormed hq))

/-! ## Operations -/

/-- A new bench has a new queue and nothing noted. -/
theorem of_start {board : Board} {kernel program : String} {plan : List (Nat × Reaction)}
    (h : start board kernel program plan = .ok b) :
    ∃ number, b.queue = .start kernel number program ∧ b.notes = [] ∧ b.reported = 0 := by
  unfold start at h
  cases hqueue : board.device.createQueue with
  | error e => simp [hqueue, Except.map] at h
  | ok made =>
      rw [hqueue] at h
      refine ⟨made.1, ?_⟩
      rw [← Except.ok.inj h]
      exact ⟨rfl, rfl, rfl⟩

theorem leads_enqueue (hq : b.queue.WellFormed) (t : Task) : Leads b (b.enqueue t).2 := by
  unfold enqueue
  split
  · rename_i queue hok
    refine leads_settleWith hq
      ⟨[.enqueue t], [.accepted t], fun past => ?_, by simp [met, Event.tasks],
        by simp [met, Event.tasks]⟩
    simp only [Course.run, List.foldl, Course.play, hok]
  · exact .refl b

theorem leads_setProgram (b : Bench) (program : String) : Leads b (b.setProgram program) :=
  .of_play (.setProgram program) (fun _ => rfl) rfl rfl

theorem leads_release (hq : b.queue.WellFormed) : Leads b b.release.2 :=
  leads_settleWith hq (.of_play .release (fun _ => rfl) rfl rfl)

theorem leads_runBacklog (hq : b.queue.WellFormed) : Leads b b.runBacklog := by
  have hheld : Leads b (b.hold false) := .of_same rfl rfl rfl
  have hlet : Leads (b.hold false) { b.hold false with queue := b.queue.release } :=
    .of_play .release (fun _ => rfl) rfl rfl
  have hrun := leads_settleWith (hheld.wellFormed hq) hlet
  exact (hheld.trans hrun).trans (.of_same rfl rfl rfl)

theorem leads_finish (hq : b.queue.WellFormed) : Leads b b.finish := by
  have hasked : Leads b { b with queue := b.queue.requestDrain } :=
    .of_play .finish (fun _ => rfl) rfl rfl
  exact leads_settleWith hq (hasked.trans (.of_play .release (fun _ => rfl) rfl rfl))

theorem leads_cancel (hq : b.queue.WellFormed) : Leads b b.cancel.2 := by
  have hasked : Leads b { b with queue := b.queue.requestDiscard } :=
    .of_play .cancel (fun _ => rfl) rfl rfl
  exact leads_settleWith hq (hasked.trans (.of_play .release (fun _ => rfl) rfl rfl))

theorem leads_drop (hq : b.queue.WellFormed) : Leads b b.drop :=
  (leads_cancel hq).trans (.of_same rfl rfl rfl)

/-- Whatever leads to a bench from a new one, its queue keeps account of the tasks,
and the callback has noted those that it was given. -/
theorem accounted_of_leads {kernel program : String} {deviceQueue : Nat}
    (hqueue : b.queue = .start kernel deviceQueue program) (hnotes : b.notes = [])
    (h : Leads b b') :
    ∃ c : Course, c.queue = b'.queue ∧ c.Accounted ∧ noted b'.notes = met .reported c.past := by
  obtain ⟨moves, later, hrun, hnoted, -⟩ := h
  have hcourse : Course.ofNew kernel deviceQueue program moves = ⟨b'.queue, later⟩ := by
    rw [Course.ofNew, ← hqueue]
    exact hrun []
  refine ⟨⟨b'.queue, later⟩, rfl, ?_, ?_⟩
  · rw [← hcourse]
    exact Course.accounted_of_kept (Course.kept_ofNew kernel deviceQueue program moves)
  · rw [hnoted, hnotes]
    rfl

end Bench

end KernelDispatch
