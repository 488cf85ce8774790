import KernelDispatch.Proofs.Directory
import KernelDispatch.Proofs.Scheduler.Lane

/-!
# Kernels do not interfere

The tasks of one kernel fare as if those of all other kernels had never been offered.
A course is compared with one in which only what concerns this kernel is done: the
tasks of others are not offered, their workers do not step, and a call that waits
visits no queue but the one of this kernel. What is seen of the kernel is the same in
both but for the numbers of its tasks, and so is everything that its models answer.

There is one way around. Measurements are written to a log, and the log may lie where
images are kept. A configuration that is loaded from the log depends on the tasks of
all kernels.

## Main definitions

* `Course.alone` — the moves that concern one kernel.
* `Event.of` — what is seen of one kernel.
* `Blueprint.logsTo` — a log that is kept where an image is read.

## Main results

* `Beside.play` — one move, and what is left of it for one kernel.
* `Course.undisturbed` — what follows for every course.
* `Course.disturbed_by_log` — a course with a log that is loaded.
-/

namespace KernelDispatch

/-- Whether measurements are written to the file that the image of a name is read
from. -/
def Blueprint.logsTo (p : Blueprint) (d : Directory) (name : String) : Prop :=
  ∃ log file, .logs log ∈ p.observers ++ settingsObservers p.settings ∧
    d.locate? log = some (.file file) ∧ d.locate? (p.settings.imagePath name) = some (.file file)

namespace Telling

variable {observers : List Observer}

theorem path_foldl_write (told : List Telling) (d : Directory) :
    (told.foldl write d).path = d.path := by
  induction told generalizing d with
  | nil => rfl
  | cons t told ih =>
      rw [List.foldl_cons, ih, write]
      split
      · exact Directory.path_append _ _ _
      · rfl

/-- Observers write to their logs, and to no other file. -/
theorem read?_foldl_write {told : List Telling} {d : Directory} {path : String}
    (htold : ∀ t ∈ told, t.observer ∈ observers)
    (hlogs : ∀ log, .logs log ∈ observers → ∀ file, d.locate? log = some (.file file) →
      d.locate? path ≠ some (.file file)) : (told.foldl write d).read? path = d.read? path := by
  induction told generalizing d with
  | nil => rfl
  | cons t told ih =>
      have hrest : ∀ t ∈ told, t.observer ∈ observers := fun t ht =>
        htold t (List.mem_cons_of_mem _ ht)
      rw [List.foldl_cons]
      unfold write at ih ⊢
      split
      · rename_i log hlog
        have hplace := Directory.locate?_congr
          (Directory.path_append d log (MeasurementLog.lineOf t.record).toUTF8)
        have hafter := ih hrest (d := MeasurementLog.append d log t.record) (by
          intro other hother file
          show Directory.locate? (d.append _ _) other = _ →
            Directory.locate? (d.append _ _) path ≠ _
          rw [hplace, hplace]
          exact hlogs other hother file)
        exact hafter.trans
          (Directory.read?_append (hlogs log (hlog ▸ htold t List.mem_cons_self)) _)
      · exact ih hrest hlogs

end Telling

namespace Books

variable {path : String} {b : Books}

theorem path_conclude (b : Books) (t : Task) :
    (b.conclude t).2.directory.path = b.directory.path := by
  rw [(b.informed_conclude t).2.2, Telling.path_foldl_write]

theorem read?_conclude (t : Task)
    (hlogs : ∀ log, .logs log ∈ b.observers → ∀ file,
      b.directory.locate? log = some (.file file) →
        b.directory.locate? path ≠ some (.file file)) :
    (b.conclude t).2.directory.read? path = b.directory.read? path := by
  rw [(b.informed_conclude t).2.2]
  exact Telling.read?_foldl_write (fun _ => observer_mem_of_mem_tellings) hlogs

end Books

namespace Scheduler

variable {c c' : Course} {m : Move}

/-- The files that images are read from are what they were at the start, but for those
that measurements are written to. -/
structure Reads (p : Blueprint) (d : Directory) (c : Course) : Prop where
  fixed : Fixed p c
  path : c.scheduler.books.directory.path = d.path
  image : ∀ name, ¬ p.logsTo d name →
    c.scheduler.imageOf name = d.read? (p.settings.imagePath name)

namespace Reads

variable {p : Blueprint} {d : Directory}

theorem play (h : Reads p d c) (m : Move) : Reads p d (c.play m) := by
  have hfixed : Fixed p (c.play m) :=
    ⟨(Fixed.settings_play c m).trans h.fixed.settings,
      (Fixed.observers_play c m).trans h.fixed.observers⟩
  have hsame : (c.play m).scheduler.books.directory = c.scheduler.books.directory →
      Reads p d (c.play m) := by
    intro hdirectory
    refine ⟨hfixed, by rw [hdirectory, h.path], fun name hname => ?_⟩
    rw [← h.image name hname, imageOf, imageOf, hdirectory, Fixed.settings_play]
  have hother : (∀ kernel, m ≠ .work kernel) → m ≠ .clear → Reads p d (c.play m) :=
    fun hwork hclear => hsame (quiet_play c hwork hclear).directory
  cases m with
  | work kernel =>
      rcases play_work_cases c kernel with hplay | ⟨queue, next, board, done, hqueue, hstep⟩
      · exact hsame (by rw [hplay])
      · rw [play_work hqueue hstep] at hsame hfixed ⊢
        cases done with
        | none => exact hsame rfl
        | some t =>
            refine ⟨hfixed, (Books.path_conclude _ t).trans h.path, fun name hname => ?_⟩
            rw [← h.image name hname]
            refine Books.read?_conclude t fun log hlog file => ?_
            rw [Directory.locate?_congr h.path, Directory.locate?_congr h.path,
              hfixed.settings]
            intro hfile hplace
            exact hname ⟨log, file, h.fixed.observers ▸ hlog, hfile, hplace⟩
  | clear =>
      apply hsame
      simp only [Course.play]
      split
      · rfl
      · split <;> rfl
  | _ => exact hother (by simp) (by simp)

theorem run (h : Reads p d c) (moves : List Move) : Reads p d (c.run moves) := by
  induction moves generalizing c with
  | nil => exact h
  | cons m moves ih => exact ih (h.play m)

theorem assemble (p : Blueprint) (device : Device) (d : Directory) :
    Reads p d { scheduler := p.assemble device d } := ⟨⟨rfl, rfl⟩, rfl, fun _ _ => rfl⟩

end Reads

/-! ## What concerns one kernel -/

/-- What is left of a move when only the tasks of one kernel are offered. -/
def Move.only (kernel : String) : Move → Option Move
  | .addTask task => if task.kernel = kernel then some (.addTask task) else none
  | .wait visit => some (.wait (visit.filter (· = kernel)))
  | .finish visit => some (.finish (visit.filter (· = kernel)))
  | .work other => if other = kernel then some (.work other) else none
  | .cancel other => if other = kernel then some (.cancel other) else none
  | .release other => if other = kernel then some (.release other) else none
  | m => some m

namespace Course

/-- Whether a call that waits for the queues can go on, if the move is one. -/
def allows (c : Course) : Move → Bool
  | .wait visit | .finish visit => c.isReady visit
  | .clear => c.isClosed
  | _ => true

/-- What is left of a move when only the tasks of one kernel are offered. A call that
waits goes on where it goes on with the tasks of all kernels. -/
def part (kernel : String) (c : Course) (m : Move) : List Move :=
  if c.allows m then (m.only kernel).toList else []

/-- What is left of these moves. -/
def alone (kernel : String) (c : Course) : List Move → List Move
  | [] => []
  | m :: moves => c.part kernel m ++ alone kernel (c.play m) moves

/-- The answer to those who offer a task of a kernel by a move, but for the number of
the task. -/
def answerOn (kernel : String) (c : Course) : Move → List (Result Unit)
  | .addTask task =>
      if task.kernel = kernel ∧ c.serves then [(c.scheduler.addTask task).1.map fun _ => ()]
      else []
  | _ => []

/-- The answers to those who offer tasks of a kernel by these moves. -/
def answersOn (kernel : String) (c : Course) : List Move → List (Result Unit)
  | [] => []
  | m :: moves => c.answerOn kernel m ++ answersOn kernel (c.play m) moves

theorem answersOn_append (kernel : String) (c : Course) (moves moves' : List Move) :
    c.answersOn kernel (moves ++ moves') =
      c.answersOn kernel moves ++ (c.run moves).answersOn kernel moves' := by
  induction moves generalizing c with
  | nil => rfl
  | cons m moves ih =>
      rw [List.cons_append, answersOn, answersOn, ih, List.append_assoc]
      rfl

end Course

/-- What is seen of a kernel in an event, but for the numbers of its tasks. Who waits
for the queues of all kernels is seen to do so. -/
def Event.of (kernel : String) : Event → Option Event
  | .accepted task => if task.kernel = kernel then some (.accepted (task.seen false)) else none
  | .refused task => if task.kernel = kernel then some (.refused (task.seen false)) else none
  | .worked other d record =>
      if other = kernel then
        some (.worked other (d.seen false) (record.map (CompletionRecord.seen false)))
      else none
  | .waited _ => some (.waited [])
  | .cleared finish => some (.cleared (finish.map fun _ => []))

/-- A stage without the faults that a finish has reported. -/
def Stage.bare : Stage → Stage
  | .serving => .serving
  | .resetting finish => .resetting (finish.map fun _ => [])

/-- A course, and one in which nothing is done but what concerns one kernel. -/
structure Beside (kernel : String) (c c' : Course) : Prop where
  same : Matches false (· = kernel) c.scheduler c'.scheduler
  only : ∀ other, other ≠ kernel → c'.scheduler.queues.get? other = none
  stage : c'.stage.bare = c.stage.bare
  past : c'.past.filterMap (Event.of kernel) = c.past.filterMap (Event.of kernel)

namespace Beside

variable {kernel : String}

theorem refl (hnone : ∀ other, c.scheduler.queues.get? other = none) : Beside kernel c c :=
  ⟨.refl _ _ _, fun other _ => hnone other, rfl, rfl⟩

theorem serves (h : Beside kernel c c') : c'.serves = c.serves := by
  have hstage := h.stage
  unfold Course.serves
  cases hc : c.stage <;> cases hc' : c'.stage <;> simp [hc, hc', Stage.bare] at hstage ⊢

/-- Whatever is not offered on another kernel makes no queue for it. -/
theorem only_play (h : Beside kernel c c') (hm : ∀ t, m = .addTask t → t.kernel = kernel) :
    ∀ other, other ≠ kernel → (c'.play m).scheduler.queues.get? other = none := by
  intro other hother
  refine Option.eq_none_iff_forall_ne_some.2 fun queue hqueue => ?_
  have hnone := h.only other hother
  cases becomes_play hqueue with
  | kept hbefore => simp [hnone] at hbefore
  | bound hbefore => simp [hnone] at hbefore
  | discards hbefore => simp [hnone] at hbefore
  | released hbefore => simp [hnone] at hbefore
  | offered hoffer hkernel => exact hother (hkernel.symm.trans (hm _ hoffer))
  | worked _ hbefore => simp [hnone] at hbefore

/-- A move that does not concern the kernel is made in one of the two courses. -/
theorem foreign (h : Beside kernel c c') {d : Course} (news : List Event)
    (hsame : Matches false (· = kernel) c.scheduler d.scheduler) (hstage : d.stage = c.stage)
    (hpast : d.past = c.past ++ news)
    (hview : news.filterMap (Event.of kernel) = []) : Beside kernel d c' := by
  refine ⟨hsame.symm.trans h.same, h.only, ?_, ?_⟩
  · rw [hstage]
    exact h.stage
  · rw [hpast, List.filterMap_append, hview, List.append_nil]
    exact h.past

/-- A move that is made in both. -/
theorem both (h : Beside kernel c c') {d : Course} {m' : Move} (news news' : List Event)
    (hm : ∀ t, m' = .addTask t → t.kernel = kernel)
    (hsame : Matches false (· = kernel) d.scheduler (c'.play m').scheduler)
    (hstage : (c'.play m').stage.bare = d.stage.bare)
    (hpast : d.past = c.past ++ news) (hpast' : (c'.play m').past = c'.past ++ news')
    (hview : news'.filterMap (Event.of kernel) = news.filterMap (Event.of kernel)) :
    Beside kernel d (c'.play m') := by
  refine ⟨hsame, h.only_play hm, hstage, ?_⟩
  rw [hpast, hpast', List.filterMap_append, List.filterMap_append, hview, h.past]

/-- A move that is made in both and not seen. -/
theorem unseen (h : Beside kernel c c') {s s' : Scheduler} {m' : Move}
    (hm : ∀ t, m' = .addTask t → t.kernel = kernel)
    (hplay : c.play m = { c with scheduler := s })
    (hplay' : c'.play m' = { c' with scheduler := s' })
    (hsame : Matches false (· = kernel) s s') : Beside kernel (c.play m) (c'.play m') := by
  refine h.both [] [] hm ?_ ?_ ?_ ?_ rfl
  · rw [hplay, hplay']
    exact hsame
  · rw [hplay, hplay']
    exact h.stage
  · rw [hplay, List.append_nil]
  · rw [hplay', List.append_nil]

/-- The only queue there is in the one course looks like that of the kernel in the
other. -/
theorem exists_queue (h : Beside kernel c c') {other : String} {q' : ExecutionQueue}
    (hq' : c'.scheduler.queues.get? other = some q') :
    other = kernel ∧
      ∃ q, c.scheduler.queues.get? kernel = some q ∧ q.seen false = q'.seen false := by
  by_cases hother : other = kernel
  · subst hother
    exact ⟨rfl, h.same.symm.exists_queue rfl hq'⟩
  · simp [h.only other hother] at hq'

theorem isReady (h : Beside kernel c c') {visit : List String} (hready : c.isReady visit = true) :
    c'.isReady (visit.filter (· = kernel)) = true := by
  obtain ⟨hstage, hidle, hvisit⟩ := isReady_iff.1 hready
  refine isReady_iff.2 ⟨?_, fun other q' hq' => ?_, ?_⟩
  · rw [← serves_iff, h.serves, serves_iff, hstage]
  · obtain ⟨-, q, hq, hseen⟩ := h.exists_queue hq'
    rw [← ExecutionQueue.isIdle_seen false, ← hseen, ExecutionQueue.isIdle_seen]
    exact hidle kernel q hq
  · have hnames : c'.scheduler.kernels.Nodup := c'.scheduler.queues.names_nodup
    rw [List.perm_ext_iff_of_nodup ((nodup_of_perm_kernels hvisit).filter _) hnames]
    intro other
    rw [List.mem_filter, hvisit.mem_iff, Scheduler.kernels, Scheduler.kernels,
      NameMap.mem_names_iff, NameMap.mem_names_iff, decide_eq_true_iff]
    constructor
    · rintro ⟨⟨q, hq⟩, rfl⟩
      obtain ⟨q', hq', -⟩ := h.same.exists_queue rfl hq
      exact ⟨q', hq'⟩
    · rintro ⟨q', hq'⟩
      obtain ⟨rfl, q, hq, -⟩ := h.exists_queue hq'
      exact ⟨⟨q, hq⟩, rfl⟩

theorem isClosed (h : Beside kernel c c') (hclosed : c.isClosed = true) :
    c'.isClosed = true := by
  refine isClosed_iff.2 fun other q' hq' => ?_
  obtain ⟨-, q, hq, hseen⟩ := h.exists_queue hq'
  have hphase : (q.seen false).phase = (q'.seen false).phase := by rw [hseen]
  exact hphase.symm.trans (isClosed_iff.1 hclosed kernel q hq)

/-! ### The moves -/

theorem play_offer (h : Beside kernel c c') {t : Task} (ht : t.kernel = kernel)
    (hserves : c.serves = true) :
    Beside kernel (c.play (.addTask t)) (c'.play (.addTask t)) := by
  obtain ⟨hanswer, hsame⟩ := h.same.addTask (by simp) ht
  have hplay : c.play (.addTask t) = c.offer t := if_pos hserves
  have hplay' : c'.play (.addTask t) = c'.offer t := if_pos (h.serves.trans hserves)
  have hview : Event.of kernel (c'.scheduler.answered t) =
      Event.of kernel (c.scheduler.answered t) := by
    unfold answered
    cases hadd : (c.scheduler.addTask t).1 <;> cases hadd' : (c'.scheduler.addTask t).1 <;>
      simp [hadd, hadd', Except.map] at hanswer ⊢
    simp [Event.of, ht, Task.seen]
  have hmine : ∀ t', Move.addTask t = .addTask t' → t'.kernel = kernel := by
    intro t' heq
    rw [← Move.addTask.inj heq, ht]
  refine h.both [c.scheduler.answered t] [c'.scheduler.answered t] hmine ?_ ?_ ?_ ?_ ?_
  · rw [hplay, hplay', scheduler_offer, scheduler_offer]
    exact hsame
  · rw [hplay, hplay', offer_eq, offer_eq]
    exact h.stage
  · rw [hplay, offer_eq]
  · rw [hplay', offer_eq]
  · simp only [List.filterMap_cons, hview]

theorem play_foreign_offer (h : Beside kernel c c') {t : Task} (ht : t.kernel ≠ kernel) :
    Beside kernel (c.play (.addTask t)) c' := by
  by_cases hserves : c.serves = true
  · have hplay : c.play (.addTask t) = c.offer t := if_pos hserves
    refine h.foreign [c.scheduler.answered t] ?_ ?_ ?_ ?_
    · rw [hplay, scheduler_offer]
      refine matches_foreign_addTask ?_ rfl
      exact ht
    · rw [hplay, offer_eq]
    · rw [hplay, offer_eq]
    · unfold answered
      split <;> simp [Event.of, ht]
  · have hplay : c.play (.addTask t) = c := if_neg hserves
    rwa [hplay]

theorem play_collected (h : Beside kernel c c') {m m' : Move} {visit : List String}
    {stage stage' : Stage} (hready : c.isReady visit = true)
    (hplay : c.play m = c.collected visit stage)
    (hplay' : c'.play m' = c'.collected (visit.filter (· = kernel)) stage')
    (hm : ∀ t, m' ≠ .addTask t) (hstage : stage'.bare = stage.bare) :
    Beside kernel (c.play m) (c'.play m') := by
  have hvisit := (isReady_iff.1 hready).2.2
  have hvisit' := (isReady_iff.1 (h.isReady hready)).2.2
  refine h.both [.waited (c.reports visit)] [.waited (c'.reports (visit.filter (· = kernel)))]
    (fun t ht => absurd ht (hm t)) ?_ ?_ ?_ ?_ rfl
  · rw [hplay, hplay']
    exact h.same.collect hvisit hvisit'
  · rw [hplay, hplay']
    exact hstage
  · rw [hplay]
    rfl
  · rw [hplay']
    rfl

theorem play_clear (h : Beside kernel c c') (hclosed : c.isClosed = true) :
    Beside kernel (c.play .clear) (c'.play .clear) := by
  have hbare := h.stage
  cases hstage : c.stage with
  | serving =>
      cases hstage' : c'.stage with
      | resetting finish' => simp [hstage, hstage', Stage.bare] at hbare
      | serving =>
          have hplay : c.play .clear = c := by simp only [Course.play, hstage]
          have hplay' : c'.play .clear = c' := by simp only [Course.play, hstage']
          rwa [hplay, hplay']
  | resetting finish =>
      cases hstage' : c'.stage with
      | serving => simp [hstage, hstage', Stage.bare] at hbare
      | resetting finish' =>
          have hfinish : (finish'.map fun _ => ([] : List Error)) = finish.map fun _ => [] := by
            simpa [hstage, hstage', Stage.bare] using hbare
          have hplay := Scheduler.play_clear hstage hclosed
          have hplay' := Scheduler.play_clear hstage' (h.isClosed hclosed)
          refine h.both [.cleared finish] [.cleared finish'] (by simp) ?_ ?_ ?_ ?_ ?_
          · rw [hplay, hplay']
            exact h.same.clear
          · rw [hplay, hplay']
          · rw [hplay]
          · rw [hplay']
          · simp [Event.of, hfinish]

theorem play_work (h : Beside kernel c c') (hsteady : Steady c) (hsteady' : Steady c') :
    Beside kernel (c.play (.work kernel)) (c'.play (.work kernel)) := by
  cases h.same.bothWork hsteady hsteady' kernel rfl with
  | rests hplay hplay' => rwa [hplay, hplay']
  | @steps queue next queue' next' board board' done done' hqueue hstep hqueue' hstep' hdone hdeed
      hrecord hsame =>
      have hplay := Scheduler.play_work hqueue hstep
      have hplay' := Scheduler.play_work hqueue' hstep'
      refine h.both _ _ (by simp) ?_ ?_ (congrArg Course.past hplay)
        (congrArg Course.past hplay') ?_
      · rw [hplay, hplay']
        exact hsame
      · rw [hplay, hplay']
        exact h.stage
      · simp [Event.of, hdeed, hrecord]

theorem play_foreign_work (h : Beside kernel c c') (hsteady : Steady c) {other : String}
    (hother : other ≠ kernel) : Beside kernel (c.play (.work other)) c' := by
  rcases play_work_cases c other with hplay | ⟨queue, next, board, done, hqueue, hstep⟩
  · rwa [hplay]
  · have hplay := Scheduler.play_work hqueue hstep
    refine h.foreign _ ?_ ?_ (congrArg Course.past hplay) ?_
    · rw [hplay]
      refine matches_foreign_entered ?_ hstep fun t ht => hsteady.completed hqueue hstep ht
      exact hother
    · rw [hplay]
    · simp [Event.of, hother]

theorem play_foreign_updateQueue (h : Beside kernel c c') {m : Move} {other : String}
    (hother : other ≠ kernel) (f : ExecutionQueue → ExecutionQueue)
    (hplay : c.play m = { c with scheduler := c.scheduler.updateQueue other f }) :
    Beside kernel (c.play m) c' := by
  refine h.foreign [] ?_ ?_ ?_ rfl
  · rw [hplay]
    refine matches_foreign_updateQueue ?_ f
    exact hother
  · rw [hplay]
  · rw [hplay, List.append_nil]

/-- A move that cannot be made in either. -/
theorem idles (h : Beside kernel c c') {m' : Move} (hplay : c.play m = c)
    (hplay' : c'.play m' = c') : Beside kernel (c.play m) (c'.play m') := by
  rwa [hplay, hplay']

theorem play_setConfiguration (h : Beside kernel c c') (name : String) :
    Beside kernel (c.play (.setConfiguration name)) (c'.play (.setConfiguration name)) := by
  by_cases hserves : c.serves = true
  · exact h.unseen (by simp) (if_pos hserves) (if_pos (h.serves.trans hserves))
      (h.same.setConfiguration name).2
  · have hserves' : ¬ c'.serves = true := by rwa [h.serves]
    exact h.idles (if_neg hserves) (if_neg hserves')

theorem play_reset (h : Beside kernel c c') : Beside kernel (c.play .reset) (c'.play .reset) := by
  by_cases hserves : c.serves = true
  · have hplay : c.play .reset = { c with stage := .resetting none } := if_pos hserves
    have hplay' : c'.play .reset = { c' with stage := .resetting none } :=
      if_pos (h.serves.trans hserves)
    rw [hplay, hplay']
    exact ⟨h.same, h.only, rfl, h.past⟩
  · have hserves' : ¬ c'.serves = true := by rwa [h.serves]
    exact h.idles (if_neg hserves) (if_neg hserves')

theorem play_addTask (h : Beside kernel c c') {t : Task} (ht : t.kernel = kernel) :
    Beside kernel (c.play (.addTask t)) (c'.play (.addTask t)) := by
  by_cases hserves : c.serves = true
  · exact h.play_offer ht hserves
  · have hserves' : ¬ c'.serves = true := by rwa [h.serves]
    exact h.idles (if_neg hserves) (if_neg hserves')

theorem play_cancel (h : Beside kernel c c') (other : String) :
    Beside kernel (c.play (.cancel other)) (c'.play (.cancel other)) := by
  by_cases hserves : c.serves = true
  · exact h.idles (if_pos hserves) (if_pos (h.serves.trans hserves))
  · have hserves' : ¬ c'.serves = true := by rwa [h.serves]
    exact h.unseen (by simp) (if_neg hserves) (if_neg hserves')
      (h.same.updateQueue other fun q => ExecutionQueue.requestDiscard_seen false q)

theorem play_foreign_cancel (h : Beside kernel c c') {other : String} (hother : other ≠ kernel) :
    Beside kernel (c.play (.cancel other)) c' := by
  by_cases hserves : c.serves = true
  · have hplay : c.play (.cancel other) = c := if_pos hserves
    rwa [hplay]
  · exact h.play_foreign_updateQueue hother _ (if_neg hserves)

/-- A move of which something is left. -/
theorem run_part {m' : Move} (hallows : c.allows m = true) (honly : m.only kernel = some m')
    (h : Beside kernel (c.play m) (c'.play m')) :
    Beside kernel (c.play m) (c'.run (c.part kernel m)) := by
  have hpart : c.part kernel m = [m'] := by simp [Course.part, hallows, honly]
  rw [hpart]
  exact h

/-- A move of which nothing is left. -/
theorem run_part_nil (hnone : c.allows m = false ∨ m.only kernel = none)
    (h : Beside kernel (c.play m) c') : Beside kernel (c.play m) (c'.run (c.part kernel m)) := by
  have hpart : c.part kernel m = [] := by
    rcases hnone with hnone | hnone <;> simp [Course.part, hnone]
  rw [hpart]
  exact h

/-- A call that waits goes on in both or in none. -/
theorem run_waits (h : Beside kernel c c') {m' : Move} {visit : List String}
    {stage stage' : Stage} (hallows : c.allows m = c.isReady visit)
    (honly : m.only kernel = some m') (hm : ∀ t, m' ≠ .addTask t)
    (hplay : c.isReady visit = true → c.play m = c.collected visit stage)
    (hidle : c.isReady visit ≠ true → c.play m = c)
    (hplay' : c'.isReady (visit.filter (· = kernel)) = true →
      c'.play m' = c'.collected (visit.filter (· = kernel)) stage')
    (hstage : stage'.bare = stage.bare) : Beside kernel (c.play m) (c'.run (c.part kernel m)) := by
  by_cases hready : c.isReady visit = true
  · exact run_part (hallows.trans hready) honly
      (h.play_collected hready (hplay hready) (hplay' (h.isReady hready)) hm hstage)
  · refine run_part_nil (.inl (by simpa [hallows] using hready)) ?_
    rwa [hidle hready]

/-- A move, and what is left of it for one kernel. -/
theorem play (h : Beside kernel c c') (hsteady : Steady c) (hsteady' : Steady c') (m : Move)
    (himage : ∀ name, m = .addConfiguration name →
      c'.scheduler.imageOf name = c.scheduler.imageOf name) :
    Beside kernel (c.play m) (c'.run (c.part kernel m)) := by
  cases m with
  | addConfiguration name =>
      exact run_part rfl rfl
        (h.unseen (by simp) rfl rfl (h.same.addConfiguration (himage name rfl)).2)
  | insertConfiguration name image =>
      exact run_part rfl rfl (h.unseen (by simp) rfl rfl (h.same.insertConfiguration name image))
  | setConfiguration name => exact run_part rfl rfl (h.play_setConfiguration name)
  | addTask task =>
      by_cases hkernel : task.kernel = kernel
      · exact run_part rfl (if_pos hkernel) (h.play_addTask hkernel)
      · exact run_part_nil (.inr (if_neg hkernel)) (h.play_foreign_offer hkernel)
  | wait visit =>
      exact h.run_waits rfl rfl (by simp) play_wait (fun hidle => if_neg hidle) play_wait rfl
  | finish visit =>
      exact h.run_waits rfl rfl (by simp) play_finish (fun hidle => if_neg hidle) play_finish rfl
  | reset => exact run_part rfl rfl h.play_reset
  | cancel other =>
      by_cases hother : other = kernel
      · exact run_part rfl (if_pos hother) (h.play_cancel other)
      · exact run_part_nil (.inr (if_neg hother)) (h.play_foreign_cancel hother)
  | clear =>
      by_cases hclosed : c.isClosed = true
      · exact run_part hclosed rfl (h.play_clear hclosed)
      · have hplay : c.play .clear = c := by
          simp only [Course.play]
          split
          · rfl
          · exact if_neg hclosed
        refine run_part_nil (.inl (by simpa [Course.allows] using hclosed)) ?_
        rwa [hplay]
  | work other =>
      by_cases hother : other = kernel
      · subst hother
        exact run_part rfl (if_pos rfl) (h.play_work hsteady hsteady')
      · exact run_part_nil (.inr (if_neg hother)) (h.play_foreign_work hsteady hother)
  | hold on => exact run_part rfl rfl (h.unseen (by simp) rfl rfl (h.same.hold on))
  | release other =>
      by_cases hother : other = kernel
      · exact run_part rfl (if_pos hother) (h.unseen (by simp) rfl rfl
          (h.same.updateQueue other fun q => ExecutionQueue.release_seen false q))
      · exact run_part_nil (.inr (if_neg hother)) (h.play_foreign_updateQueue hother _ rfl)
  | failKernel entryPoint =>
      exact run_part rfl rfl (h.unseen (by simp) rfl rfl (h.same.failKernel entryPoint))
  | refuseQueues on =>
      exact run_part rfl rfl (h.unseen (by simp) rfl rfl (h.same.refuseQueues on))
  | resetMetrics => exact run_part rfl rfl (h.unseen (by simp) rfl rfl h.same.resetMetrics)

/-- A move of which nothing that is offered is left, or the same offer. -/
theorem answersOn_part (h : Beside kernel c c') (m : Move) :
    c'.answersOn kernel (c.part kernel m) = c.answerOn kernel m := by
  have hother : (∀ t, m ≠ .addTask t) →
      c'.answersOn kernel (c.part kernel m) = c.answerOn kernel m := by
    intro hm
    have hnone : ∀ m', m' ∈ m.only kernel → c'.answerOn kernel m' = [] := by
      intro m' hm'
      cases m <;> simp [Move.only] at hm' <;> grind [Course.answerOn]
    have hanswer : c.answerOn kernel m = [] := by
      cases m <;> first | rfl | exact absurd rfl (hm _)
    rw [hanswer]
    unfold Course.part
    split
    · cases honly : m.only kernel with
      | none => rfl
      | some m' => simp [Course.answersOn, hnone m' honly]
    · rfl
  cases m with
  | addTask task =>
      by_cases hkernel : task.kernel = kernel
      · have hpart : c.part kernel (.addTask task) = [.addTask task] := by
          simp [Course.part, Course.allows, Move.only, hkernel]
        rw [hpart, Course.answersOn, Course.answersOn, List.append_nil]
        simp only [Course.answerOn, h.serves, (h.same.addTask (by simp) hkernel).1]
      · simp [Course.part, Course.allows, Move.only, Course.answerOn, Course.answersOn, hkernel]
  | _ => exact hother (by simp)

/-- Any moves, and what is left of them for one kernel. -/
theorem run {p : Blueprint} {d : Directory} (h : Beside kernel c c') (hsteady : Steady c)
    (hsteady' : Steady c') (hreads : Reads p d c) (hreads' : Reads p d c') {moves : List Move}
    (hlogs : ∀ name, .addConfiguration name ∈ moves → ¬ p.logsTo d name) :
    Beside kernel (c.run moves) (c'.run (c.alone kernel moves)) ∧
      c'.answersOn kernel (c.alone kernel moves) = c.answersOn kernel moves := by
  induction moves generalizing c c' with
  | nil => exact ⟨h, rfl⟩
  | cons m moves ih =>
      have himage : ∀ name, m = .addConfiguration name →
          c'.scheduler.imageOf name = c.scheduler.imageOf name := by
        rintro name rfl
        have hname := hlogs name List.mem_cons_self
        rw [hreads.image name hname, hreads'.image name hname]
      have hpart := h.play hsteady hsteady' m himage
      obtain ⟨hrun, hanswers⟩ := ih hpart (hsteady.play m) (hsteady'.run _)
        (hreads.play m) (hreads'.run _)
        fun name hname => hlogs name (List.mem_cons_of_mem _ hname)
      rw [Course.alone, Course.run_append, Course.answersOn_append, h.answersOn_part, hanswers]
      exact ⟨hrun, rfl⟩

end Beside

/-! ## What is seen of one kernel -/

theorem Event.record?_of (kernel : String) (e : Event) :
    (Event.of kernel e).bind Event.record? =
      (if e.kernel? = some kernel then e.record? else none).map (CompletionRecord.seen false) := by
  cases e with
  | accepted task => by_cases h : task.kernel = kernel <;> simp [of, kernel?, record?, h]
  | refused task => by_cases h : task.kernel = kernel <;> simp [of, kernel?, record?, h]
  | worked other d record => by_cases h : other = kernel <;> simp [of, kernel?, record?, h]
  | waited reports => rfl
  | cleared finish => rfl

/-- Records are seen in the view of their kernel. -/
theorem recordsOn_seen (kernel : String) (past : List Event) :
    (recordsOn kernel past).map (CompletionRecord.seen false) =
      records (past.filterMap (Event.of kernel)) := by
  unfold recordsOn records
  rw [List.filterMap_filterMap, List.filterMap_filter, List.map_filterMap]
  congr 1
  funext e
  rw [Event.record?_of]
  simp only [decide_eq_true_eq]

/-- The same is seen of a kernel in two courses, but for the numbers of its tasks. -/
structure Undisturbed (kernel : String) (c c' : Course) : Prop where
  past : c'.past.filterMap (Event.of kernel) = c.past.filterMap (Event.of kernel)
  records : (recordsOn kernel c'.past).map (CompletionRecord.seen false) =
    (recordsOn kernel c.past).map (CompletionRecord.seen false)
  queue : (c'.scheduler.queues.get? kernel).map (ExecutionQueue.seen false) =
    (c.scheduler.queues.get? kernel).map (ExecutionQueue.seen false)
  fault : (c'.scheduler.queues.get? kernel).bind ExecutionQueue.fault =
    (c.scheduler.queues.get? kernel).bind ExecutionQueue.fault
  samples : ∀ name,
    (c'.scheduler.books.model name).samples kernel = (c.scheduler.books.model name).samples kernel
  line : ∀ name,
    (c'.scheduler.books.model name).line kernel = (c.scheduler.books.model name).line kernel
  predict : ∀ name n, (c'.scheduler.books.model name).predict kernel n =
    (c.scheduler.books.model name).predict kernel n

theorem Undisturbed.of_beside {kernel : String} (h : Beside kernel c c') :
    Undisturbed kernel c c' where
  past := h.past
  records := by rw [recordsOn_seen, recordsOn_seen, h.past]
  queue := h.same.queues kernel rfl
  fault := by
    have hbind := ExecutionQueue.bind_fault_map (f := ExecutionQueue.seen false) fun _ => rfl
    rw [← hbind, h.same.queues kernel rfl, hbind]
  samples := h.same.samples kernel rfl
  line name := by rw [CostModel.line, h.same.samples kernel rfl name, ← CostModel.line]
  predict name := CostModel.predict_congr (h.same.shape name) (h.same.samples kernel rfl name)

namespace Course

/-- Whatever is offered on other kernels, and whatever becomes of it, a kernel is seen
to fare as if nothing of it had been, unless an image is loaded from a log. -/
theorem undisturbed (p : Blueprint) (device : Device) (directory : Directory) (kernel : String)
    {moves : List Move}
    (hlogs : ∀ name, .addConfiguration name ∈ moves → ¬ p.logsTo directory name) :
    Undisturbed kernel (ofBlueprint p device directory moves)
        (ofBlueprint p device directory
          ((ofBlueprint p device directory []).alone kernel moves)) ∧
      (ofBlueprint p device directory []).answersOn kernel
          ((ofBlueprint p device directory []).alone kernel moves) =
        (ofBlueprint p device directory []).answersOn kernel moves := by
  have hsteady : Steady (ofBlueprint p device directory []) := .ofBlueprint p device directory []
  have hreads : Reads p directory (ofBlueprint p device directory []) :=
    .assemble p device directory
  have hstart : Beside kernel (ofBlueprint p device directory [])
      (ofBlueprint p device directory []) := .refl fun _ => rfl
  obtain ⟨hbeside, hanswers⟩ := hstart.run hsteady hsteady hreads hreads hlogs
  exact ⟨.of_beside hbeside, hanswers⟩

/-- A fault stops the queue of one kernel, which then turns a task away and is removed,
and a second queue is made for it, while the tasks of another kernel are completed. -/
def besideFault : List Move :=
  [.addConfiguration "b", .insertConfiguration "cfg" (Image.encode ["a", "k"]),
    .addTask { kernel := "a", recipe := { mishap := some (.refuses "no arguments") } },
    .addTask { kernel := "k" }, .work "a", .work "k", .work "a", .addTask { kernel := "a" },
    .addTask { kernel := "k" }, .work "k", .work "k", .work "k", .work "k", .work "k", .work "k",
    .work "k", .wait ["a", "k"], .addTask { kernel := "a" }, .addTask { kernel := "k" }]

theorem undisturbed_besideFault :
    (stops (ofBlueprint {} default { path := "" } besideFault).past).map Prod.fst = ["a"] ∧
      (records (ofBlueprint {} default { path := "" } besideFault).past).length = 2 ∧
      Undisturbed "k" (ofBlueprint {} default { path := "" } besideFault)
        (ofBlueprint {} default { path := "" }
          ((ofBlueprint {} default { path := "" } []).alone "k" besideFault)) := by
  have hlogs : ∀ name, .addConfiguration name ∈ besideFault →
      ¬ ({} : Blueprint).logsTo { path := "" } name := by
    rintro name - ⟨log, file, hlog, -⟩
    simp [Blueprint.settingsObservers, Settings.standard] at hlog
  exact ⟨by decide, by decide, (undisturbed {} default { path := "" } "k" hlogs).1⟩

/-- Settings that have measurements written to the file of an image. -/
def logsAmongImages : Blueprint :=
  { settings := { kernelsDirectory := "d", measurementLog := some "d/b.aocx" } }

/-- A directory with one image. -/
def oneImage : Directory :=
  { path := "d", files := NameMap.empty.insert "cfg.aocx" (Image.encode ["a", "k"]) }

/-- A task of one kernel is completed before the configuration is loaded that its record
was written to, and a task of another kernel is made against that configuration. -/
def loadsLog : List Move :=
  [.addConfiguration "cfg", .addTask { kernel := "a" }, .work "a", .work "a", .work "a", .work "a",
    .addConfiguration "b", .setConfiguration "b", .addTask { kernel := "k" }, .work "k", .work "k"]

/-- With the other kernel's task, this one meets a fault; without it, none. -/
theorem disturbed_by_log :
    ∃ directory, Blueprint.openLog logsAmongImages.settings oneImage = .ok directory ∧
      ¬ Undisturbed "k" (ofBlueprint logsAmongImages default directory loadsLog)
        (ofBlueprint logsAmongImages default directory
          ((ofBlueprint logsAmongImages default directory []).alone "k" loadsLog)) := by
  refine ⟨_, rfl, fun h => ?_⟩
  exact absurd h.fault (by decide +kernel)

end Course

end Scheduler

end KernelDispatch
