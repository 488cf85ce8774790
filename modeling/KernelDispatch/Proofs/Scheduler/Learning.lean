import KernelDispatch.Proofs.Number.Spans
import KernelDispatch.Proofs.Scheduler.Emission

/-!
# What the cost models hold

Every completed task leaves a record, which is handed to the observers, and its
measurement goes to the model of the configuration that the task was made
against. The models are therefore determined by the records since the last
reset: what a model holds for a kernel is the list of measurements in the
records with its configuration and that kernel, and every estimate is computed
from such a list.

A record gets to all observers up to the first that gives up on it, if the task
took no longer than a span of time can be, and the observers have kept what got to
them and nothing else. Where one keeps records in memory and nobody before it gives
up, it has them all, so that what the models hold can be read off what it has.

A reset lets the task in flight on each queue come to its end before the models
are cleared, so no measurement of a task that was accepted before it can come
after it.

## Main results

* `Modelled` — models and records.
* `Traced` — completed tasks and accepted tasks.
* `Course.determined_by_records` — what follows for every course.
-/

namespace KernelDispatch

/-! ## Models and lists of measurements -/

/-- The model that a configuration has before its first measurement. -/
def Blueprint.newModel (p : Blueprint) (configuration : String) : CostModel :=
  { configuration, table := p.table, prior := p.settings.hybridPrior }

/-- The estimates for a launch of `n` items from a list of measurements. -/
def Blueprint.predicted (p : Blueprint) (configuration kernel : String)
    (samples : List (Sample Float)) (n : UInt64) : Prediction Float :=
  Prediction.make p.settings.hybridPrior samples
    ((p.newModel configuration).operations kernel n)
    ((p.newModel configuration).offlineTime kernel n)

namespace CostModel

variable (m : CostModel)

theorem samples_record (kernel other : String) (sample : Sample Float) :
    (m.record kernel sample).samples other =
      if other = kernel then m.samples other ++ [sample] else m.samples other := by
  unfold samples record
  rw [NameMap.get?_insert]
  by_cases h : other = kernel
  · subst h
    simp [samples]
  · simp [h]

/-- A model without its measurements is left to say how they are used. -/
theorem predict_eq {p : Blueprint} {configuration : String}
    (h : m.clear = p.newModel configuration) (kernel : String) (n : UInt64) :
    m.predict kernel n = p.predicted configuration kernel (m.samples kernel) n := by
  unfold Blueprint.predicted
  rw [← h]
  show _ = Prediction.make (p.newModel configuration).prior _ _ _
  rw [← h]
  rfl

end CostModel

namespace Books

theorem get?_foldl_insert (f : String → CostModel) (names : List String)
    (models : NameMap CostModel) (name : String) :
    (names.foldl (fun models name => models.insert name (f name)) models).get? name =
      if name ∈ names then some (f name) else models.get? name := by
  induction names generalizing models with
  | nil => simp
  | cons first rest ih =>
      rw [List.foldl_cons, ih, NameMap.get?_insert]
      by_cases hname : name = first
      · subst hname
        simp
      · simp [hname]

theorem model_freshModels (b : Books) (configurations : List String) (name : String) :
    (b.freshModels configurations).model name = b.newModel name := by
  unfold model freshModels
  dsimp only
  rw [get?_foldl_insert]
  split <;> rfl

end Books

namespace Scheduler

variable {c c' : Course} {m : Move}

/-- The measurements in the records of a configuration and a kernel. -/
def samplesOf (configuration kernel : String) (records : List CompletionRecord) :
    List (Sample Float) :=
  (records.filter fun r => r.configuration = configuration ∧ r.kernel = kernel).map
    CompletionRecord.sample

theorem samplesOf_snoc (configuration kernel : String) (records : List CompletionRecord)
    (r : CompletionRecord) :
    samplesOf configuration kernel (records ++ [r]) = samplesOf configuration kernel records ++
      if r.configuration = configuration ∧ r.kernel = kernel then [r.sample] else [] := by
  unfold samplesOf
  rw [List.filter_append, List.map_append]
  by_cases h : r.configuration = configuration ∧ r.kernel = kernel
  · simp [h]
  · simp [h]

/-- The models hold what the records since the last reset say. -/
structure Modelled (p : Blueprint) (c : Course) : Prop where
  newModel : ∀ name, c.scheduler.books.newModel name = p.newModel name
  shape : ∀ name, (c.scheduler.books.model name).clear = p.newModel name
  samples : ∀ name kernel, (c.scheduler.books.model name).samples kernel =
    samplesOf name kernel (records (sinceCleared c.past))

namespace Modelled

variable {p : Blueprint}

/-- Where the models stay, and no record is emitted, nothing changes. -/
theorem of_sameModels {past : List Event} {s : Scheduler} {stage : Stage} (h : Modelled p c)
    (hmodels : c.scheduler.books.SameModels s.books)
    (hrecords : records (sinceCleared past) = records (sinceCleared c.past)) :
    Modelled p ⟨s, stage, past⟩ where
  newModel name := (hmodels.newModel name).trans (h.newModel name)
  shape name := by rw [hmodels.model, h.shape]
  samples name kernel := by rw [hmodels.model, h.samples, hrecords]

/-- A completed task adds its measurement to one list. -/
theorem conclude (h : Modelled p c) {t : Task} {configuration : String} {nanos : Nat}
    (hconfiguration : t.configuration = some configuration) (hduration : t.duration = some nanos)
    {s : Scheduler} (hbooks : s.books = (c.scheduler.books.conclude t).2) (stage : Stage)
    (kernel : String) (d : ExecutionQueue.Deed) :
    Modelled p ⟨s, stage,
      c.past ++ [.worked kernel d (c.scheduler.books.conclude t).1]⟩ := by
  have hrecord : (c.scheduler.books.conclude t).1 =
      some (c.scheduler.books.measure t configuration nanos).1 := by
    rw [Books.conclude_eq hconfiguration hduration]
  have hmodel := fun name =>
    Books.model_conclude (b := c.scheduler.books) hconfiguration hduration name
  constructor
  · intro name
    rw [hbooks, Books.newModel_conclude hconfiguration hduration, h.newModel]
  · intro name
    rw [hbooks, hmodel]
    split
    · exact h.shape name
    · exact h.shape name
  · intro name other
    have hsnoc : records (sinceCleared
        (c.past ++ [.worked kernel d (c.scheduler.books.conclude t).1])) =
        records (sinceCleared c.past) ++
          [(c.scheduler.books.measure t configuration nanos).1] := by
      rw [hrecord]
      simp [Event.clears, Event.record?]
    rw [hsnoc, samplesOf_snoc, ← h.samples, hbooks, hmodel]
    have hname : (c.scheduler.books.measure t configuration nanos).1.configuration =
        configuration := rfl
    have hkernel : (c.scheduler.books.measure t configuration nanos).1.kernel = t.kernel := rfl
    rw [hname, hkernel]
    by_cases hsame : name = configuration
    · subst hsame
      rw [if_pos rfl, CostModel.samples_record]
      by_cases hother : other = t.kernel
      · simp [hother]
      · simp [hother, Ne.symm hother]
    · simp [hsame, Ne.symm hsame]

/-- Every change keeps models and records together. -/
theorem change (h : Modelled p c) (hsound : Sound c) (hchange : Change c m c') :
    Modelled p c' := by
  cases hchange with
  | tends f _ _ _ hmodels => exact h.of_sameModels hmodels rfl
  | accepts _ _ _ _ _ hmodels =>
      exact h.of_sameModels hmodels (by simp [Event.clears, Event.record?])
  | refuses task _ hbooks =>
      refine h.of_sameModels ?_ (by simp [Event.clears, Event.record?])
      rw [hbooks]
      exact .refl _
  | @works kernel board queue next done hqueue hstep =>
      cases done with
      | none =>
          refine h.of_sameModels (.refl _) ?_
          simp [Event.clears, Event.record?]
      | some t =>
          obtain ⟨hturn, hdone⟩ := hsound.turn hqueue hstep
          obtain ⟨configuration, nanos, hconfiguration, hduration⟩ :=
            ExecutionQueue.bound_of_turn (hsound.wellFormed kernel queue hqueue) hturn hdone.symm
          exact h.conclude hconfiguration hduration rfl _ _ _
  | @collects visit stage hready =>
      have hremoval := removal_collect c.scheduler
        (nodup_of_perm_kernels (isReady_iff.1 hready).2.2)
      refine h.of_sameModels ?_ (by simp [Event.clears, Event.record?])
      rw [hremoval.rest]
      exact ⟨fun _ => rfl, fun _ => rfl⟩
  | clears =>
      have hmodel : ∀ name, c.scheduler.clear.books.model name =
          c.scheduler.books.newModel name := Books.model_freshModels _ _
      refine ⟨h.newModel, fun name => ?_, fun name kernel => ?_⟩
      · rw [hmodel, h.newModel]
        rfl
      · rw [hmodel]
        simp [Event.clears, records]
        rfl

theorem ofBlueprint (p : Blueprint) (device : Device) (directory : Directory)
    (moves : List Move) : Modelled p (.ofBlueprint p device directory moves) :=
  Course.run_induction (fun _ hsound h hchange => h.change hsound hchange)
    (fun _ h => ⟨h.newModel, h.shape, h.samples⟩) (.assemble p device directory)
    ⟨fun _ => rfl, fun _ => rfl, fun _ _ => rfl⟩

end Modelled

/-! ## Completed tasks and accepted tasks -/

/-- The kernel whose queue an event is about. -/
def Event.kernel? : Event → Option String
  | .accepted task => some task.kernel
  | .worked kernel _ _ => some kernel
  | _ => none

/-- The tasks that have met a fate on the queues of a kernel, in the order in
which they met it. -/
def metOn (kernel : String) (fate : ExecutionQueue.Fate) (past : List Event) : List Task :=
  met fate (past.filter fun e => e.kernel? = some kernel)

theorem metOn_snoc (kernel : String) (fate : ExecutionQueue.Fate) (past : List Event)
    (e : Event) :
    metOn kernel fate (past ++ [e]) = metOn kernel fate past ++
      if e.kernel? = some kernel then e.tasks fate else [] := by
  unfold metOn
  by_cases h : e.kernel? = some kernel
  · simp [h]
  · simp [h]

/-- The records of a kernel, oldest first. -/
def recordsOn (kernel : String) (past : List Event) : List CompletionRecord :=
  records (past.filter fun e => e.kernel? = some kernel)

theorem recordsOn_snoc (kernel : String) (past : List Event) (e : Event) :
    recordsOn kernel (past ++ [e]) = recordsOn kernel past ++
      if e.kernel? = some kernel then e.record?.toList else [] := by
  unfold recordsOn
  by_cases h : e.kernel? = some kernel
  · simp [h]
  · simp [h]

/-- The tasks of a kernel that no callback has begun for. -/
def waitingOn (s : Scheduler) (kernel : String) : List Task :=
  ((s.queues.get? kernel).map ExecutionQueue.waiting).getD []

/-- A step of a worker hands the first waiting task to the callback, or it leaves
the waiting tasks where they are, or it gives some of them up. -/
theorem waiting_of_turn {q q' : ExecutionQueue} {d : ExecutionQueue.Deed}
    (h : ExecutionQueue.Turn q d q') :
    (offered (d.tasks .reported) ++ offered q'.waiting).Sublist (offered q.waiting) := by
  cases h with
  | takes hhand _ hpending =>
      simp [ExecutionQueue.Deed.tasks, ExecutionQueue.waiting, hhand, hpending]
  | launches hhand => simp [ExecutionQueue.Deed.tasks, ExecutionQueue.waiting, hhand]
  | reports hhand => simp [ExecutionQueue.Deed.tasks, ExecutionQueue.waiting, hhand]
  | returns hhand => simp [ExecutionQueue.Deed.tasks, ExecutionQueue.waiting, hhand]
  | closes hhand => simp [ExecutionQueue.Deed.tasks, ExecutionQueue.waiting, hhand]
  | faults hhand => simp [ExecutionQueue.Deed.tasks, ExecutionQueue.waiting]

/-- The completed tasks of a kernel and those that are waiting were all accepted
since the last reset, in this order. -/
structure Traced (c : Course) : Prop where
  named : ∀ kernel, ∀ t ∈ offered (c.scheduler.waitingOn kernel), t.kernel = kernel
  order : ∀ kernel,
    (offered (metOn kernel .reported (sinceCleared c.past)) ++
      offered (c.scheduler.waitingOn kernel)).Sublist
        (offered (metOn kernel .accepted (sinceCleared c.past)))

namespace Traced

/-- Where no task is accepted or completed, tasks can only be given up. -/
theorem of_sublist {past : List Event} {s : Scheduler} {stage : Stage} (h : Traced c)
    (hwaiting : ∀ kernel, (s.waitingOn kernel).Sublist (c.scheduler.waitingOn kernel))
    (hmet : ∀ kernel fate,
      metOn kernel fate (sinceCleared past) = metOn kernel fate (sinceCleared c.past)) :
    Traced ⟨s, stage, past⟩ := by
  constructor
  · intro kernel t ht
    exact h.named kernel t (((hwaiting kernel).map Task.asOffered).subset ht)
  · intro kernel
    rw [hmet, hmet]
    refine List.Sublist.trans ?_ (h.order kernel)
    exact ((hwaiting kernel).map Task.asOffered).append_left _

theorem waitingOn_insert {s : Scheduler} {kernel : String} {next : ExecutionQueue}
    (hqueues : s.queues = c.scheduler.queues.insert kernel next) (name : String) :
    s.waitingOn name = if name = kernel then next.waiting else c.scheduler.waitingOn name := by
  unfold waitingOn
  rw [hqueues, NameMap.get?_insert]
  split <;> rfl

theorem change_accepts {s : Scheduler} {task : Task} {queue next : ExecutionQueue} (h : Traced c)
    (hqueue : c.scheduler.queues.get? task.kernel = some queue ∨
      c.scheduler.queues.get? task.kernel = none ∧
        ∃ number program, queue = .start task.kernel number program)
    (hnext : queue.enqueue task = .ok next)
    (hqueues : s.queues = c.scheduler.queues.insert task.kernel next) :
    Traced ⟨s, c.stage, c.past ++ [.accepted task]⟩ := by
  obtain ⟨-, -, rfl⟩ := ExecutionQueue.WellFormed.not_closed_of_enqueue hnext
  have hbefore : c.scheduler.waitingOn task.kernel = queue.waiting := by
    unfold waitingOn
    rcases hqueue with hqueue | ⟨hnone, number, program, rfl⟩
    · rw [hqueue]
      rfl
    · rw [hnone]
      rfl
  have hafter : ∀ name, s.waitingOn name =
      c.scheduler.waitingOn name ++ if task.kernel = name then [task] else [] := by
    intro name
    rw [waitingOn_insert hqueues]
    by_cases hname : name = task.kernel
    · subst hname
      rw [if_pos rfl, if_pos rfl, hbefore]
      simp [ExecutionQueue.waiting]
    · simp [hname, Ne.symm hname]
  constructor
  · intro kernel t ht
    rw [hafter, offered_append, List.mem_append] at ht
    rcases ht with ht | ht
    · exact h.named kernel t ht
    · split at ht
      · rename_i hkernel
        obtain rfl : t = task.asOffered := by simpa using ht
        exact hkernel
      · simp at ht
  · intro kernel
    rw [hafter]
    simp only [sinceCleared_snoc, Event.clears, Bool.false_eq_true, if_false, metOn_snoc,
      Event.kernel?, Event.tasks, Option.some.injEq, ite_self, List.append_nil, offered_append,
      ← List.append_assoc]
    exact (h.order kernel).append (List.Sublist.refl _)

theorem change_works {kernel : String} {board : Board} {queue next : ExecutionQueue}
    {done : Option Task} (h : Traced c) (hsound : Sound c)
    (hqueue : c.scheduler.queues.get? kernel = some queue)
    (hstep : queue.step c.scheduler.board = some (board, next, done))
    (record : Option CompletionRecord) :
    Traced ⟨c.scheduler.entered kernel board next done, c.stage,
      c.past ++ [.worked kernel (queue.deed next) record]⟩ := by
  obtain ⟨hturn, -⟩ := hsound.turn hqueue hstep
  have hsublist := waiting_of_turn hturn
  have hbefore : c.scheduler.waitingOn kernel = queue.waiting := by
    rw [waitingOn, hqueue]
    rfl
  have hafter := waitingOn_insert (c := c) (s := c.scheduler.entered kernel board next done) rfl
  have hnone : (queue.deed next).tasks .accepted = [] := by
    cases queue.deed next <;> rfl
  constructor
  · intro name t ht
    rw [hafter] at ht
    split at ht
    · rename_i hname
      subst hname
      refine h.named name t ?_
      rw [hbefore]
      exact hsublist.subset (List.mem_append_right _ ht)
    · exact h.named name t ht
  · intro name
    have horder := h.order name
    rw [hafter]
    simp only [sinceCleared_snoc, Event.clears, Bool.false_eq_true, if_false, metOn_snoc,
      Event.kernel?, Event.tasks, Option.some.injEq, hnone, ite_self, List.append_nil]
    by_cases hname : name = kernel
    · subst hname
      rw [hbefore] at horder
      simp only [if_pos, offered_append, List.append_assoc]
      exact (hsublist.append_left _).trans horder
    · simpa [hname, Ne.symm hname] using horder

/-- Every change keeps the tasks in order. -/
theorem change (h : Traced c) (hsound : Sound c) (hchange : Change c m c') : Traced c' := by
  cases hchange with
  | @tends s stage f hqueues htended =>
      refine h.of_sublist (fun kernel => ?_) fun _ _ => rfl
      unfold waitingOn
      rw [hqueues, NameMap.get?_mapWithName]
      cases hget : c.scheduler.queues.get? kernel with
      | none => exact .refl _
      | some queue =>
          rw [Option.map_some, Option.map_some, Option.map_some, Option.getD_some,
            Option.getD_some, (htended kernel queue).same.waiting]
  | accepts _ hqueue hnext hqueues => exact h.change_accepts hqueue hnext hqueues
  | refuses task hqueues =>
      refine h.of_sublist (fun kernel => ?_) fun kernel fate => ?_
      · rw [waitingOn, hqueues]
        exact .refl _
      · simp [Event.clears, metOn_snoc, Event.kernel?]
  | works hqueue hstep => exact h.change_works hsound hqueue hstep _
  | @collects visit stage hready =>
      have hvisit := (isReady_iff.1 hready).2.2
      have hremoval := removal_collect c.scheduler (nodup_of_perm_kernels hvisit)
      refine h.of_sublist (fun kernel => ?_) fun kernel fate => ?_
      · rw [waitingOn, hremoval.get? hvisit]
        cases hget : c.scheduler.queues.get? kernel with
        | none => exact List.nil_sublist _
        | some queue =>
            rw [Option.filter_some]
            split
            · rw [waitingOn, hget]
            · exact List.nil_sublist _
      · simp [Event.clears, metOn_snoc, Event.kernel?]
  | clears =>
      constructor
      · intro kernel t ht
        simp [waitingOn, get?_clear] at ht
      · intro kernel
        simp [waitingOn, get?_clear, Event.clears, metOn, met]

theorem ofBlueprint (p : Blueprint) (device : Device) (directory : Directory)
    (moves : List Move) : Traced (.ofBlueprint p device directory moves) := by
  refine Course.run_induction (fun _ hsound h hchange => h.change hsound hchange)
    (fun _ h => ⟨h.named, h.order⟩) (.assemble p device directory) ⟨?_, ?_⟩
  · intro kernel t ht
    simp [waitingOn, get?_assemble] at ht
  · intro kernel
    simp [waitingOn, get?_assemble, sinceCleared, metOn, met]

end Traced

/-! ## What a record says -/

/-- What the record in an event says, when these events came before it: its
estimates are computed from the measurements up to and including its own. Only a
completed task has a record, and each has one. -/
def Explains (p : Blueprint) (earlier : List Event) : Event → Prop
  | .worked kernel deed record =>
      match deed.reported? with
      | none => record = none
      | some task => ∃ configuration nanos r, task.kernel = kernel ∧
          task.configuration = some configuration ∧ task.duration = some nanos ∧
            record = some r ∧
              r = CompletionRecord.make (task.id.getD 0) configuration kernel
                (p.predicted configuration kernel
                  (samplesOf configuration kernel (records (sinceCleared earlier)) ++ [r.sample])
                  task.workItems)
                (Number.secondsOfNanos nanos)
  | _ => True

/-- Every event so far has its explanation. -/
def Explained (p : Blueprint) (past : List Event) : Prop :=
  ∀ earlier e later, past = earlier ++ e :: later → Explains p earlier e

theorem Explained.snoc {p : Blueprint} {past : List Event} {e : Event} (h : Explained p past)
    (he : Explains p past e) : Explained p (past ++ [e]) := by
  intro earlier e' later heq
  rcases List.eq_nil_or_concat later with rfl | ⟨between, last, rfl⟩
  · obtain ⟨rfl, hlast⟩ := List.append_inj' heq rfl
    obtain rfl := List.singleton_inj.1 hlast
    exact he
  · rw [List.concat_eq_append, ← List.cons_append, ← List.append_assoc] at heq
    obtain ⟨hpast, -⟩ := List.append_inj' heq rfl
    exact h earlier e' between hpast

/-- The record of a task that did not take too long has a span for its duration. -/
theorem hasSpan_of_explained {p : Blueprint} {past earlier later : List Event} {kernel : String}
    {deed : ExecutionQueue.Deed} {r : CompletionRecord} {task : Task} {nanos : Nat}
    (h : Explained p past) (hpast : past = earlier ++ .worked kernel deed (some r) :: later)
    (htask : deed.reported? = some task) (hduration : task.duration = some nanos)
    (hshort : nanos / Number.nanosPerSecond < 2 ^ 63) : r.hasSpan = true := by
  have hrecord := h earlier _ later hpast
  simp only [Explains, htask] at hrecord
  obtain ⟨configuration, nanos', r', -, -, hduration', hsame, hmade⟩ := hrecord
  obtain rfl := Option.some.inj hsame
  obtain rfl := Option.some.inj (hduration.symm.trans hduration')
  have hactual : r.actual = Number.secondsOfNanos nanos := by
    rw [hmade]
    rfl
  rw [CompletionRecord.hasSpan, hactual]
  exact Number.isSome_nanosOfSeconds? hshort

/-- The estimates in the record of a completed task. -/
theorem Modelled.explains {p : Blueprint} (h : Modelled p c) {t : Task} {kernel : String}
    {d : ExecutionQueue.Deed} (hd : d.reported? = some t) (hkernel : t.kernel = kernel)
    {configuration : String} {nanos : Nat} (hconfiguration : t.configuration = some configuration)
    (hduration : t.duration = some nanos) :
    Explains p c.past (.worked kernel d (c.scheduler.books.conclude t).1) := by
  have hrecord := Books.record_measure c.scheduler.books t configuration nanos
  have hshape : ((c.scheduler.books.model configuration).record t.kernel
      (c.scheduler.books.measure t configuration nanos).1.sample).clear =
      p.newModel configuration := h.shape configuration
  simp only [Explains, hd]
  refine ⟨configuration, nanos, (c.scheduler.books.measure t configuration nanos).1, hkernel,
    hconfiguration, hduration, ?_, ?_⟩
  · rw [Books.conclude_eq hconfiguration hduration]
  · subst hkernel
    rw [CostModel.predict_eq _ hshape, CostModel.samples_record, if_pos rfl, h.samples] at hrecord
    exact hrecord

/-- Models, records and tasks of a course. -/
structure Consistent (p : Blueprint) (c : Course) : Prop where
  modelled : Modelled p c
  traced : Traced c
  explained : Explained p c.past

theorem Consistent.change {p : Blueprint} (h : Consistent p c) (hsound : Sound c)
    (hchange : Change c m c') : Consistent p c' where
  modelled := h.modelled.change hsound hchange
  traced := h.traced.change hsound hchange
  explained := by
    cases hchange with
    | tends => exact h.explained
    | accepts => exact h.explained.snoc trivial
    | refuses => exact h.explained.snoc trivial
    | @works kernel board queue next done hqueue hstep =>
        obtain ⟨hturn, hdone⟩ := hsound.turn hqueue hstep
        refine h.explained.snoc ?_
        cases done with
        | none =>
            simp only [Explains, ← hdone]
            rfl
        | some t =>
            obtain ⟨configuration, nanos, hconfiguration, hduration⟩ :=
              ExecutionQueue.bound_of_turn (hsound.wellFormed kernel queue hqueue) hturn hdone.symm
            have hwaiting : t.asOffered ∈ offered (c.scheduler.waitingOn kernel) := by
              have hfirst : t.asOffered ∈ offered ((queue.deed next).tasks .reported) := by
                rw [ExecutionQueue.tasks_reported, ← hdone]
                simp
              rw [waitingOn, hqueue]
              exact (waiting_of_turn hturn).subset (List.mem_append_left _ hfirst)
            have hkernel : t.kernel = kernel := h.traced.named kernel t.asOffered hwaiting
            exact h.modelled.explains hdone.symm hkernel hconfiguration hduration
    | collects => exact h.explained.snoc trivial
    | clears => exact h.explained.snoc trivial

/-! ## Answers -/

namespace Course

/-- The measurements of a configuration and a kernel in the records since the last
reset. -/
def samples (c : Course) (configuration kernel : String) : List (Sample Float) :=
  samplesOf configuration kernel (records (sinceCleared c.past))

/-- The records that were made decide what models hold and what a scheduler answers, and the
observers were told of these records. -/
structure Determined (p : Blueprint) (directory : Directory) (c : Course) : Prop where
  models : ∀ configuration kernel,
    (c.scheduler.books.model configuration).samples kernel = c.samples configuration kernel
  records : Explained p c.past
  sampleCount : ∀ configuration, c.scheduler.current = some configuration → ∀ kernel,
    c.scheduler.sampleCount kernel = (c.samples configuration kernel).length
  line : ∀ configuration, c.scheduler.current = some configuration → ∀ kernel,
    c.scheduler.line kernel = CostModel.named kernel (Line.fit (c.samples configuration kernel))
  predict : ∀ configuration, c.scheduler.current = some configuration → ∀ t,
    c.scheduler.predict t = .ok (p.predicted configuration t.kernel
      (c.samples configuration t.kernel) t.workItems)
  cost : ∀ configuration, c.scheduler.current = some configuration → ∀ t,
    c.scheduler.cost t = .ok (CostModel.costOfSeconds (p.predicted configuration t.kernel
      (c.samples configuration t.kernel) t.workItems).best)
  /-- Without a current configuration there is nothing to answer from. -/
  unset : c.scheduler.current = none → ∀ kernel t, c.scheduler.sampleCount kernel = 0 ∧
    c.scheduler.line kernel = .error .noConfiguration ∧
      c.scheduler.predict t = .error .noConfiguration ∧
        c.scheduler.cost t = .error .noConfiguration
  /-- Tasks completed since the last reset were accepted since then. -/
  fresh : ∀ kernel, (offered (metOn kernel .reported (sinceCleared c.past))).Sublist
    (offered (metOn kernel .accepted (sinceCleared c.past)))
  /-- What observers keep and write is what they were told of these records. -/
  informed : Informed p.everyone directory c
  /-- An observer is told of a record if nobody before it gives up on it, and the duration is a
  span of time. -/
  told : ∀ before o rest, p.everyone = before ++ o :: rest → ∀ r,
    before.length < (r.audience p.everyone).length ↔
      r.hasSpan = true ∧ ∀ earlier ∈ before, earlier.givesUp r = false
  /-- The duration is one of every task that took less than 2⁶³ seconds. -/
  spans : ∀ earlier kernel deed r later, c.past = earlier ++ .worked kernel deed (some r) :: later →
    ∀ task nanos, deed.reported? = some task → task.duration = some nanos →
      nanos / Number.nanosPerSecond < 2 ^ 63 → r.hasSpan = true
  /-- One that keeps records has all of them, where it is told of all and no other keeps any. -/
  all : ∀ before rest, p.everyone = before ++ .collects :: rest → .collects ∉ before →
    .collects ∉ rest → (∀ r ∈ Scheduler.records c.past,
      r.hasSpan = true ∧ ∀ earlier ∈ before, earlier.givesUp r = false) →
        c.scheduler.books.collected = Scheduler.records c.past

theorem determined_of_consistent {p : Blueprint} {directory : Directory} {c : Course}
    (h : Consistent p c) (hinformed : Informed p.everyone directory c) :
    Determined p directory c := by
  have hmodel : ∀ configuration, c.scheduler.current = some configuration →
      c.scheduler.currentModel = .ok (c.scheduler.books.model configuration) := by
    intro configuration hcurrent
    simp only [currentModel, hcurrent]
  have hsamples : ∀ configuration kernel, (c.scheduler.books.model configuration).samples kernel =
      c.samples configuration kernel := h.modelled.samples
  refine ⟨hsamples, h.explained, ?_, ?_, ?_, ?_, ?_, fun kernel => ?_, hinformed, ?_, ?_, ?_⟩
  · intro configuration hcurrent kernel
    rw [Scheduler.sampleCount, hmodel configuration hcurrent, ← hsamples]
  · intro configuration hcurrent kernel
    rw [Scheduler.line, hmodel configuration hcurrent, ← hsamples]
    rfl
  · intro configuration hcurrent t
    rw [Scheduler.predict, hmodel configuration hcurrent, Except.map,
      CostModel.predict_eq _ (h.modelled.shape configuration), hsamples]
  · intro configuration hcurrent t
    rw [Scheduler.cost, hmodel configuration hcurrent, Except.map, CostModel.cost,
      CostModel.predict_eq _ (h.modelled.shape configuration), hsamples]
  · intro hcurrent kernel t
    have hnone : c.scheduler.currentModel = .error .noConfiguration := by
      simp only [currentModel, hcurrent]
    simp only [Scheduler.sampleCount, Scheduler.line, Scheduler.predict, Scheduler.cost, hnone,
      Except.map, and_self]
  · exact (List.sublist_append_left _ _).trans (h.traced.order kernel)
  · intro before o rest heveryone r
    rw [heveryone]
    exact r.told_iff before o rest
  · intro earlier kernel deed r later hpast task nanos htask hduration hshort
    exact hasSpan_of_explained h.explained hpast htask hduration hshort
  · intro before rest heveryone hbefore hrest htold
    rw [hinformed.collected, heveryone]
    exact kept_tellings hbefore hrest htold

/-- In every course, at every moment, the records decide what models hold. -/
theorem determined_by_records (p : Blueprint) (device : Device) (directory : Directory)
    (moves : List Move) : Determined p directory (ofBlueprint p device directory moves) := by
  have hstart : Consistent p { scheduler := p.assemble device directory } := by
    refine ⟨.ofBlueprint p device directory [], .ofBlueprint p device directory [], ?_⟩
    intro earlier e later heq
    simp at heq
  have h : Consistent p (ofBlueprint p device directory moves) :=
    run_induction (fun _ hsound h hchange => h.change hsound hchange)
      (fun _ h => ⟨⟨h.modelled.newModel, h.modelled.shape, h.modelled.samples⟩,
        ⟨h.traced.named, h.traced.order⟩, h.explained⟩)
      (.assemble p device directory) hstart
  exact determined_of_consistent h (.ofBlueprint p device directory moves)

end Course

end Scheduler

end KernelDispatch
