import KernelDispatch.Queue.Worker

/-!
# What a step of the worker does

A step of the worker is one of six deeds: it takes a task, launches it, hands
it to the callback, puts it away when the callback is over, closes the queue on
request, or stops on a fault. `Turn` lists them with everything that each of
them changes, and `turn_of_step` says that there is nothing else that a step can
do. Whatever is said of a queue for all time is proved from that list.

The list is complete for queues of a certain shape only: the hand must fit the
phase, and a closed queue has nothing pending. Clients and worker keep this
shape, so every queue that has ever been started has it.

## Main results

* `ExecutionQueue.turn_of_step` — a step is one of the six deeds.
* `ExecutionQueue.WellFormed.turn` — each of them keeps the shape.
-/

namespace KernelDispatch

namespace Hand

/-- The task that is held, if one is. -/
def task? : Hand → Option Task
  | .empty => none
  | .taken task _ | .launched task _ | .reporting task => some task

/-- The task that is held and has not been handed to the callback yet. -/
def unreported? : Hand → Option Task
  | .empty | .reporting _ => none
  | .taken task _ | .launched task _ => some task

section

variable (task : Task) (program : String) (notice : Notice)

@[simp] theorem task?_empty : empty.task? = none := rfl

@[simp] theorem task?_taken : (taken task program).task? = some task := rfl

@[simp] theorem task?_launched : (launched task notice).task? = some task := rfl

@[simp] theorem task?_reporting : (reporting task).task? = some task := rfl

@[simp] theorem unreported?_empty : empty.unreported? = none := rfl

@[simp] theorem unreported?_taken : (taken task program).unreported? = some task := rfl

@[simp] theorem unreported?_launched : (launched task notice).unreported? = some task := rfl

@[simp] theorem unreported?_reporting : (reporting task).unreported? = none := rfl

end

theorem task?_of_unreported? {hand : Hand} {task : Task} (h : hand.unreported? = some task) :
    hand.task? = some task := by
  cases hand with
  | empty => simp at h
  | reporting => simp at h
  | taken => exact h
  | launched => exact h

/-- Whether this is what a worker holds in a phase. -/
def Fits (phase : Phase) : Hand → Prop
  | .empty => phase = .idle ∨ phase = .closed
  | .taken _ _ => phase = .dispatching
  | .launched _ _ => phase = .inFlight
  | .reporting _ => phase = .completing

end Hand

namespace ExecutionQueue

/-- The shape that clients and worker keep. -/
structure WellFormed (q : ExecutionQueue) : Prop where
  fits : q.hand.Fits q.phase
  /-- Nothing is dropped and nothing goes wrong before the queue is closed. -/
  unharmed : q.phase ≠ .closed → q.dropped = 0 ∧ q.fault = none
  emptied : q.phase = .closed → q.pending = []
  /-- A queue closes because of a fault or because it was asked to. -/
  caused : q.phase = .closed → q.fault = none → q.shutdown ≠ none
  /-- A task that is launched knows the configuration it was made against. -/
  bound : ∀ task notice, q.hand = .launched task notice → task.configuration ≠ none

/-- What a step of the worker does to the tasks of its queue. -/
inductive Deed where
  /-- The first pending task is taken. -/
  | takes (task : Task)
  | launches (task : Task)
  /-- The completed task is handed to the callback. -/
  | reports (task : Task)
  /-- The callback is over, whether it returned or gave up. -/
  | returns (task : Task)
  /-- The queue is closed on request, and these tasks are dropped. -/
  | closes (dropped : List Task)
  /-- The task in hand goes wrong, and with it the pending ones are dropped. -/
  | faults (task : Task) (dropped : List Task)
deriving DecidableEq

/-- The deed that leads from one queue to the next, read off the worker's
hands. -/
def deed (q next : ExecutionQueue) : Deed :=
  match q.hand, next.hand with
  | .empty, .taken task _ => .takes task
  | .empty, _ => .closes q.pending
  | .taken _ _, .launched task _ => .launches task
  | .launched _ _, .reporting task => .reports task
  | .reporting task, _ => .returns task
  | .taken task _, _ | .launched task _, _ => .faults task q.pending

/-- The deeds of a worker, with all that they change. -/
inductive Turn (q : ExecutionQueue) : Deed → ExecutionQueue → Prop where
  | takes {task : Task} {rest : List Task} (hhand : q.hand = .empty) (hphase : q.phase = .idle)
      (hpending : q.pending = task :: rest) (hopen : q.shutdown ≠ some .discard) :
      Turn q (.takes task)
        { q with pending := rest, hand := .taken task q.program, phase := .dispatching }
  | launches {task : Task} {program : String} (hhand : q.hand = .taken task program)
      (hphase : q.phase = .dispatching) (notice : Notice) :
      Turn q (.launches { task with configuration := some program })
        { q with
          hand := .launched { task with configuration := some program } notice
          phase := .inFlight }
  | reports {task : Task} {notice : Notice} (hhand : q.hand = .launched task notice)
      (hphase : q.phase = .inFlight) :
      Turn q (.reports { task with duration := some notice.span })
        { q with
          hand := .reporting { task with duration := some notice.span }
          phase := .completing }
  | returns {task : Task} (hhand : q.hand = .reporting task) (hphase : q.phase = .completing) :
      Turn q (.returns task)
        { q with hand := .empty, completed := q.completed + 1, phase := .idle }
  | closes (hhand : q.hand = .empty) (hphase : q.phase = .idle)
      (hasked : q.shutdown = some .discard ∨ q.shutdown = some .drain ∧ q.pending = []) :
      Turn q (.closes q.pending)
        { q with dropped := q.dropped + q.pending.length, pending := [], phase := .closed }
  | faults {task : Task} (hhand : q.hand.unreported? = some task) (hphase : q.phase.isBusy = true)
      (e : Error) : Turn q (.faults task q.pending) (q.fail e)

/-- The task that a deed hands to the callback. -/
def Deed.reported? : Deed → Option Task
  | .reports task => some task
  | _ => none

/-- What can become of a task. -/
inductive Fate where
  | accepted
  /-- The worker took it. -/
  | taken
  /-- Its callback has begun. -/
  | reported
  /-- Its callback is over. -/
  | returned
  /-- It was dropped while it was pending. -/
  | discarded
  /-- The worker was holding it when it stopped on a fault. -/
  | lost
deriving DecidableEq

/-- The tasks that meet a fate by a deed, in their order. -/
def Deed.tasks : Fate → Deed → List Task
  | .taken, .takes task => [task]
  | .reported, .reports task => [task]
  | .returned, .returns task => [task]
  | .discarded, .closes dropped => dropped
  | .discarded, .faults _ dropped => dropped
  | .lost, .faults task _ => [task]
  | _, _ => []

/-- Tasks of a queue for which no callback has begun, the first of them first. -/
def waiting (q : ExecutionQueue) : List Task := q.hand.unreported?.toList ++ q.pending

/-- How many these are. -/
def openCount (q : ExecutionQueue) : Nat := q.waiting.length

/-- The tasks dropped by a deed that is a fault. -/
def Deed.stop? : Deed → Option (List Task)
  | .faults _ dropped => some dropped
  | _ => none

/-- Whether a fault has stopped the queue, as a number. -/
def faultCount (q : ExecutionQueue) : Nat := if q.fault.isSome then 1 else 0

/-- How many tasks the queue has dropped, if a fault has stopped it. -/
def faultDrops (q : ExecutionQueue) : Nat := if q.fault.isSome then q.dropped else 0

/-! ## The pieces of a step -/

@[simp] theorem hand_fail (q : ExecutionQueue) (e : Error) : (q.fail e).hand = .empty := rfl

@[simp] theorem pending_fail (q : ExecutionQueue) (e : Error) : (q.fail e).pending = [] := rfl

@[simp] theorem dropped_fail (q : ExecutionQueue) (e : Error) :
    (q.fail e).dropped = q.dropped + q.pending.length := rfl

@[simp] theorem fault_fail (q : ExecutionQueue) (e : Error) :
    (q.fail e).fault = some e.message := rfl

/-- A signal that fits does nothing but change the phase. -/
theorem signal_of_on {q : ExecutionQueue} {s : Signal} (phase : Phase)
    (h : q.phase.on s = .ok phase) : q.signal s = { q with phase } := by
  simp only [signal, h]

/-- A worker with empty hands takes a task, closes the queue or waits. -/
theorem turn_of_nextTask {q q' : ExecutionQueue} (hhand : q.hand = .empty)
    (hphase : q.phase = .idle) (h : q.nextTask = some q') : Turn q (q.deed q') q' := by
  unfold nextTask at h
  split at h
  · rename_i hask
    rw [signal_of_on .closed (by simp [dropPending, hphase, Phase.on])] at h
    obtain rfl := Option.some.inj h
    have hturn := Turn.closes hhand hphase (.inl hask)
    simpa [deed, hhand, dropPending] using hturn
  · rename_i hask hpending
    rw [signal_of_on .closed (by simp [hphase, Phase.on])] at h
    obtain rfl := Option.some.inj h
    have hturn := Turn.closes hhand hphase (.inr ⟨hask, hpending⟩)
    simpa [deed, hhand, hpending] using hturn
  · simp at h
  · rename_i task rest hpending hnot
    rw [signal_of_on .dispatching (by simp [hphase, Phase.on])] at h
    obtain rfl := Option.some.inj h
    have hturn := Turn.takes hhand hphase hpending (fun hask => hnot hask)
    simpa [deed, hhand] using hturn

/-- A step is one of the six deeds. The board answers a launch and is otherwise
left alone, and a task is handed out exactly where it is reported. -/
theorem turn_of_step {b b' : Board} {q q' : ExecutionQueue} {done : Option Task}
    (hq : q.WellFormed) (h : q.step b = some (b', q', done)) :
    Turn q (q.deed q') q' ∧ done = (q.deed q').reported? := by
  unfold step at h
  split at h
  · simp at h
  · rename_i hopen
    have hfits := hq.fits
    split at h
    · rename_i hhand
      have hphase : q.phase = .idle := by
        rw [hhand] at hfits
        exact hfits.resolve_right hopen
      obtain ⟨next, hnext, heq⟩ := Option.map_eq_some_iff.1 h
      obtain ⟨rfl, rfl, rfl⟩ : b = b' ∧ next = q' ∧ none = done := by simpa using heq
      have hturn := turn_of_nextTask hhand hphase hnext
      refine ⟨hturn, ?_⟩
      cases hnexthand : next.hand <;> simp [deed, hhand, hnexthand, Deed.reported?]
    · rename_i task program hhand
      have hphase : q.phase = .dispatching := by rwa [hhand] at hfits
      split at h
      · rename_i e board hlaunch
        obtain ⟨rfl, rfl, rfl⟩ : board = b' ∧ q.fail e = q' ∧ none = done := by simpa using h
        have hturn : Turn q (.faults task q.pending) (q.fail e) :=
          .faults (by rw [hhand]; rfl) (by rw [hphase]; rfl) e
        simpa [deed, hhand, Deed.reported?] using hturn
      · rename_i notice board hlaunch
        dsimp only at h
        rw [signal_of_on .inFlight (by simp [hphase, Phase.on])] at h
        simp only [Option.some.injEq, Prod.mk.injEq] at h
        obtain ⟨rfl, rfl, rfl⟩ := h
        have hturn := Turn.launches hhand hphase notice
        simpa [deed, hhand, Deed.reported?] using hturn
    · rename_i task notice hhand
      have hphase : q.phase = .inFlight := by rwa [hhand] at hfits
      split at h
      · simp at h
      · split at h
        · rename_i e hend
          obtain ⟨rfl, rfl, rfl⟩ : b = b' ∧ q.fail e = q' ∧ none = done := by simpa using h
          have hturn : Turn q (.faults task q.pending) (q.fail e) :=
            .faults (by rw [hhand]; rfl) (by rw [hphase]; rfl) e
          simpa [deed, hhand, Deed.reported?] using hturn
        · dsimp only at h
          rw [signal_of_on .completing (by simp [hphase, Phase.on])] at h
          simp only [Option.some.injEq, Prod.mk.injEq] at h
          obtain ⟨rfl, rfl, rfl⟩ := h
          have hturn := Turn.reports hhand hphase
          simpa [deed, hhand, Deed.reported?] using hturn
    · rename_i task hhand
      have hphase : q.phase = .completing := by rwa [hhand] at hfits
      rw [signal_of_on .idle (by simp [hphase, Phase.on])] at h
      simp only [Option.some.injEq, Prod.mk.injEq] at h
      obtain ⟨rfl, rfl, rfl⟩ := h
      have hturn := Turn.returns hhand hphase
      simpa [deed, hhand, Deed.reported?] using hturn

/-! ## The shape is kept -/

theorem wellFormed_start (kernel : String) (deviceQueue : Nat) (program : String) :
    (start kernel deviceQueue program).WellFormed where
  fits := .inl rfl
  unharmed _ := ⟨rfl, rfl⟩
  emptied h := by simp [start] at h
  caused h := by simp [start] at h
  bound _ _ h := by simp [start] at h

namespace WellFormed

variable {q q' : ExecutionQueue}

/-- Each deed of the worker keeps the shape of its queue. -/
theorem turn {d : Deed} (hq : q.WellFormed) (h : Turn q d q') : q'.WellFormed := by
  cases h with
  | takes hhand hphase =>
      have hunharmed := hq.unharmed (by simp [hphase])
      exact ⟨rfl, fun _ => hunharmed, by simp, by simp, by simp⟩
  | launches hhand hphase =>
      have hunharmed := hq.unharmed (by simp [hphase])
      refine ⟨rfl, fun _ => hunharmed, by simp, by simp, fun task notice hlaunched => ?_⟩
      obtain ⟨rfl, -⟩ := Hand.launched.inj hlaunched
      simp
  | reports hhand hphase =>
      have hunharmed := hq.unharmed (by simp [hphase])
      exact ⟨rfl, fun _ => hunharmed, by simp, by simp, by simp⟩
  | returns hhand hphase =>
      have hunharmed := hq.unharmed (by simp [hphase])
      exact ⟨.inl rfl, fun _ => hunharmed, by simp, by simp, by simp⟩
  | closes hhand hphase hasked =>
      refine ⟨?_, by simp, fun _ => rfl, fun _ _ => ?_, by simp [hhand]⟩
      · rw [hhand]
        exact .inr rfl
      · rcases hasked with hasked | ⟨hasked, -⟩ <;> simp [hasked]
  | faults hhand hphase e =>
      exact ⟨.inr (phase_fail q e), fun h => absurd (phase_fail q e) h, fun _ => rfl, by simp,
        by simp⟩

theorem step {b b' : Board} {done : Option Task} (hq : q.WellFormed)
    (h : q.step b = some (b', q', done)) : q'.WellFormed :=
  hq.turn (turn_of_step hq h).1

theorem not_closed_of_enqueue {t : Task} (h : q.enqueue t = .ok q') :
    q.shutdown = none ∧ q.phase ≠ .closed ∧ q' = { q with pending := q.pending ++ [t] } := by
  unfold enqueue at h
  split at h
  · simp at h
  · rename_i hopen
    obtain rfl := Except.ok.inj h
    simp only [isClosing, Bool.or_eq_true, not_or, Bool.not_eq_true, Option.isSome_eq_false_iff,
      Option.isNone_iff_eq_none, beq_iff_eq] at hopen
    exact ⟨hopen.1, hopen.2, rfl⟩

theorem enqueue {t : Task} (hq : q.WellFormed) (h : q.enqueue t = .ok q') : q'.WellFormed := by
  obtain ⟨-, hopen, rfl⟩ := not_closed_of_enqueue h
  exact ⟨hq.fits, hq.unharmed, fun h => absurd h hopen, hq.caused, hq.bound⟩

theorem setProgram (hq : q.WellFormed) (program : String) : (q.setProgram program).WellFormed :=
  ⟨hq.fits, hq.unharmed, hq.emptied, hq.caused, hq.bound⟩

theorem requestDrain (hq : q.WellFormed) : q.requestDrain.WellFormed :=
  ⟨hq.fits, hq.unharmed, hq.emptied, fun _ _ => by simp [ExecutionQueue.requestDrain], hq.bound⟩

theorem requestDiscard (hq : q.WellFormed) : q.requestDiscard.WellFormed :=
  ⟨hq.fits, hq.unharmed, hq.emptied, fun _ _ => by simp [ExecutionQueue.requestDiscard], hq.bound⟩

end WellFormed

/-! ## What a deed counts for -/

theorem not_closed_of_isBusy {phase : Phase} (h : phase.isBusy = true) : phase ≠ .closed := by
  rintro rfl
  simp [Phase.isBusy] at h

section Counts

variable {q q' : ExecutionQueue} {d : Deed}

theorem isIdle_iff : q.isIdle = true ↔ q.pending = [] ∧ q.phase.isBusy = false := by
  simp [isIdle]

theorem completed_of_turn (h : Turn q d q') :
    q'.completed = q.completed + (d.tasks .returned).length := by
  cases h <;> rfl

theorem dropped_of_turn (h : Turn q d q') :
    q'.dropped = q.dropped + (d.tasks .discarded).length := by
  cases h <;> rfl

theorem shutdown_of_turn (h : Turn q d q') : q'.shutdown = q.shutdown := by
  cases h <;> rfl

theorem kernel_of_turn (h : Turn q d q') : q'.kernel = q.kernel := by
  cases h <;> rfl

theorem faultCount_of_turn (hq : q.WellFormed) (h : Turn q d q') :
    q'.faultCount = q.faultCount + (d.tasks .lost).length := by
  cases h with
  | faults hhand hphase e =>
      have hopen := not_closed_of_isBusy hphase
      simp [faultCount, (hq.unharmed hopen).2, Deed.tasks]
  | takes => rfl
  | launches => rfl
  | reports => rfl
  | returns => rfl
  | closes => rfl

theorem openCount_of_turn (h : Turn q d q') :
    q.openCount = q'.openCount + (d.tasks .reported).length + (d.tasks .discarded).length +
      (d.tasks .lost).length := by
  cases h with
  | takes hhand hphase hpending =>
      simp [openCount, waiting, hhand, hpending, Deed.tasks]
  | launches hhand => simp [openCount, waiting, hhand, Deed.tasks]
  | reports hhand => simp [openCount, waiting, hhand, Deed.tasks]
  | returns hhand => simp [openCount, waiting, hhand, Deed.tasks]
  | closes hhand => simp [openCount, waiting, hhand, Deed.tasks]
  | faults hhand hphase e => simp [openCount, waiting, hhand, Deed.tasks]

/-- A queue that was open has dropped nothing before a fault stops it. -/
theorem faultDrops_of_turn (hq : q.WellFormed) (h : Turn q d q') :
    q'.faultDrops = q.faultDrops + (d.stop?.map List.length).getD 0 := by
  cases h with
  | faults hhand hphase e =>
      obtain ⟨hdropped, hfault⟩ := hq.unharmed (not_closed_of_isBusy hphase)
      simp [faultDrops, hdropped, hfault, Deed.stop?]
  | closes hhand hphase =>
      obtain ⟨-, hfault⟩ := hq.unharmed (by simp [hphase])
      simp [faultDrops, hfault, Deed.stop?]
  | takes => rfl
  | launches => rfl
  | reports => rfl
  | returns => rfl

theorem fault_of_turn (h : Turn q d q') :
    q'.fault.isSome = (q.fault.isSome || d.stop?.isSome) := by
  cases h with
  | faults hhand hphase e => simp [Deed.stop?]
  | takes => simp [Deed.stop?]
  | launches => simp [Deed.stop?]
  | reports => simp [Deed.stop?]
  | returns => simp [Deed.stop?]
  | closes => simp [Deed.stop?]

theorem tasks_reported (d : Deed) : d.tasks .reported = d.reported?.toList := by
  cases d <;> rfl

/-- What is handed to the callback knows its configuration and its duration. -/
theorem bound_of_turn (hq : q.WellFormed) (h : Turn q d q') {t : Task}
    (ht : d.reported? = some t) :
    ∃ configuration nanos, t.configuration = some configuration ∧ t.duration = some nanos := by
  cases h with
  | @reports task notice hhand hphase =>
      obtain rfl := Option.some.inj ht
      obtain ⟨configuration, hconfiguration⟩ :=
        Option.ne_none_iff_exists'.1 (hq.bound task notice hhand)
      exact ⟨configuration, notice.span, hconfiguration, rfl⟩
  | takes => simp [Deed.reported?] at ht
  | launches => simp [Deed.reported?] at ht
  | returns => simp [Deed.reported?] at ht
  | closes => simp [Deed.reported?] at ht
  | faults => simp [Deed.reported?] at ht

/-- What is handed to the callback is in the worker's hands. -/
theorem hand_of_reported (h : Turn q d q') {t : Task} (ht : d.reported? = some t) :
    q'.hand = .reporting t := by
  cases h with
  | reports => exact congrArg Hand.reporting (Option.some.inj ht)
  | takes => simp [Deed.reported?] at ht
  | launches => simp [Deed.reported?] at ht
  | returns => simp [Deed.reported?] at ht
  | closes => simp [Deed.reported?] at ht
  | faults => simp [Deed.reported?] at ht

/-- Nothing is left on an idle queue. -/
theorem waiting_of_idle (hq : q.WellFormed) (hidle : q.isIdle = true) : q.waiting = [] := by
  obtain ⟨hpending, hbusy⟩ := isIdle_iff.1 hidle
  have hfits := hq.fits
  have hnone : q.hand.unreported? = none := by
    cases hhand : q.hand with
    | empty => rfl
    | reporting => rfl
    | taken =>
        rw [hhand] at hfits
        simp [show q.phase = .dispatching from hfits, Phase.isBusy] at hbusy
    | launched =>
        rw [hhand] at hfits
        simp [show q.phase = .inFlight from hfits, Phase.isBusy] at hbusy
  simp [waiting, hpending, hnone]

/-- The worker of an idle queue can do no more than close it on request. -/
theorem closes_of_idle (hidle : q.isIdle = true) (h : Turn q d q') :
    d = .closes [] ∧ q.shutdown ≠ none ∧ q'.isIdle = true ∧ q'.fault = q.fault := by
  obtain ⟨hpending, hbusy⟩ := isIdle_iff.1 hidle
  cases h with
  | takes _ _ htask => simp [hpending] at htask
  | launches _ hphase => simp [hphase, Phase.isBusy] at hbusy
  | reports _ hphase => simp [hphase, Phase.isBusy] at hbusy
  | returns _ hphase => simp [hphase, Phase.isBusy] at hbusy
  | closes _ _ hasked =>
      rw [hpending]
      refine ⟨rfl, ?_, rfl, rfl⟩
      rcases hasked with hasked | ⟨hasked, -⟩ <;> simp [hasked]
  | faults _ hphase => simp [hphase] at hbusy

theorem isIdle_of_closed (hq : q.WellFormed) (hclosed : q.phase = .closed) : q.isIdle = true := by
  rw [isIdle, hq.emptied hclosed, hclosed]
  rfl

theorem openCount_enqueue {t : Task} (h : q.enqueue t = .ok q') :
    q'.openCount = q.openCount + 1 := by
  obtain ⟨-, -, rfl⟩ := WellFormed.not_closed_of_enqueue h
  simp only [openCount, waiting, List.length_append, List.length_singleton]
  omega

end Counts

/-! ## Notices let through -/

section Release

variable (q : ExecutionQueue)

@[simp] theorem phase_release : q.release.phase = q.phase := by
  unfold release
  split <;> rfl

@[simp] theorem pending_release : q.release.pending = q.pending := by
  unfold release
  split <;> rfl

@[simp] theorem shutdown_release : q.release.shutdown = q.shutdown := by
  unfold release
  split <;> rfl

@[simp] theorem completed_release : q.release.completed = q.completed := by
  unfold release
  split <;> rfl

@[simp] theorem dropped_release : q.release.dropped = q.dropped := by
  unfold release
  split <;> rfl

@[simp] theorem fault_release : q.release.fault = q.fault := by
  unfold release
  split <;> rfl

@[simp] theorem task?_release : q.release.hand.task? = q.hand.task? := by
  unfold release
  split
  · rename_i hhand
    simp [hhand]
  · rfl

@[simp] theorem unreported?_release : q.release.hand.unreported? = q.hand.unreported? := by
  unfold release
  split
  · rename_i hhand
    simp [hhand]
  · rfl

end Release

theorem WellFormed.release {q : ExecutionQueue} (hq : q.WellFormed) : q.release.WellFormed := by
  have hfits := hq.fits
  have hhand : q.release.hand.Fits q.phase := by
    unfold ExecutionQueue.release
    split
    · rename_i hhand
      rw [hhand] at hfits
      exact hfits
    · exact hfits
  have hbound : ∀ task notice, q.release.hand = .launched task notice →
      task.configuration ≠ none := by
    intro task notice h
    unfold ExecutionQueue.release at h
    split at h
    · rename_i held _ hhand
      obtain ⟨rfl, -⟩ := Hand.launched.inj h
      exact hq.bound _ _ hhand
    · exact hq.bound task notice h
  exact ⟨by simpa using hhand, by simpa using hq.unharmed, by simpa using hq.emptied,
    by simpa using hq.caused, hbound⟩

/-! ## What clients leave alone -/

/-- The tasks of a queue are where they were, and so is its worker. -/
structure SameTasks (q q' : ExecutionQueue) : Prop where
  phase : q'.phase = q.phase
  held : q'.hand.task? = q.hand.task?
  unreported : q'.hand.unreported? = q.hand.unreported?
  pending : q'.pending = q.pending
  completed : q'.completed = q.completed
  dropped : q'.dropped = q.dropped
  fault : q'.fault = q.fault

namespace SameTasks

variable (q : ExecutionQueue)

theorem refl : SameTasks q q := ⟨rfl, rfl, rfl, rfl, rfl, rfl, rfl⟩

theorem setProgram (program : String) : SameTasks q (q.setProgram program) :=
  ⟨rfl, rfl, rfl, rfl, rfl, rfl, rfl⟩

theorem requestDrain : SameTasks q q.requestDrain := ⟨rfl, rfl, rfl, rfl, rfl, rfl, rfl⟩

theorem requestDiscard : SameTasks q q.requestDiscard := ⟨rfl, rfl, rfl, rfl, rfl, rfl, rfl⟩

theorem release : SameTasks q q.release :=
  ⟨phase_release q, task?_release q, unreported?_release q, pending_release q,
    completed_release q, dropped_release q, fault_release q⟩

variable {q} {q' : ExecutionQueue}

theorem trans {q'' : ExecutionQueue} (h : SameTasks q q') (h' : SameTasks q' q'') :
    SameTasks q q'' :=
  ⟨h'.phase.trans h.phase, h'.held.trans h.held, h'.unreported.trans h.unreported,
    h'.pending.trans h.pending, h'.completed.trans h.completed, h'.dropped.trans h.dropped,
    h'.fault.trans h.fault⟩

theorem waiting (h : SameTasks q q') : q'.waiting = q.waiting := by
  rw [ExecutionQueue.waiting, h.unreported, h.pending, ExecutionQueue.waiting]

end SameTasks

end ExecutionQueue

end KernelDispatch
