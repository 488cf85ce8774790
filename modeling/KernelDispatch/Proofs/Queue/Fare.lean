import KernelDispatch.Proofs.Queue.Course
import KernelDispatch.Proofs.Queue.Likeness

/-!
# What becomes of the tasks of a queue

How long a task takes, or why it goes wrong, is decided by the board alone. So it is
decided in advance what becomes of the tasks of a queue that nobody asks to close: they
are completed one after the other up to the first that goes wrong, and no task behind
that one is. When the tasks are offered plays no part. Those behind the one that goes
wrong are dropped if they were on the queue by then, and turned away if they come later,
and nothing else in the queue tells these apart.

## Main definitions

* `Board.fare` — what becomes of a list of tasks.
* `ExecutionQueue.Progress` — how far a queue has come with the tasks offered to it.

## Main results

* `ExecutionQueue.stride_of_step` — a step, and what the board had to say in it.
* `ExecutionQueue.Progress.step` — each step brings a queue further.
* `ExecutionQueue.Progress.settled` — an idle queue, from the tasks offered to it.
-/

namespace KernelDispatch

namespace Task

/-- A task that was made against a program and completed. -/
def finished (program : String) (nanos : Nat) (t : Task) : Task :=
  { t with configuration := some program, duration := some nanos }

end Task

namespace Board

/-- What becomes of tasks that are made against a program one after the other: how long
those before the first that goes wrong take, and why that one goes wrong. -/
def fare (b : Board) (program : String) : List Task → List (Task × Nat) × Option Error
  | [] => ([], none)
  | t :: rest =>
      match b.outcome program t with
      | .error e => ([], some e)
      | .ok nanos => ((t, nanos) :: (fare b program rest).1, (fare b program rest).2)

/-- Whether these tasks are completed in these times. -/
def Completes (b : Board) (program : String) (done : List (Task × Nat)) : Prop :=
  ∀ task ∈ done, b.outcome program task.1 = .ok task.2

variable {b : Board} {program : String}

theorem outcome_asOffered (b : Board) (program : String) (t : Task) :
    b.outcome program t.asOffered = b.outcome program t := rfl

/-- Whether notices are kept back does not decide what they say. -/
theorem outcome_holding (b : Board) (on : Bool) (program : String) (t : Task) :
    ({ b with holding := on } : Board).outcome program t = b.outcome program t := by
  have hreport : ({ b with holding := on } : Board).report true program t =
      b.report true program t := by
    have hprograms : ({ b with holding := on } : Board).programs = b.programs := rfl
    unfold report
    rw [hprograms]
    cases b.programs.get? program with
    | none => rfl
    | some p =>
        dsimp only
        cases t.kernelFor p with
        | error e => rfl
        | ok kernel =>
            unfold submit
            dsimp only
            split
            · rfl
            · rfl
            · simp [Except.map]
  unfold outcome
  rw [hreport]

/-- Tasks that are completed come before what is left. -/
theorem fare_append {done : List (Task × Nat)} (h : b.Completes program done) (rest : List Task) :
    b.fare program (done.map Prod.fst ++ rest) =
      (done ++ (b.fare program rest).1, (b.fare program rest).2) := by
  induction done with
  | nil => rfl
  | cons task done ih =>
      have hrest := ih fun other hother => h other (List.mem_cons_of_mem _ hother)
      have htask := h task List.mem_cons_self
      simp only [List.map_cons, List.cons_append, fare, htask, hrest]

theorem Completes.concat {done : List (Task × Nat)} (h : b.Completes program done) {t : Task}
    {nanos : Nat} (ht : b.outcome program t = .ok nanos) :
    b.Completes program (done ++ [(t, nanos)]) := by
  intro task htask
  rcases List.mem_append.1 htask with hmem | hmem
  · exact h task hmem
  · rw [List.mem_singleton.1 hmem]
    exact ht

end Board

/-- Whether what a worker holds was made against a program, and its notice says what
the board has decided. -/
def Hand.Keeps (b : Board) (program : String) : Hand → Prop
  | .empty => True
  | .taken _ held => held = program
  | .launched task notice =>
      task.configuration = some program ∧
        b.outcome program task = notice.ending.await.map fun _ => notice.span
  | .reporting _ => True

/-- How many callbacks a worker has begun and not ended. -/
def Hand.begun : Hand → Nat
  | .reporting _ => 1
  | _ => 0

namespace ExecutionQueue

/-! ## Steps -/

/-- The steps of a worker whose queue is not asked to close, and what the board had to
say in each. -/
inductive Stride (b : Board) (q : ExecutionQueue) : Option Task → ExecutionQueue → Prop where
  | takes {task : Task} {rest : List Task} (hhand : q.hand = .empty)
      (hpending : q.pending = task :: rest) :
      Stride b q none
        { q with pending := rest, hand := .taken task q.program, phase := .dispatching }
  | launches {task : Task} {program : String} {notice : Notice}
      (hhand : q.hand = .taken task program)
      (hreport : b.outcome program task = notice.ending.await.map fun _ => notice.span) :
      Stride b q none
        { q with
          hand := .launched { task with configuration := some program } notice
          phase := .inFlight }
  | reports {task : Task} {notice : Notice} (hhand : q.hand = .launched task notice)
      (hending : notice.ending.await = .ok ()) :
      Stride b q (some { task with duration := some notice.span })
        { q with
          hand := .reporting { task with duration := some notice.span }
          phase := .completing }
  | returns {task : Task} (hhand : q.hand = .reporting task) :
      Stride b q none { q with hand := .empty, completed := q.completed + 1, phase := .idle }
  /-- The task in hand is not launched. -/
  | fails {task : Task} {program : String} {e : Error} (hhand : q.hand = .taken task program)
      (hreport : b.outcome program task = .error e) : Stride b q none (q.fail e)
  /-- The launch of the task in hand is not reported as a success. -/
  | spoils {task : Task} {notice : Notice} {e : Error} (hhand : q.hand = .launched task notice)
      (hending : notice.ending.await = .error e) : Stride b q none (q.fail e)

/-- A worker whose queue is not asked to close takes one of these steps. -/
theorem stride_of_step {b b' : Board} {q q' : ExecutionQueue} {done : Option Task}
    (hb : b.Faithful) (hq : q.WellFormed) (hopen : q.shutdown = none)
    (h : q.step b = some (b', q', done)) : Stride b q done q' := by
  have hfits := hq.fits
  unfold step at h
  split at h
  · simp at h
  · rename_i hphase
    split at h
    · rename_i hhand
      rw [hhand] at hfits
      have hidle : q.phase = .idle := hfits.resolve_right hphase
      obtain ⟨next, hnext, heq⟩ := Option.map_eq_some_iff.1 h
      obtain ⟨rfl, rfl, rfl⟩ : b = b' ∧ next = q' ∧ none = done := by simpa using heq
      have hturn := turn_of_nextTask hhand hidle hnext
      generalize q.deed next = d at hturn
      cases hturn with
      | takes _ _ hpending => exact .takes hhand hpending
      | launches hheld => simp [hhand] at hheld
      | reports hheld => simp [hhand] at hheld
      | returns hheld => simp [hhand] at hheld
      | closes _ _ hasked => simp [hopen] at hasked
      | faults hheld => simp [hhand] at hheld
    · rename_i task program hhand
      rw [hhand] at hfits
      have hdispatching : q.phase = .dispatching := hfits
      have hreport := Board.launch_eq_report hb q.deviceQueue q.shutdown.isSome program task
      split at h
      · rename_i e board hlaunch
        rw [hlaunch] at hreport
        obtain ⟨rfl, rfl, rfl⟩ : board = b' ∧ q.fail e = q' ∧ none = done := by simpa using h
        exact .fails hhand (Board.outcome_of_error hreport.symm)
      · rename_i notice board hlaunch
        rw [hlaunch] at hreport
        dsimp only at h
        rw [signal_of_on .inFlight (by simp [hdispatching, Phase.on])] at h
        simp only [Option.some.injEq, Prod.mk.injEq] at h
        obtain ⟨rfl, rfl, rfl⟩ := h
        exact .launches hhand (Board.outcome_of_ok hreport.symm)
    · rename_i task notice hhand
      rw [hhand] at hfits
      have hflight : q.phase = .inFlight := hfits
      split at h
      · simp at h
      · split at h
        · rename_i e hending
          obtain ⟨rfl, rfl, rfl⟩ : b = b' ∧ q.fail e = q' ∧ none = done := by simpa using h
          exact .spoils hhand hending
        · rename_i hending
          dsimp only at h
          rw [signal_of_on .completing (by simp [hflight, Phase.on])] at h
          simp only [Option.some.injEq, Prod.mk.injEq] at h
          obtain ⟨rfl, rfl, rfl⟩ := h
          exact .reports hhand hending
    · rename_i task hhand
      rw [hhand] at hfits
      have hcompleting : q.phase = .completing := hfits
      rw [signal_of_on .idle (by simp [hcompleting, Phase.on])] at h
      simp only [Option.some.injEq, Prod.mk.injEq] at h
      obtain ⟨rfl, rfl, rfl⟩ := h
      exact .returns hhand

/-! ## How far a queue has come -/

/-- What a queue keeps that is not asked to close and not bound to another program. -/
structure Unasked (program : String) (before q : ExecutionQueue) : Prop where
  wellFormed : q.WellFormed
  kernel : q.kernel = before.kernel
  program : q.program = program
  shutdown : q.shutdown = none

/-- How far a queue has come since it was idle: these tasks were offered to it, and
these were completed in these times. -/
inductive Progress (b : Board) (program : String) (before : ExecutionQueue) (due : List Task)
    (done : List (Task × Nat)) (q : ExecutionQueue) : Prop where
  | going (hopen : Unasked program before q) (hphase : q.phase ≠ .closed)
      (hbefore : before.phase ≠ .closed)
      (hdue : done.map Prod.fst ++ offered q.waiting = due) (hdone : b.Completes program done)
      (hcompleted : q.completed + q.hand.begun = before.completed + done.length)
      (hhand : q.hand.Keeps b program)
  /-- A task has gone wrong. -/
  | halted {bad : Task} {rest : List Task} {e : Error} (hopen : Unasked program before q)
      (hphase : q.phase = .closed) (hbefore : before.phase ≠ .closed)
      (hdue : done.map Prod.fst ++ bad :: rest = due) (hdone : b.Completes program done)
      (hbad : b.outcome program bad = .error e) (hfault : q.fault = some e.message)
      (hcompleted : q.completed = before.completed + done.length)
  /-- The queue was closed before. -/
  | shut (hopen : Unasked program before q) (hbefore : before.phase = .closed) (hsame : q = before)
      (hnone : done = [])

theorem hand_of_idle {q : ExecutionQueue} (hq : q.WellFormed)
    (hidle : q.isIdle = true) : q.hand = .empty := by
  have hbusy := (isIdle_iff.1 hidle).2
  have hfits := hq.fits
  cases hhand : q.hand <;> simp_all [Hand.Fits, Phase.isBusy]

theorem release_of_closed {q : ExecutionQueue} (hq : q.WellFormed) (hclosed : q.phase = .closed) :
    q.release = q := by
  have hfits := hq.fits
  cases hhand : q.hand <;> simp_all [ExecutionQueue.release, Hand.Fits]

namespace Progress

variable {b : Board} {program : String} {before q q' : ExecutionQueue} {due : List Task}
  {done : List (Task × Nat)}

theorem start (hopen : Unasked program before before) (hidle : before.isIdle = true) :
    Progress b program before [] [] before := by
  by_cases hphase : before.phase = .closed
  · exact .shut hopen hphase rfl rfl
  · have hempty := hand_of_idle hopen.wellFormed hidle
    refine .going hopen hphase hphase ?_ (by simp [Board.Completes]) ?_ ?_
    · rw [waiting_of_idle hopen.wellFormed hidle]
      rfl
    · rw [hempty]
      rfl
    · rw [hempty]
      trivial

/-- A task that is accepted. -/
theorem enqueue {t : Task} (h : Progress b program before due done q)
    (hnext : q.enqueue t = .ok q') :
    Progress b program before (due ++ [t.asOffered]) done q' := by
  obtain ⟨-, hphase, rfl⟩ := WellFormed.not_closed_of_enqueue hnext
  cases h with
  | going hopen _ hbefore hdue hdone hcompleted hhand =>
      refine .going ⟨hopen.wellFormed.enqueue hnext, hopen.kernel, hopen.program, hopen.shutdown⟩
        hphase hbefore ?_ hdone hcompleted hhand
      rw [← hdue]
      simp [waiting, offered]
  | halted _ hclosed => exact absurd hclosed hphase
  | shut _ hbefore hsame => exact absurd (hsame ▸ hbefore) hphase

/-- The first task of a new queue. -/
theorem start_enqueue (b : Board) (kernel : String) (number : Nat) (program : String) (t : Task) :
    Progress b program (.start kernel number program) [t.asOffered] []
      { ExecutionQueue.start kernel number program with pending := [t] } :=
  (Progress.start ⟨wellFormed_start kernel number program, rfl, rfl, rfl⟩ rfl).enqueue rfl

/-- A task that is turned away. -/
theorem refuse {t : Task} {e : Error} (h : Progress b program before due done q)
    (hrefused : q.enqueue t = .error e) :
    Progress b program before (due ++ [t.asOffered]) done q := by
  cases h with
  | going hopen hphase =>
      simp [ExecutionQueue.enqueue, isClosing, hopen.shutdown, hphase] at hrefused
  | @halted bad rest e hopen hphase hbefore hdue hdone hbad hfault hcompleted =>
      have hlonger :
          done.map Prod.fst ++ bad :: (rest ++ [t.asOffered]) = due ++ [t.asOffered] := by
        rw [← hdue, List.append_assoc, List.cons_append]
      exact .halted hopen hphase hbefore hlonger hdone hbad hfault hcompleted
  | shut hopen hbefore hsame hnone => exact .shut hopen hbefore hsame hnone

theorem release (h : Progress b program before due done q) :
    Progress b program before due done q.release := by
  cases h with
  | going hopen hphase hbefore hdue hdone hcompleted hhand =>
      have hreporting : q.release.hand.begun = q.hand.begun ∧
          q.release.hand.Keeps b program := by
        cases hheld : q.hand with
        | empty => simp [ExecutionQueue.release, hheld, Hand.Keeps]
        | taken task held =>
            rw [hheld] at hhand
            simp only [ExecutionQueue.release, hheld]
            exact ⟨trivial, hhand⟩
        | launched task notice =>
            rw [hheld] at hhand
            simp only [ExecutionQueue.release, hheld]
            exact ⟨rfl, hhand⟩
        | reporting task => simp [ExecutionQueue.release, hheld, Hand.Keeps]
      refine .going ⟨hopen.wellFormed.release, ?_, ?_, by simpa using hopen.shutdown⟩
        (by simpa using hphase) hbefore ?_ hdone ?_ hreporting.2
      · rw [← hopen.kernel]
        unfold ExecutionQueue.release
        split <;> rfl
      · rw [← hopen.program]
        unfold ExecutionQueue.release
        split <;> rfl
      · rw [(SameTasks.release q).waiting, hdue]
      · rw [completed_release, hreporting.1, hcompleted]
  | halted hopen hphase hbefore hdue hdone hbad hfault hcompleted =>
      rw [release_of_closed hopen.wellFormed hphase]
      exact .halted hopen hphase hbefore hdue hdone hbad hfault hcompleted
  | shut hopen hbefore hsame hnone =>
      rw [release_of_closed hopen.wellFormed (hsame ▸ hbefore)]
      exact .shut hopen hbefore hsame hnone

/-- The first task that goes wrong. -/
theorem halt {bad : Task} {rest : List Task} {e : Error} (hopen : Unasked program before q)
    (hfailed : (q.fail e).WellFormed) (hbefore : before.phase ≠ .closed)
    (hdue : done.map Prod.fst ++ bad.asOffered :: rest = due) (hdone : b.Completes program done)
    (hbad : b.outcome program bad = .error e)
    (hcompleted : q.completed = before.completed + done.length) :
    Progress b program before due done (q.fail e) :=
  .halted ⟨hfailed, hopen.kernel, hopen.program, hopen.shutdown⟩ (phase_fail q e) hbefore hdue
    hdone ((b.outcome_asOffered program bad).trans hbad) rfl hcompleted

/-- Each step brings a queue further, on any board that decides alike. -/
theorem step {now after : Board} {result : Option Task} (hnow : now.Faithful)
    (halike : ∀ t, now.outcome program t = b.outcome program t)
    (h : Progress b program before due done q) (hstep : q.step now = some (after, q', result)) :
    (result = none → Progress b program before due done q') ∧
      ∀ t, result = some t → ∃ nanos, t.configuration = some program ∧ t.duration = some nanos ∧
        Progress b program before due (done ++ [(t.asOffered, nanos)]) q' := by
  have hclosed : q.phase ≠ .closed := by
    intro hclosed
    simp [ExecutionQueue.step, hclosed] at hstep
  cases h with
  | halted _ hphase => exact absurd hphase hclosed
  | shut _ hbefore hsame => exact absurd (hsame ▸ hbefore) hclosed
  | going hopen hphase hbefore hdue hdone hcompleted hhand =>
      have hafter := hopen.wellFormed.step hstep
      cases stride_of_step hnow hopen.wellFormed hopen.shutdown hstep with
      | takes hheld hpending =>
          refine ⟨fun _ => ?_, by simp⟩
          refine .going ⟨hafter, hopen.kernel, hopen.program, hopen.shutdown⟩ (by simp) hbefore ?_
            hdone ?_ hopen.program
          · rw [← hdue]
            simp [waiting, hheld, hpending]
          · rw [← hcompleted, hheld]
            rfl
      | @launches task held notice hheld hreport =>
          rw [hheld] at hhand hcompleted
          obtain rfl : held = program := hhand
          refine ⟨fun _ => ?_, by simp⟩
          refine .going ⟨hafter, hopen.kernel, hopen.program, hopen.shutdown⟩ (by simp) hbefore ?_
            hdone hcompleted ⟨rfl, ?_⟩
          · rw [← hdue]
            simp [waiting, hheld]
          · exact (halike task).symm.trans hreport
      | @reports task notice hheld hending =>
          rw [hheld] at hhand hcompleted
          obtain ⟨hconfiguration, houtcome⟩ := hhand
          rw [hending] at houtcome
          refine ⟨by simp, fun t ht => ⟨notice.span, ?_⟩⟩
          obtain rfl := Option.some.inj ht
          refine ⟨hconfiguration, rfl, ?_⟩
          refine .going ⟨hafter, hopen.kernel, hopen.program, hopen.shutdown⟩ (by simp) hbefore ?_
            (hdone.concat houtcome) ?_ trivial
          · rw [← hdue]
            simp [waiting, hheld]
          · rw [List.length_append, ← Nat.add_assoc, ← hcompleted]
            rfl
      | returns hheld =>
          rw [hheld] at hcompleted
          refine ⟨fun _ => ?_, by simp⟩
          refine .going ⟨hafter, hopen.kernel, hopen.program, hopen.shutdown⟩ (by simp) hbefore ?_
            hdone hcompleted trivial
          rw [← hdue]
          simp [waiting, hheld]
      | @fails task held e hheld hreport =>
          rw [hheld] at hhand hcompleted
          obtain rfl : held = program := hhand
          have hall : done.map Prod.fst ++ task.asOffered :: offered q.pending = due := by
            rw [← hdue]
            simp [waiting, hheld]
          exact ⟨fun _ => halt hopen hafter hbefore hall hdone
            ((halike task).symm.trans hreport) hcompleted, by simp⟩
      | @spoils task notice e hheld hending =>
          rw [hheld] at hhand hcompleted
          obtain ⟨-, houtcome⟩ := hhand
          rw [hending] at houtcome
          have hall : done.map Prod.fst ++ task.asOffered :: offered q.pending = due := by
            rw [← hdue]
            simp [waiting, hheld]
          exact ⟨fun _ => halt hopen hafter hbefore hall hdone houtcome hcompleted, by simp⟩

end Progress

/-! ## Idle queues -/

/-- A queue without its number on the device and without a count of what it has dropped. -/
def bare (q : ExecutionQueue) : ExecutionQueue := { q with deviceQueue := 0, dropped := 0 }

theorem eq_of_bare {q q' : ExecutionQueue} (hbare : q'.bare = q.bare)
    (hnumber : q'.deviceQueue = q.deviceQueue) (hdropped : q'.dropped = q.dropped) : q' = q := by
  cases q
  cases q'
  simp_all [bare]

/-- The tasks that a queue completes of those that are offered to it, and their times. -/
def completions (before : ExecutionQueue) (b : Board) (program : String) (due : List Task) :
    List (Task × Nat) :=
  if before.phase = .closed then [] else (b.fare program due).1

/-- What a queue comes to when it has done what can be done of the tasks that are
offered to it. -/
def ended (before : ExecutionQueue) (b : Board) (program : String) (due : List Task) :
    ExecutionQueue :=
  if before.phase = .closed then before.bare
  else
    { kernel := before.kernel
      deviceQueue := 0
      program
      phase := if (b.fare program due).2.isSome then .closed else .idle
      completed := before.completed + (b.fare program due).1.length
      fault := (b.fare program due).2.map Error.message }

section Settled

variable {b : Board} {program : String} {before q : ExecutionQueue} {due : List Task}
  {done : List (Task × Nat)}

/-- An idle queue, from the tasks that were offered to it. -/
theorem Progress.settled (h : Progress b program before due done q) (hidle : q.isIdle = true) :
    q.bare = before.ended b program due ∧ done = before.completions b program due := by
  unfold ended completions
  cases h with
  | shut _ hbefore hsame hnone =>
      rw [if_pos hbefore, if_pos hbefore, hsame]
      exact ⟨rfl, hnone⟩
  | going hopen hphase hbefore hdue hdone hcompleted =>
      obtain ⟨hpending, hbusy⟩ := isIdle_iff.1 hidle
      have hhand := hand_of_idle hopen.wellFormed hidle
      have hfare := Board.fare_append hdone []
      have hidlePhase : q.phase = .idle := by
        cases hq : q.phase <;> simp_all [Phase.isBusy]
      rw [waiting_of_idle hopen.wellFormed hidle] at hdue
      rw [show ([] : List Task) = offered [] from rfl, hdue] at hfare
      rw [hhand] at hcompleted
      have hfault := (hopen.wellFormed.unharmed hphase).2
      have hcompleted : q.completed = before.completed + done.length := hcompleted
      rw [if_neg hbefore, if_neg hbefore, hfare]
      simp only [bare, offered, List.map_nil, Board.fare, List.append_nil, Option.isSome_none,
        Bool.false_eq_true, if_false, Option.map_none, hpending, hhand, hidlePhase, hcompleted,
        hfault, hopen.kernel, hopen.program, hopen.shutdown, and_self]
  | @halted bad rest e hopen hphase hbefore hdue hdone hbad hfault hcompleted =>
      have hhand := hand_of_idle hopen.wellFormed hidle
      have hpending := hopen.wellFormed.emptied hphase
      have hfare := Board.fare_append hdone (bad :: rest)
      rw [hdue] at hfare
      rw [if_neg hbefore, if_neg hbefore, hfare]
      simp only [bare, Board.fare, hbad, List.append_nil, Option.isSome_some, if_true,
        Option.map_some, hpending, hhand, hphase, hcompleted, hfault, hopen.kernel, hopen.program,
        hopen.shutdown, and_self]

end Settled

/-- A queue that no fault has stopped and that nobody asked to close has dropped nothing. -/
theorem WellFormed.dropped {q : ExecutionQueue} (hq : q.WellFormed) (hopen : q.shutdown = none)
    (hfault : q.fault = none) : q.dropped = 0 := by
  by_cases hphase : q.phase = .closed
  · exact absurd hopen (hq.caused hphase hfault)
  · exact (hq.unharmed hphase).1

end ExecutionQueue

end KernelDispatch
