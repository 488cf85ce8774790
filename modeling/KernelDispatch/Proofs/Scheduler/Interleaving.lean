import KernelDispatch.Proofs.Scheduler.Accounts
import KernelDispatch.Proofs.Scheduler.Calls

/-!
# The order of steps does not matter

Tasks are offered in some order to an idle scheduler, and when all of them are dealt with,
the faults are collected. In between, workers and device take their steps in any order
and at any place. What is left in the end is always the same: the records of each
kernel, the measurements, the queues and the faults. Where a task goes wrong, those
behind it are dropped in one order and turned away in another; the counters tell these
apart, but not the difference between what was submitted and what was dropped.

## Main definitions

* `Numbering` — the numbers of the queues on the device.
* `Ledger` — counters and what they count.
* `Concurs` — courses that come to the same end.

## Main results

* `Along.concurs` — what was offered decides the end.
* `Course.order_immaterial` — what follows for every course.
-/

namespace KernelDispatch

namespace Scheduler

variable {c c' c₀ : Course} {m : Move} {kernel : String} {tasks : List Task}

/-- How many queues were made, and the number of each. -/
structure Numbering where
  made : Nat
  number : String → Option Nat

/-- The numbers of the queues of a scheduler. -/
def numbering (s : Scheduler) : Numbering where
  made := s.board.device.queuesCreated
  number kernel := (s.queues.get? kernel).map ExecutionQueue.deviceQueue

/-- The numbers after a task was offered: its queue gets the next one, if it is new. -/
def Numbering.offer (refuses : Bool) (n : Numbering) (t : Task) : Numbering :=
  if refuses || (n.number t.kernel).isSome then n
  else
    { made := n.made + 1
      number := fun kernel => if kernel = t.kernel then some n.made else n.number kernel }

theorem numbering_eq {s s' : Scheduler}
    (hmade : s'.board.device.queuesCreated = s.board.device.queuesCreated)
    (hnumber : ∀ kernel, (s'.queues.get? kernel).map ExecutionQueue.deviceQueue =
      (s.queues.get? kernel).map ExecutionQueue.deviceQueue) : s'.numbering = s.numbering := by
  unfold numbering
  rw [hmade, funext hnumber]

/-- Putting one queue in the place of another that has its number. -/
theorem number_insert {s : Scheduler} {queue next : ExecutionQueue}
    (hqueue : s.queues.get? kernel = some queue) (hnext : next.deviceQueue = queue.deviceQueue)
    (name : String) :
    ((s.queues.insert kernel next).get? name).map ExecutionQueue.deviceQueue =
      (s.queues.get? name).map ExecutionQueue.deviceQueue := by
  rw [NameMap.get?_insert]
  split
  · rename_i hname
    rw [hname, hqueue, Option.map_some, Option.map_some, hnext]
  · rfl

/-- Only an offered task has a queue made. -/
theorem Stirs.numbering (hsound : Sound c) (h : Stirs c m c') :
    c'.scheduler.numbering =
      if c.scheduler.current.isSome then
        m.offer?.toList.foldl (Numbering.offer c.scheduler.board.device.refusesQueues)
          c.scheduler.numbering
      else c.scheduler.numbering := by
  cases h with
  | holds => split <;> rfl
  | rests => split <;> rfl
  | releases other =>
      have hsame : (c.scheduler.updateQueue other ExecutionQueue.release).numbering =
          c.scheduler.numbering := by
        refine numbering_eq (by rw [updateQueue_eq]) fun name => ?_
        rw [get?_updateQueue]
        split
        · rw [Option.map_map]
          congr 1
          funext q
          exact q.deviceQueue_release
        · rfl
      dsimp only
      rw [hsame]
      split <;> rfl
  | @works kernel queue next board done hqueue hstep =>
      have hsame : (c.scheduler.entered kernel board next done).numbering =
          c.scheduler.numbering :=
        numbering_eq (ExecutionQueue.queuesCreated_of_step hstep)
          (number_insert hqueue (ExecutionQueue.deviceQueue_of_turn (hsound.turn hqueue hstep).1))
      dsimp only
      rw [hsame]
      split <;> rfl
  | declines task hcurrent => simp [hcurrent]
  | refuses hcurrent hqueue =>
      simp [hcurrent, Move.offer?, Numbering.offer, numbering, hqueue, passed]
  | starves hcurrent hnone hrefuses =>
      simp [hcurrent, Move.offer?, Numbering.offer, numbering, hrefuses, passed]
  | @accepts task program queue next hcurrent hqueue hnext =>
      have hnumber : next.deviceQueue = queue.deviceQueue := by
        obtain ⟨-, -, rfl⟩ := ExecutionQueue.WellFormed.not_closed_of_enqueue hnext
        rfl
      have hsame : (c.scheduler.seated c.scheduler.board task.kernel next).numbering =
          c.scheduler.numbering := numbering_eq rfl (number_insert hqueue hnumber)
      have hhas : (c.scheduler.numbering.number task.kernel).isSome = true := by
        simp [numbering, hqueue]
      dsimp only
      rw [hsame, hcurrent]
      simp [Move.offer?, Numbering.offer, hhas]
  | @opens task program hcurrent hnone hrefuses =>
      have hhas : (c.scheduler.numbering.number task.kernel).isSome = false := by
        simp [numbering, hnone]
      have hoffer : c.scheduler.numbering.offer false task =
          { made := c.scheduler.numbering.made + 1
            number := fun kernel => if kernel = task.kernel then some c.scheduler.numbering.made
              else c.scheduler.numbering.number kernel } := by
        simp [Numbering.offer, hhas]
      rw [hcurrent, hrefuses, Option.isSome_some, if_pos rfl]
      show _ = c.scheduler.numbering.offer false task
      rw [hoffer]
      unfold numbering
      congr 1
      · simp [seated, withQueue, Device.queuesCreated]
      · funext kernel
        dsimp only [seated]
        rw [NameMap.get?_insert]
        split <;> rfl

theorem numbering_run (h : Along c₀ tasks c) {moves : List Move}
    (hmoves : ∀ m ∈ moves, m.stirs = true) :
    (c.run moves).scheduler.numbering =
      if c₀.scheduler.current.isSome then
        (offers moves).foldl (Numbering.offer c₀.scheduler.board.device.refusesQueues)
          c.scheduler.numbering
      else c.scheduler.numbering := by
  induction moves generalizing c tasks with
  | nil => split <;> rfl
  | cons m moves ih =>
      have hfirst := hmoves m List.mem_cons_self
      have hplay := (stirs_of_play h.serves hfirst).numbering h.steady.sound
      rw [h.current, h.refusesQueues] at hplay
      have hrun := ih (h.play hfirst) fun m' hm' => hmoves m' (List.mem_cons_of_mem _ hm')
      show ((c.play m).run moves).scheduler.numbering = _
      rw [hrun, hplay, offers_cons, List.foldl_append]
      split <;> rfl

/-! ## The numbers of tasks -/

/-- The numbers that are used up for the tasks that are offered by these moves. -/
def Course.numbersUsed (c : Course) : List Move → List (Option Nat)
  | [] => []
  | m :: moves =>
      (m.offer?.toList.map fun _ =>
        if (c.play m).scheduler.nextId = c.scheduler.nextId then none
        else some c.scheduler.nextId) ++ numbersUsed (c.play m) moves

/-- They are counted from the next one. -/
theorem numbersUsed_eq (h : Along c₀ tasks c) {moves : List Move}
    (hmoves : ∀ m ∈ moves, m.stirs = true) :
    c.numbersUsed moves = (offers moves).mapIdx fun i _ =>
      if c₀.scheduler.current.isSome then some (c.scheduler.nextId + i) else none := by
  induction moves generalizing c tasks with
  | nil => rfl
  | cons m moves ih =>
      have hfirst := hmoves m List.mem_cons_self
      have hplay := (stirs_of_play h.serves hfirst).nextId
      have hrun := ih (h.play hfirst) fun m' hm' => hmoves m' (List.mem_cons_of_mem _ hm')
      rw [h.current] at hplay
      rw [Course.numbersUsed, hrun, hplay, offers_cons]
      cases m.offer? with
      | none =>
          simp
      | some t =>
          by_cases hcurrent : c₀.scheduler.current.isSome = true
          · have hshift : ∀ i, c.scheduler.nextId + 1 + i = c.scheduler.nextId + (i + 1) := by
              omega
            simp [hcurrent, List.mapIdx_cons, hshift]
          · simp [hcurrent, List.mapIdx_cons]

/-! ## The counters -/

/-- Tasks of a queue that are submitted and of which no record tells. -/
def unrecorded (q : ExecutionQueue) : Nat := q.openCount + q.dropped + q.faultCount

theorem unrecorded_of_turn {q q' : ExecutionQueue} {d : ExecutionQueue.Deed} (hq : q.WellFormed)
    (h : ExecutionQueue.Turn q d q') :
    unrecorded q = unrecorded q' + (d.tasks .reported).length := by
  have hopen := ExecutionQueue.openCount_of_turn h
  have hdropped := ExecutionQueue.dropped_of_turn h
  have hfault := ExecutionQueue.faultCount_of_turn hq h
  unfold unrecorded
  omega

theorem unrecorded_enqueue {q q' : ExecutionQueue} {t : Task} (h : q.enqueue t = .ok q') :
    unrecorded q' = unrecorded q + 1 := by
  have hopen := ExecutionQueue.openCount_enqueue h
  obtain ⟨-, -, rfl⟩ := ExecutionQueue.WellFormed.not_closed_of_enqueue h
  unfold unrecorded
  rw [hopen]
  show _ + q.dropped + q.faultCount = _
  omega

theorem unrecorded_release (q : ExecutionQueue) : unrecorded q.release = unrecorded q := by
  unfold unrecorded ExecutionQueue.openCount ExecutionQueue.faultCount
  rw [(ExecutionQueue.SameTasks.release q).waiting, ExecutionQueue.dropped_release,
    ExecutionQueue.fault_release]

/-- The counters have gone along with what they count. -/
structure Ledger (c c' : Course) : Prop where
  submitted : c'.scheduler.books.metrics.submitted -
      UInt64.ofNat (c'.scheduler.queues.total unrecorded) - UInt64.ofNat (records c'.past).length =
    c.scheduler.books.metrics.submitted -
      UInt64.ofNat (c.scheduler.queues.total unrecorded) - UInt64.ofNat (records c.past).length
  completed : c'.scheduler.books.metrics.completed - UInt64.ofNat (records c'.past).length =
    c.scheduler.books.metrics.completed - UInt64.ofNat (records c.past).length
  dropped : c'.scheduler.books.metrics.dropped = c.scheduler.books.metrics.dropped
  deviceFaults : c'.scheduler.books.metrics.deviceFaults = c.scheduler.books.metrics.deviceFaults

namespace Ledger

theorem refl (c : Course) : Ledger c c := ⟨rfl, rfl, rfl, rfl⟩

theorem trans {c'' : Course} (h : Ledger c c') (h' : Ledger c' c'') : Ledger c c'' :=
  ⟨h'.submitted.trans h.submitted, h'.completed.trans h.completed, h'.dropped.trans h.dropped,
    h'.deviceFaults.trans h.deviceFaults⟩

/-- Where tasks stay where they are. -/
theorem of_same
    (htotal : c'.scheduler.queues.total unrecorded = c.scheduler.queues.total unrecorded)
    (hmetrics : c'.scheduler.books.metrics = c.scheduler.books.metrics)
    (hrecords : records c'.past = records c.past) : Ledger c c' := by
  refine ⟨?_, ?_, ?_, ?_⟩
  · rw [htotal, hmetrics, hrecords]
  · rw [hmetrics, hrecords]
  · rw [hmetrics]
  · rw [hmetrics]

/-- Where a task is accepted. -/
theorem of_accepted
    (htotal : c'.scheduler.queues.total unrecorded = c.scheduler.queues.total unrecorded + 1)
    (hmetrics : c'.scheduler.books.metrics = c.scheduler.books.metrics.recordSubmitted)
    (hrecords : records c'.past = records c.past) : Ledger c c' := by
  refine ⟨?_, ?_, ?_, ?_⟩
  · rw [htotal, hmetrics, hrecords, UInt64.ofNat_add]
    show c.scheduler.books.metrics.submitted + 1 - (_ + 1) - _ = _
    grind
  · rw [hmetrics, hrecords]
    rfl
  · rw [hmetrics]
    rfl
  · rw [hmetrics]
    rfl

/-- Where a worker takes a step: a task that is reported has its record. -/
theorem of_worked (hsteady : Steady c) {kernel : String} {queue next : ExecutionQueue}
    {board : Board} {done : Option Task} (hqueue : c.scheduler.queues.get? kernel = some queue)
    (hstep : queue.step c.scheduler.board = some (board, next, done)) :
    Ledger c
      { c with
        scheduler := c.scheduler.entered kernel board next done
        past := c.past ++ [.worked kernel (queue.deed next)
          (done.bind fun t => (c.scheduler.books.conclude t).1)] } := by
  obtain ⟨hturn, hdone⟩ := hsteady.sound.turn hqueue hstep
  obtain ⟨hsubmitted, hcompleted, hdropped, hfaults⟩ :=
    Booked.metrics_entered hsteady.sound hqueue hstep
  have hwell := hsteady.sound.wellFormed kernel queue hqueue
  have htotal := total_replace next unrecorded hqueue
  rw [unrecorded_of_turn hwell hturn] at htotal
  have hlength : (records (c.past ++ [.worked kernel (queue.deed next)
      (done.bind fun t => (c.scheduler.books.conclude t).1)])).length =
      (records c.past).length + ((queue.deed next).tasks .reported).length := by
    rw [records_snoc, List.length_append, ExecutionQueue.tasks_reported, ← hdone]
    cases done with
    | none => rfl
    | some t =>
        obtain ⟨-, configuration, nanos, hconfiguration, hduration⟩ :=
          hsteady.completed hqueue hstep rfl
        simp [Event.record?, Books.conclude_fst hconfiguration hduration]
  have hqueues : (c.scheduler.entered kernel board next done).queues.total unrecorded +
      ((queue.deed next).tasks .reported).length = c.scheduler.queues.total unrecorded := by
    show (c.scheduler.queues.insert kernel next).total unrecorded + _ = _
    omega
  refine ⟨?_, ?_, hdropped, hfaults⟩
  · dsimp only
    rw [hsubmitted, hlength, ← hqueues, UInt64.ofNat_add, UInt64.ofNat_add]
    grind
  · dsimp only
    rw [hcompleted, hlength, UInt64.ofNat_add]
    grind

theorem stirs (hsteady : Steady c) (h : Stirs c m c') : Ledger c c' := by
  have hrefused : ∀ t, records (c.past ++ [.refused t]) = records c.past := fun t => by
    rw [records_snoc]
    exact List.append_nil _
  have haccepted : ∀ t, records (c.past ++ [.accepted t]) = records c.past := fun t => by
    rw [records_snoc]
    exact List.append_nil _
  cases h with
  | holds => exact of_same rfl rfl rfl
  | rests => exact .refl c
  | releases other =>
      refine of_same ?_ (by rw [updateQueue_eq]) rfl
      rw [updateQueue_eq]
      apply NameMap.total_mapWithName
      intro name q
      split
      · exact unrecorded_release q
      · rfl
  | declines => exact of_same rfl rfl (hrefused _)
  | refuses => exact of_same rfl rfl (hrefused _)
  | starves => exact of_same rfl rfl (hrefused _)
  | @accepts task program queue next hcurrent hqueue hnext =>
      have htotal := total_replace next unrecorded hqueue
      rw [unrecorded_enqueue hnext] at htotal
      refine of_accepted ?_ rfl (haccepted _)
      show (c.scheduler.queues.insert task.kernel next).total unrecorded = _
      omega
  | @opens task program hcurrent hnone =>
      refine of_accepted ?_ rfl (haccepted _)
      have htotal := NameMap.total_insert c.scheduler.queues task.kernel
        { ExecutionQueue.start task.kernel c.scheduler.board.device.queuesCreated program with
          pending := [{ task with id := some c.scheduler.nextId }] } unrecorded
      have hshare : c.scheduler.queues.share task.kernel unrecorded = 0 := by
        simp [NameMap.share, hnone]
      rw [hshare] at htotal
      exact htotal
  | works hqueue hstep => exact of_worked hsteady hqueue hstep

theorem run (h : Along c₀ tasks c) {moves : List Move} (hmoves : ∀ m ∈ moves, m.stirs = true) :
    Ledger c (c.run moves) := by
  induction moves generalizing c tasks with
  | nil => exact .refl c
  | cons m moves ih =>
      have hfirst := hmoves m List.mem_cons_self
      have hplay := Ledger.stirs h.steady (stirs_of_play h.serves hfirst)
      exact hplay.trans (ih (h.play hfirst) fun m' hm' => hmoves m' (List.mem_cons_of_mem _ hm'))

end Ledger

/-! ## Two courses with the same tasks -/

/-- A record with the kernel of the queue that it came from. -/
def Event.signed? : Event → Option (String × CompletionRecord)
  | .worked kernel _ record => record.map fun r => (kernel, r)
  | _ => none

theorem records_eq_signed (past : List Event) :
    records past = (past.filterMap Event.signed?).map Prod.snd := by
  unfold records
  rw [List.map_filterMap]
  congr 1
  funext e
  cases e with
  | worked kernel d record => cases record <;> rfl
  | _ => rfl

theorem filter_signed (kernel : String) (past : List Event) :
    (past.filterMap Event.signed?).filter (fun signed => signed.1 = kernel) =
      (recordsOn kernel past).map fun r => (kernel, r) := by
  induction past using List.reverseRecOn with
  | nil => rfl
  | append_singleton past e ih =>
      rw [recordsOn_snoc, List.filterMap_append, List.filter_append, ih, List.map_append]
      congr 1
      cases e with
      | accepted task => simp [Event.signed?, Event.record?]
      | refused task => simp [Event.signed?, Event.kernel?]
      | waited reports => simp [Event.signed?, Event.kernel?]
      | cleared finish => simp [Event.signed?, Event.kernel?]
      | worked other d record =>
          by_cases hother : other = kernel
          · cases record <;> simp [Event.signed?, Event.record?, Event.kernel?, hother]
          · cases record <;> simp [Event.signed?, Event.kernel?, hother]

/-- Lists that agree wherever one looks at a single key differ in their order only. -/
theorem perm_of_filter {α κ : Type} [DecidableEq κ] (key : α → κ) {l l' : List α}
    (h : ∀ k, l'.filter (fun a => key a = k) = l.filter fun a => key a = k) : l'.Perm l := by
  classical
  refine List.perm_iff_count.2 fun a => ?_
  have hcount : ∀ l : List α, (l.filter fun b => key b = key a).count a = l.count a := fun l =>
    List.count_filter (by simp)
  rw [← hcount l', h (key a), hcount l]

/-- Records that are the same for each kernel differ in the order in which those of
different kernels come. -/
theorem records_perm {past past' : List Event}
    (h : ∀ kernel, recordsOn kernel past' = recordsOn kernel past) :
    (records past').Perm (records past) := by
  rw [records_eq_signed, records_eq_signed]
  refine (perm_of_filter Prod.fst fun kernel => ?_).map _
  rw [filter_signed, filter_signed, h]

/-- Both a queue that was there and one that was made have the same end. -/
theorem Origin.agree {due : List Task} {q q' : ExecutionQueue} (h : Origin c₀ kernel due q)
    (h' : Origin c₀ kernel due q') (b : Board) (program : String) :
    q'.ended b program due = q.ended b program due ∧
      q'.completions b program due = q.completions b program due := by
  cases h with
  | old hqueue =>
      cases h' with
      | old hqueue' =>
          obtain rfl := Option.some.inj (hqueue.symm.trans hqueue')
          exact ⟨rfl, rfl⟩
      | new _ hnone => simp [hqueue] at hnone
  | new number hnone =>
      cases h' with
      | old hqueue' => simp [hnone] at hqueue'
      | new number' => exact ⟨rfl, rfl⟩

/-- Idle queues to which the same tasks were offered have completed the same and are
left alike. -/
theorem Lane.agree {due : List Task} {done done' : List (Task × Nat)}
    (h : Lane c₀ kernel due c done) (h' : Lane c₀ kernel due c' done')
    (hidle : ∀ q, c.scheduler.queues.get? kernel = some q → q.isIdle = true)
    (hidle' : ∀ q, c'.scheduler.queues.get? kernel = some q → q.isIdle = true) :
    done' = done ∧ (c'.scheduler.queues.get? kernel).map ExecutionQueue.bare =
      (c.scheduler.queues.get? kernel).map ExecutionQueue.bare := by
  -- there is a queue if there was one, or if one was made for the first task
  have hnot : ∀ {before}, Origin c₀ kernel due before →
      c₀.scheduler.queues.get? kernel = none →
        ¬ (c₀.scheduler.board.device.refusesQueues = true ∨ due = []) := by
    intro before horigin hnone hdue
    cases horigin with
    | old hqueue => simp [hnone] at hqueue
    | new _ _ hrefuses hsome => simp [hrefuses, hsome] at hdue
  cases h with
  | absent hnone hbefore hdue =>
      cases h' with
      | absent hnone' => exact ⟨rfl, by rw [hnone, hnone']⟩
      | present _ horigin' => exact absurd hdue (hnot horigin' hbefore)
  | present hqueue horigin hprogress =>
      cases h' with
      | absent _ hbefore hdue => exact absurd hdue (hnot horigin hbefore)
      | present hqueue' horigin' hprogress' =>
          obtain ⟨hbare, hdone⟩ := hprogress.settled (hidle _ hqueue)
          obtain ⟨hbare', hdone'⟩ := hprogress'.settled (hidle' _ hqueue')
          obtain ⟨hended, hcompletions⟩ :=
            horigin.agree horigin' c₀.scheduler.board c₀.scheduler.program
          refine ⟨by rw [hdone, hdone', hcompletions], ?_⟩
          rw [hqueue, hqueue', Option.map_some, Option.map_some, hbare, hbare', hended]

/-- Two courses in which the same tasks were dealt with, which then collect the faults. -/
structure Concurs (c : Course) (visit : List String) (c' : Course) (visit' : List String) :
    Prop where
  /-- The same faults are reported. -/
  reports : (c'.reports visit').Perm (c.reports visit)
  verdict : (verdict (c'.reports visit')).isOk = (verdict (c.reports visit)).isOk
  queues : (c'.play (.wait visit')).scheduler.queues = (c.play (.wait visit)).scheduler.queues
  nextId : (c'.play (.wait visit')).scheduler.nextId = (c.play (.wait visit)).scheduler.nextId
  records : ∀ kernel, recordsOn kernel (c'.play (.wait visit')).past =
    recordsOn kernel (c.play (.wait visit)).past
  /-- The records of different kernels are merged in one order or another. -/
  merged : (Scheduler.records (c'.play (.wait visit')).past).Perm
    (Scheduler.records (c.play (.wait visit)).past)
  samples : ∀ name kernel,
    ((c'.play (.wait visit')).scheduler.books.model name).samples kernel =
      ((c.play (.wait visit)).scheduler.books.model name).samples kernel
  completed : (c'.play (.wait visit')).scheduler.books.metrics.completed =
    (c.play (.wait visit)).scheduler.books.metrics.completed
  deviceFaults : (c'.play (.wait visit')).scheduler.books.metrics.deviceFaults =
    (c.play (.wait visit)).scheduler.books.metrics.deviceFaults
  /-- Tasks behind one that goes wrong are dropped or turned away. -/
  admitted : (c'.play (.wait visit')).scheduler.books.metrics.submitted -
      (c'.play (.wait visit')).scheduler.books.metrics.dropped =
    (c.play (.wait visit)).scheduler.books.metrics.submitted -
      (c.play (.wait visit)).scheduler.books.metrics.dropped

theorem reports_eq (c : Course) (visit : List String) :
    c.reports visit = visit.filterMap fun kernel =>
      ((c.scheduler.queues.get? kernel).bind ExecutionQueue.fault).map (stopReport kernel) := by
  have hreports : c.reports visit = (c.scheduler.faultedAmong visit).map
      fun stopped => stopReport stopped.1 stopped.2.2 := rfl
  rw [hreports, faultedAmong, List.map_filterMap]
  congr 1
  funext kernel
  cases c.scheduler.queues.get? kernel with
  | none => rfl
  | some queue =>
      dsimp only [Option.bind_some]
      cases queue.fault <;> rfl

theorem isOk_verdict (reports : List Error) : (verdict reports).isOk = reports.isEmpty := by
  cases reports <;> rfl

theorem length_reports_eq (c : Course) (visit : List String) :
    (c.reports visit).length = (c.scheduler.faultedAmong visit).length := List.length_map _

/-- Queues that are alike but for what they have dropped are the same where faults are
collected. -/
theorem kept_congr {q q' : Option ExecutionQueue}
    (hbare : q'.map ExecutionQueue.bare = q.map ExecutionQueue.bare)
    (hnumber : q'.map ExecutionQueue.deviceQueue = q.map ExecutionQueue.deviceQueue)
    (hdropped : ∀ x, q = some x → x.fault = none → x.dropped = 0)
    (hdropped' : ∀ x, q' = some x → x.fault = none → x.dropped = 0) :
    (q'.filter fun x => x.fault.isNone) = q.filter fun x => x.fault.isNone := by
  cases q with
  | none =>
      cases q' with
      | none => rfl
      | some x' => simp at hbare
  | some x =>
      cases q' with
      | none => simp at hbare
      | some x' =>
          have hbare : x'.bare = x.bare := Option.some.inj hbare
          have hfault : x'.fault = x.fault := by
            show x'.bare.fault = x.bare.fault
            rw [hbare]
          cases hx : x.fault with
          | some fault => simp [Option.filter, hx, hfault]
          | none =>
              have hsame : x' = x := by
                refine ExecutionQueue.eq_of_bare hbare (Option.some.inj hnumber) ?_
                rw [hdropped x rfl hx, hdropped' x' rfl (hfault.trans hx)]
              rw [hsame]

/-- A course in which these tasks were offered, and which is idle. -/
structure Finished (c₀ : Course) (tasks : List Task) (c : Course) (visit : List String) : Prop where
  along : Along c₀ tasks c
  ledger : Ledger c₀ c
  numbering : c.scheduler.numbering =
    if c₀.scheduler.current.isSome then
      tasks.foldl (Numbering.offer c₀.scheduler.board.device.refusesQueues) c₀.scheduler.numbering
    else c₀.scheduler.numbering
  ready : c.isReady visit = true

namespace Finished

variable {visit visit' : List String}

theorem idle (h : Finished c₀ tasks c visit) (kernel : String) (q : ExecutionQueue)
    (hqueue : c.scheduler.queues.get? kernel = some q) : q.isIdle = true :=
  (isReady_iff.1 h.ready).2.1 kernel q hqueue

theorem visits (h : Finished c₀ tasks c visit) : visit.Perm c.scheduler.kernels :=
  (isReady_iff.1 h.ready).2.2

theorem removal (h : Finished c₀ tasks c visit) :
    Removal c.scheduler visit (c.play (.wait visit)).scheduler := by
  rw [play_wait h.ready]
  exact removal_collect c.scheduler (nodup_of_perm_kernels h.visits)

/-- Collecting faults is no step of a worker. -/
theorem recordsOn_wait (h : Finished c₀ tasks c visit) (kernel : String) :
    recordsOn kernel (c.play (.wait visit)).past = recordsOn kernel c.past := by
  rw [play_wait h.ready]
  show recordsOn kernel (c.past ++ [.waited (c.reports visit)]) = _
  rw [recordsOn_snoc, if_neg (by simp [Event.kernel?]), List.append_nil]

theorem records_wait (h : Finished c₀ tasks c visit) :
    records (c.play (.wait visit)).past = records c.past := by
  rw [play_wait h.ready]
  show records (c.past ++ [.waited (c.reports visit)]) = _
  rw [records_snoc]
  exact List.append_nil _

theorem model_wait (h : Finished c₀ tasks c visit) (name : String) :
    (c.play (.wait visit)).scheduler.books.model name = c.scheduler.books.model name := by
  rw [h.removal.rest]
  rfl

/-- A queue that is kept has dropped nothing. -/
theorem dropped (h : Finished c₀ tasks c visit) {q : ExecutionQueue}
    (hqueue : c.scheduler.queues.get? kernel = some q) (hfault : q.fault = none) : q.dropped = 0 :=
  (h.along.steady.sound.wellFormed kernel q hqueue).dropped
    (h.along.steady.sound.serving (isReady_iff.1 h.ready).1 kernel q hqueue) hfault

theorem length_reports (h : Finished c₀ tasks c visit) :
    (c.reports visit).length = c.scheduler.queues.total ExecutionQueue.faultCount := by
  rw [length_reports_eq]
  exact length_faultedAmong h.removal h.visits

theorem deviceFaults (h : Finished c₀ tasks c visit) :
    (c.play (.wait visit)).scheduler.books.metrics.deviceFaults =
      c₀.scheduler.books.metrics.deviceFaults + UInt64.ofNat (c.reports visit).length := by
  rw [h.removal.rest, ← h.ledger.deviceFaults, length_reports_eq]

/-- What was submitted and not dropped was completed or taken by a fault. -/
theorem admitted (h : Finished c₀ tasks c visit) :
    (c.play (.wait visit)).scheduler.books.metrics.submitted -
        (c.play (.wait visit)).scheduler.books.metrics.dropped =
      c₀.scheduler.books.metrics.submitted - c₀.scheduler.books.metrics.dropped -
        UInt64.ofNat (c₀.scheduler.queues.total unrecorded) -
          UInt64.ofNat (records c₀.past).length + UInt64.ofNat (records c.past).length +
            UInt64.ofNat (c.reports visit).length := by
  have hkept : (c.play (.wait visit)).scheduler.queues.total ExecutionQueue.dropped = 0 := by
    apply NameMap.total_eq_zero
    intro kernel q hqueue
    obtain ⟨hbefore, hfault⟩ := h.removal.kept h.visits hqueue
    exact h.dropped hbefore hfault
  have hopen := total_openCount_of_idle h.along.steady.sound h.idle
  have hremoved := h.removal.total ExecutionQueue.dropped
  have hsum : c.scheduler.queues.total unrecorded =
      c.scheduler.queues.total ExecutionQueue.openCount +
        c.scheduler.queues.total ExecutionQueue.dropped +
          c.scheduler.queues.total ExecutionQueue.faultCount := by
    rw [← NameMap.total_add, ← NameMap.total_add]
    rfl
  rw [hkept, Nat.zero_add] at hremoved
  rw [hopen, Nat.zero_add] at hsum
  have hsubmitted := h.ledger.submitted
  have hdropped := h.ledger.dropped
  have hmetrics := congrArg (fun s => s.books.metrics) h.removal.rest
  rw [hsum, UInt64.ofNat_add] at hsubmitted
  rw [hmetrics, h.length_reports]
  dsimp only
  rw [hremoved, hdropped]
  grind

/-- On each kernel the same calls were completed, with the same records, and the queue
came to the same end. -/
theorem lane_concurs (h : Finished c₀ tasks c visit) (h' : Finished c₀ tasks c' visit')
    (kernel : String) :
    recordsOn kernel c'.past = recordsOn kernel c.past ∧
      (∀ name, (c'.scheduler.books.model name).samples kernel =
        (c.scheduler.books.model name).samples kernel) ∧
        (c'.scheduler.queues.get? kernel).map ExecutionQueue.bare =
          (c.scheduler.queues.get? kernel).map ExecutionQueue.bare := by
  obtain ⟨done, hlane, hgains⟩ := h.along.lane kernel
  obtain ⟨done', hlane', hgains'⟩ := h'.along.lane kernel
  obtain ⟨rfl, hbare⟩ := hlane.agree hlane' (h.idle kernel) (h'.idle kernel)
  exact ⟨hgains'.records.trans hgains.records.symm, fun name =>
    (hgains'.samples name).trans (hgains.samples name).symm, hbare⟩

/-- The same tasks were offered, so everything comes to the same end. -/
theorem concurs (h : Finished c₀ tasks c visit) (h' : Finished c₀ tasks c' visit') :
    Concurs c visit c' visit' := by
  have hlane := h.lane_concurs h'
  have hfault : ∀ kernel, (c'.scheduler.queues.get? kernel).bind ExecutionQueue.fault =
      (c.scheduler.queues.get? kernel).bind ExecutionQueue.fault := by
    intro kernel
    have hbind := ExecutionQueue.bind_fault_map (f := ExecutionQueue.bare) fun _ => rfl
    rw [← hbind, (hlane kernel).2.2, hbind]
  have hkernels : c'.scheduler.kernels = c.scheduler.kernels := by
    have hmap : c'.scheduler.queues.map ExecutionQueue.bare =
        c.scheduler.queues.map ExecutionQueue.bare := by
      apply NameMap.ext_get?
      intro kernel
      rw [NameMap.get?_map, NameMap.get?_map, (hlane kernel).2.2]
    rw [Scheduler.kernels, Scheduler.kernels, ← NameMap.names_map ExecutionQueue.bare, hmap,
      NameMap.names_map]
  have hnumber : ∀ kernel, (c'.scheduler.queues.get? kernel).map ExecutionQueue.deviceQueue =
      (c.scheduler.queues.get? kernel).map ExecutionQueue.deviceQueue := fun kernel =>
    congrFun (congrArg Numbering.number (h'.numbering.trans h.numbering.symm)) kernel
  have hreports : (c'.reports visit').Perm (c.reports visit) := by
    rw [reports_eq, reports_eq]
    simp only [hfault]
    exact (h'.visits.trans (hkernels ▸ h.visits.symm)).filterMap _
  have hrecords := fun kernel => (hlane kernel).1
  have hmerged := records_perm hrecords
  refine
    { reports := hreports
      verdict := ?_
      queues := ?_
      nextId := ?_
      records := fun kernel => ?_
      merged := ?_
      samples := fun name kernel => ?_
      completed := ?_
      deviceFaults := ?_
      admitted := ?_ }
  · rw [isOk_verdict, isOk_verdict, hreports.isEmpty_eq]
  · apply NameMap.ext_get?
    intro kernel
    rw [h'.removal.get? h'.visits, h.removal.get? h.visits]
    exact kept_congr (hlane kernel).2.2 (hnumber kernel) (fun _ => h.dropped) fun _ => h'.dropped
  · rw [h'.removal.rest, h.removal.rest]
    exact h'.along.nextId.trans h.along.nextId.symm
  · rw [h'.recordsOn_wait, h.recordsOn_wait, hrecords]
  · rw [h'.records_wait, h.records_wait]
    exact hmerged
  · rw [h'.model_wait, h.model_wait, (hlane kernel).2.1]
  · have hcompleted := h.ledger.completed
    have hcompleted' := h'.ledger.completed
    rw [hmerged.length_eq] at hcompleted'
    rw [h'.removal.rest, h.removal.rest]
    dsimp only
    grind
  · rw [h.deviceFaults, h'.deviceFaults, hreports.length_eq]
  · rw [h.admitted, h'.admitted, hmerged.length_eq, hreports.length_eq]

end Finished

namespace Course

/-- Tasks are offered to an idle scheduler while workers and device take their steps, and
when it is idle again the faults are collected. Whatever the order of the steps, every
task uses up the same number, and everything comes to the same end. -/
theorem order_immaterial (p : Blueprint) (device : Device) (directory : Directory)
    {moves stir stir' : List Move} {rest visit visit' : List String}
    (hidle : (ofBlueprint p device directory moves).isReady rest = true)
    (hstir : ∀ m ∈ stir, m.stirs = true) (hstir' : ∀ m ∈ stir', m.stirs = true)
    (hoffers : offers stir' = offers stir)
    (hready : ((ofBlueprint p device directory moves).run stir).isReady visit = true)
    (hready' : ((ofBlueprint p device directory moves).run stir').isReady visit' = true) :
    (ofBlueprint p device directory moves).numbersUsed stir' =
        (ofBlueprint p device directory moves).numbersUsed stir ∧
      Concurs ((ofBlueprint p device directory moves).run stir) visit
        ((ofBlueprint p device directory moves).run stir') visit' := by
  obtain ⟨hstage, hqueues, -⟩ := isReady_iff.1 hidle
  have hstart : Along (ofBlueprint p device directory moves) []
      (ofBlueprint p device directory moves) :=
    .start (.ofBlueprint p device directory moves) (serves_iff.2 hstage) hqueues
  have hend : Finished (ofBlueprint p device directory moves) (offers stir)
      ((ofBlueprint p device directory moves).run stir) visit :=
    ⟨hstart.run hstir, .run hstart hstir, numbering_run hstart hstir, hready⟩
  have hend' : Finished (ofBlueprint p device directory moves) (offers stir)
      ((ofBlueprint p device directory moves).run stir') visit' :=
    ⟨hoffers ▸ hstart.run hstir', .run hstart hstir', hoffers ▸ numbering_run hstart hstir',
      hready'⟩
  refine ⟨?_, hend.concurs hend'⟩
  rw [numbersUsed_eq hstart hstir, numbersUsed_eq hstart hstir', hoffers]

/-- A scheduler with two kernels to offer tasks on. -/
def twoKernels : Course :=
  ofBlueprint {} default { path := "" } [.insertConfiguration "cfg" (Image.encode ["a", "k"])]

/-- All tasks are offered before any worker steps. -/
def offersFirst : List Move :=
  [.addTask { kernel := "a", recipe := { mishap := some (.refuses "no arguments") } },
    .addTask { kernel := "a" }, .addTask { kernel := "k" }, .work "k", .work "a", .work "k",
    .work "k", .work "k", .work "a"]

/-- A fault has stopped a queue before the second task is offered on it. -/
def worksFirst : List Move :=
  [.addTask { kernel := "a", recipe := { mishap := some (.refuses "no arguments") } }, .work "a",
    .work "a", .addTask { kernel := "a" }, .hold true, .addTask { kernel := "k" }, .work "k",
    .work "k", .release "k", .work "k", .work "k"]

theorem order_immaterial_oneDroppedOneRefused :
    (met .discarded (twoKernels.run offersFirst).past).length = 1 ∧
      (met .discarded (twoKernels.run worksFirst).past).length = 0 ∧
        Concurs (twoKernels.run offersFirst) ["a", "k"] (twoKernels.run worksFirst) ["k", "a"] := by
  have hidle : twoKernels.isReady [] = true := by decide
  have hoffers : offers worksFirst = offers offersFirst := rfl
  have hready : (twoKernels.run offersFirst).isReady ["a", "k"] = true := by decide
  have hready' : (twoKernels.run worksFirst).isReady ["k", "a"] = true := by decide
  exact ⟨by decide, by decide, (order_immaterial {} default { path := "" } hidle (by decide)
    (by decide) hoffers hready hready').2⟩

end Course

end Scheduler

end KernelDispatch
