import KernelDispatch.Proofs.Scheduler.Change

/-!
# The accounts of a scheduler

What becomes of the accepted tasks is counted in two places: each queue counts
the tasks it has dropped and whether a fault has stopped it, and the metrics count
what was submitted and completed, and take over from the queues when these are
removed. `Booked` says how both hang together with what was seen to happen.

A fault stops a queue with a task in hand that is neither completed nor dropped.
It is counted when the fault is collected. `Tally` follows the faults: those that
wait to be collected, those that were, and those whose queue was thrown away by a
reset before anyone had collected them.

## Main results

* `Booked.change` — every change keeps the books.
* `submitted_eq` — what was submitted, at any moment.
-/

namespace KernelDispatch.Scheduler

open ExecutionQueue (Turn faultCount openCount)

/-- What has become of faults. -/
structure Tally where
  /-- Their queues are still there. -/
  uncollected : Nat := 0
  collected : Nat := 0
  /-- Their queues were thrown away before. -/
  forgotten : Nat := 0
deriving DecidableEq

/-- The tally after an event. -/
def Tally.after (t : Tally) : Event → Tally
  | .worked _ (.faults _ _) _ => { t with uncollected := t.uncollected + 1 }
  | .waited _ => { t with uncollected := 0, collected := t.collected + t.uncollected }
  | .cleared _ => { t with uncollected := 0, forgotten := t.forgotten + t.uncollected }
  | _ => t

/-- What has become of the faults so far. -/
def tally (past : List Event) : Tally := past.foldl Tally.after {}

@[simp] theorem tally_snoc (past : List Event) (e : Event) :
    tally (past ++ [e]) = (tally past).after e := by
  simp [tally]

/-- A step of a worker adds the faults in it to those not collected. -/
theorem after_worked (t : Tally) (kernel : String) (d : ExecutionQueue.Deed)
    (record : Option CompletionRecord) :
    t.after (.worked kernel d record) =
      { t with uncollected := t.uncollected + (d.tasks .lost).length } := by
  cases d <;> rfl

/-- Every fault is in one of the three places. -/
theorem length_lost (past : List Event) :
    (met .lost past).length =
      (tally past).uncollected + (tally past).collected + (tally past).forgotten := by
  induction past using List.reverseRecOn with
  | nil => rfl
  | append_singleton past e ih =>
      rw [met_snoc, tally_snoc, List.length_append, ih]
      cases e with
      | worked kernel d record =>
          rw [after_worked]
          simp only [Event.tasks]
          omega
      | accepted task => rfl
      | refused task => rfl
      | waited reports =>
          simp only [Event.tasks, Tally.after, List.length_nil]
          omega
      | cleared finish =>
          simp only [Event.tasks, Tally.after, List.length_nil]
          omega

/-- How the counters hang together with what has been seen. -/
structure Booked (c : Course) : Prop where
  tasks : (met .accepted c.past).length =
    (met .reported c.past).length + (met .discarded c.past).length + (met .lost c.past).length +
      c.scheduler.queues.total openCount
  submitted : c.scheduler.books.metrics.submitted = UInt64.ofNat (met .accepted c.past).length
  completed : c.scheduler.books.metrics.completed = UInt64.ofNat (met .reported c.past).length
  /-- What queues have dropped enters the metrics when they are removed. -/
  dropped : c.scheduler.books.metrics.dropped +
      UInt64.ofNat (c.scheduler.queues.total ExecutionQueue.dropped) =
    UInt64.ofNat (met .discarded c.past).length
  deviceFaults : c.scheduler.books.metrics.deviceFaults = UInt64.ofNat (tally c.past).collected
  uncollected : c.scheduler.queues.total faultCount = (tally c.past).uncollected

/-- Whether submitted tasks are those completed, dropped and lost to a fault that
was counted. -/
def Balances (m : Metrics) : Prop := m.submitted = m.completed + m.dropped + m.deviceFaults

instance (m : Metrics) : Decidable (Balances m) :=
  inferInstanceAs (Decidable (m.submitted = m.completed + m.dropped + m.deviceFaults))

/-! ## Sums over the queues -/

section Totals

variable {c : Course} {kernel : String} {queue : ExecutionQueue} (next : ExecutionQueue)
  {count : ExecutionQueue → Nat}

/-- One queue takes the place of another. -/
theorem total_replace (count : ExecutionQueue → Nat)
    (hqueue : c.scheduler.queues.get? kernel = some queue) :
    (c.scheduler.queues.insert kernel next).total count + count queue =
      c.scheduler.queues.total count + count next := by
  have hshare : c.scheduler.queues.share kernel count = count queue := by
    simp [NameMap.share, hqueue]
  rw [← hshare]
  exact NameMap.total_insert _ _ _ _

/-- A queue that is new had nothing on it before. -/
theorem total_accept (hstart : ∀ number program, count (.start kernel number program) = 0)
    (hqueue : c.scheduler.queues.get? kernel = some queue ∨
      c.scheduler.queues.get? kernel = none ∧
        ∃ number program, queue = .start kernel number program) :
    (c.scheduler.queues.insert kernel next).total count + count queue =
      c.scheduler.queues.total count + count next := by
  rcases hqueue with hqueue | ⟨hnone, number, program, rfl⟩
  · exact total_replace next count hqueue
  · have hshare : c.scheduler.queues.share kernel count = 0 := by
      simp [NameMap.share, hnone]
    have htotal := NameMap.total_insert c.scheduler.queues kernel next count
    rw [hshare] at htotal
    rw [hstart]
    exact htotal

theorem total_openCount_of_idle (h : Sound c)
    (hidle : ∀ kernel queue, c.scheduler.queues.get? kernel = some queue → queue.isIdle = true) :
    c.scheduler.queues.total openCount = 0 :=
  NameMap.total_eq_zero fun kernel queue hqueue =>
    List.length_eq_zero_iff.2 <|
      ExecutionQueue.waiting_of_idle (h.wellFormed kernel queue hqueue) (hidle kernel queue hqueue)

theorem fault_of_mem_faultedAmong {s : Scheduler} {visit : List String}
    {stopped : String × ExecutionQueue × String} (h : stopped ∈ s.faultedAmong visit) :
    stopped.2.1.fault = some stopped.2.2 := by
  obtain ⟨kernel, -, hkernel⟩ := List.mem_filterMap.1 h
  obtain ⟨queue, -, hqueue⟩ := Option.bind_eq_some_iff.1 hkernel
  obtain ⟨fault, hfault, rfl⟩ := Option.map_eq_some_iff.1 hqueue
  exact hfault

theorem total_faultCount_of_kept {s s' : Scheduler} {visit : List String}
    (h : Removal s visit s') (hvisit : visit.Perm s.kernels) : s'.queues.total faultCount = 0 := by
  apply NameMap.total_eq_zero
  intro kernel queue hqueue
  simp [faultCount, (h.kept hvisit hqueue).2]

/-- As many queues are removed as faults have stopped. -/
theorem length_faultedAmong {s s' : Scheduler} {visit : List String}
    (h : Removal s visit s') (hvisit : visit.Perm s.kernels) :
    (s.faultedAmong visit).length = s.queues.total faultCount := by
  have hone : (s.faultedAmong visit).map (fun stopped => faultCount stopped.2.1) =
      (s.faultedAmong visit).map fun _ => 1 := by
    apply List.map_congr_left
    intro stopped hstopped
    simp [faultCount, fault_of_mem_faultedAmong hstopped]
  have htotal := h.total faultCount
  rw [total_faultCount_of_kept h hvisit, hone] at htotal
  simpa using htotal

end Totals

/-! ## The changes -/

namespace Booked

variable {c c' : Course} {m : Move}

/-- The books after a step of a worker. -/
theorem metrics_entered (h : Sound c) {kernel : String} {board : Board}
    {queue next : ExecutionQueue} {done : Option Task}
    (hqueue : c.scheduler.queues.get? kernel = some queue)
    (hstep : queue.step c.scheduler.board = some (board, next, done)) :
    (c.scheduler.entered kernel board next done).books.metrics.submitted =
        c.scheduler.books.metrics.submitted ∧
      (c.scheduler.entered kernel board next done).books.metrics.completed =
        c.scheduler.books.metrics.completed +
          UInt64.ofNat ((queue.deed next).tasks .reported).length ∧
      (c.scheduler.entered kernel board next done).books.metrics.dropped =
        c.scheduler.books.metrics.dropped ∧
      (c.scheduler.entered kernel board next done).books.metrics.deviceFaults =
        c.scheduler.books.metrics.deviceFaults := by
  obtain ⟨hturn, hdone⟩ := h.turn hqueue hstep
  rw [ExecutionQueue.tasks_reported, ← hdone]
  cases done with
  | none => simp [entered]
  | some t =>
      obtain ⟨configuration, nanos, hconfiguration, hduration⟩ :=
        ExecutionQueue.bound_of_turn (h.wellFormed kernel queue hqueue) hturn hdone.symm
      exact Books.metrics_conclude hconfiguration hduration

theorem change_tends {s : Scheduler} {stage : Stage}
    {f : String → ExecutionQueue → ExecutionQueue} (h : Booked c)
    (hqueues : s.queues = c.scheduler.queues.mapWithName f)
    (htended : ∀ kernel queue, Tended c.stage queue (f kernel queue))
    (hmetrics : s.books.metrics = c.scheduler.books.metrics) : Booked ⟨s, stage, c.past⟩ := by
  have hopen : s.queues.total openCount = c.scheduler.queues.total openCount := by
    rw [hqueues]
    apply NameMap.total_mapWithName
    intro kernel queue
    rw [openCount, (htended kernel queue).same.waiting, openCount]
  have hdropped : s.queues.total ExecutionQueue.dropped =
      c.scheduler.queues.total ExecutionQueue.dropped := by
    rw [hqueues]
    exact NameMap.total_mapWithName _ fun kernel queue => (htended kernel queue).same.dropped
  have hfaults : s.queues.total faultCount = c.scheduler.queues.total faultCount := by
    rw [hqueues]
    apply NameMap.total_mapWithName
    intro kernel queue
    rw [faultCount, (htended kernel queue).same.fault, faultCount]
  exact
    { tasks := by rw [hopen, h.tasks]
      submitted := by rw [hmetrics, h.submitted]
      completed := by rw [hmetrics, h.completed]
      dropped := by rw [hmetrics, hdropped, h.dropped]
      deviceFaults := by rw [hmetrics, h.deviceFaults]
      uncollected := by rw [hfaults, h.uncollected] }

theorem change_accepts {s : Scheduler} {task : Task} {queue next : ExecutionQueue} (h : Booked c)
    (hqueue : c.scheduler.queues.get? task.kernel = some queue ∨
      c.scheduler.queues.get? task.kernel = none ∧
        ∃ number program, queue = .start task.kernel number program)
    (hnext : queue.enqueue task = .ok next)
    (hqueues : s.queues = c.scheduler.queues.insert task.kernel next)
    (hmetrics : s.books.metrics = c.scheduler.books.metrics.recordSubmitted) :
    Booked ⟨s, c.stage, c.past ++ [.accepted task]⟩ := by
  obtain ⟨-, -, hnexteq⟩ := ExecutionQueue.WellFormed.not_closed_of_enqueue hnext
  have htotal : ∀ count : ExecutionQueue → Nat,
      (∀ number program, count (.start task.kernel number program) = 0) →
        s.queues.total count + count queue = c.scheduler.queues.total count + count next := by
    intro count hstart
    rw [hqueues]
    exact total_accept next hstart hqueue
  have hopen := htotal openCount fun _ _ => rfl
  have hdropped := htotal ExecutionQueue.dropped fun _ _ => rfl
  have hfaults := htotal faultCount fun _ _ => rfl
  have hsamedropped : next.dropped = queue.dropped := by rw [hnexteq]
  have hsamefault : next.faultCount = queue.faultCount := by
    rw [hnexteq]
    rfl
  rw [ExecutionQueue.openCount_enqueue hnext] at hopen
  rw [hsamedropped, Nat.add_right_cancel_iff] at hdropped
  rw [hsamefault, Nat.add_right_cancel_iff] at hfaults
  have htasks := h.tasks
  constructor
  · simp only [met_snoc, Event.tasks, List.length_append, List.length_nil, List.length_singleton]
    omega
  · simp [hmetrics, Metrics.recordSubmitted, h.submitted, Event.tasks]
  · simp [hmetrics, Metrics.recordSubmitted, h.completed, Event.tasks]
  · simp [hmetrics, Metrics.recordSubmitted, hdropped, h.dropped, Event.tasks]
  · simp [hmetrics, Metrics.recordSubmitted, h.deviceFaults, Tally.after]
  · simp [hfaults, h.uncollected, Tally.after]

theorem change_refuses {s : Scheduler} (h : Booked c) (task : Task)
    (hqueues : s.queues = c.scheduler.queues) (hbooks : s.books = c.scheduler.books) :
    Booked ⟨s, c.stage, c.past ++ [.refused task]⟩ where
  tasks := by simpa [hqueues, Event.tasks] using h.tasks
  submitted := by simpa [hbooks, Event.tasks] using h.submitted
  completed := by simpa [hbooks, Event.tasks] using h.completed
  dropped := by simpa [hqueues, hbooks, Event.tasks] using h.dropped
  deviceFaults := by simpa [hbooks, Tally.after] using h.deviceFaults
  uncollected := by simpa [hqueues, Tally.after] using h.uncollected

theorem change_works {kernel : String} {board : Board} {queue next : ExecutionQueue}
    {done : Option Task} (h : Booked c) (hsound : Sound c)
    (hqueue : c.scheduler.queues.get? kernel = some queue)
    (hstep : queue.step c.scheduler.board = some (board, next, done))
    (record : Option CompletionRecord) :
    Booked ⟨c.scheduler.entered kernel board next done, c.stage,
      c.past ++ [.worked kernel (queue.deed next) record]⟩ := by
  obtain ⟨hturn, -⟩ := hsound.turn hqueue hstep
  obtain ⟨hsubmitted, hcompleted, hdropped, hdeviceFaults⟩ := metrics_entered hsound hqueue hstep
  have hwell := hsound.wellFormed kernel queue hqueue
  have htotal : ∀ count : ExecutionQueue → Nat,
      (c.scheduler.entered kernel board next done).queues.total count + count queue =
        c.scheduler.queues.total count + count next := fun count =>
    total_replace next count hqueue
  have hopen := htotal openCount
  have hdrops := htotal ExecutionQueue.dropped
  have hfaults := htotal faultCount
  rw [ExecutionQueue.openCount_of_turn hturn] at hopen
  rw [ExecutionQueue.dropped_of_turn hturn] at hdrops
  rw [ExecutionQueue.faultCount_of_turn hwell hturn] at hfaults
  have htasks := h.tasks
  have huncollected := h.uncollected
  constructor
  · have hnone : ((queue.deed next).tasks .accepted).length = 0 := by
      cases queue.deed next <;> rfl
    simp only [met_snoc, Event.tasks, List.length_append]
    omega
  · have hnone : (queue.deed next).tasks .accepted = [] := by
      cases queue.deed next <;> rfl
    simp [hsubmitted, h.submitted, Event.tasks, hnone]
  · simp [hcompleted, h.completed, Event.tasks]
  · have hsum : (c.scheduler.entered kernel board next done).queues.total ExecutionQueue.dropped =
        c.scheduler.queues.total ExecutionQueue.dropped +
          ((queue.deed next).tasks .discarded).length := by
      omega
    simp [hdropped, hsum, ← UInt64.add_assoc, h.dropped, Event.tasks]
  · simp [hdeviceFaults, h.deviceFaults, after_worked]
  · rw [tally_snoc, after_worked]
    dsimp only
    omega

theorem change_collects {visit : List String} {stage : Stage} (h : Booked c) (hsound : Sound c)
    (hready : c.isReady visit = true) : Booked (c.collected visit stage) := by
  obtain ⟨-, hidle, hvisit⟩ := isReady_iff.1 hready
  have hremoval := removal_collect c.scheduler (nodup_of_perm_kernels hvisit)
  have hlength := length_faultedAmong hremoval hvisit
  have hnone := total_openCount_of_idle hsound hidle
  have hopen := hremoval.total openCount
  have hdrops := hremoval.total ExecutionQueue.dropped
  have htasks := h.tasks
  have hmetrics := congrArg (fun s => s.books.metrics) hremoval.rest
  constructor
  · simp only [Course.collected, met_snoc, Event.tasks, List.append_nil]
    omega
  · simp [Course.collected, hmetrics, Event.tasks, h.submitted]
  · simp [Course.collected, hmetrics, Event.tasks, h.completed]
  · simp only [Course.collected, hmetrics, Event.tasks, met_snoc, List.append_nil, ← h.dropped,
      ← hdrops, UInt64.ofNat_add]
    ac_rfl
  · simp [Course.collected, hmetrics, Tally.after, h.deviceFaults, hlength, h.uncollected]
  · simp [Course.collected, total_faultCount_of_kept hremoval hvisit, Tally.after]

theorem change_clears {finish : Option (List Error)} (h : Booked c) (hsound : Sound c)
    (hclosed : c.isClosed = true) :
    Booked ⟨c.scheduler.clear, .serving, c.past ++ [.cleared finish]⟩ := by
  have hnone : c.scheduler.queues.total openCount = 0 := by
    apply total_openCount_of_idle hsound
    intro kernel queue hqueue
    exact ExecutionQueue.isIdle_of_closed (hsound.wellFormed kernel queue hqueue)
      (isClosed_iff.1 hclosed kernel queue hqueue)
  have hcleared : ∀ count, c.scheduler.clear.queues.total count = 0 := fun _ => rfl
  have hmetrics : c.scheduler.clear.books.metrics = c.scheduler.books.metrics.recordDropped
      (UInt64.ofNat (c.scheduler.queues.total ExecutionQueue.dropped)) := rfl
  have htasks := h.tasks
  constructor
  · simp only [hcleared, met_snoc, Event.tasks, List.append_nil]
    omega
  · simp [hmetrics, Metrics.recordDropped, Event.tasks, h.submitted]
  · simp [hmetrics, Metrics.recordDropped, Event.tasks, h.completed]
  · simp [hmetrics, hcleared, Metrics.recordDropped, Event.tasks, h.dropped]
  · simp [hmetrics, Metrics.recordDropped, Tally.after, h.deviceFaults]
  · simp [hcleared, Tally.after]

/-- Every change keeps the books. -/
theorem change (h : Booked c) (hsound : Sound c) (hchange : Change c m c') : Booked c' := by
  cases hchange with
  | tends f hqueues htended hmetrics => exact h.change_tends hqueues htended hmetrics
  | accepts _ hqueue hnext hqueues hmetrics => exact h.change_accepts hqueue hnext hqueues hmetrics
  | refuses task hqueues hbooks => exact h.change_refuses task hqueues hbooks
  | works hqueue hstep => exact h.change_works hsound hqueue hstep _
  | collects hready => exact h.change_collects hsound hready
  | clears _ hclosed => exact h.change_clears hsound hclosed

theorem assemble (p : Blueprint) (device : Device) (directory : Directory) :
    Booked { scheduler := p.assemble device directory } := ⟨rfl, rfl, rfl, rfl, rfl, rfl⟩

theorem ofBlueprint (p : Blueprint) (device : Device) (directory : Directory)
    {moves : List Move} (hmoves : ∀ m ∈ moves, m ≠ .resetMetrics) :
    Booked (.ofBlueprint p device directory moves) :=
  Course.run_induction_counting hmoves (fun _ hsound h hchange => h.change hsound hchange)
    (.assemble p device directory) (assemble p device directory)

/-- At any moment, a task that was submitted is completed, dropped, lost to a
fault, or still on a queue. -/
theorem submitted_eq (h : Booked c) :
    c.scheduler.books.metrics.submitted =
      c.scheduler.books.metrics.completed + c.scheduler.books.metrics.dropped +
        c.scheduler.books.metrics.deviceFaults + UInt64.ofNat (tally c.past).forgotten +
          UInt64.ofNat (c.scheduler.queues.total openCount +
            c.scheduler.queues.total ExecutionQueue.dropped +
              c.scheduler.queues.total faultCount) := by
  have hlost := length_lost c.past
  rw [h.submitted, h.completed, h.deviceFaults, h.uncollected, h.tasks, hlost]
  simp only [UInt64.ofNat_add, ← h.dropped]
  ac_rfl

end Booked

end KernelDispatch.Scheduler
