import KernelDispatch.Proofs.Scheduler.Accounts

/-!
# What a call that waits leaves behind

A call to wait or to finish goes on when every queue is idle. It removes exactly
the queues that faults have stopped since faults were last collected, and then
every task that was ever accepted is completed, dropped or lost to a fault that
is counted. All that is read off the past: `stops (recent past)` are those queues
and what they have dropped. The order in which the call visits the queues decides
nothing but the order of the reports.

## Main results

* `Stopped` — the stopped queues are those that the past tells of.
* `Course.settled_by_waiting` — what holds after each wait and each finish.
-/

namespace KernelDispatch.Scheduler

open ExecutionQueue (Turn faultCount openCount faultDrops)

variable {c c' : Course} {m : Move}

/-! ## Stopped queues and the past -/

/-- As many faults are not collected as queues were stopped lately. -/
theorem length_stops_recent (past : List Event) :
    (stops (recent past)).length = (tally past).uncollected := by
  induction past using List.reverseRecOn with
  | nil => rfl
  | append_singleton past e ih =>
      rw [recent_snoc, tally_snoc]
      cases e with
      | worked kernel d record =>
          rw [after_worked]
          have hsame : ((Event.worked kernel d record).stop?.toList).length =
              (d.tasks .lost).length := by
            cases d <;> rfl
          simp only [Event.collects, Bool.false_eq_true, if_false, stops_snoc, List.length_append,
            hsame, ih]
      | accepted task => simpa [Event.collects, Event.stop?, Tally.after] using ih
      | refused task => simpa [Event.collects, Event.stop?, Tally.after] using ih
      | waited reports => rfl
      | cleared finish => rfl

/-- Whether a fault has stopped the queue of a kernel. -/
def isStopped (s : Scheduler) (kernel : String) : Bool :=
  ((s.queues.get? kernel).bind ExecutionQueue.fault).isSome

/-- The stopped queues are those that the past tells of. -/
structure Stopped (c : Course) : Prop where
  kernels : ∀ kernel, c.scheduler.isStopped kernel = true ↔
    kernel ∈ (stops (recent c.past)).map Prod.fst
  drops : c.scheduler.queues.total faultDrops =
    ((stops (recent c.past)).map fun stop => stop.2.length).sum

namespace Stopped

theorem isStopped_insert {s : Scheduler} {kernel : String} {next : ExecutionQueue}
    (hqueues : s.queues = c.scheduler.queues.insert kernel next) (name : String) :
    s.isStopped name =
      if name = kernel then next.fault.isSome else c.scheduler.isStopped name := by
  unfold isStopped
  rw [hqueues, NameMap.get?_insert]
  split <;> rfl

theorem change_tends {s : Scheduler} {stage : Stage}
    {f : String → ExecutionQueue → ExecutionQueue} (h : Stopped c)
    (hqueues : s.queues = c.scheduler.queues.mapWithName f)
    (htended : ∀ kernel queue, Tended c.stage queue (f kernel queue)) :
    Stopped ⟨s, stage, c.past⟩ := by
  constructor
  · intro kernel
    rw [← h.kernels kernel]
    have hsame : s.isStopped kernel = c.scheduler.isStopped kernel := by
      unfold isStopped
      rw [hqueues, NameMap.get?_mapWithName]
      cases hget : c.scheduler.queues.get? kernel with
      | none => rfl
      | some queue => exact congrArg Option.isSome (htended kernel queue).same.fault
    rw [hsame]
  · rw [← h.drops, hqueues]
    apply NameMap.total_mapWithName
    intro kernel queue
    rw [faultDrops, (htended kernel queue).same.fault, (htended kernel queue).same.dropped,
      faultDrops]

theorem change_accepts {s : Scheduler} {task : Task} {queue next : ExecutionQueue}
    (h : Stopped c)
    (hqueue : c.scheduler.queues.get? task.kernel = some queue ∨
      c.scheduler.queues.get? task.kernel = none ∧
        ∃ number program, queue = .start task.kernel number program)
    (hnext : queue.enqueue task = .ok next)
    (hqueues : s.queues = c.scheduler.queues.insert task.kernel next) :
    Stopped ⟨s, c.stage, c.past ++ [.accepted task]⟩ := by
  obtain ⟨-, -, hnexteq⟩ := ExecutionQueue.WellFormed.not_closed_of_enqueue hnext
  have hsamefault : next.fault = queue.fault := by rw [hnexteq]
  have hsamedrops : next.faultDrops = queue.faultDrops := by
    rw [hnexteq]
    rfl
  constructor
  · intro kernel
    have hsame : s.isStopped kernel = c.scheduler.isStopped kernel := by
      rw [isStopped_insert hqueues]
      split
      · rename_i hkernel
        subst hkernel
        unfold isStopped
        rcases hqueue with hqueue | ⟨hnone, number, program, rfl⟩
        · rw [hqueue, hsamefault]
          rfl
        · rw [hnone, hsamefault]
          rfl
      · rfl
    rw [hsame, h.kernels]
    simp [Event.collects, Event.stop?]
  · have hstart : ∀ number program, faultDrops (.start task.kernel number program) = 0 :=
      fun _ _ => rfl
    have htotal := total_accept next hstart hqueue
    rw [← hqueues, hsamedrops, Nat.add_right_cancel_iff] at htotal
    rw [htotal, h.drops]
    simp [Event.collects, Event.stop?]

theorem change_refuses {s : Scheduler} (h : Stopped c) (task : Task)
    (hqueues : s.queues = c.scheduler.queues) :
    Stopped ⟨s, c.stage, c.past ++ [.refused task]⟩ := by
  constructor
  · intro kernel
    have hkernels := h.kernels kernel
    rw [isStopped, ← hqueues] at hkernels
    simpa [isStopped, Event.collects, Event.stop?] using hkernels
  · rw [hqueues, h.drops]
    simp [Event.collects, Event.stop?]

theorem change_works {kernel : String} {board : Board} {queue next : ExecutionQueue}
    {done : Option Task} (h : Stopped c) (hsound : Sound c)
    (hqueue : c.scheduler.queues.get? kernel = some queue)
    (hstep : queue.step c.scheduler.board = some (board, next, done))
    (record : Option CompletionRecord) :
    Stopped ⟨c.scheduler.entered kernel board next done, c.stage,
      c.past ++ [.worked kernel (queue.deed next) record]⟩ := by
  obtain ⟨hturn, -⟩ := hsound.turn hqueue hstep
  have hwell := hsound.wellFormed kernel queue hqueue
  constructor
  · intro name
    rw [isStopped_insert (c := c) rfl, recent_snoc]
    simp only [Event.collects, Bool.false_eq_true, if_false, stops_snoc, Event.stop?,
      List.map_append, List.mem_append, ← h.kernels]
    split
    · rename_i hname
      subst hname
      have hbefore : c.scheduler.isStopped name = queue.fault.isSome := by
        rw [isStopped, hqueue]
        rfl
      rw [ExecutionQueue.fault_of_turn hturn, hbefore]
      cases (queue.deed next).stop? <;> simp
    · rename_i hname
      cases (queue.deed next).stop? with
      | none => simp
      | some dropped => simp [hname]
  · have htotal := total_replace next faultDrops hqueue
    rw [ExecutionQueue.faultDrops_of_turn hwell hturn] at htotal
    have hsum : (c.scheduler.entered kernel board next done).queues.total faultDrops =
        c.scheduler.queues.total faultDrops +
          ((queue.deed next).stop?.map List.length).getD 0 := by
      show (c.scheduler.queues.insert kernel next).total faultDrops = _
      omega
    rw [hsum, h.drops, recent_snoc]
    simp only [Event.collects, Bool.false_eq_true, if_false, stops_snoc, Event.stop?,
      List.map_append, List.sum_append]
    cases (queue.deed next).stop? <;> simp

theorem change_collects {visit : List String} {stage : Stage} (hready : c.isReady visit = true) :
    Stopped (c.collected visit stage) := by
  obtain ⟨-, -, hvisit⟩ := isReady_iff.1 hready
  have hremoval := removal_collect c.scheduler (nodup_of_perm_kernels hvisit)
  constructor
  · intro kernel
    have hnot : (c.collected visit stage).scheduler.isStopped kernel = false := by
      unfold isStopped
      cases hget : (c.collected visit stage).scheduler.queues.get? kernel with
      | none => rfl
      | some queue =>
          have hfault := (hremoval.kept hvisit hget).2
          simp [hfault]
    rw [hnot]
    simp [Course.collected, Event.collects, stops]
  · have hzero : (c.collected visit stage).scheduler.queues.total faultDrops = 0 := by
      apply NameMap.total_eq_zero
      intro kernel queue hqueue
      simp [faultDrops, (hremoval.kept hvisit hqueue).2]
    rw [hzero]
    simp [Course.collected, Event.collects, stops]

/-- Every change keeps the past and the stopped queues together. -/
theorem change (h : Stopped c) (hsound : Sound c) (hchange : Change c m c') : Stopped c' := by
  cases hchange with
  | tends f hqueues htended => exact h.change_tends hqueues htended
  | accepts _ hqueue hnext hqueues => exact h.change_accepts hqueue hnext hqueues
  | refuses task hqueues => exact h.change_refuses task hqueues
  | works hqueue hstep => exact h.change_works hsound hqueue hstep _
  | collects hready => exact change_collects hready
  | clears =>
      constructor
      · intro kernel
        simp [isStopped, get?_clear, Event.collects, stops]
      · simp [Event.collects, stops, clear]

theorem assemble (p : Blueprint) (device : Device) (directory : Directory) :
    Stopped { scheduler := p.assemble device directory } := by
  refine ⟨fun kernel => ?_, rfl⟩
  simp [isStopped, get?_assemble, stops, recent]

theorem ofBlueprint (p : Blueprint) (device : Device) (directory : Directory)
    (moves : List Move) : Stopped (.ofBlueprint p device directory moves) :=
  Course.run_induction (fun _ hsound h hchange => h.change hsound hchange)
    (fun _ h => ⟨h.kernels, h.drops⟩) (.assemble p device directory)
    (assemble p device directory)

end Stopped

/-! ## Courses without a reset of their own -/

/-- What holds of a course in which queues are thrown away only by a finish. -/
structure Ordinary (c : Course) : Prop where
  sound : Sound c
  booked : Booked c
  stopped : Stopped c
  stage : c.stage ≠ .resetting none
  unforgotten : (tally c.past).forgotten = 0

namespace Ordinary

theorem change (h : Ordinary c) (hm : m ≠ .reset) (hchange : Change c m c') : Ordinary c' where
  sound := h.sound.change hchange
  booked := h.booked.change h.sound hchange
  stopped := h.stopped.change h.sound hchange
  stage := by
    cases hchange with
    | tends _ _ _ _ _ hstage =>
        rcases hstage with hstage | ⟨-, -, hreset⟩
        · exact hstage ▸ h.stage
        · exact absurd hreset hm
    | accepts => exact h.stage
    | refuses => exact h.stage
    | works => exact h.stage
    | collects _ hstage => rcases hstage with rfl | rfl <;> simp [Course.collected]
    | clears => simp
  unforgotten := by
    cases hchange with
    | tends => exact h.unforgotten
    | accepts => simpa [Tally.after] using h.unforgotten
    | refuses => simpa [Tally.after] using h.unforgotten
    | works => simpa [after_worked] using h.unforgotten
    | collects => simpa [Course.collected, Tally.after] using h.unforgotten
    | @clears finish hstage =>
        -- the wait of the finish has collected every fault
        have hfaults : c.scheduler.queues.total faultCount = 0 := by
          cases finish with
          | none => exact absurd hstage h.stage
          | some reports =>
              apply NameMap.total_eq_zero
              intro kernel queue hqueue
              simp [faultCount, (h.sound.finishing reports hstage kernel queue hqueue).2]
        have huncollected := h.booked.uncollected
        simp only [tally_snoc, Tally.after, h.unforgotten]
        omega

theorem run (h : Ordinary c) {moves : List Move}
    (hmoves : ∀ m ∈ moves, m ≠ .reset ∧ m ≠ .resetMetrics) : Ordinary (c.run moves) :=
  Course.run_induction_counting (fun m hm => (hmoves m hm).2)
    (fun hm _ h hchange => h.change (hmoves _ hm).1 hchange) h.sound h

theorem ofBlueprint (p : Blueprint) (device : Device) (directory : Directory)
    {moves : List Move} (hmoves : ∀ m ∈ moves, m ≠ .reset ∧ m ≠ .resetMetrics) :
    Ordinary (.ofBlueprint p device directory moves) := by
  exact Ordinary.run (c := { scheduler := p.assemble device directory })
    ⟨.assemble p device directory, .assemble p device directory, .assemble p device directory,
      by simp, rfl⟩ hmoves

end Ordinary

/-! ## At rest -/

/-- What holds when nothing is on its way. -/
structure AtRest (c : Course) : Prop where
  pending : c.scheduler.pending = 0
  balances : Balances c.scheduler.books.metrics
  /-- The counters are machine words. Where one of them has wrapped, their difference
  can be cut off at zero. -/
  outstanding : ∀ now,
    (c.scheduler.books.metrics.snapshot now).outstanding =
        c.scheduler.books.metrics.deviceFaults ∨
      UInt64.size ≤ (met .accepted c.past).length ∧
        (c.scheduler.books.metrics.snapshot now).outstanding = 0

theorem toNat_remaining (a b : UInt64) :
    (Metrics.Snapshot.remaining a b).toNat = a.toNat - b.toNat := by
  unfold Metrics.Snapshot.remaining
  split
  · rename_i hle
    exact UInt64.toNat_sub_of_le _ _ hle
  · rename_i hlt
    rw [UInt64.le_iff_toNat_le] at hlt
    show 0 = _
    omega

/-- Taking known parts away from a sum of counters leaves the last part, as long as
the sum has not wrapped. -/
theorem remaining_remaining (a b d : UInt64) :
    Metrics.Snapshot.remaining (Metrics.Snapshot.remaining (a + b + d) a) b = d ∨
      UInt64.size ≤ a.toNat + b.toNat + d.toNat ∧
        Metrics.Snapshot.remaining (Metrics.Snapshot.remaining (a + b + d) a) b = 0 := by
  have hsum : (a + b + d).toNat = (a.toNat + b.toNat + d.toNat) % UInt64.size := by
    rw [UInt64.toNat_add, UInt64.toNat_add, Nat.mod_add_mod]
  have hleft : (Metrics.Snapshot.remaining (Metrics.Snapshot.remaining (a + b + d) a) b).toNat =
      (a.toNat + b.toNat + d.toNat) % UInt64.size - a.toNat - b.toNat := by
    rw [toNat_remaining, toNat_remaining, hsum]
  have ha := a.toNat_lt_size
  have hb := b.toNat_lt_size
  have hd := d.toNat_lt_size
  have hsize : UInt64.size = 18446744073709551616 := rfl
  by_cases hsmall : a.toNat + b.toNat + d.toNat < UInt64.size
  · refine .inl (UInt64.toNat_inj.1 ?_)
    rw [hleft, Nat.mod_eq_of_lt hsmall]
    omega
  · refine .inr ⟨by omega, UInt64.toNat_inj.1 ?_⟩
    rw [hsize] at hleft
    rw [hleft, UInt64.toNat_zero]
    omega

/-- Nothing is outstanding but what faults have taken. -/
theorem Ordinary.atRest (h : Ordinary c) (hpending : c.scheduler.pending = 0)
    (hopen : c.scheduler.queues.total openCount = 0)
    (hdropped : c.scheduler.queues.total ExecutionQueue.dropped = 0)
    (hfaults : c.scheduler.queues.total faultCount = 0) : AtRest c := by
  have hlaw := h.booked.submitted_eq
  have hdrops := h.booked.dropped
  rw [hopen, hdropped, hfaults, h.unforgotten, show UInt64.ofNat (0 + 0 + 0) = 0 from rfl,
    UInt64.add_zero, UInt64.add_zero] at hlaw
  rw [hdropped, show UInt64.ofNat 0 = 0 from rfl, UInt64.add_zero] at hdrops
  refine ⟨hpending, hlaw, fun now => ?_⟩
  have hsum : (met .accepted c.past).length = (met .reported c.past).length +
      (met .discarded c.past).length + (tally c.past).collected := by
    have htasks := h.booked.tasks
    have hlost := length_lost c.past
    have huncollected := h.booked.uncollected
    have hunforgotten := h.unforgotten
    omega
  have houtstanding : (c.scheduler.books.metrics.snapshot now).outstanding =
      Metrics.Snapshot.remaining (Metrics.Snapshot.remaining
        (c.scheduler.books.metrics.completed + c.scheduler.books.metrics.dropped +
          c.scheduler.books.metrics.deviceFaults) c.scheduler.books.metrics.completed)
        c.scheduler.books.metrics.dropped := by
    rw [← hlaw]
    rfl
  rw [houtstanding]
  have hle : ∀ n, (UInt64.ofNat n).toNat ≤ n := fun n => Nat.mod_le n _
  rcases remaining_remaining c.scheduler.books.metrics.completed
    c.scheduler.books.metrics.dropped c.scheduler.books.metrics.deviceFaults with
    heq | ⟨hlarge, hzero⟩
  · exact .inl heq
  · rw [h.booked.completed, hdrops, h.booked.deviceFaults] at hlarge
    have hcompleted := hle (met .reported c.past).length
    have hdiscarded := hle (met .discarded c.past).length
    have hcollected := hle (tally c.past).collected
    exact .inr ⟨by omega, hzero⟩

/-! ## Collecting -/

/-- What a wait has done by the time it returns. The queues that faults have
stopped lately are those of `stops (recent before.past)`. -/
structure Collects (before : Course) (visit : List String) (after : Course) : Prop where
  answer : after.past = before.past ++ [.waited (before.reports visit)]
  /-- It reports an error exactly if a fault has stopped a queue. -/
  verdict : verdict (before.reports visit) = .ok () ↔ stops (recent before.past) = []
  /-- It removes these queues and leaves the others alone. -/
  queues : ∀ kernel, after.scheduler.queues.get? kernel =
    if kernel ∈ (stops (recent before.past)).map Prod.fst then none
    else before.scheduler.queues.get? kernel
  removed : after.scheduler.queues.size + (stops (recent before.past)).length =
    before.scheduler.queues.size
  deviceFaults : after.scheduler.books.metrics.deviceFaults =
    before.scheduler.books.metrics.deviceFaults +
      UInt64.ofNat (stops (recent before.past)).length
  dropped : after.scheduler.books.metrics.dropped = before.scheduler.books.metrics.dropped +
    UInt64.ofNat ((stops (recent before.past)).map fun stop => stop.2.length).sum
  submitted : after.scheduler.books.metrics.submitted = before.scheduler.books.metrics.submitted
  completed : after.scheduler.books.metrics.completed = before.scheduler.books.metrics.completed
  /-- Another order of visiting reports the same faults in another order, and
  changes nothing else. -/
  order : ∀ visit', visit'.Perm visit →
    (before.play (.wait visit')).scheduler = after.scheduler ∧
      (before.reports visit').Perm (before.reports visit)

theorem verdict_eq_ok_iff {reports : List Error} : verdict reports = .ok () ↔ reports = [] := by
  cases reports <;> simp [verdict]

theorem isReady_perm {visit visit' : List String} (hready : c.isReady visit = true)
    (h : visit'.Perm visit) : c.isReady visit' = true := by
  obtain ⟨hstage, hidle, hvisit⟩ := isReady_iff.1 hready
  exact isReady_iff.2 ⟨hstage, hidle, h.trans hvisit⟩

theorem recordDropped_zero (m : Metrics) : m.recordDropped 0 = m := by
  simp [Metrics.recordDropped]

/-- The tasks that the removed queues have dropped. -/
theorem sum_dropped_faultedAmong {s s' : Scheduler} {visit : List String}
    (h : Removal s visit s') (hvisit : visit.Perm s.kernels) :
    ((s.faultedAmong visit).map fun stopped => stopped.2.1.dropped).sum =
      s.queues.total faultDrops := by
  have hsame : (s.faultedAmong visit).map (fun stopped => faultDrops stopped.2.1) =
      (s.faultedAmong visit).map fun stopped => stopped.2.1.dropped := by
    apply List.map_congr_left
    intro stopped hstopped
    simp [faultDrops, fault_of_mem_faultedAmong hstopped]
  have hzero : s'.queues.total faultDrops = 0 := by
    apply NameMap.total_eq_zero
    intro kernel queue hqueue
    simp [faultDrops, (h.kept hvisit hqueue).2]
  have htotal := h.total faultDrops
  rw [hzero, hsame, Nat.zero_add] at htotal
  exact htotal

theorem Ordinary.collects (h : Ordinary c) {visit : List String}
    (hready : c.isReady visit = true) : Collects c visit (c.play (.wait visit)) := by
  obtain ⟨hstage, hidle, hvisit⟩ := isReady_iff.1 hready
  have hremoval := removal_collect c.scheduler (nodup_of_perm_kernels hvisit)
  have hlength : (c.scheduler.faultedAmong visit).length = (stops (recent c.past)).length := by
    rw [length_faultedAmong hremoval hvisit, h.booked.uncollected, length_stops_recent]
  have hdrops : ((c.scheduler.faultedAmong visit).map fun stopped => stopped.2.1.dropped).sum =
      ((stops (recent c.past)).map fun stop => stop.2.length).sum := by
    rw [sum_dropped_faultedAmong hremoval hvisit, h.stopped.drops]
  have hmetrics := congrArg (fun s => s.books.metrics) hremoval.rest
  rw [play_wait hready]
  refine ⟨rfl, ?_, fun kernel => ?_, ?_, ?_, ?_, ?_, ?_, fun visit' hperm => ⟨?_, ?_⟩⟩
  · rw [verdict_eq_ok_iff, ← List.length_eq_zero_iff, ← List.length_eq_zero_iff (l := stops _),
      ← hlength, Course.reports, collect, List.length_map]
  · show (c.scheduler.collect (c.scheduler.faultedAmong visit)).2.queues.get? kernel = _
    rw [hremoval.get? hvisit]
    have hkernels := h.stopped.kernels kernel
    cases hget : c.scheduler.queues.get? kernel with
    | none => simp
    | some queue =>
        rw [isStopped, hget, Option.bind_some] at hkernels
        rw [Option.filter_some]
        simp only [← hkernels]
        cases queue.fault <;> rfl
  · have hsize := hremoval.total fun _ => 1
    rw [← NameMap.size_eq_total, ← NameMap.size_eq_total] at hsize
    show (c.scheduler.collect (c.scheduler.faultedAmong visit)).2.queues.size + _ = _
    simpa [hlength] using hsize
  · show (c.scheduler.collect (c.scheduler.faultedAmong visit)).2.books.metrics.deviceFaults = _
    rw [hmetrics, hlength]
  · show (c.scheduler.collect (c.scheduler.faultedAmong visit)).2.books.metrics.dropped = _
    rw [hmetrics, hdrops]
  · show (c.scheduler.collect (c.scheduler.faultedAmong visit)).2.books.metrics.submitted = _
    rw [hmetrics]
  · show (c.scheduler.collect (c.scheduler.faultedAmong visit)).2.books.metrics.completed = _
    rw [hmetrics]
  · rw [play_wait (isReady_perm hready hperm)]
    exact collect_perm (nodup_of_perm_kernels (hperm.trans hvisit)) hperm
  · exact (faultedAmong_perm hperm).map _

/-- A queue that is idle and was stopped by nothing has dropped nothing, as long as
nobody has asked it to close. -/
theorem dropped_eq_zero (h : Sound c) (hstage : c.stage = .serving)
    {kernel : String} {queue : ExecutionQueue}
    (hqueue : c.scheduler.queues.get? kernel = some queue) (hfault : queue.fault = none) :
    queue.dropped = 0 := by
  have hwell := h.wellFormed kernel queue hqueue
  have hopen : queue.phase ≠ .closed := by
    intro hclosed
    exact hwell.caused hclosed hfault (h.serving hstage kernel queue hqueue)
  exact (hwell.unharmed hopen).1

theorem pending_eq_zero_of_idle
    (hidle : ∀ kernel queue, c.scheduler.queues.get? kernel = some queue → queue.isIdle = true) :
    c.scheduler.pending = 0 := by
  apply NameMap.total_eq_zero
  intro kernel queue hqueue
  have hqueueidle := hidle kernel queue hqueue
  obtain ⟨hpending, hbusy⟩ := ExecutionQueue.isIdle_iff.1 hqueueidle
  simp [ExecutionQueue.size, hpending, hbusy]

theorem Ordinary.atRest_wait (h : Ordinary c) {visit : List String}
    (hready : c.isReady visit = true) : AtRest (c.play (.wait visit)) := by
  obtain ⟨hstage, hidle, hvisit⟩ := isReady_iff.1 hready
  have hremoval := removal_collect c.scheduler (nodup_of_perm_kernels hvisit)
  have hafter : Ordinary (c.play (.wait visit)) :=
    h.change (by simp) (change_of_play c (.wait visit) (by simp))
  rw [play_wait hready] at hafter ⊢
  have hidle' : ∀ kernel queue,
      (c.collected visit .serving).scheduler.queues.get? kernel = some queue →
        queue.isIdle = true := fun kernel queue hqueue =>
    hidle kernel queue (hremoval.kept hvisit hqueue).1
  refine hafter.atRest (pending_eq_zero_of_idle hidle')
    (total_openCount_of_idle hafter.sound hidle') ?_ (total_faultCount_of_kept hremoval hvisit)
  apply NameMap.total_eq_zero
  intro kernel queue hqueue
  exact dropped_eq_zero hafter.sound rfl hqueue (hremoval.kept hvisit hqueue).2

/-! ## Finishing -/

/-- The reset of a finish, on its way: there is nothing left to drop. -/
structure Finishing (reports : List Error) (metrics : Metrics) (c : Course) : Prop where
  stage : c.stage = .resetting (some reports)
  metrics : c.scheduler.books.metrics = metrics
  dropped : c.scheduler.queues.total ExecutionQueue.dropped = 0

theorem Finishing.change {reports : List Error} {metrics : Metrics}
    (h : Finishing reports metrics c) (hsound : Sound c) (hm : m ≠ .clear)
    (hchange : Change c m c') : Finishing reports metrics c' := by
  cases hchange with
  | tends f hqueues htended hmetrics _ hstage =>
      refine ⟨?_, hmetrics.trans h.metrics, ?_⟩
      · rcases hstage with hstage | ⟨hstage, -⟩
        · exact hstage.trans h.stage
        · simp [h.stage] at hstage
      · rw [hqueues, ← h.dropped]
        exact NameMap.total_mapWithName _ fun kernel queue => (htended kernel queue).same.dropped
  | accepts hstage => simp [h.stage] at hstage
  | refuses task hqueues hbooks =>
      exact ⟨h.stage, by rw [hbooks, h.metrics], by rw [hqueues, h.dropped]⟩
  | @works kernel board queue next done hqueue hstep =>
      obtain ⟨hturn, hdone⟩ := hsound.turn hqueue hstep
      obtain ⟨hidle, -⟩ := hsound.finishing reports h.stage kernel queue hqueue
      obtain ⟨hdeed, -⟩ := ExecutionQueue.closes_of_idle hidle hturn
      have htotal := total_replace next ExecutionQueue.dropped hqueue
      rw [hdeed] at hdone
      rw [ExecutionQueue.dropped_of_turn hturn, hdeed] at htotal
      refine ⟨h.stage, ?_, ?_⟩
      · rw [show done = none from hdone]
        exact h.metrics
      · have hdropped := h.dropped
        show (c.scheduler.queues.insert kernel next).total ExecutionQueue.dropped = 0
        simp only [ExecutionQueue.Deed.tasks, List.length_nil] at htotal
        omega
  | collects hready =>
      have hstage := (isReady_iff.1 hready).1
      simp [h.stage] at hstage
  | clears _ _ hclear => exact absurd hclear hm

/-- What a finish has done by the time it returns: what a wait has done, and there
are no queues any more. -/
structure Finishes (before : Course) (visit : List String) (after : Course) : Prop where
  answer : after.past.getLast? = some (.cleared (some (before.reports visit)))
  queues : ∀ kernel, after.scheduler.queues.get? kernel = none
  metrics : after.scheduler.books.metrics =
    (before.play (.wait visit)).scheduler.books.metrics
  atRest : AtRest after

theorem Ordinary.finishes (h : Ordinary c) {visit : List String} (hready : c.isReady visit = true)
    {moves : List Move} (hmoves : ∀ m ∈ moves, m ≠ .clear ∧ m ≠ .reset ∧ m ≠ .resetMetrics)
    (hclosed : ((c.play (.finish visit)).run moves).isClosed = true) :
    Finishes c visit (((c.play (.finish visit)).run moves).play .clear) := by
  have hfinish : Ordinary (c.play (.finish visit)) :=
    h.change (by simp) (change_of_play c (.finish visit) (by simp))
  have hbegun : Finishing (c.reports visit) (c.play (.wait visit)).scheduler.books.metrics
      (c.play (.finish visit)) := by
    obtain ⟨hstage, hidle, hvisit⟩ := isReady_iff.1 hready
    have hremoval := removal_collect c.scheduler (nodup_of_perm_kernels hvisit)
    rw [play_finish hready, play_wait hready]
    refine ⟨rfl, rfl, ?_⟩
    apply NameMap.total_eq_zero
    intro kernel queue hqueue
    obtain ⟨hbefore, hfault⟩ := hremoval.kept hvisit hqueue
    exact dropped_eq_zero h.sound hstage hbefore hfault
  have hmid : Finishing (c.reports visit) (c.play (.wait visit)).scheduler.books.metrics
      ((c.play (.finish visit)).run moves) :=
    Course.run_induction_counting (fun m hm => (hmoves m hm).2.2)
      (fun hm hsound h hchange => h.change hsound (hmoves _ hm).1 hchange) hfinish.sound hbegun
  have hordinary : Ordinary ((c.play (.finish visit)).run moves) :=
    hfinish.run fun m hm => (hmoves m hm).2
  have hafter : Ordinary (((c.play (.finish visit)).run moves).play .clear) :=
    hordinary.change (by simp) (change_of_play _ .clear (by simp))
  rw [play_clear hmid.stage hclosed] at hafter ⊢
  refine ⟨by simp, fun _ => rfl, ?_, hafter.atRest rfl rfl rfl rfl⟩
  rw [← hmid.metrics]
  show Metrics.recordDropped _ (UInt64.ofNat _) = _
  rw [hmid.dropped]
  exact recordDropped_zero _

/-- After each wait and each finish of an ordinary course nothing is on its way,
and the call has collected exactly the faults that the past tells of. -/
theorem Course.settled_by_waiting (p : Blueprint) (device : Device) (directory : Directory)
    {moves : List Move} {visit : List String}
    (hmoves : ∀ m ∈ moves, m ≠ .reset ∧ m ≠ .resetMetrics)
    (hready : (ofBlueprint p device directory moves).isReady visit = true) :
    Collects (ofBlueprint p device directory moves) visit
        ((ofBlueprint p device directory moves).play (.wait visit)) ∧
      AtRest ((ofBlueprint p device directory moves).play (.wait visit)) ∧
        ∀ later : List Move, (∀ m ∈ later, m ≠ .clear ∧ m ≠ .reset ∧ m ≠ .resetMetrics) →
          (((ofBlueprint p device directory moves).play (.finish visit)).run later).isClosed =
              true →
            Finishes (ofBlueprint p device directory moves) visit
              ((((ofBlueprint p device directory moves).play (.finish visit)).run later).play
                .clear) := by
  have h := Ordinary.ofBlueprint p device directory hmoves
  exact ⟨h.collects hready, h.atRest_wait hready, fun _ hlater hclosed =>
    h.finishes hready hlater hclosed⟩

/-- Two queues, one of which completes its task while a fault stops the other with
a task pending. -/
def oneFaultOneDone : List Move :=
  [.insertConfiguration "cfg" (Image.encode ["a", "b"]), .addTask { kernel := "a" },
    .addTask { kernel := "b", recipe := { mishap := some (.refuses "no arguments") } },
    .addTask { kernel := "b" }, .work "b", .work "a", .work "a", .work "b", .work "a", .work "a"]

theorem Course.settled_by_waiting_oneFaultOneDone :
    (ofBlueprint {} default { path := "" } oneFaultOneDone).isReady ["b", "a"] = true ∧
      (stops (recent (ofBlueprint {} default { path := "" } oneFaultOneDone).past)).map
          Prod.fst = ["b"] ∧
        Collects (ofBlueprint {} default { path := "" } oneFaultOneDone) ["b", "a"]
          ((ofBlueprint {} default { path := "" } oneFaultOneDone).play (.wait ["b", "a"])) ∧
        Finishes (ofBlueprint {} default { path := "" } oneFaultOneDone) ["b", "a"]
          ((((ofBlueprint {} default { path := "" } oneFaultOneDone).play
            (.finish ["b", "a"])).run [.cancel "a", .work "a"]).play .clear) := by
  have hmoves : ∀ m ∈ oneFaultOneDone, m ≠ .reset ∧ m ≠ .resetMetrics := by
    simp [oneFaultOneDone]
  have hready : (ofBlueprint {} default { path := "" } oneFaultOneDone).isReady ["b", "a"] =
      true := by decide
  have hlater : ∀ m ∈ ([.cancel "a", .work "a"] : List Move),
      m ≠ .clear ∧ m ≠ .reset ∧ m ≠ .resetMetrics := by simp
  obtain ⟨hcollects, -, hfinishes⟩ :=
    settled_by_waiting {} default { path := "" } hmoves hready
  exact ⟨hready, by decide, hcollects, hfinishes _ hlater (by decide)⟩

end KernelDispatch.Scheduler
