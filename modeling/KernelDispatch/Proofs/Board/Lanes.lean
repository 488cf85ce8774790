import KernelDispatch.Proofs.Board.Submissions
import Mathlib.Data.List.Nodup
import Mathlib.Logic.Function.Basic

/-!
# Launches that wait for their queues

A launch is bound when it is submitted and run when its queue gets to it. Until then it waits in
the lane of the queue, behind what was submitted to the queue before it. Each queue works on its
own, so that calls to the device and turns of its queues come in any order at all. A course is a
device with its lanes, and it is played by any list of such moves. A queue takes no turn while
nothing waits for it.

What is seen of a queue is its lane and its trail on the device. A submission adds a job to the
end of the lane, a turn makes a report of the first job that waits, and no other move changes what
is seen (`Course.Kept.sight_play`). So a queue has no part in what is seen of another, and what
every lane keeps is proved of one lane by itself: its jobs are what it was asked, its reports are
for the first of them and lie one behind the other in time, and the log has those of the reports
that tell of a success.

## Main definitions

* `Device.Lane` — the launches of a queue, those that wait and those that were run.
* `Device.Sight` — what is seen of a queue, and `Device.Sight.next` after one more move.
* `Device.Course` — a device with the lanes of its queues.
* `Device.Orderly` — what holds of every course.

## Main results

* `Device.Sight.Ordered.next` — every move keeps a lane in order.
* `Device.Course.Kept.sight_play` — what a move makes of what is seen of a queue.
* `Device.Course.sight_run_filter` — what is seen of a queue is made by what concerns it.
* `Device.Course.orderly` — what follows for every course.
-/

namespace KernelDispatch.Device

/-! ## Lanes -/

/-- A launch with the ticket of the one who waits for its report. -/
structure Job where
  ticket : Nat
  launch : Launch

/-- The report of a launch. -/
structure Report where
  job : Job
  ending : Ending
  started : Nat
  finished : Nat

namespace Report

/-- Whether a success is reported. -/
def succeeded (r : Report) : Bool := decide (r.ending = .complete)

/-- The execution that goes with the report of a success. -/
def execution (r : Report) : Execution :=
  { queue := r.job.launch.queue, program := r.job.launch.kernel.program
    entryPoint := r.job.launch.kernel.entryPoint, args := r.job.launch.kernel.args
    workItems := r.job.launch.workItems, started := r.started, finished := r.finished }

end Report

/-- The launches of a queue, those that wait and those that were run. -/
structure Lane where
  /-- How many tickets were given out. -/
  tickets : Nat := 0
  /-- The launches that wait, oldest first. -/
  backlog : List Job := []
  /-- What was reported, oldest first. -/
  reports : List Report := []

namespace Lane

/-- All launches of a lane, oldest first. -/
def jobs (lane : Lane) : List Job := lane.reports.map Report.job ++ lane.backlog

/-- A launch goes to the end of its lane. -/
def join (lane : Lane) (l : Launch) : Lane :=
  { lane with tickets := lane.tickets + 1, backlog := lane.backlog ++ [⟨lane.tickets, l⟩] }

/-- The first launch that waits is reported. -/
def report (lane : Lane) (r : Report) : Lane :=
  { lane with backlog := lane.backlog.tail, reports := lane.reports ++ [r] }

theorem jobs_join (lane : Lane) (l : Launch) :
    (lane.join l).jobs = lane.jobs ++ [⟨lane.tickets, l⟩] :=
  (List.append_assoc _ _ _).symm

theorem jobs_report {lane : Lane} {r : Report} {rest : List Job}
    (h : lane.backlog = r.job :: rest) : (lane.report r).jobs = lane.jobs := by
  simp [jobs, report, h]

end Lane

/-- What is seen of a queue: its lane, and the trail that it leaves on the device. -/
structure Sight where
  lane : Lane := {}
  trail : Trail := {}

namespace Sight

def join (s : Sight) (l : Launch) : Sight := { s with lane := s.lane.join l }

/-- The first launch that waits is run and reported. -/
def serve (s : Sight) : Sight :=
  match s.lane.backlog with
  | [] => s
  | job :: _ =>
      let trail := s.trail.add job.launch
      { lane := s.lane.report ⟨job, job.launch.ending, s.trail.free, trail.free⟩, trail }

/-- What a move makes of the sight of a queue. -/
def next (t : Timing) (queue : Nat) (past : List Move) (s : Sight) : Move → Sight
  | .createQueue | .failKernel _ => s
  | .submit q kernel geometry =>
      (Move.asks t queue past (.submit q kernel geometry)).foldl join s
  | .work q => if q = queue then s.serve else s

/-- A lane is in order if it holds what was asked of it, and what was run of it has left its
reports one behind the other. -/
structure Ordered (asked : List Launch) (s : Sight) : Prop where
  launches : s.lane.jobs.map Job.launch = asked
  tickets : s.lane.jobs.map Job.ticket = List.range asked.length
  given : s.lane.tickets = asked.length
  reported : ∀ r ∈ s.lane.reports, r.ending = r.job.launch.ending ∧
    r.finished = r.started + r.job.launch.span ∧ r.finished ≤ s.trail.free
  apart : s.lane.reports.Pairwise fun r r' => r.finished ≤ r'.started
  logged : s.trail.log = (s.lane.reports.filter Report.succeeded).map Report.execution
  trail : s.trail = Trail.of (s.lane.reports.map fun r => r.job.launch)

namespace Ordered

variable {asked : List Launch} {s : Sight}

theorem empty : Ordered [] {} := by
  constructor
  · rfl
  · rfl
  · rfl
  · intro r hr
    cases hr
  · exact List.Pairwise.nil
  · rfl
  · rfl

theorem join (h : Ordered asked s) (l : Launch) : Ordered (asked ++ [l]) (s.join l) := by
  have hjobs := s.lane.jobs_join l
  constructor
  · rw [Sight.join, hjobs, List.map_append, h.launches]
    rfl
  · rw [Sight.join, hjobs, List.map_append, h.tickets, h.given, List.length_append,
      List.length_singleton, List.range_succ]
    rfl
  · rw [List.length_append, ← h.given]
    rfl
  · exact h.reported
  · exact h.apart
  · exact h.logged
  · exact h.trail

theorem serve (h : Ordered asked s) : Ordered asked s.serve := by
  unfold Sight.serve
  split
  · exact h
  · rename_i job rest hbacklog
    have hjobs : (s.lane.report ⟨job, job.launch.ending, s.trail.free,
        (s.trail.add job.launch).free⟩).jobs = s.lane.jobs := Lane.jobs_report hbacklog
    constructor
    · exact (congrArg _ hjobs).trans h.launches
    · exact (congrArg _ hjobs).trans h.tickets
    · exact h.given
    · intro r hr
      rcases List.mem_append.1 hr with hearlier | hlast
      · obtain ⟨hending, hfinished, hfree⟩ := h.reported r hearlier
        exact ⟨hending, hfinished, Nat.le_add_right_of_le hfree⟩
      · rw [List.mem_singleton.1 hlast]
        exact ⟨rfl, rfl, Nat.le_refl _⟩
    · -- the queue was not free before the last of the earlier reports
      apply List.pairwise_append.2
      refine ⟨h.apart, List.pairwise_singleton _ _, ?_⟩
      intro r hr last hlast
      rw [List.mem_singleton.1 hlast]
      exact (h.reported r hr).2.2
    · show s.trail.log ++ _ = ((s.lane.reports ++ _).filter _).map _
      rw [List.filter_append, List.map_append, ← h.logged]
      cases hfaults : job.launch.faults with
      | true => simp [Report.succeeded, Launch.ending_of_faults hfaults]
      | false => simp [Report.succeeded, Launch.ending_of_runs hfaults, Report.execution,
          Launch.execution, Trail.add]
    · show s.trail.add job.launch = Trail.of ((s.lane.reports ++ _).map _)
      rw [List.map_append, Trail.of_append, ← h.trail]
      rfl

/-- Every move keeps a lane in order. -/
theorem next (h : Ordered asked s) (t : Timing) (queue : Nat) (past : List Move) (m : Move) :
    Ordered (asked ++ m.asks t queue past) (s.next t queue past m) := by
  cases m with
  | createQueue => exact (List.append_nil asked).symm ▸ h
  | failKernel entryPoint => exact (List.append_nil asked).symm ▸ h
  | submit q kernel geometry =>
      rw [Sight.next, Move.asks]
      split
      · exact h.join _
      · rwa [List.append_nil]
  | work q =>
      rw [Sight.next, Move.asks, List.append_nil]
      split
      · exact h.serve
      · exact h

theorem length_jobs (h : Ordered asked s) :
    s.lane.reports.length + s.lane.backlog.length = asked.length := by
  have hlength := congrArg List.length h.launches
  simpa [Lane.jobs] using hlength

/-- The reports of a lane are for the tickets that were given out first. -/
theorem tickets_reports (h : Ordered asked s) :
    s.lane.reports.map (fun r => r.job.ticket) = List.range s.lane.reports.length := by
  have hlength := h.length_jobs
  have htickets := congrArg (List.take s.lane.reports.length) h.tickets
  rw [Lane.jobs, List.map_append, List.map_map, List.take_left' (List.length_map _),
    List.take_range, Nat.min_eq_left (by omega)] at htickets
  exact htickets

/-- A ticket is the place of its launch among those that were asked for. -/
theorem launch_of_mem (h : Ordered asked s) {job : Job} (hjob : job ∈ s.lane.jobs) :
    asked[job.ticket]? = some job.launch := by
  obtain ⟨i, hi, rfl⟩ := List.getElem_of_mem hjob
  have hticket : s.lane.jobs[i].ticket = i := by
    have hplace := congrArg (fun tickets => tickets[i]?) h.tickets
    have hlength : i < asked.length := by
      have hlength := congrArg List.length h.launches
      rw [List.length_map] at hlength
      omega
    simpa [List.getElem?_eq_getElem hi, hlength] using hplace
  rw [hticket, ← h.launches, List.getElem?_map, List.getElem?_eq_getElem hi]
  rfl

/-- Where nothing waits, all that was asked has left its trail. -/
theorem trail_of_nil (h : Ordered asked s) (hbacklog : s.lane.backlog = []) :
    s.trail = Trail.of asked := by
  have hlaunches := h.launches
  rw [Lane.jobs, hbacklog, List.append_nil, List.map_map] at hlaunches
  rw [← hlaunches]
  exact h.trail

end Ordered

/-- What was reported stays reported. -/
theorem reports_next (t : Timing) (queue : Nat) (past : List Move) (s : Sight) (m : Move) :
    s.lane.reports <+: (s.next t queue past m).lane.reports := by
  cases m with
  | createQueue => exact List.prefix_rfl
  | failKernel entryPoint => exact List.prefix_rfl
  | submit q kernel geometry =>
      rw [next, Move.asks]
      split <;> exact List.prefix_rfl
  | work q =>
      rw [next, serve]
      split
      · split
        · exact List.prefix_rfl
        · exact List.prefix_append _ _
      · exact List.prefix_rfl

/-- In its turn, a queue for which launches wait reports one more. -/
theorem length_reports_serve (s : Sight) :
    min (s.lane.reports.length + s.lane.backlog.length) (s.lane.reports.length + 1) ≤
      s.serve.lane.reports.length := by
  unfold serve
  split
  · rename_i hbacklog
    rw [hbacklog]
    exact Nat.min_le_left _ _
  · show _ ≤ (s.lane.reports ++ _).length
    rw [List.length_append]
    exact Nat.min_le_right _ _

end Sight

/-! ## Courses -/

/-- A device with the lanes of its queues. -/
structure Course where
  device : Device
  lanes : Nat → Lane

namespace Course

variable {t : Timing} {c : Course} {past : List Move} {queue : Nat}

/-- The course after a move. -/
def play (c : Course) : Move → Course
  | .createQueue => { c with device := c.device.withQueue }
  | .failKernel entryPoint => { c with device := c.device.failKernel entryPoint }
  | .submit queue kernel geometry =>
      if queue < c.device.queuesCreated then
        let l := c.device.bind queue kernel geometry.workItems
        { c with lanes := Function.update c.lanes queue ((c.lanes queue).join l) }
      else c
  | .work queue =>
      match (c.lanes queue).backlog with
      | [] => c
      | job :: _ =>
          let device := c.device.perform job.launch
          let report := ⟨job, job.launch.ending, c.device.clock queue, device.clock queue⟩
          { device, lanes := Function.update c.lanes queue ((c.lanes queue).report report) }

/-- The course of a new device. -/
def run (t : Timing) (moves : List Move) : Course :=
  moves.foldl play { device := withTiming t, lanes := fun _ => {} }

theorem run_snoc (past : List Move) (m : Move) : run t (past ++ [m]) = (run t past).play m :=
  List.foldl_append

/-- What is seen of a queue. -/
def sight (c : Course) (queue : Nat) : Sight := ⟨c.lanes queue, c.device.trail queue⟩

/-- A course is kept if its device is as it was told to be and its lanes are in order. -/
structure Kept (t : Timing) (past : List Move) (c : Course) : Prop where
  told : Told t past c.device
  ordered : ∀ queue, (c.sight queue).Ordered (asked t queue [] past)

/-- What waits in a lane waits for the queue of the lane. -/
theorem Kept.queue_of_backlog (h : Kept t past c) {job : Job} {rest : List Job}
    (hbacklog : (c.lanes queue).backlog = job :: rest) :
    job.launch.queue = queue ∧ queue < c.device.queuesCreated := by
  have hjob : job ∈ (c.lanes queue).jobs := by
    unfold Lane.jobs
    rw [hbacklog]
    exact List.mem_append_right _ List.mem_cons_self
  have hasked : job.launch ∈ asked t queue [] past := by
    rw [← (h.ordered queue).launches]
    exact List.mem_map_of_mem hjob
  rw [h.told.created]
  exact created_of_mem_asked past [] _ hasked

theorem Kept.sight_submit (h : Kept t past c) (q : Nat) (kernel : Kernel) (geometry : Geometry)
    (queue : Nat) : (c.play (.submit q kernel geometry)).sight queue =
      (c.sight queue).next t queue past (.submit q kernel geometry) := by
  by_cases hcreated : q < c.device.queuesCreated
  · have hpast : q < past.count .createQueue := h.told.created ▸ hcreated
    have hplay : c.play (.submit q kernel geometry) = { c with
        lanes := Function.update c.lanes q
          ((c.lanes q).join (bound t past q kernel geometry)) } := by
      rw [play, if_pos hcreated, h.told.bind]
    rw [hplay]
    by_cases hq : q = queue
    · subst hq
      simp [sight, Sight.next, Move.asks, hpast, Sight.join]
    · simp [sight, Sight.next, Move.asks, hq, Function.update_of_ne (Ne.symm hq)]
  · have hpast : ¬ q < past.count .createQueue := h.told.created ▸ hcreated
    have hplay : c.play (.submit q kernel geometry) = c := if_neg hcreated
    rw [hplay]
    simp [Sight.next, Move.asks, hpast]

theorem Kept.sight_work (h : Kept t past c) (q queue : Nat) :
    (c.play (.work q)).sight queue = (c.sight queue).next t queue past (.work q) := by
  rw [Sight.next]
  cases hbacklog : (c.lanes q).backlog with
  | nil =>
      have hplay : c.play (.work q) = c := by simp only [play, hbacklog]
      have hserve : (c.sight q).serve = c.sight q := by simp only [Sight.serve, sight, hbacklog]
      rw [hplay]
      by_cases hq : q = queue
      · rw [if_pos hq, ← hq, hserve]
      · rw [if_neg hq]
  | cons job rest =>
      -- the job carries the number of its queue, and the device goes by that number
      obtain ⟨hjob, hcreated⟩ := h.queue_of_backlog hbacklog
      have hlanes : (c.play (.work q)).lanes = Function.update c.lanes q ((c.lanes q).report
          ⟨job, job.launch.ending, c.device.clock q, (c.device.perform job.launch).clock q⟩) := by
        simp only [play, hbacklog]
      have hdevice : (c.play (.work q)).device = c.device.perform job.launch := by
        simp only [play, hbacklog]
      rw [sight, hlanes, hdevice]
      by_cases hq : q = queue
      · subst hq
        have htrail : (c.device.perform job.launch).trail q =
            (c.device.trail q).add job.launch := by
          have hperform := trail_perform c.device (hjob.symm ▸ hcreated)
          rwa [hjob] at hperform
        have hclock : (c.device.perform job.launch).clock q =
            ((c.device.trail q).add job.launch).free := congrArg Trail.free htrail
        rw [if_pos rfl, Function.update_self, htrail, hclock]
        simp only [Sight.serve, sight, hbacklog]
        rfl
      · have hne : job.launch.queue ≠ queue := hjob ▸ hq
        rw [if_neg hq, Function.update_of_ne (Ne.symm hq), trail_perform_of_ne c.device hne]
        rfl

/-- What a move makes of the sight of a queue follows from this sight and the moves so far. -/
theorem Kept.sight_play (h : Kept t past c) (m : Move) (queue : Nat) :
    (c.play m).sight queue = (c.sight queue).next t queue past m := by
  cases m with
  | createQueue => exact congrArg (Sight.mk _) (trail_withQueue c.device queue)
  | failKernel entryPoint => rfl
  | submit q kernel geometry => exact h.sight_submit q kernel geometry queue
  | work q => exact h.sight_work q queue

/-- Every move keeps a course. -/
theorem Kept.play (h : Kept t past c) (m : Move) : Kept t (past ++ [m]) (c.play m) := by
  constructor
  · cases m with
    | createQueue => exact h.told.withQueue
    | failKernel entryPoint => exact h.told.failKernel entryPoint
    | submit q kernel geometry =>
        have hdevice : (c.play (.submit q kernel geometry)).device = c.device := by
          unfold Course.play
          dsimp only
          split <;> rfl
        rw [hdevice]
        exact h.told.submit q kernel geometry
    | work q =>
        unfold Course.play
        dsimp only
        split
        · exact h.told.work q
        · exact (h.told.perform _).work q
  · intro queue
    rw [h.sight_play, asked_snoc]
    exact (h.ordered queue).next t queue past m

theorem kept_run (t : Timing) (moves : List Move) : Kept t moves (run t moves) := by
  induction moves using List.reverseRecOn with
  | nil => exact ⟨Told.withTiming t, fun queue => Sight.Ordered.empty⟩
  | append_singleton past m ih =>
      rw [run_snoc]
      exact ih.play m

theorem sight_run_snoc (t : Timing) (queue : Nat) (past : List Move) (m : Move) :
    (run t (past ++ [m])).sight queue = ((run t past).sight queue).next t queue past m := by
  rw [run_snoc]
  exact (kept_run t past).sight_play m queue

/-! ## Turns -/

/-- What was reported stays reported. -/
theorem reports_run (t : Timing) (queue : Nat) (past later : List Move) :
    ((run t past).sight queue).lane.reports <+:
      ((run t (past ++ later)).sight queue).lane.reports := by
  induction later using List.reverseRecOn with
  | nil => simp only [List.append_nil, List.prefix_rfl]
  | append_singleton later m ih =>
      rw [← List.append_assoc, sight_run_snoc]
      exact ih.trans (Sight.reports_next t queue (past ++ later) _ m)

/-- In as many turns as it is given, a queue reports as many launches, or all that it was asked
for before. -/
theorem length_reports_run (t : Timing) (queue : Nat) (past later : List Move) :
    min (asked t queue [] past).length
        (((run t past).sight queue).lane.reports.length + later.count (.work queue)) ≤
      ((run t (past ++ later)).sight queue).lane.reports.length := by
  induction later using List.reverseRecOn with
  | nil =>
      rw [List.append_nil]
      exact Nat.min_le_right _ _
  | append_singleton later m ih =>
      have hlength := ((kept_run t (past ++ later)).ordered queue).length_jobs
      have hasked : (asked t queue [] past).length ≤ (asked t queue [] (past ++ later)).length := by
        rw [asked_append, List.length_append]
        exact Nat.le_add_right _ _
      rw [← List.append_assoc, sight_run_snoc, List.count_append]
      by_cases hm : m = .work queue
      · -- a turn is lost on an empty backlog only, and then all that was asked is reported
        have hserve := ((run t (past ++ later)).sight queue).length_reports_serve
        rw [hm, Sight.next, if_pos rfl, List.count_singleton_self]
        omega
      · have hmore := (Sight.reports_next t queue (past ++ later)
          ((run t (past ++ later)).sight queue) m).length_le
        rw [List.count_singleton, if_neg (by simpa using hm)]
        exact Nat.le_trans ih hmore

/-- A queue that is given a turn for each launch that waits has one report for each ticket. -/
theorem count_ticket_run {later : List Move}
    (hturns : ((run t past).sight queue).lane.backlog.length ≤ later.count (.work queue))
    {ticket : Nat} (hticket : ticket < (asked t queue [] past).length) :
    (((run t (past ++ later)).sight queue).lane.reports.map fun r => r.job.ticket).count
      ticket = 1 := by
  have hlength := ((kept_run t past).ordered queue).length_jobs
  have hreports := length_reports_run t queue past later
  rw [((kept_run t (past ++ later)).ordered queue).tickets_reports]
  apply List.count_eq_one_of_mem List.nodup_range
  rw [List.mem_range]
  omega

end Course

/-! ## Queues by themselves -/

section

variable {t : Timing} {queue : Nat}

theorem Sight.next_filter (past : List Move) (s : Sight) (m : Move) :
    s.next t queue (past.filter (Move.concerns queue)) m = s.next t queue past m := by
  cases m with
  | createQueue => rfl
  | failKernel entryPoint => rfl
  | work q => rfl
  | submit q kernel geometry => rw [next, next, Move.asks_filter]

theorem Sight.next_of_elsewhere (past : List Move) (s : Sight) {m : Move}
    (hm : m.concerns queue = false) : s.next t queue past m = s := by
  cases m with
  | createQueue => cases hm
  | failKernel entryPoint => cases hm
  | submit q kernel geometry =>
      have hq : ¬ q = queue := of_decide_eq_false hm
      rw [next, Move.asks, if_neg (fun hasked => hq hasked.1), List.foldl_nil]
  | work q => exact if_neg (of_decide_eq_false hm)

/-- What is seen of a queue is made by the moves that concern it. -/
theorem Course.sight_run_filter (t : Timing) (queue : Nat) (moves : List Move) :
    (run t (moves.filter (Move.concerns queue))).sight queue = (run t moves).sight queue := by
  induction moves using List.reverseRecOn with
  | nil => rfl
  | append_singleton past m ih =>
      rw [List.filter_append, sight_run_snoc]
      cases hm : m.concerns queue with
      | true =>
          rw [List.filter_cons_of_pos hm, List.filter_nil, sight_run_snoc, ih, Sight.next_filter]
      | false =>
          have hskip : ¬ m.concerns queue = true := by simp [hm]
          rw [List.filter_cons_of_neg hskip, List.filter_nil, List.append_nil, ih,
            Sight.next_of_elsewhere past _ hm]

end

/-! ## What holds of every course -/

/-- What is reported of a submission that was made after these moves. -/
structure Report.Answers (t : Timing) (past : List Move) (queue : Nat) (kernel : Kernel)
    (geometry : Geometry) (r : Report) : Prop where
  launch : r.job.launch.queue = queue ∧ r.job.launch.kernel = kernel ∧
    r.job.launch.workItems = geometry.workItems
  /-- It fails if its entry point was marked before, and otherwise it succeeds. -/
  awaited : r.ending.await = if .failKernel kernel.entryPoint ∈ past then
    .error (.device s!"{kernel.entryPoint} faulted on device") else .ok ()
  succeeded : r.succeeded = true ↔ .failKernel kernel.entryPoint ∉ past
  lasts : r.finished = r.started +
    min (t.base + min (t.perItem * geometry.workItems.toNat) (UInt64.size - 1)) longestSpan

/-- A submission is answered as was settled when it was bound. -/
theorem Report.Answers.of_bound {t : Timing} {past : List Move} {queue : Nat} {kernel : Kernel}
    {geometry : Geometry} {r : Report} (hlaunch : r.job.launch = bound t past queue kernel geometry)
    (hending : r.ending = r.job.launch.ending)
    (hfinished : r.finished = r.started + r.job.launch.span) :
    r.Answers t past queue kernel geometry := by
  have hkernel : r.job.launch.kernel = kernel := congrArg Launch.kernel hlaunch
  have hfaults : r.job.launch.faults = decide (.failKernel kernel.entryPoint ∈ past) :=
    congrArg Launch.faults hlaunch
  constructor
  · exact ⟨congrArg Launch.queue hlaunch, hkernel, congrArg Launch.workItems hlaunch⟩
  · by_cases hmarked : .failKernel kernel.entryPoint ∈ past
    · rw [decide_eq_true hmarked] at hfaults
      rw [hending, Launch.ending_of_faults hfaults, hkernel, if_pos hmarked]
      rfl
    · rw [decide_eq_false hmarked] at hfaults
      rw [hending, Launch.ending_of_runs hfaults, if_neg hmarked]
      rfl
  · by_cases hmarked : .failKernel kernel.entryPoint ∈ past
    · rw [decide_eq_true hmarked] at hfaults
      rw [Report.succeeded, hending, Launch.ending_of_faults hfaults]
      simp [hmarked]
    · rw [decide_eq_false hmarked] at hfaults
      rw [Report.succeeded, hending, Launch.ending_of_runs hfaults]
      simp [hmarked]
  · rw [hfinished, hlaunch]
    rfl

/-- What holds of a new device and the lanes of its queues after any moves. -/
structure Orderly (t : Timing) (moves : List Move) : Prop where
  /-- The next queue has the number of queues that were created. -/
  ids : (Course.run t moves).device.createQueue.map Prod.fst = .ok (moves.count .createQueue)
  /-- Each submission has a ticket, and its report is the one with this ticket. -/
  answered : ∀ before queue kernel geometry after,
    moves = before ++ .submit queue kernel geometry :: after →
    queue < before.count .createQueue →
    (asked t queue [] before).length < (asked t queue [] moves).length ∧
    ∀ r ∈ ((Course.run t moves).lanes queue).reports,
      r.job.ticket = (asked t queue [] before).length → r.Answers t before queue kernel geometry
  /-- The launches of a queue are what was asked of it, in this order. -/
  launches : ∀ queue, ((Course.run t moves).lanes queue).jobs.map Job.launch =
    asked t queue [] moves
  /-- Each ticket is once in its lane. The first are reported and the others wait. -/
  once : ∀ queue, ((Course.run t moves).lanes queue).jobs.map Job.ticket =
    List.range (asked t queue [] moves).length
  /-- As many turns as there are launches that wait bring each of them its report. -/
  resolves : ∀ queue later,
    ((Course.run t moves).lanes queue).backlog.length ≤ later.count (.work queue) →
    ∀ ticket < (asked t queue [] moves).length,
      (((Course.run t (moves ++ later)).lanes queue).reports.map fun r => r.job.ticket).count
        ticket = 1
  /-- What was reported stays reported. -/
  stands : ∀ queue later, ((Course.run t moves).lanes queue).reports <+:
    ((Course.run t (moves ++ later)).lanes queue).reports
  /-- The log of a queue has the launches that were reported as a success, in their order. -/
  logged : ∀ queue, (Course.run t moves).device.executionsOf queue =
    (((Course.run t moves).lanes queue).reports.filter Report.succeeded).map Report.execution
  /-- A launch starts after those before it on its queue have finished. -/
  apart : ∀ queue, ((Course.run t moves).lanes queue).reports.Pairwise
    fun r r' => r.finished ≤ r'.started
  /-- What is seen of a queue is the same in every course with the same calls to the device as
  a whole, the same submissions to the queue and the same turns of it. -/
  alone : ∀ queue moves',
    moves'.filter (Move.concerns queue) = moves.filter (Move.concerns queue) →
    (Course.run t moves').sight queue = (Course.run t moves).sight queue
  /-- A queue for which nothing waits has left what its launches leave when they are run at
  once. -/
  settled : ∀ queue, ((Course.run t moves).lanes queue).backlog = [] →
    (Course.run t moves).device.trail queue = (callAll t moves).trail queue

/-- Launches are run once each and in order, and no queue has a part in another. -/
theorem Course.orderly (t : Timing) (moves : List Move) : Orderly t moves := by
  have hkept := kept_run t moves
  constructor
  · rw [hkept.told.createQueue]
    rfl
  · intro before queue kernel geometry after hmoves hcreated
    have hasked := asked_submit hcreated t kernel geometry after
    rw [← hmoves] at hasked
    constructor
    · rw [hasked, List.length_append, List.length_cons]
      omega
    · intro r hr hticket
      have hjob := (hkept.ordered queue).launch_of_mem
        (List.mem_append_left _ (List.mem_map_of_mem hr))
      rw [hticket, hasked, List.getElem?_append_right (Nat.le_refl _), Nat.sub_self,
        List.getElem?_cons_zero, Option.some.injEq] at hjob
      obtain ⟨hending, hfinished, -⟩ := (hkept.ordered queue).reported r hr
      exact .of_bound hjob.symm hending hfinished
  · intro queue
    exact (hkept.ordered queue).launches
  · intro queue
    exact (hkept.ordered queue).tickets
  · intro queue later hturns ticket hticket
    exact count_ticket_run hturns hticket
  · intro queue later
    exact reports_run t queue moves later
  · intro queue
    exact (hkept.ordered queue).logged
  · intro queue
    exact (hkept.ordered queue).apart
  · intro queue moves' hsame
    rw [← sight_run_filter t queue moves', hsame, sight_run_filter]
  · intro queue hbacklog
    rw [(trail_callAll t moves).2]
    exact (hkept.ordered queue).trail_of_nil hbacklog

/-- A launch that waits when its entry point is marked does not fault. The one after it does, and
takes its time, but the other queue is not kept waiting. -/
example :
    let kernel : Kernel := { program := "p", entryPoint := "k" }
    let moves : List Move := [.createQueue, .createQueue, .submit 0 kernel (.line 3),
      .failKernel "k", .submit 0 kernel (.line 1), .submit 1 (kernel.bind [7]) (.line 1),
      .submit 2 kernel (.line 1), .work 0, .work 0, .work 1, .work 1]
    let d := (Course.run ⟨10, 2⟩ moves).device
    (d.log.map fun e => (e.queue, e.started, e.finished)) = [(0, 0, 16)] ∧
      d.clocks = [28, 12] := by
  decide +kernel

end KernelDispatch.Device
