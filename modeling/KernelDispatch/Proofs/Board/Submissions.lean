import KernelDispatch.Board.Device
import Mathlib.Data.List.Induction

/-!
# Submissions, and what they bind

What becomes of a launch is settled when it is submitted. Its kernel and its work items are those
of the submission, its time follows from the work items, and it faults if its entry point was
marked before. All of it can be told from the calls that were made so far, and neither from the
state of a queue nor from what comes later.

The calls come in any order, and between them the queues take their turns. `Device.asked` goes
through such a list of moves and tells what is asked of one queue. A submission to a queue that
was never created cannot be made, and it asks nothing.

What launches leave on the device is a trail for each queue: what is logged of the queue, and when
it is free again. A launch adds to the trail of its own queue and to no other.

## Main definitions

* `Device.Move` — a call to the device, or a turn of a queue.
* `Device.bound` — what a submission binds, told from the moves before it.
* `Device.asked` — what moves ask of a queue.
* `Device.Trail` — what is seen of a queue on the device.
* `Device.callAll` — the device after calls whose launches are run at once.

## Main results

* `Timing.span_eq` — how long a launch takes.
* `Device.trail_perform`, `Device.trail_perform_of_ne` — what a launch adds to trails.
* `Device.Told.bind` — what the device binds to a submission is what can be told of it.
* `Device.trail_callAll` — the trail of a queue follows from what was asked of it.
-/

namespace KernelDispatch

/-! ## How long a launch takes -/

/-- The product is held at the largest word. That it is held in 128 bits first makes no
difference. -/
theorem Timing.scaled_eq (t : Timing) (items : UInt64) :
    t.scaled items = min (t.perItem * items.toNat) (UInt64.size - 1) := by
  have hsize : UInt64.size = 0x10000000000000000 := rfl
  have hword : maxWord.toNat = UInt64.size - 1 := rfl
  unfold scaled
  dsimp only
  rw [hword]
  split <;> omega

theorem Timing.span_eq (t : Timing) (items : UInt64) :
    t.span items = min (t.base + min (t.perItem * items.toNat) (UInt64.size - 1)) longestSpan := by
  rw [span, scaled_eq]

namespace Device

/-! ## What a queue leaves on the device -/

/-- What is seen of one queue on the device. -/
structure Trail where
  /-- Its finished launches, oldest first. -/
  log : List Execution := []
  /-- When it is free again. -/
  free : Nat := 0

/-- The trail after one more launch. -/
def Trail.add (trail : Trail) (l : Launch) : Trail :=
  { log := trail.log ++ if l.faults then [] else [l.execution trail.free]
    free := trail.free + l.span }

/-- The trail of launches that are run one after the other. -/
def Trail.of (launches : List Launch) : Trail := launches.foldl Trail.add {}

theorem Trail.of_append (launches more : List Launch) :
    Trail.of (launches ++ more) = more.foldl Trail.add (Trail.of launches) := List.foldl_append

/-- The trail of a queue. -/
def trail (d : Device) (queue : Nat) : Trail := ⟨d.executionsOf queue, d.clock queue⟩

/-- The device with one more queue, unless it refuses. -/
def withQueue (d : Device) : Device :=
  match d.createQueue with
  | .ok (_, d) => d
  | .error _ => d

theorem executionsOf_perform (d : Device) (l : Launch) (queue : Nat) :
    (d.perform l).executionsOf queue = d.executionsOf queue ++
      if l.queue = queue then if l.faults then [] else [l.execution (d.clock l.queue)] else [] := by
  apply executionsOf_append
  · cases hfaults : l.faults with
    | true => exact (log_perform_of_faults d hfaults).trans (List.append_nil _).symm
    | false => exact log_perform_of_runs d hfaults
  · intro e he
    split at he
    · cases he
    · rw [List.mem_singleton.1 he]
      rfl

theorem trail_perform (d : Device) {l : Launch} (hcreated : l.queue < d.queuesCreated) :
    (d.perform l).trail l.queue = (d.trail l.queue).add l := by
  have hclock : (d.perform l).clock l.queue = d.clock l.queue + l.span := by
    have hset : l.queue < d.clocks.length := hcreated
    simp [clock, perform, hset]
  rw [trail, hclock, executionsOf_perform, if_pos rfl]
  rfl

/-- A launch leaves its trail on its own queue. -/
theorem trail_perform_of_ne (d : Device) {l : Launch} {queue : Nat} (hne : l.queue ≠ queue) :
    (d.perform l).trail queue = d.trail queue := by
  have hclock : (d.perform l).clock queue = d.clock queue := by
    simp [clock, perform, hne]
  rw [trail, hclock, executionsOf_perform, if_neg hne, List.append_nil]
  rfl

/-- A new queue is free from the start, as if it had always been there. -/
theorem trail_withQueue (d : Device) (queue : Nat) : d.withQueue.trail queue = d.trail queue := by
  unfold withQueue createQueue
  cases d.refusesQueues with
  | true => rfl
  | false =>
      have hclock : (d.clocks ++ [0]).getD queue 0 = d.clocks.getD queue 0 := by
        rw [List.getD_eq_getElem?_getD, List.getD_eq_getElem?_getD, List.getElem?_append]
        split
        · rfl
        · rename_i hlength
          rw [List.getElem?_eq_none (Nat.le_of_not_lt hlength)]
          cases queue - d.clocks.length <;> rfl
      simp only [trail, clock, executionsOf, Bool.false_eq_true, if_false, hclock]

/-! ## Moves, and what they ask -/

/-- A call to the device, or a turn of one of its queues. -/
inductive Move where
  | createQueue
  | failKernel (entryPoint : String)
  | submit (queue : Nat) (kernel : Kernel) (geometry : Geometry)
  /-- The queue runs the first launch that waits for it. -/
  | work (queue : Nat)
deriving DecidableEq

/-- What is bound to a submission that is made after these moves. It faults if its entry point
is marked by one of them. -/
def bound (t : Timing) (past : List Move) (queue : Nat) (kernel : Kernel) (geometry : Geometry) :
    Launch :=
  { queue, kernel, workItems := geometry.workItems
    span := min (t.base + min (t.perItem * geometry.workItems.toNat) (UInt64.size - 1)) longestSpan
    faults := decide (.failKernel kernel.entryPoint ∈ past) }

/-- The launch that a move asks of a queue, if the queue was created before it. -/
def Move.asks (t : Timing) (queue : Nat) (past : List Move) : Move → List Launch
  | .submit q kernel geometry =>
      if q = queue ∧ q < past.count .createQueue then [bound t past q kernel geometry] else []
  | .createQueue | .failKernel _ | .work _ => []

/-- What is asked of a queue by moves that are made after others. -/
def asked (t : Timing) (queue : Nat) (past : List Move) : List Move → List Launch
  | [] => []
  | m :: rest => m.asks t queue past ++ asked t queue (past ++ [m]) rest

section

variable {t : Timing} {queue : Nat} {d : Device} {past : List Move}

theorem asked_append (before after : List Move) : ∀ past, asked t queue past (before ++ after) =
    asked t queue past before ++ asked t queue (past ++ before) after := by
  induction before with
  | nil =>
      intro past
      rw [List.append_nil]
      rfl
  | cons m before ih =>
      intro past
      rw [List.cons_append, asked, asked, ih, List.append_assoc, List.append_assoc,
        List.singleton_append]

theorem asked_snoc (past : List Move) (m : Move) :
    asked t queue [] (past ++ [m]) = asked t queue [] past ++ m.asks t queue past := by
  rw [asked_append, asked, asked, List.append_nil, List.nil_append]

/-- What a submission binds is asked of its queue after all that was asked of it before. -/
theorem asked_submit {before : List Move} (hcreated : queue < before.count .createQueue)
    (t : Timing) (kernel : Kernel) (geometry : Geometry) (after : List Move) :
    asked t queue [] (before ++ .submit queue kernel geometry :: after) =
      asked t queue [] before ++ bound t before queue kernel geometry ::
        asked t queue (before ++ [.submit queue kernel geometry]) after := by
  rw [asked_append, List.nil_append, asked, Move.asks, if_pos ⟨rfl, hcreated⟩,
    List.singleton_append]

/-- What is asked of a queue is asked of a queue that was created. -/
theorem created_of_mem_asked (moves : List Move) : ∀ past, ∀ l ∈ asked t queue past moves,
    l.queue = queue ∧ queue < (past ++ moves).count .createQueue := by
  induction moves with
  | nil =>
      intro past l hl
      cases hl
  | cons m rest ih =>
      intro past l hl
      rcases List.mem_append.1 hl with hfirst | hrest
      · cases m with
        | submit q kernel geometry =>
            by_cases hasked : q = queue ∧ q < past.count .createQueue
            · rw [Move.asks, if_pos hasked, List.mem_singleton] at hfirst
              rw [hfirst, List.count_append, ← hasked.1]
              exact ⟨rfl, Nat.lt_add_right _ hasked.2⟩
            · rw [Move.asks, if_neg hasked] at hfirst
              cases hfirst
        | createQueue => cases hfirst
        | failKernel entryPoint => cases hfirst
        | work q => cases hfirst
      · have hrest := ih (past ++ [m]) l hrest
        rwa [List.append_assoc, List.singleton_append] at hrest

/-- Whether a move concerns a queue: whether it is a call to the device as a whole, or a
submission to the queue or a turn of it. -/
def Move.concerns (queue : Nat) : Move → Bool
  | .createQueue | .failKernel _ => true
  | .submit q _ _ | .work q => decide (q = queue)

theorem Move.asks_filter (past : List Move) (m : Move) :
    m.asks t queue (past.filter (Move.concerns queue)) = m.asks t queue past := by
  cases m with
  | createQueue => rfl
  | failKernel entryPoint => rfl
  | work q => rfl
  | submit q kernel geometry =>
      have hcount : (past.filter (Move.concerns queue)).count .createQueue =
          past.count .createQueue := List.count_filter rfl
      have hmarked : .failKernel kernel.entryPoint ∈ past.filter (Move.concerns queue) ↔
          .failKernel kernel.entryPoint ∈ past := by
        simp [Move.concerns]
      simp only [Move.asks, bound, hcount, hmarked]

/-! ## What the device was told -/

/-- The device is as the calls among these moves have left it, but for launches. -/
structure Told (t : Timing) (past : List Move) (d : Device) : Prop where
  timing : d.timing = t
  failing : ∀ entryPoint, entryPoint ∈ d.failing ↔ .failKernel entryPoint ∈ past
  created : d.queuesCreated = past.count .createQueue
  accepts : d.refusesQueues = false

namespace Told

theorem withTiming (t : Timing) : Told t [] (withTiming t) := by
  constructor
  · rfl
  · intro entryPoint
    exact iff_of_false List.not_mem_nil List.not_mem_nil
  · rfl
  · rfl

/-- Created queues are numbered in their order. -/
theorem createQueue (h : Told t past d) :
    d.createQueue = .ok (past.count .createQueue, d.withQueue) := by
  simp [Device.withQueue, Device.createQueue, h.accepts, h.created]

theorem withQueue (h : Told t past d) : Told t (past ++ [.createQueue]) d.withQueue := by
  have hcreate := h.createQueue
  simp only [Device.createQueue, h.accepts, Bool.false_eq_true, if_false, Except.ok.injEq,
    Prod.mk.injEq] at hcreate
  rw [← hcreate.2]
  constructor
  · exact h.timing
  · intro entryPoint
    simpa using h.failing entryPoint
  · simpa [queuesCreated] using h.created
  · rfl

theorem failKernel (h : Told t past d) (entryPoint : String) :
    Told t (past ++ [.failKernel entryPoint]) (d.failKernel entryPoint) := by
  constructor
  · exact h.timing
  · intro other
    simp [Device.failKernel, h.failing other, or_comm]
  · simpa [Device.failKernel, queuesCreated] using h.created
  · exact h.accepts

theorem perform (h : Told t past d) (l : Launch) : Told t past (d.perform l) := by
  constructor
  · exact h.timing
  · exact h.failing
  · exact List.length_set.trans h.created
  · exact h.accepts

theorem submit (h : Told t past d) (queue : Nat) (kernel : Kernel) (geometry : Geometry) :
    Told t (past ++ [.submit queue kernel geometry]) d := by
  constructor
  · exact h.timing
  · simpa using h.failing
  · simpa using h.created
  · exact h.accepts

theorem work (h : Told t past d) (queue : Nat) : Told t (past ++ [.work queue]) d := by
  constructor
  · exact h.timing
  · simpa using h.failing
  · simpa using h.created
  · exact h.accepts

/-- What is bound to a submission follows from the moves before it. -/
theorem bind (h : Told t past d) (queue : Nat) (kernel : Kernel) (geometry : Geometry) :
    d.bind queue kernel geometry.workItems = bound t past queue kernel geometry := by
  have hfaults : d.failing.contains kernel.entryPoint =
      decide (.failKernel kernel.entryPoint ∈ past) := by
    simp [← h.failing]
  rw [Device.bind, hfaults, h.timing, Timing.span_eq]
  rfl

end Told

/-! ## One call after the other -/

/-- The device after a call, where each launch is run to its end at once. -/
def call (d : Device) : Move → Device
  | .createQueue => d.withQueue
  | .failKernel entryPoint => d.failKernel entryPoint
  | .submit queue kernel geometry =>
      if queue < d.queuesCreated then (d.submit queue kernel geometry.workItems).2.2 else d
  | .work _ => d

/-- A new device after the calls among these moves, one after the other. -/
def callAll (t : Timing) (moves : List Move) : Device := moves.foldl call (withTiming t)

theorem Told.call (h : Told t past d) (m : Move) :
    Told t (past ++ [m]) (d.call m) := by
  cases m with
  | createQueue => exact h.withQueue
  | failKernel entryPoint => exact h.failKernel entryPoint
  | submit q kernel geometry =>
      unfold Device.call
      dsimp only
      split
      · exact (h.perform _).submit q kernel geometry
      · exact h.submit q kernel geometry
  | work q => exact h.work q

theorem Told.trail_call (h : Told t past d) (m : Move) :
    (d.call m).trail queue = (m.asks t queue past).foldl Trail.add (d.trail queue) := by
  cases m with
  | createQueue => exact trail_withQueue d queue
  | failKernel entryPoint => rfl
  | work q => rfl
  | submit q kernel geometry =>
      by_cases hcreated : q < d.queuesCreated
      · have hcall : d.call (.submit q kernel geometry) =
            d.perform (bound t past q kernel geometry) := by
          rw [Device.call, if_pos hcreated, Device.submit, h.bind]
        rw [hcall, Move.asks]
        by_cases hq : q = queue
        · subst hq
          rw [if_pos ⟨rfl, h.created ▸ hcreated⟩]
          exact trail_perform d hcreated
        · rw [if_neg fun hasked => hq hasked.1]
          exact trail_perform_of_ne d hq
      · have hpast : ¬ (q = queue ∧ q < past.count .createQueue) :=
          fun hasked => hcreated (h.created ▸ hasked.2)
        rw [Device.call, if_neg hcreated, Move.asks, if_neg hpast]
        rfl

/-- The trail of a queue whose launches are run at once is that of what it was asked for. -/
theorem trail_callAll (t : Timing) (moves : List Move) : Told t moves (callAll t moves) ∧
    ∀ queue, (callAll t moves).trail queue = Trail.of (asked t queue [] moves) := by
  induction moves using List.reverseRecOn with
  | nil => exact ⟨Told.withTiming t, fun queue => rfl⟩
  | append_singleton past m ih =>
      obtain ⟨htold, htrail⟩ := ih
      have hcall : callAll t (past ++ [m]) = (callAll t past).call m := List.foldl_append
      rw [hcall]
      refine ⟨htold.call m, ?_⟩
      intro queue
      rw [htold.trail_call, htrail, asked_snoc, Trail.of_append]

end

end Device

end KernelDispatch
