import KernelDispatch.Queue.Phase

/-!
# The signals that a queue grants

A queue grants signals in the order of its cycle, over and over. It can break off anywhere, and
in two ways it can end: a fault is granted at any point, a request to close only between two
turns. After that nothing but requests to close and faults is granted, and the queue stays
closed.

The phase is a place in the cycle: the signals granted so far are whole turns, and then the part
of a turn that lies behind the phase. A signal that is refused changes nothing, so a row of
signals does what those of them do that are granted, and whatever holds of rows without a refusal
holds of the granted part of any row.

## Main definitions

* `Phase.follow` — the phase after a row of signals, none of which may be refused.
* `Phase.granted` — the signals of a row that are granted.
* `Phase.Regular` — what a row looks like that is granted to an idle queue.
* `Phase.Rounds` — what holds of every row of signals sent to an idle queue.

## Main results

* `Phase.begun_append_of_follow` — where in the cycle a row of granted signals leads.
* `Phase.follow_idle_iff` — which rows are granted to an idle queue.
* `Phase.rounds` — what follows for every row.
-/

namespace KernelDispatch.Phase

variable {p q : Phase} {s : Signal} {signals : List Signal}

/-! ## Rows of signals -/

/-- The phase after a row of signals, or the first refusal of one of them. -/
def follow (p : Phase) (signals : List Signal) : Result Phase := signals.foldlM on p

theorem follow_append (p : Phase) (before after : List Signal) :
    p.follow (before ++ after) = (p.follow before).bind fun q => q.follow after :=
  List.foldlM_append

/-- A row is granted if its first signal is, and the rest is granted after it. -/
theorem follow_cons_eq_ok : p.follow (s :: signals) = .ok q ↔
    ∃ r, p.on s = .ok r ∧ r.follow signals = .ok q := by
  unfold follow
  rw [List.foldlM_cons]
  cases p.on s with
  | error e => simp [bind, Except.bind]
  | ok r => simp [bind, Except.bind]

theorem follow_append_eq_ok {before after : List Signal} : p.follow (before ++ after) = .ok q ↔
    ∃ r, p.follow before = .ok r ∧ r.follow after = .ok q := by
  rw [follow_append]
  cases p.follow before with
  | error e => simp [Except.bind]
  | ok r => simp [Except.bind]

/-- The signals that are granted, a refused one changing nothing. -/
def granted (p : Phase) : List Signal → List Signal
  | [] => []
  | s :: rest =>
      match p.on s with
      | .ok next => s :: next.granted rest
      | .error _ => p.granted rest

/-- A row of signals does what its granted signals do. -/
theorem follow_granted (signals : List Signal) :
    ∀ p : Phase, p.follow (p.granted signals) = .ok (p.run signals) := by
  induction signals with
  | nil =>
      intro p
      rfl
  | cons s signals ih =>
      intro p
      unfold granted run
      cases hon : p.on s with
      | error e => exact ih p
      | ok next => exact follow_cons_eq_ok.2 ⟨next, hon, ih next⟩

theorem granted_sublist (signals : List Signal) :
    ∀ p : Phase, (p.granted signals).Sublist signals := by
  induction signals with
  | nil =>
      intro p
      exact List.Sublist.refl []
  | cons s signals ih =>
      intro p
      unfold granted
      cases p.on s with
      | error e => exact (ih p).cons s
      | ok next => exact (ih next).cons_cons s

/-! ## Closed queues -/

/-- Whether these are signals that a closed queue grants. -/
def Leaving (signals : List Signal) : Prop := ∀ s ∈ signals, s = .close ∨ s = .fault

theorem closed_on_iff : closed.on s = .ok q ↔ (s = .close ∨ s = .fault) ∧ q = closed := by
  cases s <;> simp [on, eq_comm]

theorem follow_closed_iff : closed.follow signals = .ok q ↔ Leaving signals ∧ q = closed := by
  induction signals with
  | nil => simp [follow, Leaving, pure, Except.pure, eq_comm]
  | cons s signals ih =>
      rw [follow_cons_eq_ok, Leaving, List.forall_mem_cons]
      constructor
      · rintro ⟨r, hon, hrest⟩
        obtain ⟨hs, rfl⟩ := closed_on_iff.1 hon
        obtain ⟨hleaving, hq⟩ := ih.1 hrest
        exact ⟨⟨hs, hleaving⟩, hq⟩
      · rintro ⟨⟨hs, hleaving⟩, hq⟩
        exact ⟨closed, closed_on_iff.2 ⟨hs, rfl⟩, ih.2 ⟨hleaving, hq⟩⟩

/-- A closed queue stays closed, whatever it is sent. -/
theorem run_closed (signals : List Signal) : closed.run signals = closed :=
  (follow_closed_iff.1 (follow_granted signals closed)).2

/-! ## The cycle -/

/-- One turn around the cycle. -/
def cycle : List Signal := [.taskAvailable, .submitted, .deviceCompleted, .callbackReturned]

/-- So many turns around the cycle. -/
def cycles (n : Nat) : List Signal := (List.replicate n cycle).flatten

/-- The part of a turn that lies behind a phase. -/
def begun : Phase → List Signal
  | idle | closed => []
  | dispatching => [.taskAvailable]
  | inFlight => [.taskAvailable, .submitted]
  | completing => [.taskAvailable, .submitted, .deviceCompleted]

theorem cycles_succ (n : Nat) : cycles (n + 1) = cycle ++ cycles n := by
  rw [cycles, List.replicate_succ, List.flatten_cons]
  rfl

theorem cycles_add (m n : Nat) : cycles (m + n) = cycles m ++ cycles n := by
  simp [cycles, ← List.replicate_append_replicate]

/-- A granted signal leads to the next place in the cycle, or it closes the queue. -/
theorem begun_append_of_on (h : p.on s = .ok q) (hq : q ≠ closed) :
    p ≠ closed ∧ ∃ n, p.begun ++ [s] = cycles n ++ q.begun := by
  cases p <;> cases s <;> simp [on] at h <;> subst h
  case idle.taskAvailable => exact ⟨by simp, 0, rfl⟩
  case dispatching.submitted => exact ⟨by simp, 0, rfl⟩
  case inFlight.deviceCompleted => exact ⟨by simp, 0, rfl⟩
  case completing.callbackReturned => exact ⟨by simp, 1, rfl⟩
  all_goals exact absurd rfl hq

/-- A request to close is granted between two turns, and a fault at any point. -/
theorem ends_of_on (h : p.on s = .ok closed) (hp : p ≠ closed) :
    s = .fault ∨ s = .close ∧ p = idle := by
  cases p <;> cases s <;> simp [on] at h hp ⊢

/-- A task is granted to an idle queue only. -/
theorem idle_of_on_taskAvailable (h : p.on .taskAvailable = .ok q) :
    p = idle ∧ q = dispatching := by
  cases p <;> simp [on] at h
  exact ⟨rfl, h.symm⟩

/-- Granted signals that leave a queue open go on in the cycle from where it is. -/
theorem begun_append_of_follow (signals : List Signal) :
    ∀ p : Phase, p.follow signals = .ok q → q ≠ closed →
      p ≠ closed ∧ ∃ n, p.begun ++ signals = cycles n ++ q.begun := by
  induction signals with
  | nil =>
      intro p h hq
      obtain rfl : p = q := Except.ok.inj h
      exact ⟨hq, 0, List.append_nil _⟩
  | cons s signals ih =>
      intro p h hq
      obtain ⟨r, hon, hrest⟩ := follow_cons_eq_ok.1 h
      obtain ⟨hr, n, hturns⟩ := ih r hrest hq
      obtain ⟨hp, m, hturn⟩ := begun_append_of_on hon hr
      refine ⟨hp, m + n, ?_⟩
      calc p.begun ++ s :: signals
          = p.begun ++ [s] ++ signals := by rw [List.append_assoc, List.singleton_append]
        _ = cycles m ++ (r.begun ++ signals) := by rw [hturn, List.append_assoc]
        _ = cycles (m + n) ++ q.begun := by rw [hturns, ← List.append_assoc, ← cycles_add]

/-- Granted signals that close a queue have one among them that does, and after it only such as
a closed queue grants. -/
theorem exists_end_of_follow (signals : List Signal) :
    ∀ p : Phase, p ≠ closed → p.follow signals = .ok closed →
      ∃ part last rest r, signals = part ++ last :: rest ∧ p.follow part = .ok r ∧ r ≠ closed ∧
        r.on last = .ok closed ∧ Leaving rest := by
  induction signals with
  | nil =>
      intro p hp h
      exact absurd (Except.ok.inj h) hp
  | cons s signals ih =>
      intro p hp h
      obtain ⟨r, hon, hrest⟩ := follow_cons_eq_ok.1 h
      by_cases hr : r = closed
      · subst hr
        exact ⟨[], s, signals, p, rfl, rfl, hp, hon, (follow_closed_iff.1 hrest).1⟩
      · obtain ⟨part, last, rest, r', rfl, hpart, hr', hlast, hleaving⟩ := ih r hr hrest
        exact ⟨s :: part, last, rest, r', rfl, follow_cons_eq_ok.2 ⟨r, hon, hpart⟩, hr', hlast,
          hleaving⟩

/-! ## Rows that are granted to an idle queue -/

/-- What a row of signals looks like of which an idle queue refuses none. -/
inductive Regular (signals : List Signal) : Prop where
  /-- It breaks off at any point of any turn. -/
  | breaksOff {n : Nat} (h : signals <+: cycles n)
  /-- A fault comes at any point of any turn, and then signals that a closed queue grants. -/
  | faults {n : Nat} {part rest : List Signal} (hpart : part <+: cycles n)
      (hrest : Leaving rest) (h : signals = part ++ .fault :: rest)
  /-- A request to close comes after whole turns, and then such signals. -/
  | closes {n : Nat} {rest : List Signal} (hrest : Leaving rest)
      (h : signals = cycles n ++ .close :: rest)

theorem follow_cycles (n : Nat) : idle.follow (cycles n) = .ok idle := by
  induction n with
  | zero => rfl
  | succ n ih =>
      rw [cycles_succ]
      exact follow_append_eq_ok.2 ⟨idle, rfl, ih⟩

/-- A queue that has not finished its last turn is open. -/
theorem exists_of_prefix_cycles {part : List Signal} {n : Nat} (h : part <+: cycles n) :
    ∃ r, idle.follow part = .ok r ∧ r ≠ closed := by
  obtain ⟨rest, hrest⟩ := h
  have hcycles := follow_cycles n
  rw [← hrest] at hcycles
  obtain ⟨r, hpart, hidle⟩ := follow_append_eq_ok.1 hcycles
  refine ⟨r, hpart, ?_⟩
  rintro rfl
  have hclosed := (follow_closed_iff.1 hidle).2
  cases hclosed

/-- Granted signals that leave an idle queue open break off in some turn. -/
theorem prefix_cycles_of_follow (h : idle.follow signals = .ok q) (hq : q ≠ closed) :
    ∃ n, signals <+: cycles n := by
  obtain ⟨-, n, hturns⟩ := begun_append_of_follow signals idle h hq
  have hsignals : signals = cycles n ++ q.begun := hturns
  have hbegun : q.begun <+: cycle := by cases q <;> decide
  refine ⟨n + 1, ?_⟩
  rw [hsignals, cycles_add]
  exact (List.prefix_append_right_inj _).2 hbegun

/-- An idle queue refuses none of a row exactly if the row is regular. -/
theorem follow_idle_iff : (∃ q, idle.follow signals = .ok q) ↔ Regular signals := by
  constructor
  · rintro ⟨q, h⟩
    by_cases hq : q = closed
    · subst hq
      obtain ⟨part, last, rest, r, hsignals, hpart, hr, hlast, hleaving⟩ :=
        exists_end_of_follow signals idle (by simp) h
      rcases ends_of_on hlast hr with rfl | ⟨rfl, rfl⟩
      · obtain ⟨n, hprefix⟩ := prefix_cycles_of_follow hpart hr
        exact .faults hprefix hleaving hsignals
      · obtain ⟨-, n, hturns⟩ := begun_append_of_follow part idle hpart hr
        have hcycles : part = cycles n := hturns.trans (List.append_nil _)
        exact .closes hleaving (hcycles ▸ hsignals)
    · obtain ⟨n, hprefix⟩ := prefix_cycles_of_follow h hq
      exact .breaksOff hprefix
  · intro h
    cases h with
    | breaksOff hprefix =>
        obtain ⟨r, hpart, -⟩ := exists_of_prefix_cycles hprefix
        exact ⟨r, hpart⟩
    | faults hprefix hrest hsignals =>
        obtain ⟨r, hpart, -⟩ := exists_of_prefix_cycles hprefix
        have hfault : r.on .fault = .ok closed := by cases r <;> rfl
        have hclosed := follow_closed_iff.2 ⟨hrest, rfl⟩
        rw [hsignals]
        exact ⟨closed, follow_append_eq_ok.2
          ⟨r, hpart, follow_cons_eq_ok.2 ⟨closed, hfault, hclosed⟩⟩⟩
    | closes hrest hsignals =>
        have hclosed := follow_closed_iff.2 ⟨hrest, rfl⟩
        rw [hsignals]
        exact ⟨closed, follow_append_eq_ok.2
          ⟨idle, follow_cycles _, follow_cons_eq_ok.2 ⟨closed, rfl, hclosed⟩⟩⟩

/-! ## Every row -/

theorem run_cons (p : Phase) (s : Signal) (signals : List Signal) :
    p.run (s :: signals) = (p.run [s]).run signals := by
  simp only [run]
  cases p.on s <;> rfl

theorem run_append (before after : List Signal) :
    ∀ p : Phase, p.run (before ++ after) = (p.run before).run after := by
  induction before with
  | nil =>
      intro p
      rfl
  | cons s before ih =>
      intro p
      rw [List.cons_append, run_cons, ih, ← run_cons]

/-- Between a task and the next one, a queue is signalled the rest of one turn. -/
theorem between_of_follow {between : List Signal} (h : dispatching.follow between = .ok idle)
    (hone : .taskAvailable ∉ between) :
    between = [.submitted, .deviceCompleted, .callbackReturned] := by
  obtain ⟨-, n, hturns⟩ := begun_append_of_follow between dispatching h (by simp)
  have hcycles : .taskAvailable :: between = cycles n := hturns.trans (List.append_nil _)
  match n with
  | 0 => cases hcycles
  | 1 => exact (List.cons.inj hcycles).2
  | n + 2 =>
      -- a second turn begins with a task of its own
      have hsecond : between =
          [.submitted, .deviceCompleted, .callbackReturned] ++ (cycle ++ cycles n) := by
        rw [cycles_succ, cycles_succ] at hcycles
        exact (List.cons.inj hcycles).2
      rw [hsecond] at hone
      simp [cycle] at hone

/-- Whether a task was signalled whose callback has not returned, and no fault since then. -/
def Holding (past : List Signal) : Prop :=
  ∃ before after, past = before ++ .taskAvailable :: after ∧
    .callbackReturned ∉ after ∧ .fault ∉ after

theorem holding_snoc {past : List Signal} : Holding (past ++ [s]) ↔
    s = .taskAvailable ∨ s ≠ .callbackReturned ∧ s ≠ .fault ∧ Holding past := by
  constructor
  · rintro ⟨before, after, hpast, hreturned, hfault⟩
    rcases List.eq_nil_or_concat after with rfl | ⟨after, last, rfl⟩
    · exact .inl (List.head_eq_of_cons_eq (List.append_inj' hpast rfl).2)
    · rw [List.concat_eq_append] at hpast hreturned hfault
      rw [← List.cons_append, ← List.append_assoc] at hpast
      obtain ⟨hbefore, hlast⟩ := List.append_inj' hpast rfl
      obtain rfl := List.head_eq_of_cons_eq hlast
      rw [List.mem_append, List.mem_singleton, not_or] at hreturned hfault
      exact .inr ⟨Ne.symm hreturned.2, Ne.symm hfault.2,
        before, after, hbefore, hreturned.1, hfault.1⟩
  · rintro (rfl | ⟨hreturned, hfault, before, after, rfl, hnot, hnone⟩)
    · exact ⟨past, [], rfl, List.not_mem_nil, List.not_mem_nil⟩
    · refine ⟨before, after ++ [s], ?_, ?_, ?_⟩
      · rw [List.append_assoc, List.cons_append]
      · simpa [hnot] using Ne.symm hreturned
      · simpa [hnone] using Ne.symm hfault

/-- A queue is busy from the signal of a task to that of its end. -/
theorem isBusy_of_on (h : p.on s = .ok q) : q.isBusy = true ↔
    s = .taskAvailable ∨ s ≠ .callbackReturned ∧ s ≠ .fault ∧ p.isBusy = true := by
  cases p <;> cases s <;> simp [on] at h <;> subst h <;> simp [isBusy]

theorem isBusy_iff_holding (signals : List Signal) :
    ∀ (p : Phase) (past : List Signal), p.follow signals = .ok q →
      (p.isBusy = true ↔ Holding past) → (q.isBusy = true ↔ Holding (past ++ signals)) := by
  induction signals with
  | nil =>
      intro p past h hpast
      obtain rfl : p = q := Except.ok.inj h
      rwa [List.append_nil]
  | cons s signals ih =>
      intro p past h hpast
      obtain ⟨r, hon, hrest⟩ := follow_cons_eq_ok.1 h
      rw [← List.singleton_append, ← List.append_assoc]
      apply ih r (past ++ [s]) hrest
      rw [isBusy_of_on hon, holding_snoc, hpast]

/-- What holds of a row of signals sent to an idle queue, at any moment. -/
structure Rounds (signals : List Signal) : Prop where
  /-- None of them is refused exactly if the row is regular. -/
  accepted : (∃ q, idle.follow signals = .ok q) ↔ Regular signals
  /-- Those that are refused have no effect. -/
  skipped : (idle.granted signals).Sublist signals ∧
    idle.follow (idle.granted signals) = .ok (idle.run signals)
  /-- Once closed, the queue is closed for good. -/
  closed : idle.run signals = closed → ∀ later, idle.run (signals ++ later) = closed
  /-- From one task that is granted to the next, the rest of one turn is granted. -/
  between : ∀ before between after,
    idle.granted signals = before ++ .taskAvailable :: (between ++ .taskAvailable :: after) →
      .taskAvailable ∉ between → between = [.submitted, .deviceCompleted, .callbackReturned]
  /-- The queue is busy if a task was granted, and no return of a callback and no fault since
  then. -/
  busy : (idle.run signals).isBusy = true ↔
    ∃ before after, idle.granted signals = before ++ .taskAvailable :: after ∧
      .callbackReturned ∉ after ∧ .fault ∉ after

/-- Signals take an idle queue around its cycle until it closes, and those that do not fit change
nothing. -/
theorem rounds (signals : List Signal) : Rounds signals where
  accepted := follow_idle_iff
  skipped := ⟨granted_sublist signals idle, follow_granted signals idle⟩
  closed := by
    intro hclosed later
    rw [run_append, hclosed, run_closed]
  between := by
    intro before between after hgranted hone
    have hfollow := follow_granted signals idle
    rw [hgranted] at hfollow
    obtain ⟨p, -, hfirst⟩ := follow_append_eq_ok.1 hfollow
    obtain ⟨q, htask, hturn⟩ := follow_cons_eq_ok.1 hfirst
    obtain ⟨r, hbetween, hnext⟩ := follow_append_eq_ok.1 hturn
    obtain ⟨_, hagain, -⟩ := follow_cons_eq_ok.1 hnext
    obtain ⟨-, rfl⟩ := idle_of_on_taskAvailable htask
    obtain ⟨rfl, -⟩ := idle_of_on_taskAvailable hagain
    exact between_of_follow hbetween hone
  busy := by
    have hnone : idle.isBusy = true ↔ Holding [] := by simp [isBusy, Holding]
    exact isBusy_iff_holding _ idle [] (follow_granted signals idle) hnone

/-- The second task comes too early, the request to close as well, and the fault after it is the
end of the turn. -/
example : idle.granted [.taskAvailable, .taskAvailable, .submitted, .close, .fault, .submitted] =
    [.taskAvailable, .submitted, .fault] := by decide

end KernelDispatch.Phase
