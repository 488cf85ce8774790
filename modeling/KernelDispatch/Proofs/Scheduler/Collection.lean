import KernelDispatch.Proofs.Totals
import KernelDispatch.Scheduler.Basic
import Mathlib.Algebra.BigOperators.Group.List.Basic

/-!
# Collecting faults

Queues that a fault has stopped are removed one after the other, in some order
of visiting. `Removal` says what has become of a scheduler when all visited
queues were looked at, and nothing in it depends on the order but the order of
the reports.

## Main results

* `removal_collect` — the queues visited are those removed.
* `collect_perm` — another order leaves the same scheduler.
-/

namespace KernelDispatch.Scheduler

/-- What removing the stopped ones of the visited queues changes. -/
structure Removal (s : Scheduler) (visit : List String) (s' : Scheduler) : Prop where
  /-- A visited queue is kept if no fault has stopped it. -/
  queues : ∀ kernel, s'.queues.get? kernel =
    if kernel ∈ visit then (s.queues.get? kernel).filter fun q => q.fault.isNone
    else s.queues.get? kernel
  /-- What all queues add up to is parted between the kept and the removed. -/
  total : ∀ count, s'.queues.total count +
    ((s.faultedAmong visit).map fun stopped => count stopped.2.1).sum = s.queues.total count
  rest : s' =
    { s with
      queues := s'.queues
      books :=
        { s.books with
          metrics :=
            { s.books.metrics with
              deviceFaults := s.books.metrics.deviceFaults +
                UInt64.ofNat (s.faultedAmong visit).length
              dropped := s.books.metrics.dropped +
                UInt64.ofNat
                  ((s.faultedAmong visit).map fun stopped => stopped.2.1.dropped).sum } } }

variable {s : Scheduler}

theorem faultedAmong_cons (kernel : String) (visit : List String) :
    s.faultedAmong (kernel :: visit) =
      ((s.queues.get? kernel).bind fun queue =>
          queue.fault.map fun fault => (kernel, queue, fault)).toList ++ s.faultedAmong visit := by
  unfold faultedAmong
  rw [List.filterMap_cons]
  split
  · rename_i h
    rw [h]
    rfl
  · rename_i h
    rw [h]
    rfl

/-- Removing a queue changes nothing for the others. -/
theorem faultedAmong_removeFaulted {kernel : String} {visit : List String} (h : kernel ∉ visit)
    (queue : ExecutionQueue) :
    (s.removeFaulted kernel queue).faultedAmong visit = s.faultedAmong visit := by
  apply List.filterMap_congr
  intro other hother
  have hne : other ≠ kernel := fun heq => h (heq ▸ hother)
  have hget : (s.removeFaulted kernel queue).queues.get? other = s.queues.get? other :=
    NameMap.get?_erase_of_ne s.queues hne
  rw [hget]

/-- A queue without a fault is passed by. -/
theorem removal_pass {kernel : String} {visit : List String} {s' : Scheduler}
    (hkernel : kernel ∉ visit)
    (hnone : ((s.queues.get? kernel).bind fun queue =>
      queue.fault.map fun fault => (kernel, queue, fault)) = none)
    (h : Removal s visit s') : Removal s (kernel :: visit) s' := by
  have hsame : s.faultedAmong (kernel :: visit) = s.faultedAmong visit := by
    rw [faultedAmong_cons, hnone]
    rfl
  constructor
  · intro name
    rw [h.queues name]
    by_cases hname : name = kernel
    · subst hname
      rw [if_neg hkernel, if_pos List.mem_cons_self]
      cases hget : s.queues.get? name with
      | none => rfl
      | some queue =>
          have hfault : queue.fault = none := by simpa [hget] using hnone
          simp [Option.filter, hfault]
    · simp [hname]
  · intro count
    rw [hsame, h.total count]
  · rw [hsame]
    exact h.rest

/-- A queue with a fault is removed, and its account closed. -/
theorem removal_remove {kernel fault : String} {queue : ExecutionQueue} {visit : List String}
    {s' : Scheduler} (hkernel : kernel ∉ visit) (hget : s.queues.get? kernel = some queue)
    (hfault : queue.fault = some fault) (h : Removal (s.removeFaulted kernel queue) visit s') :
    Removal s (kernel :: visit) s' := by
  have hcons : s.faultedAmong (kernel :: visit) =
      (kernel, queue, fault) :: (s.removeFaulted kernel queue).faultedAmong visit := by
    rw [faultedAmong_cons, hget, faultedAmong_removeFaulted hkernel]
    simp [hfault]
  constructor
  · intro name
    rw [h.queues name]
    by_cases hname : name = kernel
    · subst hname
      have herased : (s.removeFaulted name queue).queues.get? name = none :=
        NameMap.get?_erase_self s.queues name
      rw [if_neg hkernel, if_pos List.mem_cons_self, herased, hget]
      simp [Option.filter, hfault]
    · have hkept : (s.removeFaulted kernel queue).queues.get? name = s.queues.get? name :=
        NameMap.get?_erase_of_ne s.queues hname
      rw [hkept]
      simp [hname]
  · intro count
    have hsplit := NameMap.total_erase s.queues kernel count
    have hshare : s.queues.share kernel count = count queue := by simp [NameMap.share, hget]
    have htotal := h.total count
    have herased : (s.removeFaulted kernel queue).queues.total count =
        (s.queues.erase kernel).total count := rfl
    rw [hcons, List.map_cons, List.sum_cons]
    show _ + (count queue + _) = _
    omega
  · rw [h.rest, hcons]
    simp only [removeFaulted, Metrics.recordDropped, Metrics.recordDeviceFault, List.length_cons,
      List.map_cons, List.sum_cons, UInt64.ofNat_add, UInt64.ofNat_one]
    congr 3
    · ac_rfl
    · ac_rfl

/-- Collecting faults removes exactly the stopped ones of the visited queues. -/
theorem removal_collect (s : Scheduler) {visit : List String} (hvisit : visit.Nodup) :
    Removal s visit (s.collect (s.faultedAmong visit)).2 := by
  induction visit generalizing s with
  | nil =>
      refine ⟨fun _ => rfl, fun _ => rfl, ?_⟩
      simp [collect, faultedAmong]
  | cons kernel visit ih =>
      obtain ⟨hkernel, hrest⟩ := List.nodup_cons.1 hvisit
      cases hget : s.queues.get? kernel with
      | none =>
          have hcons : s.faultedAmong (kernel :: visit) = s.faultedAmong visit := by
            rw [faultedAmong_cons, hget]
            rfl
          rw [hcons]
          exact removal_pass hkernel (by simp [hget]) (ih s hrest)
      | some queue =>
          cases hfault : queue.fault with
          | none =>
              have hcons : s.faultedAmong (kernel :: visit) = s.faultedAmong visit := by
                rw [faultedAmong_cons, hget]
                simp [hfault]
              rw [hcons]
              exact removal_pass hkernel (by simp [hget, hfault]) (ih s hrest)
          | some fault =>
              have hcons : s.faultedAmong (kernel :: visit) =
                  (kernel, queue, fault) :: (s.removeFaulted kernel queue).faultedAmong visit := by
                rw [faultedAmong_cons, hget, faultedAmong_removeFaulted hkernel]
                simp [hfault]
              have hremoved := ih (s.removeFaulted kernel queue) hrest
              have hstep := removal_remove hkernel hget hfault hremoved
              rw [hcons]
              exact hstep

/-! ## Visiting every queue -/

section All

variable {visit visit' : List String} {s' : Scheduler}

theorem nodup_of_perm_kernels (h : visit.Perm s.kernels) : visit.Nodup :=
  h.nodup_iff.2 s.queues.names_nodup

theorem Removal.get? (h : Removal s visit s') (hvisit : visit.Perm s.kernels) (kernel : String) :
    s'.queues.get? kernel = (s.queues.get? kernel).filter fun q => q.fault.isNone := by
  rw [h.queues kernel]
  split
  · rfl
  · rename_i hnot
    have hnone : s.queues.get? kernel = none := by
      refine Option.eq_none_iff_forall_ne_some.2 fun queue hqueue => hnot ?_
      exact hvisit.mem_iff.2 (NameMap.mem_names_iff.2 ⟨queue, hqueue⟩)
    rw [hnone]
    rfl

/-- What is left was there before, and no fault has stopped it. -/
theorem Removal.kept (h : Removal s visit s') (hvisit : visit.Perm s.kernels) {kernel : String}
    {queue : ExecutionQueue} (hqueue : s'.queues.get? kernel = some queue) :
    s.queues.get? kernel = some queue ∧ queue.fault = none := by
  rw [h.get? hvisit, Option.filter_eq_some_iff] at hqueue
  simpa using hqueue

/-- In another order of visiting, the same queues are reported. -/
theorem faultedAmong_perm (h : visit.Perm visit') :
    (s.faultedAmong visit).Perm (s.faultedAmong visit') := h.filterMap _

/-- In another order of visiting, the same scheduler is left. -/
theorem collect_perm (hvisit : visit.Nodup) (h : visit.Perm visit') :
    (s.collect (s.faultedAmong visit)).2 = (s.collect (s.faultedAmong visit')).2 := by
  have hleft := removal_collect s hvisit
  have hright := removal_collect s (h.nodup_iff.1 hvisit)
  have hqueues : (s.collect (s.faultedAmong visit)).2.queues =
      (s.collect (s.faultedAmong visit')).2.queues := by
    apply NameMap.ext_get?
    intro name
    rw [hleft.queues name, hright.queues name]
    simp only [h.mem_iff]
  have hperm := faultedAmong_perm (s := s) h
  rw [hleft.rest, hright.rest, hqueues, hperm.length_eq, (hperm.map _).sum_eq]

end All

end KernelDispatch.Scheduler
