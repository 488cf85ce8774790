import KernelDispatch.Proofs.Scheduler.Audience

/-!
# What a completed task leaves in the books

The books of a scheduler change in one place only while workers run: where a
completed task is concluded. Observers, however many there are and whatever they
do, reach neither the counters nor the models.

## Main results

* `Books.conclude_eq` — the record of a completed task.
* `Books.metrics_conclude`, `Books.model_conclude` — what it changes.
-/

namespace KernelDispatch

namespace Metrics

variable (m : Metrics) (r : CompletionRecord)

@[simp] theorem submitted_recordCompletion : (m.recordCompletion r).1.submitted = m.submitted := by
  unfold recordCompletion
  split
  · rfl
  · split <;> rfl

@[simp] theorem completed_recordCompletion :
    (m.recordCompletion r).1.completed = m.completed + 1 := by
  unfold recordCompletion
  split
  · rfl
  · split <;> rfl

@[simp] theorem dropped_recordCompletion : (m.recordCompletion r).1.dropped = m.dropped := by
  unfold recordCompletion
  split
  · rfl
  · split <;> rfl

@[simp] theorem deviceFaults_recordCompletion :
    (m.recordCompletion r).1.deviceFaults = m.deviceFaults := by
  unfold recordCompletion
  split
  · rfl
  · split <;> rfl

end Metrics

@[simp] theorem Prediction.work_make {α : Type} [Scalar α] (prior : α) (samples : List (Sample α))
    (work offline : α) : (Prediction.make prior samples work offline).work = work := by
  unfold Prediction.make
  split <;> rfl

@[simp] theorem CostModel.work_predict (m : CostModel) (kernel : String) (n : UInt64) :
    (m.predict kernel n).work = m.operations kernel n :=
  Prediction.work_make _ _ _ _

/-- The measurement that a record holds. -/
def CompletionRecord.sample (r : CompletionRecord) : Sample Float := ⟨r.work, r.actual⟩

namespace Books

/-- Books that answer alike for every configuration. -/
structure SameModels (b b' : Books) : Prop where
  model : ∀ name, b'.model name = b.model name
  newModel : ∀ name, b'.newModel name = b.newModel name

theorem SameModels.refl (b : Books) : SameModels b b := ⟨fun _ => rfl, fun _ => rfl⟩

/-! ## Records -/

/-- A record moves the counters of the metrics and leaves the models alone. -/
theorem enter_same (b : Books) (r : CompletionRecord) :
    (b.enter r).metrics = (b.metrics.recordCompletion r).1 ∧ SameModels b (b.enter r) := by
  rw [enter_eq]
  exact ⟨rfl, fun _ => rfl, fun _ => rfl⟩

@[simp] theorem models_enter (b : Books) (r : CompletionRecord) :
    (b.enter r).models = b.models := by
  rw [enter_eq]
  rfl

/-! ## Completed tasks -/

section Conclude

variable {b : Books} {t : Task} {configuration : String} {nanos : Nat}

/-- The record of a completed task is made when its measurement is in the model,
and then entered. -/
theorem conclude_eq (hconfiguration : t.configuration = some configuration)
    (hduration : t.duration = some nanos) :
    b.conclude t = (some (b.measure t configuration nanos).1,
      (b.measure t configuration nanos).2.enter (b.measure t configuration nanos).1) := by
  simp only [conclude, hconfiguration, hduration]

/-- A completed task moves one counter. -/
theorem metrics_conclude (hconfiguration : t.configuration = some configuration)
    (hduration : t.duration = some nanos) :
    (b.conclude t).2.metrics.submitted = b.metrics.submitted ∧
      (b.conclude t).2.metrics.completed = b.metrics.completed + 1 ∧
      (b.conclude t).2.metrics.dropped = b.metrics.dropped ∧
      (b.conclude t).2.metrics.deviceFaults = b.metrics.deviceFaults := by
  rw [conclude_eq hconfiguration hduration]
  obtain ⟨hmetrics, -⟩ :=
    enter_same (b.measure t configuration nanos).2 (b.measure t configuration nanos).1
  have hkept : (b.measure t configuration nanos).2.metrics = b.metrics := rfl
  simp only [hmetrics, hkept, Metrics.submitted_recordCompletion,
    Metrics.completed_recordCompletion, Metrics.dropped_recordCompletion,
    Metrics.deviceFaults_recordCompletion, and_self]

theorem sample_measure (b : Books) (t : Task) (configuration : String) (nanos : Nat) :
    (b.measure t configuration nanos).1.sample =
      ⟨(b.model configuration).operations t.kernel t.workItems,
        Number.secondsOfNanos nanos⟩ := by
  show (⟨(CostModel.predict _ t.kernel t.workItems).work, _⟩ : Sample Float) = _
  rw [CostModel.work_predict]
  rfl

/-- A record is made of the estimates that its own measurement counts in. -/
theorem record_measure (b : Books) (t : Task) (configuration : String) (nanos : Nat) :
    (b.measure t configuration nanos).1 =
      CompletionRecord.make (t.id.getD 0) configuration t.kernel
        (((b.model configuration).record t.kernel
          (b.measure t configuration nanos).1.sample).predict t.kernel t.workItems)
        (Number.secondsOfNanos nanos) := by
  rw [sample_measure]
  rfl

/-- The model of its configuration gains the measurement that the record of a
completed task holds; the other models stay as they are. -/
theorem model_conclude (hconfiguration : t.configuration = some configuration)
    (hduration : t.duration = some nanos) (name : String) :
    (b.conclude t).2.model name =
      if name = configuration then
        (b.model name).record t.kernel (b.measure t configuration nanos).1.sample
      else b.model name := by
  rw [conclude_eq hconfiguration hduration]
  obtain ⟨-, hmodels⟩ :=
    enter_same (b.measure t configuration nanos).2 (b.measure t configuration nanos).1
  rw [hmodels.model name]
  by_cases hname : name = configuration
  · subst hname
    rw [if_pos rfl, sample_measure]
    simp only [measure, model, CostModel.learn, NameMap.get?_insert_self, Option.getD_some]
  · rw [if_neg hname]
    simp only [measure, model, NameMap.get?_insert_of_ne _ _ hname]
    rfl

theorem newModel_conclude (hconfiguration : t.configuration = some configuration)
    (hduration : t.duration = some nanos) (name : String) :
    (b.conclude t).2.newModel name = b.newModel name := by
  rw [conclude_eq hconfiguration hduration]
  exact (enter_same _ _).2.newModel name

end Conclude

end Books

end KernelDispatch
