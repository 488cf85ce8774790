import KernelDispatch.Board.Basic

/-!
# What decides a launch

The board changes with every launch: kernels are remembered, clocks run, and the
device keeps its log. None of this has a part in what becomes of a later launch.
That is decided by the loaded programs, by what the device was told to do, and by
the task itself, and `Board.report` computes it from them alone.

A remembered kernel is what compiling its entry point gives, so it does not matter
either which kernels are remembered.

## Main definitions

* `Board.Alike` — boards on which every task fares alike.
* `Board.report` — the notice of a launch.
* `Board.outcome` — how long a task takes, or why it goes wrong.

## Main results

* `Board.launch_eq_report` — a launch is reported as it is decided.
* `Board.alike_launch` — no launch has a part in a later one.
-/

namespace KernelDispatch

theorem NameMap.get?_map {α β : Type} (f : α → β) (m : NameMap α) (name : String) :
    (m.map f).get? name = (m.get? name).map f := NameMap.get?_mapWithName (fun _ => f) m name

/-! ## Remembered kernels -/

namespace Configuration

/-- Every remembered kernel is what its entry point compiles to. -/
def Remembers (c : Configuration) : Prop :=
  ∀ entryPoint kernel, c.compiled.get? entryPoint = some kernel →
    c.program.compile entryPoint = .ok kernel

variable {c : Configuration}

theorem kernel_eq_compile (h : c.Remembers) (entryPoint : String) :
    (c.kernel entryPoint).1 = c.program.compile entryPoint := by
  unfold kernel
  split
  · rename_i kernel hkernel
    exact (h entryPoint kernel hkernel).symm
  · split
    · rename_i hcompile
      exact hcompile.symm
    · rename_i hcompile
      exact hcompile.symm

@[simp] theorem name_kernel (c : Configuration) (entryPoint : String) :
    (c.kernel entryPoint).2.name = c.name := by
  unfold kernel
  split
  · rfl
  · split <;> rfl

@[simp] theorem program_kernel (c : Configuration) (entryPoint : String) :
    (c.kernel entryPoint).2.program = c.program := by
  unfold kernel
  split
  · rfl
  · split <;> rfl

theorem Remembers.kernel (h : c.Remembers) (entryPoint : String) :
    (c.kernel entryPoint).2.Remembers := by
  unfold Configuration.kernel
  split
  · exact h
  · split
    · rename_i made hcompile
      intro other kernel hget
      rw [NameMap.get?_insert] at hget
      split at hget
      · rename_i hother
        obtain rfl := Option.some.inj hget
        exact hother ▸ hcompile
      · exact h other kernel hget
    · exact h

/-- Nothing is remembered of a configuration that was just made. -/
theorem remembers_of_ofImage {name : String} {image : ByteArray}
    (h : ofImage name image = .ok c) : c.Remembers ∧ c.name = name := by
  unfold ofImage at h
  cases hload : Program.load name image with
  | error e => simp [hload, Except.map] at h
  | ok program =>
      obtain rfl : ({ name, program } : Configuration) = c := by
        simpa [hload, Except.map] using h
      refine ⟨?_, rfl⟩
      intro entryPoint kernel hget
      simp [NameMap.get?, NameMap.empty, NameMap.find?] at hget

theorem program_of_ofImage {name : String} {image : ByteArray} (h : ofImage name image = .ok c) :
    c.program.name = name := by
  unfold ofImage Program.load at h
  split at h
  · simp only [Except.map, Except.ok.injEq] at h
    rw [← h]
  · simp [Except.map] at h

end Configuration

namespace Task

/-- The kernel of a task against a program. -/
def kernelFor (t : Task) (p : Program) : Result Kernel :=
  match t.recipe.mishap with
  | some mishap => .error mishap.error
  | none => (p.compile (t.recipe.entryPoint.getD t.kernel)).map fun kernel =>
      kernel.bind t.recipe.args

variable {c : Configuration}

theorem materialize_eq_kernelFor (t : Task) (h : c.Remembers) :
    (t.materialize c).1 = t.kernelFor c.program := by
  unfold materialize kernelFor
  cases t.recipe.mishap with
  | some mishap => rfl
  | none =>
      dsimp only
      rw [Configuration.kernel_eq_compile h]

theorem materialize_same (t : Task) (c : Configuration) :
    (t.materialize c).2.name = c.name ∧ (t.materialize c).2.program = c.program := by
  unfold materialize
  split
  · exact ⟨rfl, rfl⟩
  · exact ⟨Configuration.name_kernel c _, Configuration.program_kernel c _⟩

theorem remembers_materialize (t : Task) (h : c.Remembers) : (t.materialize c).2.Remembers := by
  unfold materialize
  split
  · exact h
  · exact h.kernel _

end Task

namespace Board

/-! ## Boards on which tasks fare alike -/

/-- The loaded programs, by the names of their configurations. -/
def programs (b : Board) : NameMap Program := b.configurations.map Configuration.program

theorem get?_programs (b : Board) (name : String) :
    b.programs.get? name = (b.configurations.get? name).map Configuration.program :=
  NameMap.get?_map _ _ _

/-- Configurations are kept under their own names and remember kernels truly. -/
structure Faithful (b : Board) : Prop where
  named : ∀ name c, b.configurations.get? name = some c → c.name = name
  remembers : ∀ name c, b.configurations.get? name = some c → c.Remembers

/-- Programs have the names of their configurations. -/
def Titled (b : Board) : Prop := ∀ name p, b.programs.get? name = some p → p.name = name

/-- Boards on which every task fares alike. -/
structure Alike (b b' : Board) : Prop where
  programs : b'.programs = b.programs
  timing : b'.device.timing = b.device.timing
  failing : ∀ entryPoint,
    b'.device.failing.contains entryPoint = b.device.failing.contains entryPoint
  refusesQueues : b'.device.refusesQueues = b.device.refusesQueues
  holding : b'.holding = b.holding

namespace Alike

variable {b b' b'' : Board}

theorem refl (b : Board) : b.Alike b := ⟨rfl, rfl, fun _ => rfl, rfl, rfl⟩

theorem symm (h : b.Alike b') : b'.Alike b :=
  ⟨h.programs.symm, h.timing.symm, fun e => (h.failing e).symm, h.refusesQueues.symm,
    h.holding.symm⟩

theorem trans (h : b.Alike b') (h' : b'.Alike b'') : b.Alike b'' :=
  ⟨h'.programs.trans h.programs, h'.timing.trans h.timing,
    fun e => (h'.failing e).trans (h.failing e), h'.refusesQueues.trans h.refusesQueues,
    h'.holding.trans h.holding⟩

theorem titled (h : b.Alike b') (hb : b.Titled) : b'.Titled := by
  intro name p hget
  exact hb name p (h.programs ▸ hget)

/-- Both boards keep the same names. -/
theorem contains (h : b.Alike b') (name : String) :
    b'.configurations.contains name = b.configurations.contains name := by
  have hget := congrArg (fun programs => (programs.get? name).isSome) h.programs
  simpa [get?_programs, NameMap.contains] using hget

theorem names (h : b.Alike b') : b'.configurations.names = b.configurations.names := by
  have hnames := congrArg NameMap.names h.programs
  simpa [Board.programs, NameMap.map, NameMap.mapWithName, NameMap.names, Function.comp_def]
    using hnames

end Alike

/-! ## Launches -/

/-- The notice of a launch, from what decides it. -/
def report (b : Board) (closing : Bool) (program : String) (t : Task) : Result Notice :=
  match b.programs.get? program with
  | none => .error (.unknownConfiguration program)
  | some p =>
      match t.kernelFor p with
      | .error e => .error e
      | .ok kernel => (b.submit 0 closing t kernel).map Prod.fst

/-- How long a task takes when it is made against a program, or why it goes wrong. -/
def outcome (b : Board) (program : String) (t : Task) : Result Nat :=
  (b.report true program t).bind fun notice => notice.ending.await.map fun _ => notice.span

section

variable {b b' : Board} {queue : Nat} {closing : Bool} {program : String} {t : Task}

/-- On which queue a launch is submitted plays no part in its notice. -/
theorem submit_congr (h : b.Alike b') (queue queue' : Nat) (closing : Bool) (t : Task)
    (kernel : Kernel) :
    (b'.submit queue' closing t kernel).map Prod.fst =
      (b.submit queue closing t kernel).map Prod.fst := by
  unfold submit
  split
  · rfl
  · rfl
  · have hfailing := h.failing kernel.entryPoint
    simp only [Device.submit, Launch.ending, Device.bind, h.timing, h.holding, hfailing]
    rfl

theorem report_congr (h : b.Alike b') (closing : Bool) (program : String) (t : Task) :
    b'.report closing program t = b.report closing program t := by
  unfold report
  rw [h.programs]
  cases b.programs.get? program with
  | none => rfl
  | some p =>
      dsimp only
      cases t.kernelFor p with
      | error e => rfl
      | ok kernel => exact submit_congr h 0 0 closing t kernel

theorem outcome_congr (h : b.Alike b') (program : String) (t : Task) :
    b'.outcome program t = b.outcome program t := by
  unfold outcome
  rw [report_congr h]

/-- A submission leaves its trace on the device and nowhere else. -/
theorem alike_of_submit {kernel : Kernel} {notice : Notice}
    (h : b.submit queue closing t kernel = .ok (notice, b')) :
    b.Alike b' ∧ b'.configurations = b.configurations := by
  unfold submit at h
  split at h
  · simp at h
  · simp at h
  · simp only [Except.ok.injEq, Prod.mk.injEq] at h
    rw [← h.2]
    exact ⟨⟨rfl, rfl, fun _ => rfl, rfl, rfl⟩, rfl⟩

/-- A task that is made into a kernel leaves at most a remembered kernel. -/
theorem alike_materialize (b : Board) (program : String) (t : Task) :
    b.Alike (b.materialize program t).2 := by
  unfold materialize
  split
  · exact .refl b
  · rename_i c hget
    refine ⟨?_, rfl, fun _ => rfl, rfl, rfl⟩
    apply NameMap.ext_get?
    intro name
    rw [get?_programs, get?_programs, NameMap.get?_insert]
    split
    · rename_i hname
      rw [hname, hget, Option.map_some, Option.map_some, (t.materialize_same c).2]
    · rfl

theorem Faithful.materialize (hb : b.Faithful) (program : String) (t : Task) :
    (b.materialize program t).2.Faithful := by
  unfold Board.materialize
  split
  · exact hb
  · rename_i c hget
    constructor
    · intro name c' hget'
      rw [NameMap.get?_insert] at hget'
      split at hget'
      · rename_i hname
        obtain rfl := Option.some.inj hget'
        rw [(t.materialize_same c).1, hb.named program c hget, hname]
      · exact hb.named name c' hget'
    · intro name c' hget'
      rw [NameMap.get?_insert] at hget'
      split at hget'
      · obtain rfl := Option.some.inj hget'
        exact t.remembers_materialize (hb.remembers program c hget)
      · exact hb.remembers name c' hget'

theorem materialize_fst (hb : b.Faithful) (program : String) (t : Task) :
    (b.materialize program t).1 =
      match b.programs.get? program with
      | none => .error (.unknownConfiguration program)
      | some p => t.kernelFor p := by
  unfold materialize
  rw [get?_programs]
  cases hget : b.configurations.get? program with
  | none => rfl
  | some c => exact t.materialize_eq_kernelFor (hb.remembers program c hget)

/-- What a launch leaves is decided as `report` says, and leaves no trace that a later
launch could meet with. -/
theorem launch_eq_report (hb : b.Faithful) (queue : Nat) (closing : Bool) (program : String)
    (t : Task) : (b.launch queue closing program t).1 = b.report closing program t := by
  have hmade := materialize_fst hb program t
  have halike := alike_materialize b program t
  unfold launch report
  cases hmaterialize : b.materialize program t with
  | mk made board =>
      rw [hmaterialize] at hmade halike
      cases hget : b.programs.get? program with
      | none =>
          rw [hget] at hmade
          subst hmade
          rfl
      | some p =>
          rw [hget] at hmade
          subst hmade
          dsimp only
          cases t.kernelFor p with
          | error e => rfl
          | ok kernel =>
              have hsubmit := submit_congr halike 0 queue closing t kernel
              dsimp only at hsubmit ⊢
              rw [← hsubmit]
              cases board.submit queue closing t kernel with
              | error e => rfl
              | ok answer => rfl

theorem alike_launch (b : Board) (queue : Nat) (closing : Bool) (program : String) (t : Task) :
    b.Alike (b.launch queue closing program t).2 := by
  have halike := alike_materialize b program t
  unfold launch
  split
  · rename_i e board hmade
    rwa [hmade] at halike
  · rename_i kernel board hmade
    rw [hmade] at halike
    split
    · exact halike
    · rename_i notice after hsubmit
      exact halike.trans (alike_of_submit hsubmit).1

theorem Faithful.launch (hb : b.Faithful) (queue : Nat) (closing : Bool) (program : String)
    (t : Task) : (b.launch queue closing program t).2.Faithful := by
  have hmaterialize := hb.materialize program t
  unfold Board.launch
  split
  · rename_i e board hmade
    rwa [hmade] at hmaterialize
  · rename_i kernel board hmade
    rw [hmade] at hmaterialize
    split
    · exact hmaterialize
    · rename_i notice after hsubmit
      have hsame := (alike_of_submit hsubmit).2
      constructor
      · intro name c
        dsimp only
        rw [hsame]
        exact hmaterialize.named name c
      · intro name c
        dsimp only
        rw [hsame]
        exact hmaterialize.remembers name c

/-! ## The queues of the device -/

theorem queuesCreated_of_submit {kernel : Kernel} {notice : Notice}
    (h : b.submit queue closing t kernel = .ok (notice, b')) :
    b'.device.queuesCreated = b.device.queuesCreated := by
  unfold submit at h
  split at h
  · simp at h
  · simp at h
  · simp only [Except.ok.injEq, Prod.mk.injEq] at h
    rw [← h.2]
    exact List.length_set

theorem device_materialize (b : Board) (program : String) (t : Task) :
    (b.materialize program t).2.device = b.device := by
  unfold materialize
  split <;> rfl

theorem queuesCreated_launch (b : Board) (queue : Nat) (closing : Bool) (program : String)
    (t : Task) : (b.launch queue closing program t).2.device.queuesCreated =
      b.device.queuesCreated := by
  have hmaterialize := device_materialize b program t
  unfold launch
  split
  · rename_i hmade
    rw [hmade] at hmaterialize
    exact congrArg Device.queuesCreated hmaterialize
  · rename_i hmade
    rw [hmade] at hmaterialize
    split
    · exact congrArg Device.queuesCreated hmaterialize
    · rename_i hsubmit
      exact (queuesCreated_of_submit hsubmit).trans (congrArg Device.queuesCreated hmaterialize)

/-! ## Outcomes -/

/-- Whether a launch is closing decides no more than whether its notice is held. -/
theorem report_closing (b : Board) (closing : Bool) (program : String) (t : Task) :
    (b.report closing program t).map (fun notice => (notice.ending, notice.span)) =
      (b.report true program t).map fun notice => (notice.ending, notice.span) := by
  unfold report
  cases b.programs.get? program with
  | none => rfl
  | some p =>
      dsimp only
      cases t.kernelFor p with
      | error e => rfl
      | ok kernel =>
          unfold submit
          dsimp only
          split <;> rfl

theorem outcome_of_error {e : Error} (h : b.report closing program t = .error e) :
    b.outcome program t = .error e := by
  have hsame := report_closing b closing program t
  rw [h] at hsame
  unfold outcome
  cases hreport : b.report true program t with
  | ok notice => simp [hreport, Except.map] at hsame
  | error e' =>
      rw [hreport] at hsame
      simpa [Except.map, Except.bind] using hsame.symm

theorem outcome_of_ok {notice : Notice} (h : b.report closing program t = .ok notice) :
    b.outcome program t = notice.ending.await.map fun _ => notice.span := by
  have hsame := report_closing b closing program t
  rw [h] at hsame
  unfold outcome
  cases hreport : b.report true program t with
  | error e => simp [hreport, Except.map] at hsame
  | ok notice' =>
      rw [hreport] at hsame
      simp only [Except.map, Except.ok.injEq, Prod.mk.injEq] at hsame
      simp only [Except.bind, hsame]

end

end Board

end KernelDispatch
