import KernelDispatch.Proofs.Board.Dispatch
import Mathlib.Data.Finset.Card
import Mathlib.Data.Finset.Dedup

/-!
# Remembered kernels are not seen

A configuration compiles an entry point when it is first asked for and remembers the kernel.
Whoever asks cannot tell: every answer is what compiling the entry point afresh would give, and
whatever is made of an answer stays with the one who made it.

Those who ask are code. The code of a task may ask for several kernels, go on from what it gets
and yield any kernel in the end; a task's recipe is code of this kind that asks once and binds
arguments, and a single call is code that yields its answer. What such code makes of a
configuration is compared with what it makes of the program alone, call by call.

The number of remembered kernels is all that remains of the past. It counts the different entry
points that were asked for and are there.

## Main definitions

* `Generator` — code that asks for kernels and yields one.
* `Inquiry` — a configuration and the calls that were answered.
* `Inquiry.Unseen` — what holds of the answers.

## Main results

* `Task.materialize_eq_run` — a task is made into a kernel by its generator.
* `Inquiry.Keeps.run` — one generator cannot tell.
* `Inquiry.unseen` — any number of generators cannot tell.
-/

namespace KernelDispatch

/-- Code that asks a configuration for kernels, goes on from what it gets, and yields a kernel
in the end, or an error. -/
inductive Generator where
  | yields (made : Result Kernel)
  | asks (entryPoint : String) (next : Result Kernel → Generator)

/-- A call for the kernel of an entry point, and its answer. -/
structure Call where
  entryPoint : String
  answer : Result Kernel

/-- The entry point of a call, if the answer was a kernel. -/
def Call.granted? (call : Call) : Option String :=
  match call.answer with
  | .ok _ => some call.entryPoint
  | .error _ => none

/-- A configuration and the calls that it has answered, oldest first. -/
structure Inquiry where
  configuration : Configuration
  calls : List Call := []

namespace Inquiry

/-- A call for a kernel. -/
def ask (i : Inquiry) (entryPoint : String) : Result Kernel × Inquiry :=
  let (answer, configuration) := i.configuration.kernel entryPoint
  (answer, { configuration, calls := i.calls ++ [⟨entryPoint, answer⟩] })

/-- The entry points that were asked for with success, each as often as it was asked for. -/
def granted (i : Inquiry) : List String := i.calls.filterMap Call.granted?

end Inquiry

namespace Generator

/-- A single call, which yields its answer. -/
def call (entryPoint : String) : Generator := .asks entryPoint .yields

/-- What a generator yields, and the configuration that it has asked. -/
def run : Generator → Inquiry → Result Kernel × Inquiry
  | .yields made, i => (made, i)
  | .asks entryPoint next, i =>
      let (answer, i) := i.ask entryPoint
      (next answer).run i

/-- What a generator yields if every entry point is compiled afresh. -/
def fresh (p : Program) : Generator → Result Kernel
  | .yields made => made
  | .asks entryPoint next => (next (p.compile entryPoint)).fresh p

/-- The calls that a generator makes if every entry point is compiled afresh. -/
def calls (p : Program) : Generator → List Call
  | .yields _ => []
  | .asks entryPoint next =>
      ⟨entryPoint, p.compile entryPoint⟩ :: (next (p.compile entryPoint)).calls p

theorem answer_of_mem_calls {p : Program} {g : Generator} {call : Call} (h : call ∈ g.calls p) :
    call.answer = p.compile call.entryPoint := by
  induction g with
  | yields made => cases h
  | asks entryPoint next ih =>
      rcases List.mem_cons.1 h with rfl | hrest
      · rfl
      · exact ih _ hrest

end Generator

/-! ## Tasks -/

namespace Task

/-- The code of a task's recipe. -/
def generator (t : Task) : Generator :=
  match t.recipe.mishap with
  | some mishap => .yields (.error mishap.error)
  | none => .asks (t.recipe.entryPoint.getD t.kernel) fun answer =>
      .yields (answer.map fun kernel => kernel.bind t.recipe.args)

/-- A task is made into a kernel by its generator. -/
theorem materialize_eq_run (t : Task) (i : Inquiry) :
    t.materialize i.configuration =
      ((t.generator.run i).1, (t.generator.run i).2.configuration) := by
  unfold materialize generator
  cases t.recipe.mishap <;> rfl

theorem kernelFor_eq_fresh (t : Task) (p : Program) : t.kernelFor p = t.generator.fresh p := by
  unfold kernelFor generator
  cases t.recipe.mishap <;> rfl

end Task

namespace Program

variable {p : Program} {entryPoint : String}

theorem compile_of_mem (h : entryPoint ∈ p.entryPoints) :
    p.compile entryPoint = .ok { program := p.name, entryPoint } :=
  if_pos (List.contains_iff_mem.2 h)

theorem compile_of_notMem (h : entryPoint ∉ p.entryPoints) :
    p.compile entryPoint = .error (.compile s!"{p.name} has no entry point {entryPoint}") :=
  if_neg (mt List.contains_iff_mem.1 h)

theorem mem_of_compile {kernel : Kernel} (h : p.compile entryPoint = .ok kernel) :
    entryPoint ∈ p.entryPoints := by
  by_contra hnot
  rw [compile_of_notMem hnot] at h
  cases h

end Program

/-- A call reaches the kernels that are remembered: its own is one of them from then on. -/
theorem Configuration.mem_names_kernel (c : Configuration) (entryPoint other : String) :
    other ∈ (c.kernel entryPoint).2.compiled.names ↔
      other ∈ c.compiled.names ∨
        (Call.mk entryPoint (c.kernel entryPoint).1).granted? = some other := by
  simp only [NameMap.mem_names_iff]
  unfold kernel
  cases hget : c.compiled.get? entryPoint with
  | some kernel =>
      dsimp only [Call.granted?]
      refine ⟨.inl, ?_⟩
      rintro (hother | hsame)
      · exact hother
      · exact Option.some.inj hsame ▸ ⟨kernel, hget⟩
  | none =>
      dsimp only
      cases c.program.compile entryPoint with
      | error e => simp [Call.granted?]
      | ok kernel =>
          dsimp only [Call.granted?]
          rw [NameMap.get?_insert, Option.some.injEq]
          by_cases hother : other = entryPoint
          · simp [hother]
          · simp [hother, Ne.symm hother]

namespace Inquiry

variable {p : Program} {i : Inquiry}

/-! ## One generator -/

/-- What is remembered of the calls that were answered. -/
structure Keeps (p : Program) (i : Inquiry) : Prop where
  program : i.configuration.program = p
  remembers : i.configuration.Remembers
  names : ∀ entryPoint, entryPoint ∈ i.configuration.compiled.names ↔ entryPoint ∈ i.granted

theorem granted_ask (i : Inquiry) (entryPoint : String) :
    (i.ask entryPoint).2.granted =
      i.granted ++ (Call.mk entryPoint (i.configuration.kernel entryPoint).1).granted?.toList := by
  have hcalls : (i.ask entryPoint).2.calls =
      i.calls ++ [⟨entryPoint, (i.configuration.kernel entryPoint).1⟩] := rfl
  rw [granted, granted, hcalls, List.filterMap_append, List.filterMap_cons, List.filterMap_nil]
  cases (Call.mk entryPoint (i.configuration.kernel entryPoint).1).granted? <;> rfl

theorem Keeps.ask (h : i.Keeps p) (entryPoint : String) :
    (i.ask entryPoint).2.Keeps p ∧ (i.ask entryPoint).1 = p.compile entryPoint ∧
      (i.ask entryPoint).2.calls = i.calls ++ [⟨entryPoint, p.compile entryPoint⟩] := by
  have hanswer : (i.configuration.kernel entryPoint).1 = p.compile entryPoint := by
    rw [Configuration.kernel_eq_compile h.remembers, h.program]
  refine ⟨⟨?_, h.remembers.kernel entryPoint, fun other => ?_⟩, hanswer, ?_⟩
  · exact (Configuration.program_kernel _ _).trans h.program
  · have hnames := Configuration.mem_names_kernel i.configuration entryPoint other
    rw [h.names] at hnames
    rw [granted_ask, List.mem_append, Option.mem_toList]
    exact hnames
  · exact congrArg (fun answer => i.calls ++ [Call.mk entryPoint answer]) hanswer

/-- A generator cannot tell what is remembered. -/
theorem Keeps.run (h : i.Keeps p) (g : Generator) :
    (g.run i).2.Keeps p ∧ (g.run i).1 = g.fresh p ∧
      (g.run i).2.calls = i.calls ++ g.calls p := by
  induction g generalizing i with
  | yields made => exact ⟨h, rfl, (List.append_nil _).symm⟩
  | asks entryPoint next ih =>
      obtain ⟨hkeeps, hanswer, hcalls⟩ := h.ask entryPoint
      obtain ⟨hlast, hmade, hrest⟩ := ih (i.ask entryPoint).1 hkeeps
      rw [hanswer] at hlast hmade hrest
      have hrun : (Generator.asks entryPoint next).run i =
          (next (p.compile entryPoint)).run (i.ask entryPoint).2 := by
        rw [← hanswer]
        rfl
      rw [hrun]
      refine ⟨hlast, hmade, ?_⟩
      rw [hrest, hcalls, List.append_assoc]
      rfl

/-- Earlier calls play no part in what a generator does. -/
theorem run_congr {j : Inquiry} (h : i.configuration = j.configuration) (g : Generator) :
    (g.run i).1 = (g.run j).1 ∧ (g.run i).2.configuration = (g.run j).2.configuration := by
  induction g generalizing i j with
  | yields made => exact ⟨rfl, h⟩
  | asks entryPoint next ih =>
      have hanswer : (i.ask entryPoint).1 = (j.ask entryPoint).1 :=
        congrArg (fun c => (Configuration.kernel c entryPoint).1) h
      have hafter : (i.ask entryPoint).2.configuration = (j.ask entryPoint).2.configuration :=
        congrArg (fun c => (Configuration.kernel c entryPoint).2) h
      have hnext := ih (i.ask entryPoint).1 hafter
      have hfirst : (Generator.asks entryPoint next).run i =
          (next (i.ask entryPoint).1).run (i.ask entryPoint).2 := rfl
      rw [hfirst, hnext.1, hnext.2, hanswer]
      exact ⟨rfl, rfl⟩

/-! ## One generator after the other -/

/-- What generators yield that run one after the other, and the configuration that they have
asked. -/
def serve (i : Inquiry) : List Generator → List (Result Kernel) × Inquiry
  | [] => ([], i)
  | g :: rest =>
      let (made, i) := g.run i
      let (others, i) := i.serve rest
      (made :: others, i)

theorem serve_congr {j : Inquiry} (h : i.configuration = j.configuration)
    (generators : List Generator) :
    (i.serve generators).2.configuration = (j.serve generators).2.configuration := by
  induction generators generalizing i j with
  | nil => exact h
  | cons g rest ih => exact ih (run_congr h g).2

theorem serve_append (i : Inquiry) (earlier later : List Generator) :
    (i.serve (earlier ++ later)).2 = ((i.serve earlier).2.serve later).2 := by
  induction earlier generalizing i with
  | nil => rfl
  | cons g rest ih => exact ih (g.run i).2

/-- Those who come later find the configuration as it was left. -/
theorem configuration_serve_append (i : Inquiry) (earlier later : List Generator) :
    (i.serve (earlier ++ later)).2.configuration =
      (serve { configuration := (i.serve earlier).2.configuration } later).2.configuration := by
  rw [serve_append]
  have hsame : (i.serve earlier).2.configuration =
      Inquiry.configuration { configuration := (i.serve earlier).2.configuration } := rfl
  exact serve_congr hsame later

theorem Keeps.serve (h : i.Keeps p) (generators : List Generator) :
    (i.serve generators).2.Keeps p ∧ (i.serve generators).1 = generators.map (·.fresh p) ∧
      (i.serve generators).2.calls = i.calls ++ generators.flatMap (·.calls p) := by
  induction generators generalizing i with
  | nil => exact ⟨h, rfl, (List.append_nil _).symm⟩
  | cons g rest ih =>
      obtain ⟨hkeeps, hmade, hcalls⟩ := h.run g
      obtain ⟨hlast, hothers, hrest⟩ := ih hkeeps
      refine ⟨hlast, ?_, ?_⟩
      · rw [List.map_cons, ← hmade, ← hothers]
        rfl
      · rw [List.flatMap_cons, ← List.append_assoc, ← hcalls, ← hrest]
        rfl

/-- What holds of the answers to generators that ran one after the other. -/
structure Unseen (p : Program) (generators : List Generator)
    (outcome : List (Result Kernel) × Inquiry) : Prop where
  /-- They yield what they yield of a program that compiles every entry point afresh. -/
  made : outcome.1 = generators.map (·.fresh p)
  /-- They make the same calls, and get the same answers. -/
  calls : outcome.2.calls = generators.flatMap (·.calls p)
  answers : ∀ call ∈ outcome.2.calls, call.answer = p.compile call.entryPoint
  /-- No argument is bound to a kernel that is handed out. -/
  known : ∀ call ∈ outcome.2.calls, call.entryPoint ∈ p.entryPoints →
    call.answer = .ok { program := p.name, entryPoint := call.entryPoint, args := [] }
  missing : ∀ call ∈ outcome.2.calls, call.entryPoint ∉ p.entryPoints →
    call.answer = .error (.compile s!"{p.name} has no entry point {call.entryPoint}")
  /-- The next task is made into its kernel, with its own arguments only, and it leaves the
  configuration as its generator does. -/
  tasks : ∀ t : Task, t.materialize outcome.2.configuration =
    (t.kernelFor p, (t.generator.run outcome.2).2.configuration)
  /-- As many kernels are remembered as entry points were asked for with success. -/
  cached : outcome.2.configuration.cachedKernels = outcome.2.granted.toFinset.card
  bounded : outcome.2.configuration.cachedKernels ≤ p.entryPoints.toFinset.card

theorem Keeps.cachedKernels (h : i.Keeps p) :
    i.configuration.cachedKernels = i.granted.toFinset.card := by
  have hnames : i.configuration.compiled.names.toFinset = i.granted.toFinset := by
    ext entryPoint
    rw [List.mem_toFinset, List.mem_toFinset, h.names]
  rw [← hnames, List.toFinset_card_of_nodup (NameMap.names_nodup _)]
  exact (List.length_map _).symm

/-- Only an entry point that is there is asked for with success. -/
theorem granted_subset (h : ∀ call ∈ i.calls, call.answer = p.compile call.entryPoint) :
    i.granted ⊆ p.entryPoints := by
  intro entryPoint hmem
  obtain ⟨call, hcall, hgranted⟩ := List.mem_filterMap.1 hmem
  have hanswer := h call hcall
  unfold Call.granted? at hgranted
  split at hgranted
  · rename_i kernel hkernel
    obtain rfl := Option.some.inj hgranted
    exact Program.mem_of_compile (hanswer.symm.trans hkernel)
  · cases hgranted

/-- Nothing is remembered of a configuration that was just loaded, and nothing was asked. -/
theorem keeps_of_ofImage {name : String} {image : ByteArray} {c : Configuration}
    (h : Configuration.ofImage name image = .ok c) : Keeps c.program { configuration := c } := by
  have hempty : c.compiled = .empty := by
    unfold Configuration.ofImage at h
    cases hload : Program.load name image with
    | error e => simp [hload, Except.map] at h
    | ok program =>
        rw [hload] at h
        rw [← Except.ok.inj h]
  refine ⟨rfl, (Configuration.remembers_of_ofImage h).1, fun entryPoint => ?_⟩
  dsimp only
  rw [hempty]
  exact iff_of_false List.not_mem_nil List.not_mem_nil

/-- Whatever was asked of a configuration before, and whatever was made of it, its answers are
those of its program. -/
theorem unseen {name : String} {image : ByteArray} {c : Configuration}
    (h : Configuration.ofImage name image = .ok c) (generators : List Generator) :
    Unseen c.program generators (serve { configuration := c } generators) := by
  obtain ⟨hkeeps, hmade, hcalls⟩ := (keeps_of_ofImage h).serve generators
  generalize serve { configuration := c } generators = outcome at hkeeps hmade hcalls
  have hanswers : ∀ call ∈ outcome.2.calls, call.answer = c.program.compile call.entryPoint := by
    intro call hcall
    rw [hcalls, List.nil_append, List.mem_flatMap] at hcall
    obtain ⟨g, -, hcall⟩ := hcall
    exact Generator.answer_of_mem_calls hcall
  have hsubset : outcome.2.granted.toFinset ⊆ c.program.entryPoints.toFinset := by
    intro entryPoint hmem
    exact List.mem_toFinset.2 (granted_subset hanswers (List.mem_toFinset.1 hmem))
  refine ⟨hmade, hcalls, hanswers, ?_, ?_, ?_, hkeeps.cachedKernels, ?_⟩
  · intro call hcall hmem
    rw [hanswers call hcall, Program.compile_of_mem hmem]
  · intro call hcall hnot
    rw [hanswers call hcall, Program.compile_of_notMem hnot]
  · intro t
    rw [t.materialize_eq_run, (hkeeps.run t.generator).2.1, t.kernelFor_eq_fresh]
  · rw [hkeeps.cachedKernels]
    exact Finset.card_le_card hsubset

/-- Arguments stay with the task that binds them, and what is missing is not counted. -/
example :
    let outcome := serve { configuration := { name := "p", program := ⟨"p", ["a", "b"]⟩ } }
      [.call "a", .call "c", Task.generator { kernel := "a", recipe := { args := [7] } }, .call "a"]
    outcome.1 = [.ok ⟨"p", "a", []⟩, .error (.compile "p has no entry point c"),
      .ok ⟨"p", "a", [7]⟩, .ok ⟨"p", "a", []⟩] ∧
      outcome.2.configuration.cachedKernels = 1 := ⟨rfl, rfl⟩

end Inquiry

end KernelDispatch
