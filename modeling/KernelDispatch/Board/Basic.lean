import KernelDispatch.Board.Configuration
import KernelDispatch.Board.Device
import KernelDispatch.Launch.Task

/-!
# The board

A board is the device with the configurations that are loaded for it. While the
board is holding, the report of a launch is kept back until someone releases
it, so that its queue can be watched in flight; a queue that is closing is
never kept waiting.

## Main definitions

* `Board.launch` — a task made into a kernel and launched.
* `Notice` — the report of a launch, and whether it is kept back.
-/

namespace KernelDispatch

/-- The report of a launch, on its way to the one who waits for it. -/
structure Notice where
  ending : Ending
  /-- Nanoseconds from submission to the report. -/
  span : Nat
  /-- Whether the report is kept back. -/
  held : Bool
deriving DecidableEq, Inhabited

/-- The device with the configurations that are loaded for it. -/
structure Board where
  device : Device
  configurations : NameMap Configuration := .empty
  /-- Whether reports of new launches are kept back. -/
  holding : Bool := false

namespace Board

instance : Inhabited Board := ⟨{ device := default }⟩

/-- The board with an image loaded as a configuration of its own, which is
handed back and not yet kept. -/
def load (b : Board) (name : String) (image : ByteArray) : Result (Configuration × Board) :=
  match b.device.load name image with
  | (.ok program, device) => .ok ({ name, program }, { b with device })
  | (.error e, _) => .error e

/-- What is loaded is the configuration of the image. -/
theorem load_eq (b : Board) (name : String) (image : ByteArray) :
    b.load name image = (Configuration.ofImage name image).map fun c =>
      (c, { b with device := b.device.countProgram }) := by
  unfold load Device.load Configuration.ofImage
  cases Program.load name image <;> rfl

/-- The board that keeps a configuration under its name. -/
def keep (b : Board) (c : Configuration) : Board :=
  { b with configurations := b.configurations.insert c.name c }

/-- Every later launch of an entry point faults. -/
def failKernel (b : Board) (entryPoint : String) : Board :=
  { b with device := b.device.failKernel entryPoint }

/-- The kernel of a task against a loaded configuration. -/
def materialize (b : Board) (configuration : String) (t : Task) : Result Kernel × Board :=
  match b.configurations.get? configuration with
  | none => (.error (.unknownConfiguration configuration), b)
  | some c =>
      let (made, c') := t.materialize c
      (made, { b with configurations := b.configurations.insert configuration c' })

/-- A kernel submitted for a task: the notice of its launch. -/
def submit (b : Board) (queue : Nat) (closing : Bool) (t : Task) (kernel : Kernel) :
    Result (Notice × Board) :=
  match t.recipe.incident with
  | some (.rejected text) => .error (.device text)
  | some (.panics text) => .error (Mishap.panics text).error
  | _ =>
      let (ending, span, device) := b.device.submit queue kernel t.workItems
      .ok
        ({ ending := t.recipe.reported ending
           span := span + t.recipe.jitter
           held := b.holding && !closing },
          { b with device })

/-- A task made into a kernel against a configuration and launched. The kernel
is remembered even where its launch is refused. -/
def launch (b : Board) (queue : Nat) (closing : Bool) (configuration : String) (t : Task) :
    Result Notice × Board :=
  match b.materialize configuration t with
  | (.error e, b) => (.error e, b)
  | (.ok kernel, b) =>
      match b.submit queue closing t kernel with
      | .error e => (.error e, b)
      | .ok (notice, b) => (.ok notice, b)

end Board

end KernelDispatch
