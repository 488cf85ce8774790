import KernelDispatch.Board.Configuration
import KernelDispatch.Board.Device
import KernelDispatch.Launch.Geometry

/-!
# Tasks

A task names a kernel and a launch geometry. What is launched is decided late,
by the task's recipe, against the configuration that is bound when the task's
turn comes: the recipe picks an entry point and binds arguments, or goes wrong
in one of the ways in which code goes wrong.

## Main definitions

* `Recipe` — how a task makes its kernel, and what its launch meets with.
* `Task` — one unit of work.
* `Task.materialize` — the kernel of a task against a configuration.
-/

namespace KernelDispatch

/-- How a recipe goes wrong before it has a kernel. -/
inductive Mishap where
  /-- The code gives up, with a text or with something that is none. -/
  | panics (text : Option String)
  /-- The code reports an error of its own. -/
  | refuses (text : String)
deriving DecidableEq

/-- What is reported of a mishap. -/
def Mishap.error : Mishap → Error
  | .panics text => .other ("worker panicked: " ++ text.getD "unknown panic")
  | .refuses text => .other text

/-- What a launch meets with on its way. -/
inductive Incident where
  /-- The device does not take the launch. -/
  | rejected (text : String)
  /-- The device's code gives up while it takes the launch, with a text or with
  something that is none. -/
  | panics (text : Option String)
  /-- The launch runs, but its success is reported in this way. -/
  | ends (ending : Ending)
deriving DecidableEq

/-- How a task makes its kernel, and what its launch meets with. -/
structure Recipe where
  mishap : Option Mishap := none
  /-- The entry point, unless it is named like the task's kernel. -/
  entryPoint : Option String := none
  args : List UInt64 := []
  /-- Time that passes between the launch's end and its report. -/
  jitter : Nat := 0
  incident : Option Incident := none
deriving DecidableEq, Inhabited

/-- How a launch reports back, from how the device ended it: an incident spoils
a success, and a fault of the device stands. -/
def Recipe.reported (r : Recipe) : Ending → Ending
  | .complete =>
      match r.incident with
      | some (.ends other) => other
      | _ => .complete
  | fault => fault

/-- One unit of work. -/
structure Task where
  id : Option Nat := none
  kernel : String
  geometry : Geometry := .single
  recipe : Recipe := {}
  /-- The configuration that the kernel was made against. -/
  configuration : Option String := none
  /-- Nanoseconds from submission to completion. -/
  duration : Option Nat := none
deriving DecidableEq, Inhabited

namespace Task

/-- How a number of a task is written. -/
def idText (id : Nat) : String := s!"#{id}"

/-- The amount of work of a task. -/
def workItems (t : Task) : UInt64 := t.geometry.workItems

/-- A task in one line: number, kernel and global range. -/
def text (t : Task) : String :=
  let number := (t.id.map idText).getD "#?"
  s!"{number} {t.kernel} {t.geometry.global.text}"

/-- The kernel of a task against a configuration, and the configuration after
it was asked. A mishap comes before the configuration is asked at all. -/
def materialize (t : Task) (c : Configuration) : Result Kernel × Configuration :=
  match t.recipe.mishap with
  | some mishap => (.error mishap.error, c)
  | none =>
      let (made, c) := c.kernel (t.recipe.entryPoint.getD t.kernel)
      (made.map fun kernel => kernel.bind t.recipe.args, c)

end Task

end KernelDispatch
