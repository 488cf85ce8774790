import KernelDispatch.Error
import KernelDispatch.Text.Path

/-!
# Settings

What a scheduler is told before it starts: where images are kept, how worker
threads are set up, how much the calibrated estimate weighs against
measurements, and what is logged. Settings are checked as a whole; of several
faults the first one in the order of `Settings.check` is reported.

## Main definitions

* `Settings.check` — the first fault of the settings, if there is one.
* `Settings.imagePath` — where the image of a configuration is kept.
-/

namespace KernelDispatch

/-- What a scheduler is told before it starts. -/
structure Settings where
  /-- The directory of the images. -/
  kernelsDirectory : String := "../kernels"
  /-- The ending of an image's file name, without the dot. -/
  imageExtension : String := "aocx"
  /-- How the names of worker threads begin. -/
  threadNamePrefix : String := "forecast-queue"
  /-- The stack of a worker thread in bytes, or the platform's own choice. -/
  stackSize : Option Nat := some 2097152
  /-- How many measurements the calibrated estimate is worth in a blend. -/
  hybridPrior : Float := 4.0
  logCompletions : Bool := true
  logCosts : Bool := true
  /-- The file that measurements are appended to, if they are kept. -/
  measurementLog : Option String := none

namespace Settings

/-- The settings of a scheduler that is told nothing. -/
def standard : Settings := {}

instance : Inhabited Settings := ⟨standard⟩

/-- The first fault of the settings, if there is one. -/
def check (s : Settings) : Result Unit :=
  if s.imageExtension.isEmpty then
    .error (.config "binary_extension must not be empty")
  else if s.threadNamePrefix.isEmpty then
    .error (.config "thread_name_prefix must not be empty")
  else if s.stackSize = some 0 then
    .error (.config "stack_size must be > 0")
  else if !s.hybridPrior.isFinite || s.hybridPrior < 0.0 then
    .error (.config "hybrid_prior must be finite and >= 0")
  else .ok ()

/-- The settings themselves, if they have no fault. -/
def checked (s : Settings) : Result Settings :=
  s.check.map fun _ => s

/-- Where the image of a configuration is kept. -/
def imagePath (s : Settings) (name : String) : String :=
  Text.Path.join s.kernelsDirectory (name ++ "." ++ s.imageExtension)

end Settings

end KernelDispatch
