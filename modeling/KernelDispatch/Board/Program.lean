import KernelDispatch.Error
import KernelDispatch.Text.Blank
import KernelDispatch.Text.Utf8

/-!
# Programs and their images

An image is a text with one entry point to a line. White space around a name is
not part of it, blank lines and lines that start with a number sign say
nothing, and an image must name at least one entry point. The same name may
come twice; it stays twice.

## Main definitions

* `Image.entryPoints`, `Image.encode` — from a text to entry points and back.
* `Program.load` — the program of an image, or what is wrong with the image.
* `Program.compile` — one entry point made ready for a launch.
-/

namespace KernelDispatch

namespace Image

/-- Whether a trimmed line names an entry point. -/
def isEntry (line : List Char) : Bool := !line.isEmpty && line.head? != some '#'

/-- The entry points that a text names, in its order. -/
def entryPoints (text : String) : List String :=
  (((Text.lines text.toList).map Text.trim).filter isEntry).map String.ofList

/-- The image that names these entry points. -/
def encode (entries : List String) : ByteArray := ("\n".intercalate entries).toUTF8

/-- What is wrong with an image. -/
inductive Fault where
  | malformed (fault : Text.Utf8.Fault)
  | exposesNothing
deriving DecidableEq

/-- The report of a fault in the image of a named configuration. -/
def Fault.detail (name : String) : Fault → String
  | .malformed fault => s!"{name}: malformed binary: {fault.message}"
  | .exposesNothing => s!"{name}: binary exposes no kernels"

/-- The entry points of an image, or what is wrong with it. -/
def decode (image : ByteArray) : Except Fault (List String) :=
  match Text.Utf8.decode image with
  | .error fault => .error (.malformed fault)
  | .ok text =>
      match entryPoints text with
      | [] => .error .exposesNothing
      | entries => .ok entries

end Image

/-- A kernel ready for a launch: an entry point and the arguments bound to it. -/
structure Kernel where
  program : String
  entryPoint : String
  args : List UInt64 := []
deriving DecidableEq, Inhabited

/-- The kernel with more arguments, after those it has. -/
def Kernel.bind (k : Kernel) (args : List UInt64) : Kernel :=
  { k with args := k.args ++ args }

/-- A loaded image. -/
structure Program where
  name : String
  entryPoints : List String
deriving DecidableEq, Inhabited

namespace Program

/-- The program of an image, or what is wrong with the image. -/
def load (name : String) (image : ByteArray) : Result Program :=
  match Image.decode image with
  | .ok entryPoints => .ok { name, entryPoints }
  | .error fault => .error (.configuration (fault.detail name))

/-- An entry point made ready for a launch, without arguments. -/
def compile (p : Program) (entryPoint : String) : Result Kernel :=
  if p.entryPoints.contains entryPoint then .ok { program := p.name, entryPoint }
  else .error (.compile s!"{p.name} has no entry point {entryPoint}")

end Program

end KernelDispatch
