import KernelDispatch.Board.Program
import KernelDispatch.NameMap
import KernelDispatch.Text.Fields

/-!
# Configurations

A configuration is a loaded program together with the kernels that were
compiled from it so far. An entry point is compiled when it is first asked for
and handed out from then on; what is handed out is a value, so arguments bound
for one launch never show in another.
-/

namespace KernelDispatch

/-- A loaded program and the kernels compiled from it so far. -/
structure Configuration where
  name : String
  program : Program
  compiled : NameMap Kernel := .empty

namespace Configuration

instance : Inhabited Configuration := ⟨"", default, .empty⟩

/-- The configuration of an image. -/
def ofImage (name : String) (image : ByteArray) : Result Configuration :=
  (Program.load name image).map fun program => { name, program }

/-- The kernel of an entry point, and the configuration that remembers it. A
kernel that cannot be compiled is not remembered. -/
def kernel (c : Configuration) (entryPoint : String) : Result Kernel × Configuration :=
  match c.compiled.get? entryPoint with
  | some kernel => (.ok kernel, c)
  | none =>
      match c.program.compile entryPoint with
      | .ok kernel => (.ok kernel, { c with compiled := c.compiled.insert entryPoint kernel })
      | .error e => (.error e, c)

/-- How many kernels are remembered. -/
def cachedKernels (c : Configuration) : Nat := c.compiled.size

/-- A description of name and remembered kernels. -/
def describe (c : Configuration) : String :=
  Text.fields "Configuration"
    [("name", Text.quoted c.name), ("cached_kernels", toString c.cachedKernels)]

end Configuration

end KernelDispatch
