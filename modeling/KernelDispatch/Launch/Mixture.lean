import KernelDispatch.Launch.Task
import KernelDispatch.Number.Layout
import KernelDispatch.Number.Scalar
import KernelDispatch.Text.Fields

/-!
# Random workloads

A mixture draws tasks at random: each template has a probability, and a draw
between zero and one picks the template into whose share of the unit interval
it falls. The shares lie side by side in the order of registration; what
rounding leaves at the end belongs to the last template.

The draws come from a source that is the caller's. Every template has a stream
of launch geometries of its own, and only being drawn moves it on. A call that
is refused moves neither.

## Main definitions

* `Mixture` — templates and the ends of their shares.
* `Source` — where the draws come from.
* `Mixture.pick` — the template that a draw falls on.
* `Mixture.next` — a drawn task, or why there is none, and what moves.
-/

namespace KernelDispatch

/-- A task to be drawn, and the stream of its geometries. -/
structure Template where
  task : Task
  sizes : Nat → Geometry
  /-- How many geometries of the stream are used up. -/
  drawn : Nat := 0

namespace Template

/-- The next task of a template. -/
def sample (t : Template) : Task := { t.task with geometry := t.sizes t.drawn }

/-- The template with its stream moved on. -/
def advance (t : Template) : Template := { t with drawn := t.drawn + 1 }

/-- The stream that goes round and round a list; a single item where the list is
empty. -/
def cycle (sizes : List Geometry) (n : Nat) : Geometry :=
  sizes.getD (n % sizes.length) .single

end Template

/-- A source of random draws, and how many of them are used up. -/
structure Source (α : Type) where
  draws : Nat → α
  used : Nat := 0

namespace Source

variable {α : Type}

/-- The next draw. -/
def draw (s : Source α) : α := s.draws s.used

/-- The source with its next draw used up. -/
def advance (s : Source α) : Source α := { s with used := s.used + 1 }

/-- The draw that a random word stands for: its upper 24 bits as a share of
one. -/
def drawOfWord [Scalar α] (word : UInt32) : α :=
  Scalar.ofCount (word.toNat / 256) / Scalar.ofCount 16777216

/-- A source that takes one random word for each draw. -/
def ofWords [Scalar α] (words : Nat → UInt32) : Source α where
  draws n := drawOfWord (words n)

end Source

/-- Templates, and where the share of each of them ends. -/
structure Mixture (α : Type) where
  templates : List Template := []
  offsets : List α := []

namespace Mixture

variable {α : Type}

/-- Why nothing can be drawn. -/
inductive Refusal (α : Type) where
  | noTemplates
  /-- The probabilities add up to something else than one. -/
  | total (sum : α)

section
variable [Scalar α]

/-- How far from one the probabilities may add up to. -/
def tolerance : α := Scalar.one / Scalar.ofCount 10000

/-- Where the shares end, zero before there are any. -/
def total (m : Mixture α) : α := m.offsets.getLast?.getD Scalar.zero

/-- The mixture with one more template, drawn with this probability. -/
def add (m : Mixture α) (probability : α) (t : Template) : Mixture α :=
  { templates := m.templates ++ [t], offsets := m.offsets ++ [m.total + probability] }

/-- Whether a sum is so far from one that it cannot be one rounded. A sum that
is not a number is not. -/
def isOff (sum : α) : Bool :=
  Scalar.less tolerance (Scalar.magnitude (sum - Scalar.one))

/-- The template that a draw falls on: the first whose share ends above the
draw, or the last. -/
def pick (m : Mixture α) (draw : α) : Nat :=
  (m.offsets.findIdx? fun offset => Scalar.less draw offset).getD (m.offsets.length - 1)

/-- A drawn task, or why there is none, and the mixture and the source after it.
The source is asked only where a task can be drawn. -/
def next (m : Mixture α) (s : Source α) : Except (Refusal α) Task × Mixture α × Source α :=
  if m.offsets.isEmpty then (.error .noTemplates, m, s)
  else if isOff m.total then (.error (.total m.total), m, s)
  else
    let index := m.pick s.draw
    match m.templates[index]? with
    | none => (.error .noTemplates, m, s.advance)
    | some t => (.ok t.sample, { m with templates := m.templates.set index t.advance }, s.advance)

end

/-- The report of a refusal. -/
def Refusal.error : Refusal Float32 → Error
  | .noTemplates => .config "no kernels registered"
  | .total sum =>
      .config s!"kernel probabilities sum to {Number.Layout.plain.float32 sum}, expected 1"

/-- A task that is drawn with a random word, and the mixture after it. -/
def draw (m : Mixture Float32) (word : UInt32) : Result Task × Mixture Float32 :=
  let (answer, m, _) := m.next (.ofWords fun _ => word)
  (answer.mapError Refusal.error, m)

end Mixture

/-! ## Descriptions -/

/-- A description of a range: its sizes filled up with ones, and its rank. -/
def NdRange.describe (r : NdRange) : String :=
  Text.fields "NdRange"
    [("sizes", Text.listing ((List.range 3).map fun dim => toString (r.get dim).toNat)),
     ("rank", toString r.rank)]

/-- A description of a geometry. -/
def Geometry.describe (g : Geometry) : String :=
  Text.fields "TaskDims"
    [("global", g.global.describe), ("local", g.group.describe), ("offset", g.offset.describe)]

/-- A description of a task that was never launched. -/
def Template.describe (t : Template) : String :=
  Text.fields "Task"
    [("id", Text.optional none),
     ("kernel_name", Text.quoted t.task.kernel),
     ("dims", t.task.geometry.describe),
     ("configuration", Text.optional none),
     ("enqueued_at", Text.optional none),
     ("finished_at", Text.optional none)]

/-- A description of a mixture. -/
def Mixture.describe (m : Mixture Float32) : String :=
  Text.fields "RandomTasks"
    [("templates", Text.listing (m.templates.map Template.describe)),
     ("offsets", Text.listing (m.offsets.map Number.Layout.described.float32))]

end KernelDispatch
