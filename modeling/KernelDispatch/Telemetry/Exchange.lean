import KernelDispatch.Forecast.Line
import KernelDispatch.Json.Members
import KernelDispatch.Json.Parser
import KernelDispatch.Json.Writer
import KernelDispatch.Telemetry.Record

/-!
# Exchanged forms

Measurements, fitted lines and completion records leave the program as one JSON
object each and are read back from one. For each type the names of the members
are listed once, and both directions use the list.
-/

namespace KernelDispatch

/-- The values of a record that a text spells, in the order of its names. -/
def readValues (names : List String) (text : String) : Option (List (Option Json.Value)) :=
  (Json.parse text.toList).bind (Json.valuesOf names)

/-- A pair of doubles that a text spells under two names. -/
def readPair (first second text : String) : Option (Float × Float) :=
  match readValues [first, second] text with
  | some [some a, some b] => do pure (← a.float?, ← b.float?)
  | _ => none

namespace Sample

/-- A measurement as an object. -/
def toJson (s : Sample Float) : String :=
  String.ofList <| Json.writeObject
    [("x", Json.writeFloat s.work), ("y", Json.writeFloat s.time)]

/-- The measurement that a text spells. -/
def ofJson? (text : String) : Option (Sample Float) :=
  (readPair "x" "y" text).map fun (work, time) => ⟨work, time⟩

end Sample

namespace Line

/-- A line as an object. -/
def toJson (l : Line Float) : String :=
  String.ofList <| Json.writeObject
    [("alpha", Json.writeFloat l.intercept), ("beta", Json.writeFloat l.slope)]

/-- The line that a text spells. -/
def ofJson? (text : String) : Option (Line Float) :=
  (readPair "alpha" "beta" text).map fun (intercept, slope) => ⟨intercept, slope⟩

end Line

namespace CompletionRecord

/-- The names of a record's members. -/
def memberNames : List String :=
  ["task_id", "configuration", "kernel", "flop", "online", "offline", "hybrid", "actual"]

/-- A record as an object. -/
def toJson (r : CompletionRecord) : String :=
  String.ofList <| Json.writeObject <| memberNames.zip
    [Json.writeNat r.taskId, Json.quote r.configuration, Json.quote r.kernel,
     Json.writeFloat r.work, Json.writeFloat? r.online, Json.writeFloat r.offline,
     Json.writeFloat r.hybrid, Json.writeFloat r.actual]

/-- The record that a text spells. Only the estimate on the line may be
missing. -/
def ofJson? (text : String) : Option CompletionRecord :=
  match readValues memberNames text with
  | some [some taskId, some configuration, some kernel, some work, online?, some offline,
      some hybrid, some actual] => do
      pure
        { taskId := ← taskId.word?
          configuration := ← configuration.text?
          kernel := ← kernel.text?
          work := ← work.float?
          online := ← (online?.getD .null).floatOrNull?
          offline := ← offline.float?
          hybrid := ← hybrid.float?
          actual := ← actual.float? }
  | _ => none

end CompletionRecord

end KernelDispatch
