import KernelDispatch.Directory
import KernelDispatch.Error
import KernelDispatch.Telemetry.Exchange
import KernelDispatch.Text.Blank
import KernelDispatch.Text.Utf8

/-!
# The measurement log

The log is a text file with one record to a line, and it only ever grows:
opening it again goes on at its end. Reading it back takes every line that is
not blank, and one line that is no record spoils the whole reading, since
nothing tells what it stood for.

## Main definitions

* `MeasurementLog.lineOf` — the line that a record adds.
* `MeasurementLog.records` — the records of a log's text.
* `MeasurementLog.read` — the records of a file.
-/

namespace KernelDispatch.MeasurementLog

/-- The line that a record adds. -/
def lineOf (r : CompletionRecord) : String := r.toJson ++ "\n"

/-- The record of one line. -/
def recordOf (line : List Char) : Result CompletionRecord :=
  match CompletionRecord.ofJson? (String.ofList line) with
  | some record => .ok record
  | none => .error (.serialization "a line is not a completion record")

/-- The records of a log's text, or why it has none. -/
def records (text : String) : Result (List CompletionRecord) :=
  ((Text.lines text.toList).filter fun line => !(Text.trim line).isEmpty).mapM recordOf

/-- The records of a file's bytes, or why it has none. -/
def recordsOfBytes (bytes : ByteArray) : Result (List CompletionRecord) :=
  match Text.Utf8.decode bytes with
  | .ok text => records text
  | .error _ => .error (.file "the log is not text")

/-- The records of the log at a path. -/
def read (d : Directory) (path : String) : Result (List CompletionRecord) :=
  match d.read? path with
  | some bytes => recordsOfBytes bytes
  | none => .error (.file "the log cannot be opened")

/-- The directory with the log at a path opened: it exists from then on. -/
def openAt (d : Directory) (path : String) : Result Directory :=
  match d.create? path with
  | some d => .ok d
  | none => .error (.file "the log cannot be created")

/-- The directory with one more record in the log at a path. -/
def append (d : Directory) (path : String) (r : CompletionRecord) : Directory :=
  d.append path (lineOf r).toUTF8

/-- The directory after the log at a path was opened for each of these sessions
in turn, and the records of the session were written. -/
def write (d : Directory) (path : String) : List (List CompletionRecord) → Result Directory
  | [] => .ok d
  | session :: rest => do
      let d ← openAt d path
      write (session.foldl (fun d r => append d path r) d) path rest

end KernelDispatch.MeasurementLog
