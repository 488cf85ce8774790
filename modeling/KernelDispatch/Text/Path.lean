/-!
# File paths

A path is a text whose parts are divided by slashes. Three questions about
paths matter here: where a relative path leads when it is taken from a
directory, which file of a directory it names, and whether it names the null
device.

A part that is empty or a single dot stays where it is. That holds of a
directory only, so such parts may stand before the name of a file and never
behind it.

## Main definitions

* `join` — a path taken from a directory.
* `fileName?` — the file that a path names directly inside a directory.
* `isNullDevice` — whether a path names the null device.
-/

namespace KernelDispatch.Text.Path

/-- Whether a path starts at the root, wherever it is taken from. -/
def isAbsolute (path : String) : Bool := path.toList.head? == some '/'

/-- A path taken from a directory. An absolute path forgets the directory, and
the slash between the two is written only where one is missing. -/
def join (directory path : String) : String :=
  if isAbsolute path then path
  else if directory.isEmpty || directory.toList.getLast? == some '/' then directory ++ path
  else directory ++ "/" ++ path

/-- What stands between the slashes of a path. -/
def parts (path : String) : List String := (path.toList.splitOn '/').map String.ofList

/-- The parts of a path from the first one that leads anywhere. -/
def leading (parts : List String) : List String :=
  parts.dropWhile fun part => part == "" || part == "."

/-- The most bytes that the name of one file may have. -/
def longestName : Nat := 255

/-- The most bytes that a whole path may have. -/
def longestPath : Nat := 4095

/-- Whether a part of a path can be the name of a file. -/
def isFileName (part : String) : Bool :=
  part ≠ "" && part ≠ "." && part ≠ ".." && !part.toList.contains '\x00' &&
    part.utf8ByteSize ≤ longestName

/-- The file that a path names directly inside the directory it is taken from. A
path that goes on behind the name, if only by a slash, names no file, nor does
one that leaves the directory. -/
def fileName? (path : String) : Option String :=
  match leading (parts path) with
  | [part] => if isFileName part then some part else none
  | _ => none

/-- Whether a path names the null device, which takes every text and keeps
none. -/
def isNullDevice (path : String) : Bool :=
  isAbsolute path &&
    match leading (parts path) with
    | "dev" :: rest => leading rest == ["null"]
    | _ => false

end KernelDispatch.Text.Path
