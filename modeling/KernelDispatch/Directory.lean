import KernelDispatch.NameMap
import KernelDispatch.Text.Path

/-!
# A directory of files

Images are read from one directory, and the measurement log may be kept in the
same one. The directory is a value: the files it holds, by name. Nothing outside
it can be opened, except for the null device, which is the same everywhere.

## Main definitions

* `Place` — what a path leads to.
* `Directory.locate?` — the place of a path.
* `Directory.read?`, `Directory.create?`, `Directory.append` — what can be done
  with the file at a path.
-/

namespace KernelDispatch

/-- What a path leads to. -/
inductive Place where
  /-- A file of the directory, whether it is there or not. -/
  | file (name : String)
  /-- The device that takes all bytes, keeps none and reads as empty. -/
  | nullDevice
deriving DecidableEq

/-- The files of one directory. -/
structure Directory where
  path : String
  files : NameMap ByteArray := .empty

namespace Directory

/-- The place that a path leads to, if it can be opened as a file. -/
def locate? (d : Directory) (path : String) : Option Place :=
  let home := if d.path.toList.getLast? == some '/' then d.path else d.path ++ "/"
  if Text.Path.longestPath < path.utf8ByteSize then none
  else if Text.Path.isNullDevice path then some .nullDevice
  else if home.toList.isPrefixOf path.toList then
    (Text.Path.fileName? (String.ofList (path.toList.drop home.length))).map .file
  else none

/-- The content of the file at a path. -/
def read? (d : Directory) (path : String) : Option ByteArray :=
  match d.locate? path with
  | some (.file name) => d.files.get? name
  | some .nullDevice => some ByteArray.empty
  | none => none

/-- The directory with a file at a path: an empty one, unless it is there. -/
def create? (d : Directory) (path : String) : Option Directory :=
  match d.locate? path with
  | some (.file name) =>
      if d.files.contains name then some d
      else some { d with files := d.files.insert name ByteArray.empty }
  | some .nullDevice => some d
  | none => none

/-- The directory with bytes added at the end of the file at a path. -/
def append (d : Directory) (path : String) (bytes : ByteArray) : Directory :=
  match d.locate? path with
  | some (.file name) =>
      let held := (d.files.get? name).getD ByteArray.empty
      { d with files := d.files.insert name (held ++ bytes) }
  | _ => d

end Directory

end KernelDispatch
