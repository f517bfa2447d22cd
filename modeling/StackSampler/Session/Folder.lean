import Std.Data.ExtTreeMap
import StackSampler.Session.Failure
import StackSampler.Text.Utf8

/-!
# Output folders

Where the outputs of sessions are created: a folder with files and no folders in it.
-/

namespace StackSampler

/-- A folder and the files in it. -/
structure Folder where
  path : String
  files : Std.ExtTreeMap String (List UInt8) := ∅

namespace Folder

/-- The parts of a path that name something. -/
def parts (path : String) : List String :=
  (path.splitOn "/").filter fun part => part != "" && part != "."

/-- Where a path leads. -/
inductive Place where
  /-- A file of this name in the folder. -/
  | inside (name : String)
  /-- A file somewhere else. -/
  | elsewhere
  /-- No file can be created there. -/
  | nowhere (cause : String)
deriving DecidableEq, Repr

/-- The most bytes that a name may have. -/
def nameLimit : Nat := 255

/-- Where a path leads whose parts below a folder are given. -/
def below (folder : Folder) (path : String) : List String → Place
  | [] => .nowhere isADirectory
  | [name] =>
      if path.endsWith "/" || path.endsWith "/." || name == ".." then .nowhere isADirectory
      else if nameLimit < (Text.utf8 name).length then .nowhere "File name too long (os error 36)"
      else .inside name
  | first :: _ =>
      if folder.files.contains first then .nowhere "Not a directory (os error 20)"
      else .nowhere noSuchFile

/-- Where a path leads. -/
def place (folder : Folder) (path : String) : Place :=
  let own := parts folder.path
  let given := parts path
  if path.contains '\x00' then .nowhere "file name contained an unexpected NUL byte"
  else if path.startsWith "/" && own.isPrefixOf given then
    folder.below path (given.drop own.length)
  else
    match given, path.startsWith "/" with
    | [_], false => .elsewhere
    | _, _ => .nowhere noSuchFile

/-- Creates an output at a path, or tells why that is impossible. -/
def createOutput (folder : Folder) (path : String) : Except String Stream.Output :=
  match folder.place path with
  | .nowhere cause => .error cause
  | _ => .ok {}

/-- Puts a file into the folder. -/
def put (folder : Folder) (name : String) (content : List UInt8) : Folder :=
  { folder with files := folder.files.insert name content }

/-- Puts a file into the folder if its path leads there. -/
def putAt (folder : Folder) (path : String) (content : List UInt8) : Folder :=
  match folder.place path with
  | .inside name => folder.put name content
  | _ => folder

end Folder

end StackSampler
