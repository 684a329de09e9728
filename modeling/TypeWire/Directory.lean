import TypeWire.Json
import TypeWire.Text.Quoted

/-!
# Files

The files of one directory, by their paths from there. A file can be written wherever its parent is a
directory that is there already; what is written replaces the text of the file.
-/

namespace TypeWire

/-- Why a file cannot be read or written. -/
inductive FileError where
  | missing (path : String)
  | isDirectory (path : String)
  /-- Any other reason, in the words of the system. -/
  | other (message : String)
deriving DecidableEq, Repr

/-- The wording of a file error. -/
def FileError.message : FileError → String
  | .missing path => "[Errno 2] No such file or directory: " ++ Text.quoted path
  | .isDirectory path => "[Errno 21] Is a directory: " ++ Text.quoted path
  | .other message => message

/-- A directory: the texts of the files in it, each under the names on its path. -/
structure Directory where
  files : List (List String × String) := []
deriving Inhabited

namespace Directory

/-- The names on a path; a dot stands for the directory itself. -/
def names (path : String) : List String :=
  (path.splitOn "/").filter fun name => name ≠ "" && name ≠ "."

/-- The directory with these files. -/
def ofList (files : List (String × String)) : Directory :=
  ⟨files.map fun (path, text) => (names path, text)⟩

/-- Whether a list of names leads to a directory. -/
def hasDirectory (d : Directory) (path : List String) : Bool :=
  path.isEmpty || d.files.any fun (file, _) => path.isPrefixOf file && path.length < file.length

/-- Reads a file. -/
def read (d : Directory) (path : String) : Except FileError String :=
  if path = "" || path.startsWith "/" then .error (.missing path)
  else if d.hasDirectory (names path) then .error (.isDirectory path)
  else
    match d.files.lookup (names path) with
    | some text => if path.endsWith "/" then .error (.missing path) else .ok text
    | none => .error (.missing path)

/-- Writes a file. -/
def write (d : Directory) (path text : String) : Except FileError Directory :=
  if path = "" || path.startsWith "/" || !d.hasDirectory (names path).dropLast then
    .error (.missing path)
  else if path.endsWith "/" || d.hasDirectory (names path) then .error (.isDirectory path)
  else .ok ⟨putEntry (names path) text d.files⟩

end Directory

end TypeWire
