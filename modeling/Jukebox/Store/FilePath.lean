import Jukebox.Text.Bytes

/-!
# Places of files

A file or a directory is found by the names on the way to it from the root. Some files belong
to another one: they lie beside it, and their names go on where its name ends.
-/

namespace Jukebox

open Text

/-- The name of a file or of a directory. -/
abbrev FileName := List UInt8

structure FilePath where
  names : List FileName
  deriving DecidableEq

namespace FilePath

/-- How many bytes a name can have. -/
def maxName : Nat :=
  255

/-- The name for the directory that contains it. -/
def stay : FileName :=
  bytes "."

/-- The name for the directory above the one that contains it. -/
def up : FileName :=
  bytes ".."

def root : FilePath :=
  ⟨[]⟩

/-- The directory around; the root is its own. -/
def parent (path : FilePath) : FilePath :=
  ⟨path.names.dropLast⟩

def child (path : FilePath) (name : FileName) : FilePath :=
  ⟨path.names ++ [name]⟩

/-- Where a name leads from a directory. -/
def step (path : FilePath) (name : FileName) : FilePath :=
  if name.isEmpty || name = stay then path
  else if name = up then path.parent
  else path.child name

/-- Whether a path starts at the root. -/
def isAbsolute (path : List UInt8) : Bool :=
  path.head? = some (byte '/')

/-- How many bytes a path takes, with a slash in front of each name. -/
def size (path : FilePath) : Nat :=
  path.names.foldl (fun size name => size + name.length + 1) 0

/-- The place that a path leads to from the root. -/
def ofText (path : String) : FilePath :=
  (pieces (byte '/') (bytes path)).foldl step root

/-- The path as a text, if all of its names are texts. -/
def text? (path : FilePath) : Option String :=
  if path.names.isEmpty then some "/"
  else String.fromUTF8? ⟨(path.names.flatMap fun name => byte '/' :: name).toArray⟩

/-- Whether there can be a file of this name. -/
def isNameable (path : FilePath) : Bool :=
  path.names.all fun name => name.length ≤ maxName

/-!
## Files beside a database
-/

/-- The file whose name goes on with a suffix. -/
def beside (path : FilePath) (suffix : String) : FilePath :=
  match path.names.getLast? with
  | some name => path.parent.child (name ++ bytes suffix)
  | none => path

/-- Where the state before a change is kept while the database itself is changed. -/
def journal (path : FilePath) : FilePath :=
  path.beside "-journal"

/-- Where changes are collected before they reach the database. -/
def log (path : FilePath) : FilePath :=
  path.beside "-wal"

/-- Where the content of the log is listed. -/
def index (path : FilePath) : FilePath :=
  path.beside "-shm"

/-- What shows that somebody uses the database. -/
def lock (path : FilePath) : FilePath :=
  path.beside ".lock"

/-- All the files that may belong to a database. -/
def family (path : FilePath) : List FilePath :=
  [path, path.journal, path.log, path.index, path.lock]

end FilePath
end Jukebox
