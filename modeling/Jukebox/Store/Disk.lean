import Jukebox.Store.FilePath
import Jukebox.Store.Rows

/-!
# Disks

A disk holds directories and files. A path can be followed in two ways: step by step through
directories that are there, or on paper, where a step up takes back the step before it.

A database lies in one file, or in two: its log then has the latest tables.
-/

namespace Jukebox

open Text

/-- A database as it lies in its own file. -/
structure Image where
  /-- Whether changes go to a log. -/
  logged : Bool
  /-- The tables, if they were made. -/
  tables : Option Tables
  deriving DecidableEq

/-- What a file holds. -/
inductive Content
  | bytes (content : ByteArray)
  /-- The file of a database. -/
  | database (image : Image)
  /-- The log of a database, with the tables after the last change. -/
  | log (tables : Tables)
  /-- The index of a log. -/
  | index
  /-- No file of its own, but a way to something else. -/
  | device

namespace Content

def empty : Content :=
  bytes .empty

def isEmpty : Content → Bool
  | bytes content => content.size = 0
  | _ => false

/-- Whether a database could still be put there. A single byte is as good as none. -/
def isBlank : Content → Bool
  | bytes content => content.size ≤ 1
  | _ => false

/-- The database that a content is. A blank one is a database without tables. -/
def image? : Content → Option Image
  | database image => some image
  | content => if content.isBlank then some ⟨false, none⟩ else none

def isDevice : Content → Bool
  | device => true
  | _ => false

/-- Whether two contents are the same, byte by byte. -/
def same : Content → Content → Bool
  | bytes content, bytes other => content.data == other.data
  | database image, database other => image = other
  | log tables, log other => tables = other
  | index, index => true
  | device, device => true
  | _, _ => false

def logTables? : Content → Option Tables
  | log tables => some tables
  | _ => none

end Content

structure Disk where
  /-- The directory that paths start from, unless they start at the root. -/
  here : FilePath
  directories : List FilePath
  files : List (FilePath × Content)

namespace Disk

/-!
## Files and directories
-/

def isDirectory (disk : Disk) (path : FilePath) : Bool :=
  disk.directories.contains path

/-- What a file holds, if it is there. -/
def content? (disk : Disk) (path : FilePath) : Option Content :=
  disk.files.lookup path

/-- Whether two disks have the same file at a path, or none. -/
def agreesAt (disk other : Disk) (path : FilePath) : Bool :=
  match disk.content? path, other.content? path with
  | some content, some otherContent => content.same otherContent
  | none, none => true
  | _, _ => false

def isFile (disk : Disk) (path : FilePath) : Bool :=
  (disk.content? path).isSome

/-- Whether there is a file or a directory. -/
def has (disk : Disk) (path : FilePath) : Bool :=
  disk.isFile path || disk.isDirectory path

/-- Whether a file can be made at a path. -/
def admits (disk : Disk) (path : FilePath) : Bool :=
  disk.isDirectory path.parent && !disk.isDirectory path && path.isNameable

def erase (path : FilePath) (disk : Disk) : Disk :=
  { disk with files := disk.files.filter fun file => file.1 ≠ path }

/-- Makes a file, or replaces what it holds. -/
def put (path : FilePath) (content : Content) (disk : Disk) : Disk :=
  { disk with files := (path, content) :: (disk.erase path).files }

/-!
## Following paths
-/

/-- How many bytes a path can have. -/
def maxPath : Nat :=
  4095

/-- How many bytes the place can have that a path leads to on paper. -/
def maxPlace : Nat :=
  512

/-- How many bytes the name of the longest file beside a database is longer. -/
def maxSuffix : Nat :=
  8

/-- Where a path starts. -/
def start (disk : Disk) (path : List UInt8) : FilePath :=
  if FilePath.isAbsolute path then .root else disk.here

/-- The places that a path comes by on paper. -/
def route (disk : Disk) (path : List UInt8) : List FilePath :=
  let start := disk.start path
  (pieces (byte '/') path).foldl
    (fun places name => places ++ [(places.getLast?.getD start).step name]) [start]

/-- One step from a directory that has to be there. -/
def step? (disk : Disk) (place : FilePath) (name : FileName) : Option FilePath :=
  if disk.isDirectory place && name.length ≤ FilePath.maxName then some (place.step name)
    else none

/-- Where a path leads, if there is something. -/
def find? (disk : Disk) (path : List UInt8) : Option FilePath :=
  if path.isEmpty || maxPath < path.length then none
  else ((pieces (byte '/') path).foldlM disk.step? (disk.start path)).filter disk.has

/-- The bytes of a file; those of a database are nobody's concern. -/
def read? (disk : Disk) (path : List UInt8) : Option ByteArray :=
  match (disk.find? path).bind disk.content? with
  | some (.bytes content) => some content
  | some .device => some .empty
  | _ => none

/-- Whether a step down is seen to go wrong even on paper. -/
def isWrong (disk : Disk) (place : FilePath) (name : FileName) : Bool :=
  disk.isFile place || disk.isDirectory place && FilePath.maxName < name.length ||
    maxPlace < (place.child name).size + 1

/-- One step on paper. -/
def stepOnPaper? (disk : Disk) (place : FilePath) (name : FileName) : Option FilePath :=
  let next := place.step name
  if place.size < next.size && disk.isWrong place name then none else some next

/-- Where a database is that has a path. There has to be room for the names of files beside
it. -/
def findOnPaper? (disk : Disk) (path : List UInt8) : Option FilePath :=
  ((pieces (byte '/') path).foldlM disk.stepOnPaper? (disk.start path)).filter fun place =>
    place ≠ .root && place.size + maxSuffix ≤ maxPlace

/-!
## Databases
-/

/-- Whether a file is missing or empty. -/
def isEmpty (disk : Disk) (path : FilePath) : Bool :=
  (disk.content? path).all Content.isEmpty

/-- Whether a file is missing or blank. -/
def isBlank (disk : Disk) (path : FilePath) : Bool :=
  (disk.content? path).all Content.isBlank

/-- The database in a file, apart from its log. -/
def image? (disk : Disk) (path : FilePath) : Option Image :=
  (disk.content? path).bind Content.image?

/-- The latest tables in the log of a database. -/
def logTables? (disk : Disk) (path : FilePath) : Option Tables :=
  (disk.content? path.log).bind Content.logTables?

/-- The latest tables of a database. -/
def tables? (disk : Disk) (path : FilePath) : Option Tables :=
  (disk.logTables? path).or ((disk.image? path).bind Image.tables)

/-- Puts tables into the file of a database. A log that was all there was is still to be
used. -/
def settle (path : FilePath) (tables : Tables) (disk : Disk) : Disk :=
  let logged := (disk.image? path).all Image.logged
  disk.put path (.database ⟨logged, some tables⟩)

/-- Replaces the tables of a database from outside, which leaves nothing to its log. -/
def replace (path : FilePath) (tables : Tables) (disk : Disk) : Disk :=
  ((disk.settle path tables).erase path.log).erase path.index

end Disk
end Jukebox
