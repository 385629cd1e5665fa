import Jukebox.Store.Action
import Jukebox.Store.Disk
import Jukebox.Store.Location

/-!
# Sessions

A session uses a database on a disk. It begins by clearing up what others left behind, and
makes the tables where there are none. Changes go to a log, if there can be one, and reach the
file of the database when the session ends, unless somebody still looks at it.

What a session has done before it fails to begin stays done.
-/

namespace Jukebox

/-- How the index of a log is kept. -/
inductive Index
  /-- In memory, where a single process has the database for itself. -/
  | inMemory
  | inFile
  /-- In a file that must not be changed, and neither must the log. -/
  | readOnly
  deriving DecidableEq

structure Session where
  path : FilePath
  /-- Whether the file of the database may only be read. -/
  readOnly : Bool
  /-- The log that changes go to, by its index. -/
  log : Option Index
  /-- The tables at the beginning. -/
  tables : Tables
  deriving DecidableEq

namespace Session

open Jukebox.Action

/-- Whether nothing can be changed. -/
def frozen (session : Session) : Bool :=
  session.readOnly || session.log = some .readOnly

/-!
## Beginning
-/

/-- The file at a place, which is made if that is wanted and there is none. -/
def openFile (place : Place) : Action Disk FilePath := do
  let disk ← get
  let path ← require .internal (disk.findOnPaper? place.path)
  check .internal (place.pattern.all fun pattern => (disk.find? pattern).isSome)
  match disk.content? path with
  | some content => check .internal !content.isDevice
  | none =>
    check .internal (place.access = .create && disk.admits path)
    modify (Disk.put path .empty)
  return path

/-- Removes the journal of a change that was not completed. Beside a blank file it belongs to
nothing; still it takes a lock to remove it, and locks of the system are for those who may
write. Who has made a lock file takes every journal for one of a change that goes on.
-/
def clearJournal (place : Place) (path : FilePath) : Action Disk Unit := do
  let disk ← get
  if place.locking = .lockFile || disk.isEmpty path.journal then return
  if disk.isBlank path then
    if place.readOnly && place.locking.allowsLog then return
  else check .internal !place.readOnly
  modify (Disk.erase path.journal)

/-- Begins to use the log. An index that may only be read has to be there, for a log that is
one. -/
def openLog (place : Place) (path : FilePath) : Action Disk Index := do
  check .internal place.locking.allowsLog
  let disk ← get
  if !disk.isFile path.log then modify (Disk.put path.log .empty)
  if place.locking = .exclusive && !place.readOnly then return .inMemory
  if place.indexReadOnly then
    check .internal (disk.isFile path.index)
    check .internal (disk.isEmpty path.log || (disk.logTables? path).isSome)
    return .readOnly
  modify (Disk.put path.index .index)
  return .inFile

/-- Finds the log that is in use. A log beside a blank file belongs to nothing. -/
def findLog (place : Place) (path : FilePath) : Action Disk (Option Index) := do
  let disk ← get
  if disk.isEmpty path.log then
    if (disk.image? path).any Image.logged then some <$> openLog place path else return none
  else if disk.isBlank path then
    modify (Disk.erase path.log)
    return none
  else some <$> openLog place path

/-- Makes a database use a log. This change itself takes a journal. -/
def beginLog (place : Place) (path : FilePath) (image : Image) : Action Disk Index := do
  check .internal (!place.readOnly && path.journal.isNameable)
  modify (Disk.erase path.journal)
  modify (Disk.put path (.database { image with logged := true }))
  openLog place path

/-- Removes a log that is not needed any more. -/
def removeLog (path : FilePath) (index : Index) (disk : Disk) : Disk :=
  let disk := disk.erase path.log
  if index = .inFile then disk.erase path.index else disk

/-- Writes tables to where changes go. -/
def keep (session : Session) (tables : Tables) (disk : Disk) : Disk :=
  match session.log with
  | some _ => disk.put session.path.log (.log tables)
  | none => (disk.erase session.path.journal).put session.path (.database ⟨false, some tables⟩)

/-- Makes the tables of a session, unless there are some. -/
def makeTables (session : Session) : Action Disk Session := do
  match (← get).tables? session.path with
  | some tables => return { session with tables := tables }
  | none =>
    check .internal
      (!session.frozen && (session.log.isSome || session.path.journal.isNameable))
    modify (session.keep session.tables)
    return session

/-- Begins a session with a file that can change. Neither it nor its log may be something
else. -/
def openMutable (place : Place) (path : FilePath) : Action Disk Session := do
  check .internal (place.locking ≠ .lockFile || !(← get).has path.lock)
  clearJournal place path
  let log ← findLog place path
  let disk ← get
  match log, disk.image? path with
  | none, none => throw .internal
  | none, some image =>
    let log ← if place.locking.allowsLog then some <$> beginLog place path image else pure none
    makeTables ⟨path, place.readOnly, log, .empty⟩
  | some index, image =>
    if image.isNone && (disk.logTables? path).isNone then
      if !place.readOnly && index ≠ .readOnly then modify (removeLog path index)
      throw .internal
    makeTables ⟨path, place.readOnly, log, .empty⟩

/-- Begins a session with a file that is said never to change: all that counts is what it
holds. -/
def openImmutable (path : FilePath) : Action Disk Session := do
  let image ← require .internal ((← get).image? path)
  let tables ← require .internal image.tables
  return ⟨path, true, none, tables⟩

/-- Begins a session. -/
def start (place : Place) : Action Disk Session := do
  let path ← openFile place
  if place.immutable then openImmutable path else openMutable place path

/-!
## Ending
-/

/-- Ends a session that leaves tables behind. Somebody who still looks at the log keeps it
there. -/
def finish (session : Session) (tables : Tables) (watched : Bool) (disk : Disk) : Disk :=
  let disk := if tables = session.tables then disk else session.keep tables disk
  match session.log with
  | some index =>
    if watched || session.frozen then disk
    else removeLog session.path index (disk.settle session.path tables)
  | none => disk

end Session
end Jukebox
