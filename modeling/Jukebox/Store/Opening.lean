import Jukebox.Store.Database
import Jukebox.Store.Session

/-!
# Opening a database

First the writer opens the database and makes its tables where there are none, then the readers
open it, who are entitled to read only. All of them open the same text, but each finds its own
location.
-/

namespace Jukebox

/-- A database that is open. -/
structure Opening where
  database : Database
  /-- The session that keeps the tables, unless they are in memory. -/
  session : Option Session
  /-- Whether readers who have looked at the log leave it behind. -/
  readersLeaveLog : Bool

namespace Opening

open Jukebox.Action

/-- Opens the readers of a file that a session of the writer keeps, and says whether they leave
its log behind. They go last, and only who may write can remove it. Readers who share what the
writer has read open nothing themselves.
-/
def admitReaders (text : String) : Action Disk Bool := do
  match ← require .internal (Location.ofText? .readOnly text) with
  | .memory _ _ => return false
  | .file place =>
    if place.shared then return false
    let _ ← Session.openFile place
    return place.readOnly

/-- Opens tables in memory. Readers see them if they are shared. -/
def inMemory (text : String) (shared writable : Bool) : Action Disk Opening := do
  check .internal (writable && (Location.ofText? .readOnly text).isSome)
  return ⟨{ Database.empty with readersOpen := shared }, none, false⟩

/-- Opens tables in a file. Where the readers fail, what the log holds is left to others. -/
def inFile (text : String) (place : Place) : Action Disk Opening := do
  let session ← Session.start place
  let readersLeaveLog ← tryCatch (admitReaders text) fun error => do
    modify fun disk => session.finish session.tables (disk.logTables? session.path).isSome disk
    throw error
  return ⟨{ Database.opened session.tables with frozen := session.frozen }, some session,
    readersLeaveLog⟩

/-- Opens the database that a text names. -/
def ofText (text : String) : Action Disk Opening := do
  match ← require .internal (Location.ofText? .create text) with
  | .memory shared writable => inMemory text shared writable
  | .file place => inFile text place

/-- Closes a database, after its tables may have changed. -/
def close (opening : Opening) (tables : Tables) (readersAsked : Bool) (disk : Disk) : Disk :=
  match opening.session with
  | some session => session.finish tables (readersAsked && opening.readersLeaveLog) disk
  | none => disk

end Opening
end Jukebox
