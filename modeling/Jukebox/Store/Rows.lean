import Jukebox.History
import Jukebox.Queue.Entry
import Jukebox.Room

/-!
# Stored rows

A store of rows keeps rooms, users, tracks, queues, queue entries and histories in one table
each. Rows stand in the order in which they were inserted. Rotators and tracks are stored as
texts, which may have been changed from outside.
-/

namespace Jukebox

structure RoomRow where
  id : RoomId
  displayName : String
  normalizedName : String
  /-- The kind of the rotator, as a text. -/
  kind : String
  /-- The state of the rotator, as a text. -/
  rotator : String
  deriving DecidableEq

structure TrackRow where
  id : TrackId
  /-- The description of the track, as a text. -/
  track : String
  deriving DecidableEq

structure QueueRow where
  queue : QueueId
  /-- How many members had joined the room before. -/
  joinOrder : Nat
  /-- The entry that is served next. -/
  pointer : Option EntryId
  deriving DecidableEq

structure EntryRow where
  queue : QueueId
  entry : QueueEntry
  deriving DecidableEq

structure HistoryRow where
  /-- Rows are numbered in the order in which tracks were served, in all rooms together. -/
  number : Nat
  room : RoomId
  user : UserId
  track : TrackId
  vetoed : Bool
  vetoedBy : Option UserId
  playedAt : Timestamp
  deriving DecidableEq

structure Tables where
  rooms : List RoomRow
  users : List User
  tracks : List TrackRow
  queues : List QueueRow
  entries : List EntryRow
  history : List HistoryRow
  deriving DecidableEq

namespace Tables

def empty : Tables :=
  ⟨[], [], [], [], [], []⟩

/-!
## Selecting rows
-/

def room? (t : Tables) (id : RoomId) : Option RoomRow :=
  t.rooms.find? fun row => row.id = id

def user? (t : Tables) (id : UserId) : Option User :=
  t.users.find? fun user => user.id = id

def track? (t : Tables) (id : TrackId) : Option TrackRow :=
  t.tracks.find? fun row => row.id = id

def queue? (t : Tables) (id : QueueId) : Option QueueRow :=
  t.queues.find? fun row => row.queue = id

/-- The queues of a room in join order. -/
def queuesOf (t : Tables) (room : RoomId) : List QueueRow :=
  (t.queues.filter fun row => row.queue.room = room).mergeSort fun a b =>
    decide (a.joinOrder ≤ b.joinOrder)

/-- The queues of a room with their members; a queue whose user is gone is left out. -/
def membersOf (t : Tables) (room : RoomId) : List (QueueRow × User) :=
  (t.queuesOf room).filterMap fun row => (t.user? row.queue.user).map fun user => (row, user)

def entriesOf (t : Tables) (queue : QueueId) : List EntryRow :=
  t.entries.filter fun row => row.queue = queue

def entryOf? (t : Tables) (queue : QueueId) (id : EntryId) : Option QueueEntry :=
  (t.entries.find? fun row => row.entry.id = id ∧ row.queue = queue).map EntryRow.entry

/-- The entry of a queue that has no predecessor. -/
def head? (t : Tables) (queue : QueueId) : Option EntryId :=
  ((t.entriesOf queue).find? fun row => row.entry.previous = none).map fun row => row.entry.id

/-- The history of a room with the tracks; a row whose track is gone is left out. -/
def historyOf (t : Tables) (room : RoomId) : List (HistoryRow × TrackRow) :=
  (t.history.filter fun row => row.room = room).filterMap fun row =>
    (t.track? row.track).map fun track => (row, track)

/-!
## Changing rows
-/

def insertRoom (row : RoomRow) (t : Tables) : Tables :=
  { t with rooms := t.rooms ++ [row] }

def insertUser (user : User) (t : Tables) : Tables :=
  { t with users := t.users ++ [user] }

def insertQueue (row : QueueRow) (t : Tables) : Tables :=
  { t with queues := t.queues ++ [row] }

def insertEntry (row : EntryRow) (t : Tables) : Tables :=
  { t with entries := t.entries ++ [row] }

def insertHistory (row : HistoryRow) (t : Tables) : Tables :=
  { t with history := t.history ++ [row] }

/-- Stores a track, in place of an older description if there is one. -/
def upsertTrack (row : TrackRow) (t : Tables) : Tables :=
  if (t.track? row.id).isSome then
    { t with tracks := t.tracks.map fun other => if other.id = row.id then row else other }
  else { t with tracks := t.tracks ++ [row] }

def updateRoom (id : RoomId) (change : RoomRow → RoomRow) (t : Tables) : Tables :=
  { t with rooms := t.rooms.map fun row => if row.id = id then change row else row }

def updateQueue (id : QueueId) (change : QueueRow → QueueRow) (t : Tables) : Tables :=
  { t with queues := t.queues.map fun row => if row.queue = id then change row else row }

/-- Changes an entry, whichever queue it is in. -/
def updateEntry (id : EntryId) (change : QueueEntry → QueueEntry) (t : Tables) : Tables :=
  { t with
    entries := t.entries.map fun row =>
      if row.entry.id = id then { row with entry := change row.entry } else row }

def updateHistory (number : Nat) (change : HistoryRow → HistoryRow) (t : Tables) : Tables :=
  { t with history := t.history.map fun row => if row.number = number then change row
    else row }

def deleteEntry (id : EntryId) (t : Tables) : Tables :=
  { t with entries := t.entries.filter fun row => row.entry.id ≠ id }

end Tables
end Jukebox
