import Jukebox.Store.Rows

/-!
# Direct edits

Changes of single rows that pass by all operations and all references between tables, as
somebody makes them who opens the tables by hand. Each tells how many rows it changed.
-/

namespace Jukebox

/-- A column of a stored entry that can be edited, with its new value. -/
inductive EntryEdit
  | previous (id : Option EntryId)
  | next (id : Option EntryId)
  | track (id : TrackId)
  | played (value : Bool)
  deriving DecidableEq

inductive TableEdit
  | rotator (room : RoomId) (text : String)
  | kind (room : RoomId) (text : String)
  | pointer (queue : QueueId) (entry : Option EntryId)
  | entry (id : EntryId) (edit : EntryEdit)
  | track (id : TrackId) (text : String)
  | deleteTrack (id : TrackId)
  | deleteUser (id : UserId)
  | deleteEntry (id : EntryId)
  deriving DecidableEq

namespace EntryEdit

def apply (edit : EntryEdit) (entry : QueueEntry) : QueueEntry :=
  match edit with
  | previous id => { entry with previous := id }
  | next id => { entry with next := id }
  | track id => { entry with track := id }
  | played value => { entry with played := value }

end EntryEdit

namespace Tables

/-- The tables after an edit, and the number of rows that it changed. -/
def edit (t : Tables) : TableEdit → Tables × Nat
  | .rotator room text =>
    (t.updateRoom room fun row => { row with rotator := text },
      (t.rooms.filter fun row => row.id = room).length)
  | .kind room text =>
    (t.updateRoom room fun row => { row with kind := text },
      (t.rooms.filter fun row => row.id = room).length)
  | .pointer queue entry =>
    (t.updateQueue queue fun row => { row with pointer := entry },
      (t.queues.filter fun row => row.queue = queue).length)
  | .entry id change =>
    (t.updateEntry id change.apply, (t.entries.filter fun row => row.entry.id = id).length)
  | .track id text =>
    ({ t with tracks := t.tracks.map fun row => if row.id = id then ⟨id, text⟩ else row },
      (t.tracks.filter fun row => row.id = id).length)
  | .deleteTrack id =>
    ({ t with tracks := t.tracks.filter fun row => row.id ≠ id },
      (t.tracks.filter fun row => row.id = id).length)
  | .deleteUser id =>
    ({ t with users := t.users.filter fun user => user.id ≠ id },
      (t.users.filter fun user => user.id = id).length)
  | .deleteEntry id =>
    (t.deleteEntry id, (t.entries.filter fun row => row.entry.id = id).length)

/-- The stored rotator of a room, as a text. -/
def rotatorText? (t : Tables) (room : RoomId) : Option String :=
  (t.room? room).map RoomRow.rotator

end Tables
end Jukebox
