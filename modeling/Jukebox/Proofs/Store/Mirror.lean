import Mathlib.Data.List.Range
import Jukebox.Proofs.Json.Track
import Jukebox.Proofs.Memory.Invariants
import Jukebox.Proofs.Rotation.Encoding
import Jukebox.Proofs.Tables.EntryJobs

/-!
# Tables that mirror a memory

Tables mirror a memory if they record the same users, rooms, tracks, queues and histories:
rotators and tracks by their texts, queues by their entries and pointers, members by the order
in which they joined. What was served is recorded without the description of the track, so both
stores need not agree on old descriptions. From mirroring tables every look-up finds what the
memory holds, save for lengths of tracks that cannot be stored.
-/

namespace Jukebox

/-- What is recorded of a served track besides its description. -/
structure Play where
  user : UserId
  track : TrackId
  vetoed : Bool
  vetoedBy : Option UserId
  playedAt : Timestamp

namespace Play

def entry (play : Play) (track : Track) : TrackEntry :=
  ⟨play.user, track, play.vetoed, play.vetoedBy, play.playedAt⟩

end Play

def QueueTrack.mapTrack (shown : Track → Track) (queued : QueueTrack) : QueueTrack :=
  { queued with track := shown queued.track }

def TrackEntry.mapTrack (shown : Track → Track) (entry : TrackEntry) : TrackEntry :=
  { entry with track := shown entry.track }

abbrev QueueTrack.stored : QueueTrack → QueueTrack :=
  QueueTrack.mapTrack Track.stored

abbrev TrackEntry.stored : TrackEntry → TrackEntry :=
  TrackEntry.mapTrack Track.stored

def TrackEntry.play (entry : TrackEntry) : Play :=
  ⟨entry.user, entry.track.id, entry.vetoed, entry.vetoedBy, entry.playedAt⟩

def HistoryRow.play (row : HistoryRow) : Play :=
  ⟨row.user, row.track, row.vetoed, row.vetoedBy, row.playedAt⟩

def RoomState.row (state : RoomState) : RoomRow :=
  ⟨state.room.id, state.room.displayName, normalizeName state.room.displayName,
    state.room.rotator.key, state.rotator.encode⟩

def QueueRow.named (row : QueueRow) : QueueId × Option EntryId :=
  (row.queue, row.pointer)

namespace Memory

def pointers (m : Memory) : List (QueueId × Option EntryId) :=
  m.queues.map fun named => (named.1, named.2.pointer)

def historyOf (m : Memory) (room : RoomId) : List TrackEntry :=
  ((m.room? room).map RoomState.history).getD []

theorem historyOf_eq {m : Memory} {room : RoomId} {state : RoomState}
    (hroom : m.room? room = some state) : m.historyOf room = state.history := by
  rw [historyOf, hroom]
  rfl

theorem historyOf_none {m : Memory} {room : RoomId} (hroom : m.room? room = none) :
    m.historyOf room = [] := by
  rw [historyOf, hroom]
  rfl

/-- A history entry with its track as it was described last and is read back. -/
def redescribe (m : Memory) (entry : TrackEntry) : TrackEntry :=
  { entry with track := ((m.track? entry.track.id).getD entry.track).stored }

end Memory

namespace Tables

def positions (rows : List QueueRow) (room : RoomId) : List Nat :=
  (rows.filter fun row => row.queue.room = room).map QueueRow.joinOrder

end Tables

open Tables

structure Mirrors (m : Memory) (t : Tables) : Prop where
  users : t.users = m.users
  rooms : t.rooms = m.rooms.map RoomState.row
  tracks : ∀ name, t.track? name = (m.track? name).map Track.row
  pointers : t.queues.map QueueRow.named = m.pointers
  positions : ∀ room, Tables.positions t.queues room = List.range (m.owners room).length
  entries : Linked m.queues t.entries
  numbers : t.history.map HistoryRow.number = (List.range t.history.length).map (· + 1)
  plays : ∀ room, (t.history.filter fun row => row.room = room).map HistoryRow.play =
    (m.historyOf room).map TrackEntry.play

theorem mirrors_empty : Mirrors Memory.empty Tables.empty where
  users := rfl
  rooms := rfl
  tracks := fun _ => rfl
  pointers := rfl
  positions := fun _ => rfl
  entries := linked_nil
  numbers := rfl
  plays := fun _ => rfl

namespace Mirrors

variable {m : Memory} {t : Tables} {room : RoomId} {state : RoomState} {id : QueueId}
    {queue : Queue}

/-!
## Rooms and users
-/

theorem room?_eq (h : Mirrors m t) (room : RoomId) :
    t.room? room = (m.room? room).map RoomState.row := by
  rw [Tables.room?, h.rooms, List.find?_map]
  rfl

theorem user?_eq (h : Mirrors m t) (name : UserId) : t.user? name = m.user? name := by
  rw [Tables.user?, h.users, Memory.user?]

theorem ofText?_key (kind : RotatorKind) : RotatorKind.ofText? kind.key = some kind := by
  cases kind <;> decide +kernel

theorem readRoom_row (state : RoomState) : readRoom state.row = .ok state.room := by
  rw [readRoom, RoomState.row, ofText?_key]

theorem readTrack_row (track : Track) : readTrack track.row = .ok track.stored := by
  rw [readTrack, Track.row, Track.decode?_encode]

theorem run_fetchRoom (h : Mirrors m t) (hroom : m.room? room = some state) :
    (fetchRoom room).run t = (.ok state.room, t) := by
  simp [fetchRoom, h.room?_eq, hroom, readRoom_row]

theorem run_fetchRoom_none (h : Mirrors m t) (hroom : m.room? room = none) :
    (fetchRoom room).run t = (.error (.notFound (.room room)), t) := by
  simp [fetchRoom, h.room?_eq, hroom]

theorem run_loadRotator (h : Mirrors m t) (hroom : m.room? room = some state) :
    (loadRotator room).run t = (.ok state.rotator, t) := by
  have hdecode : Rotator.decode state.row.rotator = .ok state.rotator :=
    state.rotator.decode_encode
  simp [loadRotator, h.room?_eq, hroom, hdecode, Except.mapError]

theorem run_loadRotator_none (h : Mirrors m t) (hroom : m.room? room = none) :
    (loadRotator room).run t = (.error (.notFound (.room room)), t) := by
  simp [loadRotator, h.room?_eq, hroom]

/-!
## Queues
-/

theorem queue?_eq (h : Mirrors m t) (id : QueueId) :
    (t.queue? id).map QueueRow.named = (m.queue? id).map fun queue => (id, queue.pointer) := by
  have hrows : (t.queues.find? fun row => row.queue = id).map QueueRow.named =
      (t.queues.map QueueRow.named).find? fun named => named.1 = id := by
    rw [List.find?_map]
    rfl
  rw [Tables.queue?, hrows, h.pointers, Memory.pointers, List.find?_map, Memory.queue?,
    Option.map_map]
  apply Option.map_congr
  intro named hnamed
  have hid : named.1 = id := (Keyed.mem_of_find? hnamed).2
  rw [← hid]
  rfl

theorem queue?_isSome (h : Mirrors m t) (id : QueueId) :
    (t.queue? id).isSome = (m.queue? id).isSome := by
  rw [← Option.isSome_map (f := QueueRow.named), h.queue?_eq, Option.isSome_map]

theorem pointer_eq (h : Mirrors m t) (hqueue : m.queue? id = some queue) :
    (t.queue? id).map QueueRow.pointer = some queue.pointer := by
  have hrow := congrArg (Option.map Prod.snd) (h.queue?_eq id)
  rw [hqueue, Option.map_map] at hrow
  exact hrow

theorem run_fetchPointer (h : Mirrors m t) (hqueue : m.queue? id = some queue) :
    (fetchPointer id).run t = (.ok queue.pointer, t) :=
  Tables.run_fetchPointer (h.pointer_eq hqueue)

theorem run_fetchPointer_none (h : Mirrors m t) (hqueue : m.queue? id = none) :
    (fetchPointer id).run t = (.error (.notFound (.queue id)), t) := by
  have hrow := h.queue?_eq id
  rw [hqueue, Option.map_none, Option.map_eq_none_iff] at hrow
  simp [fetchPointer, hrow]

theorem entries_perm (h : Mirrors m t) (hqueue : m.queue? id = some queue) :
    (entriesIn t.entries id).Perm queue.entries :=
  h.entries.links _ (Memory.mem_of_queue? hqueue)

theorem records (h : Mirrors m t) (hsound : m.Sound) (hqueue : m.queue? id = some queue) :
    t.Records id queue queue.items where
  pointer := h.pointer_eq hqueue
  rows := h.entries_perm hqueue
  holds := hsound.holds hqueue

end Mirrors
end Jukebox
