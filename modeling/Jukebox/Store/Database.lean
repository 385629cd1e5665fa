import Jukebox.Queue.Stored
import Jukebox.Rotation.Encoding
import Jukebox.Store.Operation
import Jukebox.Store.Pattern
import Jukebox.Store.Rows

/-!
# The store of rows

The same operations as in memory, but on tables. Whatever changes rows is a job of the one
writer. Jobs run as transactions, one after another. Plain look-ups go past the writer. A job
that runs into a rotator without an answer takes the writer with it: from then on nothing can
be changed.
-/

namespace Jukebox

namespace Tables

open Jukebox.Action

/-!
## Statements
-/

/-- The room of a row, unless its kind is not one. -/
def readRoom (row : RoomRow) : Except StoreError Room :=
  match RotatorKind.ofText? row.kind with
  | some kind => .ok ⟨row.id, row.displayName, kind⟩
  | none => .error (.integrity (.rotation (.unknownKind row.kind)))

def readTrack (row : TrackRow) : Except StoreError Track :=
  match Track.decode? row.track with
  | some track => .ok track
  | none => .error (.integrity .trackUnreadable)

def readHistory (row : HistoryRow × TrackRow) : Except StoreError TrackEntry :=
  (readTrack row.2).map fun track =>
    ⟨row.1.user, track, row.1.vetoed, row.1.vetoedBy, row.1.playedAt⟩

def fetchRoom (id : RoomId) : Action Tables Room := do
  let row ← require (.notFound (.room id)) ((← get).room? id)
  lift (readRoom row)

def fetchUser (id : UserId) : Action Tables User := do
  require (.notFound (.user id)) ((← get).user? id)

def fetchTrack (id : TrackId) : Action Tables Track := do
  let row ← require (.notFound (.track id)) ((← get).track? id)
  lift (readTrack row)

/-- The pointer of a queue; only members have one. -/
def fetchPointer (id : QueueId) : Action Tables (Option EntryId) := do
  let row ← require (.notFound (.queue id)) ((← get).queue? id)
  return row.pointer

def fetchEntry (queue : QueueId) (id : EntryId) : Action Tables QueueEntry := do
  require (.notFound (.entry id)) ((← get).entryOf? queue id)

def loadRotator (id : RoomId) : Action Tables Rotator := do
  let row ← require (.notFound (.room id)) ((← get).room? id)
  lift ((Rotator.decode row.rotator).mapError fun e => .integrity (.rotation e))

def saveRotator (id : RoomId) (rotator : Rotator) : Action Tables Unit :=
  modify (updateRoom id fun row => { row with rotator := rotator.encode })

def savePointer (id : QueueId) (pointer : Option EntryId) : Action Tables Unit :=
  modify (updateQueue id fun row => { row with pointer := pointer })

def linkNext (id : EntryId) (next : Option EntryId) : Action Tables Unit :=
  modify (updateEntry id (Queue.setNext next))

def linkPrevious (id : EntryId) (previous : Option EntryId) : Action Tables Unit :=
  modify (updateEntry id (Queue.setPrevious previous))

/-!
## Jobs

A job is told whether the tables are frozen. If so, it fails where it would change a row for
the first time; until then it answers as ever.
-/

def createUser (frozen : Bool) (id : UserId) (name : String) : Action Tables User := do
  if ((← get).user? id).isSome then throw (.conflict (.userExists id))
  check .internal !frozen
  let user : User := ⟨id, name⟩
  modify (insertUser user)
  return user

def createRoom (frozen : Bool) (config : Config) (name : String) (kind : RotatorKind)
    (codes : Nat → RoomId) (seed : Nat) : Action Tables Room := do
  let t ← get
  let id ← require (.conflict (.codesTaken config.roomCodeAttempts))
    (Store.firstFree? (fun id => (t.room? id).isSome) codes config.roomCodeAttempts)
  check .internal !frozen
  modify (insertRoom ⟨id, name, normalizeName name, kind.key, (Rotator.new kind seed).encode⟩)
  return ⟨id, name, kind⟩

def join (frozen : Bool) (room : RoomId) (user : UserId) : Action Tables Unit := do
  let rotator ← loadRotator room
  let _ ← fetchUser user
  if ((← get).queue? ⟨room, user⟩).isSome then throw (.conflict (.member user room))
  let members := ((← get).queuesOf room).length
  check .internal !frozen
  modify (insertQueue ⟨⟨room, user⟩, members, none⟩)
  saveRotator room rotator.add

/-- The entry that follows a new one, which goes behind `after` or in front. -/
def successor (queue : QueueId) : Option EntryId → Action Tables (Option EntryId)
  | some after => QueueEntry.next <$> fetchEntry queue after
  | none => do return (← get).head? queue

/-- Refuses a successor that was played. -/
def requireUnplayed (queue : QueueId) : Option EntryId → Action Tables Unit
  | some next => do
    let entry ← fetchEntry queue next
    if entry.played then throw (.ofQueue queue (.insertBeforePlayed next))
  | none => return ()

/-- Inserts an entry, unless its identifier is taken in any queue. -/
def insertNewEntry (row : EntryRow) : Action Tables Unit := do
  if (← get).entries.any fun other => other.entry.id = row.entry.id then throw .internal
  modify (insertEntry row)

def addTrack (frozen : Bool) (queue : QueueId) (track : Track) (after : Option EntryId)
    (id : EntryId) : Action Tables Unit := do
  let pointer ← fetchPointer queue
  let next ← successor queue after
  requireUnplayed queue next
  check .internal !frozen
  modify (upsertTrack ⟨track.id, track.encode⟩)
  insertNewEntry ⟨queue, ⟨id, track.id, false, after, next⟩⟩
  if let some after := after then linkNext after (some id)
  if let some next := next then linkPrevious next (some id)
  if pointer = none ∨ pointer = next then savePointer queue (some id)

def removeTrack (frozen : Bool) (queue : QueueId) (id : EntryId) : Action Tables Unit := do
  let pointer ← fetchPointer queue
  let entry ← fetchEntry queue id
  if entry.played then throw (.ofQueue queue (.removePlayed id))
  check .internal !frozen
  if let some previous := entry.previous then linkNext previous entry.next
  if let some next := entry.next then linkPrevious next entry.previous
  modify (deleteEntry id)
  if pointer = some id then savePointer queue entry.next

/-- Whose turn it is, with the entry to serve, and the rotator after that turn. -/
def pickMember (room : RoomId) (members : List (QueueRow × User)) (rotator : Rotator) :
    Except StoreError (User × EntryId × Rotator) :=
  let outOfStep (index : Nat) : StoreError :=
    .integrity (.outOfStep room index members.length)
  match Rotation.nextTurn (members.map fun member => member.1.pointer.isSome) rotator with
  | none => .error .writerClosed
  | some (.nobody, _) => .error .exhausted
  | some (.outOfRange index, _) => .error (outOfStep index)
  | some (.taken index, rotator) =>
    match members[index]? with
    | some (⟨_, _, some entry⟩, user) => .ok (user, entry, rotator)
    | _ => .error (outOfStep index)

/-- Appends to the history. The track and the member have to be stored. -/
def insertServed (room : RoomId) (user : UserId) (track : TrackId) (now : Timestamp) :
    Action Tables Unit := do
  let t ← get
  if (t.track? track).isNone ∨ (t.user? user).isNone then throw .internal
  modify (insertHistory ⟨t.history.length + 1, room, user, track, false, none, now⟩)

def nextTrack (frozen : Bool) (room : RoomId) (now : Timestamp) :
    Action Tables (User × Track) := do
  let rotator ← loadRotator room
  let (user, id, rotator) ← lift (pickMember room ((← get).membersOf room) rotator)
  let queue : QueueId := ⟨room, user.id⟩
  let entry ← require (.integrity (.dangling queue id)) ((← get).entryOf? queue id)
  check .internal !frozen
  modify (updateEntry id fun entry => { entry with played := true })
  savePointer queue entry.next
  saveRotator room rotator
  let track ← fetchTrack entry.track
  insertServed room user.id track.id now
  return (user, track)

/-- The last rows, as many as a limit says; limits of 64 bits that read as negative are
none. -/
def lastRows {α : Type} (limit : Nat) (rows : List α) : List α :=
  if 2 * limit < wordLimit then rows.drop (rows.length - limit) else rows

def markVetoed (frozen : Bool) (config : Config) (room : RoomId) (user : UserId) :
    Action Tables TrackEntry := do
  let _ ← fetchRoom room
  let _ ← fetchPointer ⟨room, user⟩
  let t ← get
  let cooldown := config.vetoCooldown (t.queuesOf room).length
  let rows := lastRows (max cooldown 1) (t.historyOf room)
  let recent ← lift (rows.mapM readHistory)
  let position ← lift ((vetoTarget recent user cooldown).mapError fun e => .conflict (.veto e))
  let row ← require .internal rows[position]?
  let entry ← require .internal recent[position]?
  check .internal !frozen
  if (t.user? user).isNone then throw .internal
  modify (updateHistory row.1.number fun row => { row with
    vetoed := true, vetoedBy := some user })
  return entry.veto user

/-- The tracks of a queue in order; an entry whose track is gone is left out. -/
def listTracks (queue : QueueId) (filter : QueueFilter) : Action Tables (List QueueTrack) := do
  let pointer ← fetchPointer queue
  let t ← get
  let rows := (t.entriesOf queue).filterMap fun row =>
    (t.track? row.entry.track).map fun track => (row.entry, track)
  let tracks ← lift (rows.mapM fun row => (readTrack row.2).map fun track => (row.1.id, track))
  let queue ← lift ((Queue.ofEntries (rows.map Prod.fst) pointer).mapError (.ofQueue queue))
  return (queue.list filter).filterMap fun entry =>
    (tracks.lookup entry.id).map fun track => ⟨entry.id, entry.played, track⟩

/-!
## Look-ups
-/

def listMembers (room : RoomId) : Action Tables (List User) := do
  let _ ← fetchRoom room
  return ((← get).membersOf room).map Prod.snd

def listHistory (room : RoomId) : Action Tables (List TrackEntry) := do
  let _ ← fetchRoom room
  lift (((← get).historyOf room).mapM readHistory)

/-- Rooms whose normalized names contain a normalized query. -/
def searchRooms (query : String) : Action Tables (List Room) := do
  let pattern := Store.containing query.toList
  let rows := (← get).rooms.filter fun row => Store.like pattern row.normalizedName.toList
  lift ((Store.byName RoomRow.displayName rows).mapM readRoom)

end Tables

/-- Tables with the connections to them: one that writes, and others that read. -/
structure Database where
  tables : Tables
  writerOpen : Bool
  readersOpen : Bool
  /-- Whether the writer may only look. -/
  frozen : Bool
  deriving DecidableEq

namespace Database

variable {α : Type}

/-- A database whose connections are open. -/
def opened (tables : Tables) : Database :=
  ⟨tables, true, true, false⟩

def empty : Database :=
  opened .empty

/-- Closes all connections. -/
def close (db : Database) : Database :=
  { db with writerOpen := false, readersOpen := false }

/-- Whether an answer shows that the job took the writer with it. -/
def lostWriter : Except StoreError α → Bool
  | .error .writerClosed => true
  | _ => false

/-- Runs a job of the writer as a transaction. -/
def write (job : (frozen : Bool) → Action Tables α) : Action Database α :=
  .ofRun fun db =>
    if db.writerOpen then
      let (answer, tables) := (job db.frozen).transaction.run db.tables
      (answer, { db with tables := tables, writerOpen := !lostWriter answer })
    else (.error .writerClosed, db)

/-- Looks something up without the writer. -/
def read (query : Action Tables α) : Action Database α :=
  .ofRun fun db =>
    if db.readersOpen then ((query.run db.tables).1, db) else (.error .internal, db)

/-- A search for an empty query asks no connection. -/
def searchRooms (query : String) : Action Database (List Room) :=
  let query := normalizeName query
  if query.isEmpty then return [] else read (Tables.searchRooms query)

instance : Store Database where
  createUser id name := write fun frozen => Tables.createUser frozen id name
  createRoom config name kind codes seed :=
    write fun frozen => Tables.createRoom frozen config name kind codes seed
  join room user := write fun frozen => Tables.join frozen room user
  addTrack queue track after entry :=
    write fun frozen => Tables.addTrack frozen queue track after entry
  removeTrack queue entry := write fun frozen => Tables.removeTrack frozen queue entry
  nextTrack room now := write fun frozen => Tables.nextTrack frozen room now
  markVetoed config room user := write fun frozen => Tables.markVetoed frozen config room user
  room id := read (Tables.fetchRoom id)
  user id := read (Tables.fetchUser id)
  members room := read (Tables.listMembers room)
  tracks queue filter := write fun _ => Tables.listTracks queue filter
  history room := read (Tables.listHistory room)
  searchRooms := searchRooms

end Database
end Jukebox
