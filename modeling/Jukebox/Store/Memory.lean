import Jukebox.Queue.Basic
import Jukebox.Store.Operation

/-!
# The store in memory

A store that lives as long as the process. Each room holds its rotator, members and history,
and each member of a room has a queue. Every operation looks before it changes anything, so one
that fails leaves the store as it was.
-/

namespace Jukebox

structure RoomState where
  room : Room
  rotator : Rotator
  /-- In join order. -/
  members : List UserId
  /-- Oldest first. -/
  history : List TrackEntry
  deriving DecidableEq

structure Memory where
  /-- In order of creation. -/
  rooms : List RoomState
  users : List User
  queues : List (QueueId × Queue)
  /-- Every track that was ever queued, as it was described last. -/
  library : List Track
  deriving DecidableEq

namespace Memory

def empty : Memory :=
  ⟨[], [], [], []⟩

/-!
## Looking up
-/

def room? (m : Memory) (id : RoomId) : Option RoomState :=
  m.rooms.find? fun state => state.room.id = id

def user? (m : Memory) (id : UserId) : Option User :=
  m.users.find? fun user => user.id = id

def queue? (m : Memory) (id : QueueId) : Option Queue :=
  (m.queues.find? fun named => named.1 = id).map Prod.snd

def track? (m : Memory) (id : TrackId) : Option Track :=
  m.library.find? fun track => track.id = id

/-!
## Changing
-/

def addRoom (state : RoomState) (m : Memory) : Memory :=
  { m with rooms := m.rooms ++ [state] }

def modifyRoom (id : RoomId) (change : RoomState → RoomState) (m : Memory) : Memory :=
  { m with rooms := m.rooms.map fun state => if state.room.id = id then change state
    else state }

def addUser (user : User) (m : Memory) : Memory :=
  { m with users := m.users ++ [user] }

def addQueue (id : QueueId) (m : Memory) : Memory :=
  { m with queues := m.queues ++ [(id, .empty)] }

def setQueue (id : QueueId) (queue : Queue) (m : Memory) : Memory :=
  { m with queues := m.queues.map fun named => if named.1 = id then (id, queue) else named }

/-- Keeps a track; an older description of it is forgotten. -/
def setTrack (track : Track) (m : Memory) : Memory :=
  { m with library := (m.library.filter fun other => other.id ≠ track.id) ++ [track] }

/-- Flags the entry of a history at a position as vetoed. -/
def flag (position : Nat) (user : UserId) (history : List TrackEntry) : List TrackEntry :=
  history.modify position fun entry => entry.veto user

/-!
## Operations
-/

open Jukebox.Action

def fetchRoom (id : RoomId) : Action Memory RoomState := do
  require (.notFound (.room id)) ((← get).room? id)

def fetchUser (id : UserId) : Action Memory User := do
  require (.notFound (.user id)) ((← get).user? id)

def fetchQueue (id : QueueId) : Action Memory Queue := do
  require (.notFound (.queue id)) ((← get).queue? id)

def createUser (id : UserId) (name : String) : Action Memory User := do
  if ((← get).user? id).isSome then throw (.conflict (.userExists id))
  let user : User := ⟨id, name⟩
  modify (addUser user)
  return user

def createRoom (config : Config) (name : String) (kind : RotatorKind) (codes : Nat → RoomId)
    (seed : Nat) : Action Memory Room := do
  let m ← get
  let id ← require (.conflict (.codesTaken config.roomCodeAttempts))
    (Store.firstFree? (fun id => (m.room? id).isSome) codes config.roomCodeAttempts)
  let room : Room := ⟨id, name, kind⟩
  modify (addRoom ⟨room, .new kind seed, [], []⟩)
  return room

def join (room : RoomId) (user : UserId) : Action Memory Unit := do
  let _ ← fetchRoom room
  let _ ← fetchUser user
  if ((← get).queue? ⟨room, user⟩).isSome then throw (.conflict (.member user room))
  modify (addQueue ⟨room, user⟩)
  modify (modifyRoom room fun state =>
    { state with members := state.members ++ [user], rotator := state.rotator.add })

def addTrack (id : QueueId) (track : Track) (after : Option EntryId) (entry : EntryId) :
    Action Memory Unit := do
  let queue ← fetchQueue id
  let (_, queue) ← lift ((queue.insertAfter after entry track.id).mapError (.ofQueue id))
  modify (setQueue id queue)
  modify (setTrack track)

def removeTrack (id : QueueId) (entry : EntryId) : Action Memory Unit := do
  let queue ← fetchQueue id
  let (_, queue) ← lift ((queue.remove entry).mapError (.ofQueue id))
  modify (setQueue id queue)

/-- Whether each member has something to play. -/
def candidates (m : Memory) (state : RoomState) : List Bool :=
  state.members.map fun user => ((m.queue? ⟨state.room.id, user⟩).bind Queue.next?).isSome

/-- The member whose turn it is, and the rotator after that turn. -/
def pickMember (m : Memory) (state : RoomState) : Except StoreError (UserId × Rotator) :=
  let outOfStep (index : Nat) : StoreError :=
    .integrity (.outOfStep state.room.id index state.members.length)
  match Rotation.nextTurn (m.candidates state) state.rotator with
  | none => .error .writerClosed
  | some (.nobody, _) => .error .exhausted
  | some (.outOfRange index, _) => .error (outOfStep index)
  | some (.taken index, rotator) =>
    match state.members[index]? with
    | some user => .ok (user, rotator)
    | none => .error (outOfStep index)

def nextTrack (room : RoomId) (now : Timestamp) : Action Memory (User × Track) := do
  let state ← fetchRoom room
  let m ← get
  let (member, rotator) ← lift (m.pickMember state)
  let user ← require (.integrity (.memberMissing member)) (m.user? member)
  let queue ← fetchQueue ⟨room, member⟩
  let track ← require (.integrity (.nextMissing member))
    (queue.next?.bind fun entry => m.track? entry.track)
  modify (setQueue ⟨room, member⟩ ((queue.take?.map Prod.snd).getD queue))
  modify (modifyRoom room fun state =>
    { state with
      rotator := rotator
      history := state.history ++ [.served member track now] })
  return (user, track)

def markVetoed (config : Config) (room : RoomId) (user : UserId) :
    Action Memory TrackEntry := do
  let _ ← fetchQueue ⟨room, user⟩
  let state ← fetchRoom room
  let position ← lift ((vetoTarget state.history user
    (config.vetoCooldown state.members.length)).mapError fun e => .conflict (.veto e))
  let latest ← require .internal state.history[position]?
  modify (modifyRoom room fun state => { state with
    history := flag position user state.history })
  return latest.veto user

def listMembers (room : RoomId) : Action Memory (List User) := do
  let state ← fetchRoom room
  let m ← get
  state.members.mapM fun id => require (.notFound (.user id)) (m.user? id)

def listTracks (id : QueueId) (filter : QueueFilter) : Action Memory (List QueueTrack) := do
  let queue ← fetchQueue id
  let m ← get
  (queue.list filter).mapM fun entry =>
    (require (.integrity (.trackMissing entry.track)) (m.track? entry.track)).map fun track =>
      ⟨entry.id, entry.played, track⟩

/-- Rooms whose names contain the query; an empty query finds none. -/
def searchRooms (query : String) : Action Memory (List Room) := do
  let m ← get
  let query := normalizeName query
  if query.isEmpty then return []
  return Store.byName Room.displayName
    ((m.rooms.map RoomState.room).filter fun room =>
      Store.nameMatches query (normalizeName room.displayName))

instance : Store Memory where
  createUser := createUser
  createRoom := createRoom
  join := join
  addTrack := addTrack
  removeTrack := removeTrack
  nextTrack := nextTrack
  markVetoed := markVetoed
  room id := (·.room) <$> fetchRoom id
  user := fetchUser
  members := listMembers
  tracks := listTracks
  history id := (·.history) <$> fetchRoom id
  searchRooms := searchRooms

end Memory
end Jukebox
