import Jukebox.Catalog
import Jukebox.Log
import Jukebox.Store.Operation

/-!
# Parties

A party ties a store to a catalog and tells everyone in a room what happens there. Events are
told in the order in which they happen, after the store has been changed.
-/

namespace Jukebox

/-- What everyone in a room is told. -/
inductive Event
  | nowPlaying (room : RoomId) (user : User) (track : Track)
  | vetoed (room : RoomId) (vetoedBy : UserId) (entry : TrackEntry)
  | userJoined (room : RoomId) (user : User)
  | queueUpdated (room : RoomId) (user : UserId)
  deriving DecidableEq

namespace Event

/-- The room that is told. -/
def room : Event → RoomId
  | nowPlaying room .. => room
  | vetoed room .. => room
  | userJoined room _ => room
  | queueUpdated room _ => room

def toJson : Event → Json
  | nowPlaying room user track =>
    .record [("type", .text "now_playing"), ("room_id", room.toJson), ("user", user.toJson),
      ("track", track.toJson)]
  | vetoed room vetoedBy entry =>
    .record [("type", .text "vetoed"), ("room_id", room.toJson),
      ("vetoed_by", vetoedBy.toJson), ("entry", entry.toJson)]
  | userJoined room user =>
    .record [("type", .text "user_joined"), ("room_id", room.toJson), ("user", user.toJson)]
  | queueUpdated room user =>
    .record [("type", .text "queue_updated"), ("room_id", room.toJson),
      ("user_id", user.toJson)]

end Event

inductive PartyError
  | store (error : StoreError)
  | song (error : SongError)
  /-- A veto went through, but nobody had anything to play instead. -/
  | noTracksLeft
  deriving DecidableEq

def PartyError.message : PartyError → String
  | store error => error.message
  | song error => error.message
  | noTracksLeft => "No tracks left in queue"

structure Party (σ : Type) where
  store : σ
  catalog : Catalog
  config : Config
  /-- What was told so far, oldest first. -/
  events : List Event
  /-- What was logged so far, oldest first. -/
  log : List LogRecord

/-- The outcome of a veto that found a replacement. -/
structure Veto where
  /-- The history entry that was vetoed. -/
  vetoed : TrackEntry
  /-- Whose track plays instead. -/
  user : User
  track : Track
  deriving DecidableEq

/-- Something that happens at a party. What was told or stored before a failure stays. -/
abbrev PartyAction (σ α : Type) : Type :=
  ExceptT PartyError (StateM (Party σ)) α

namespace Party

variable {σ α : Type} [Store σ]

/-- A party that has just begun. -/
def start (store : σ) (catalog : Catalog) (config : Config) : Party σ :=
  ⟨store, catalog, config, [], []⟩

def run (action : PartyAction σ α) (party : Party σ) : Except PartyError α × Party σ :=
  (ExceptT.run action) party

/-- Tells everyone in a room. -/
def tell (event : Event) : PartyAction σ Unit :=
  modify fun party => { party with events := party.events ++ [event] }

def writeLog (level : LogLevel) (message : String) : PartyAction σ Unit :=
  modify fun party => { party with log := party.log ++ [⟨level, .party, message⟩] }

/-- Runs an action on the store, and logs what a failure has to report. -/
def onStore (action : Action σ α) : PartyAction σ α := do
  let party ← get
  let (answer, store) := action.run party.store
  set { party with store := store }
  match answer with
  | .ok value => return value
  | .error error =>
    if let some report := error.report? then writeLog .error report
    throw (.store error)

/-- Looks something up in the catalog. -/
def onCatalog (f : Catalog → Except SongError α) : PartyAction σ α := do
  match f (← get).catalog with
  | .ok value => return value
  | .error error => throw (.song error)

/-!
## Users
-/

/-- Creates an account for a user. -/
def register (id : UserId) (name : String) : PartyAction σ User :=
  onStore (Store.createUser id name)

/-!
## Rooms
-/

def createRoom (name : String) (kind : RotatorKind) (codes : Nat → RoomId) (seed : Nat) :
    PartyAction σ Room := do
  let party ← get
  let room ← onStore (Store.createRoom party.config name kind codes seed)
  writeLog .info s!"Created room {room.id} ({room.displayName})"
  return room

def room (id : RoomId) : PartyAction σ Room :=
  onStore (Store.room id)

def searchRooms (query : String) : PartyAction σ (List Room) :=
  onStore (Store.searchRooms query)

def members (room : RoomId) : PartyAction σ (List User) :=
  onStore (Store.members room)

def history (room : RoomId) : PartyAction σ (List TrackEntry) :=
  onStore (Store.history room)

/-- Makes a user a member of a room, with a queue and a place in the rotation. -/
def join (room : RoomId) (user : UserId) : PartyAction σ User := do
  onStore (Store.join room user)
  let user ← onStore (Store.user user)
  writeLog .info s!"{user.displayName} joined room {room}"
  tell (.userJoined room user)
  return user

/-- Serves the next track of a room. -/
def nextTrack (room : RoomId) (now : Timestamp) : PartyAction σ (User × Track) := do
  let (user, track) ← onStore (Store.nextTrack room now)
  writeLog .info s!"Now playing {track.name} from {user.displayName} in room {room}"
  tell (.nowPlaying room user track)
  return (user, track)

/-- Serves a replacement; an exhausted room has none. -/
def replacement (room : RoomId) (now : Timestamp) : PartyAction σ (User × Track) :=
  tryCatch (nextTrack room now) fun error =>
    throw (if error = .store .exhausted then .noTracksLeft else error)

/-- Vetoes the latest track and serves a replacement. The veto stays even if there is none. -/
def veto (room : RoomId) (user : UserId) (now : Timestamp) : PartyAction σ Veto := do
  let party ← get
  let vetoed ← onStore (Store.markVetoed party.config room user)
  writeLog .info s!"{user} vetoed {vetoed.track.name} in room {room}"
  tell (.vetoed room user vetoed)
  let (user, track) ← replacement room now
  return ⟨vetoed, user, track⟩

/-!
## Queues
-/

/-- Adds a track of the catalog to a queue, behind an entry or in front. -/
def addTrack (queue : QueueId) (track : TrackId) (after : Option EntryId) (entry : EntryId) :
    PartyAction σ EntryId := do
  let track ← onCatalog fun catalog => catalog.track track
  onStore (Store.addTrack queue track after entry)
  tell (.queueUpdated queue.room queue.user)
  return entry

def removeTrack (queue : QueueId) (entry : EntryId) : PartyAction σ Unit := do
  onStore (Store.removeTrack queue entry)
  tell (.queueUpdated queue.room queue.user)

def listTracks (queue : QueueId) (filter : QueueFilter) : PartyAction σ (List QueueTrack) :=
  onStore (Store.tracks queue filter)

def searchTracks (query : String) : PartyAction σ (List Track) :=
  onCatalog fun catalog => .ok (catalog.search query)

end Party
end Jukebox
