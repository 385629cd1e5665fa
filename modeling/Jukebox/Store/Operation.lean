import Jukebox.Config
import Jukebox.Records
import Jukebox.RoomName
import Jukebox.Store.Action

/-!
# Operations on a store

What a store of rooms, queues and histories can do. All random choices and the time of day come
with the operation, so its answer is determined by the store it runs on.
-/

namespace Jukebox

inductive Operation
  | createUser (id : UserId) (name : String)
  /-- The codes are tried in order; the seed determines the rotator's random choices. -/
  | createRoom (name : String) (kind : RotatorKind) (codes : Nat → RoomId) (seed : Nat)
  | join (room : RoomId) (user : UserId)
  /-- Adds a track as a new entry behind another one, or in front. -/
  | addTrack (queue : QueueId) (track : Track) (after : Option EntryId) (entry : EntryId)
  | removeTrack (queue : QueueId) (entry : EntryId)
  | nextTrack (room : RoomId) (now : Timestamp)
  | markVetoed (room : RoomId) (user : UserId)
  | room (id : RoomId)
  | user (id : UserId)
  | members (room : RoomId)
  | tracks (queue : QueueId) (filter : QueueFilter)
  | history (room : RoomId)
  | searchRooms (query : String)

inductive Reply
  | done
  | user (user : User)
  | users (users : List User)
  | room (room : Room)
  | rooms (rooms : List Room)
  | entry (id : EntryId)
  | tracks (tracks : List QueueTrack)
  | served (user : User) (track : Track)
  | vetoed (entry : TrackEntry)
  | history (entries : List TrackEntry)
  deriving DecidableEq

/-- A place that rooms, users, queues and histories are kept in. -/
class Store (σ : Type) where
  createUser : UserId → String → Action σ User
  /-- Claims a free room code and creates the room with an empty rotator. -/
  createRoom : Config → String → RotatorKind → (Nat → RoomId) → Nat → Action σ Room
  /-- Makes a user a member of a room, and the rotator of the room grow by one. -/
  join : RoomId → UserId → Action σ Unit
  addTrack : QueueId → Track → Option EntryId → EntryId → Action σ Unit
  removeTrack : QueueId → EntryId → Action σ Unit
  /-- Serves the next track of a room and records it in the history. -/
  nextTrack : RoomId → Timestamp → Action σ (User × Track)
  /-- Flags the latest track of a room as vetoed by a member. -/
  markVetoed : Config → RoomId → UserId → Action σ TrackEntry
  room : RoomId → Action σ Room
  user : UserId → Action σ User
  /-- The members of a room in join order. -/
  members : RoomId → Action σ (List User)
  /-- A member's queue in order. -/
  tracks : QueueId → QueueFilter → Action σ (List QueueTrack)
  /-- Everything that was served in a room, oldest first. -/
  history : RoomId → Action σ (List TrackEntry)
  /-- The rooms whose normalized names contain the normalized query, by display name. -/
  searchRooms : String → Action σ (List Room)

namespace Store

variable {σ : Type} [Store σ]

/-- Performs an operation. -/
def perform (config : Config) : Operation → Action σ Reply
  | .createUser id name => .user <$> createUser id name
  | .createRoom name kind codes seed => .room <$> createRoom config name kind codes seed
  | .join room user => (fun _ => .done) <$> join room user
  | .addTrack queue track after entry =>
      (fun _ => .entry entry) <$> addTrack queue track after entry
  | .removeTrack queue entry => (fun _ => .done) <$> removeTrack queue entry
  | .nextTrack room now => (fun served => .served served.1 served.2) <$> nextTrack room now
  | .markVetoed room user => .vetoed <$> markVetoed config room user
  | .room id => .room <$> room id
  | .user id => .user <$> user id
  | .members id => .users <$> members id
  | .tracks queue filter => .tracks <$> tracks queue filter
  | .history id => .history <$> history id
  | .searchRooms query => .rooms <$> searchRooms query

/-- Performs one operation: the answer, and the store afterwards. -/
def step (config : Config) (store : σ) (operation : Operation) : Except StoreError Reply × σ :=
  (perform config operation).run store

/-- Performs operations one after another, whether they fail or not. -/
def runAll (config : Config) (store : σ) : List Operation → List (Except StoreError Reply) × σ
  | [] => ([], store)
  | operation :: rest =>
    let (answer, store) := step config store operation
    let (answers, store) := runAll config store rest
    (answer :: answers, store)

/-!
## Shared rules
-/

/-- The first of a number of codes that is free. -/
def firstFree? (taken : RoomId → Bool) (codes : Nat → RoomId) : (attempts : Nat) →
    Option RoomId
  | 0 => none
  | attempts + 1 =>
    if taken (codes 0) then firstFree? taken (fun i => codes (i + 1)) attempts
      else some (codes 0)

/-- Whether a room is found by a query, both in normalized form. -/
def nameMatches (query name : String) : Bool :=
  occursIn query.toList name.toList

/-- Sorts by display name; equal names keep their order. -/
def byName {α : Type} (name : α → String) (items : List α) : List α :=
  items.mergeSort fun a b => !decide (name b < name a)

end Store

end Jukebox
