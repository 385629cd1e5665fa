import Jukebox.Proofs.Memory.Invariants
import Jukebox.Proofs.Store.Atomicity

/-!
# What a room sees of a store

Two stores are alike for a room if they have the same users, list the same rooms, and hold the
same of that room. Their other rooms may be in any two states. An operation on another room
keeps a store as it was, for the room; any other operation answers alike on two such stores and
keeps them alike. Only the descriptions of tracks are shared by all rooms, so the latter asks
that they agree.
-/

namespace Jukebox

open Jukebox.Action Playlist

namespace Operation

def about? : Operation → Option RoomId
  | .createUser _ _ | .createRoom _ _ _ _ | .user _ | .searchRooms _ => none
  | .addTrack queue _ _ _ | .removeTrack queue _ | .tracks queue _ => some queue.room
  | .join id _ | .nextTrack id _ | .markVetoed id _ | .room id | .members id | .history id =>
      some id

def Elsewhere (room : RoomId) (operation : Operation) : Prop :=
  ∃ other ∈ operation.about?, other ≠ room

instance (room : RoomId) (operation : Operation) : Decidable (operation.Elsewhere room) :=
  inferInstanceAs (Decidable (∃ other ∈ operation.about?, other ≠ room))

end Operation

namespace Memory

variable {room other : RoomId} {m n : Memory}

/-- Whether two stores are the same for a room. -/
structure Alike (room : RoomId) (m n : Memory) : Prop where
  users : n.users = m.users
  rooms : n.rooms.map RoomState.room = m.rooms.map RoomState.room
  state : n.room? room = m.room? room
  queues : ∀ user, n.queue? ⟨room, user⟩ = m.queue? ⟨room, user⟩

namespace Alike

theorem refl (room : RoomId) (m : Memory) : Alike room m m :=
  ⟨rfl, rfl, rfl, fun _ => rfl⟩

theorem symm (h : Alike room m n) : Alike room n m :=
  ⟨h.users.symm, h.rooms.symm, h.state.symm, fun user => (h.queues user).symm⟩

theorem trans {k : Memory} (h : Alike room m n) (hnext : Alike room n k) : Alike room m k :=
  ⟨hnext.users.trans h.users, hnext.rooms.trans h.rooms, hnext.state.trans h.state,
    fun user => (hnext.queues user).trans (h.queues user)⟩

theorem user? (h : Alike room m n) (id : UserId) : n.user? id = m.user? id := by
  rw [Memory.user?, h.users]
  rfl

theorem isSome_room? (h : Alike room m n) (id : RoomId) :
    (n.room? id).isSome = (m.room? id).isSome := by
  have hids : ∀ k : Memory, (k.room? id).isSome = (k.rooms.map RoomState.room).any fun r =>
      r.id = id := by
    intro k
    rw [room?, List.isSome_find?, List.any_map]
    rfl
  rw [hids, hids, h.rooms]

end Alike

/-!
## Changes to another room
-/

theorem map_room_modifyRoom {change : RoomState → RoomState}
    (hchange : ∀ state, (change state).room = state.room) :
    (m.modifyRoom other change).rooms.map RoomState.room = m.rooms.map RoomState.room := by
  rw [modifyRoom, List.map_map]
  refine List.map_congr_left ?_
  intro state _
  show (if state.room.id = other then change state else state).room = state.room
  split
  · exact hchange state
  · rfl

theorem alike_modifyRoom (hother : other ≠ room) {change : RoomState → RoomState}
    (hchange : ∀ state, (change state).room = state.room) :
    Alike room m (m.modifyRoom other change) where
  users := rfl
  rooms := map_room_modifyRoom hchange
  state := by rw [room?_modifyRoom hchange, if_neg hother.symm]
  queues := fun _ => rfl

theorem alike_setQueue {id : QueueId} (hid : id.room ≠ room) (queue : Queue) :
    Alike room m (m.setQueue id queue) where
  users := rfl
  rooms := rfl
  state := rfl
  queues := by
    intro user
    rw [queue?_setQueue, if_neg]
    exact fun heq => hid (congrArg QueueId.room heq.symm)

theorem alike_addQueue {id : QueueId} (hid : id.room ≠ room) :
    Alike room m (m.addQueue id) where
  users := rfl
  rooms := rfl
  state := rfl
  queues := by
    intro user
    rw [queue?_addQueue, if_neg, Option.or_none]
    exact fun heq => hid (congrArg QueueId.room heq)

theorem alike_setTrack (track : Track) : Alike room m (m.setTrack track) :=
  ⟨rfl, rfl, rfl, fun _ => rfl⟩

/-- Whatever is done to another room, the store stays as it is for the room. -/
theorem Step.alike {config : Config} {operation : Operation} {answer : Except StoreError Reply}
    {changed : Memory} (hstep : Step config m operation answer changed)
    (helsewhere : operation.Elsewhere room) : Alike room m changed := by
  rcases helsewhere with ⟨other, habout, hother⟩
  cases hstep with
  | userCreated _ => cases habout
  | roomCreated _ _ => cases habout
  | joined _ _ _ =>
      cases habout
      exact (alike_addQueue hother).trans (alike_modifyRoom hother fun _ => rfl)
  | added _ _ _ _ _ _ =>
      cases habout
      exact (alike_setQueue hother _).trans (alike_setTrack _)
  | removed _ _ _ _ _ =>
      cases habout
      exact alike_setQueue hother _
  | served _ _ _ _ _ _ _ _ _ _ _ _ _ =>
      cases habout
      exact (alike_setQueue hother _).trans (alike_modifyRoom hother fun _ => rfl)
  | vetoed _ _ _ _ =>
      cases habout
      exact alike_modifyRoom hother fun _ => rfl
  | _ => exact .refl room m

/-!
## The same change to both stores
-/

namespace Alike

theorem addUser (h : Alike room m n) (user : User) :
    Alike room (m.addUser user) (n.addUser user) where
  users := congrArg (· ++ [user]) h.users
  rooms := h.rooms
  state := h.state
  queues := h.queues

theorem addRoom (h : Alike room m n) (state : RoomState) :
    Alike room (m.addRoom state) (n.addRoom state) where
  users := h.users
  rooms := by
    show (n.rooms ++ [state]).map RoomState.room = (m.rooms ++ [state]).map RoomState.room
    rw [List.map_append, List.map_append, h.rooms]
  state := by rw [room?_addRoom, room?_addRoom, h.state]
  queues := h.queues

theorem modifyRoom (h : Alike room m n) {change : RoomState → RoomState}
    (hchange : ∀ state, (change state).room = state.room) :
    Alike room (m.modifyRoom room change) (n.modifyRoom room change) where
  users := h.users
  rooms := by rw [map_room_modifyRoom hchange, map_room_modifyRoom hchange, h.rooms]
  state := by rw [room?_modifyRoom hchange, room?_modifyRoom hchange, h.state]
  queues := h.queues

theorem setQueue (h : Alike room m n) (user : UserId) (queue : Queue) :
    Alike room (m.setQueue ⟨room, user⟩ queue) (n.setQueue ⟨room, user⟩ queue) where
  users := h.users
  rooms := h.rooms
  state := h.state
  queues := by
    intro other
    rw [queue?_setQueue, queue?_setQueue, h.queues, h.queues]

theorem addQueue (h : Alike room m n) (user : UserId) :
    Alike room (m.addQueue ⟨room, user⟩) (n.addQueue ⟨room, user⟩) where
  users := h.users
  rooms := h.rooms
  state := h.state
  queues := by
    intro other
    rw [queue?_addQueue, queue?_addQueue, h.queues]

theorem setTrack (h : Alike room m n) (track : Track) :
    Alike room (m.setTrack track) (n.setTrack track) :=
  ⟨h.users, h.rooms, h.state, h.queues⟩

end Alike

end Memory
end Jukebox
