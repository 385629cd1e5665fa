import Jukebox.Proofs.Keyed
import Jukebox.Store.Memory

/-!
# Looking up in a store in memory

What each change of a store does to the look-ups, and what a found room, user, queue or track
says about the lists that it was found in.
-/

namespace Jukebox
namespace Memory

variable {m : Memory} {state : RoomState} {room : RoomId} {user : User} {queue : Queue}
    {id : QueueId}
  {track : Track}

/-!
## What was found
-/

theorem mem_of_room? (h : m.room? room = some state) : state ∈ m.rooms ∧
    state.room.id = room :=
  Keyed.mem_of_find? h

theorem room?_eq_none_iff : m.room? room = none ↔
    room ∉ m.rooms.map fun state => state.room.id :=
  Keyed.find?_eq_none_iff

theorem room?_of_mem (hrooms : (m.rooms.map fun state => state.room.id).Nodup)
    (h : state ∈ m.rooms) : m.room? state.room.id = some state :=
  (Keyed.find?_eq_some_iff hrooms).mpr ⟨h, rfl⟩

theorem mem_of_user? {name : UserId} (h : m.user? name = some user) : user ∈ m.users ∧
    user.id = name :=
  Keyed.mem_of_find? h

theorem user?_eq_none_iff {name : UserId} : m.user? name = none ↔ name ∉ m.users.map User.id :=
  Keyed.find?_eq_none_iff

theorem mem_of_track? {name : TrackId} (h : m.track? name = some track) :
    track ∈ m.library ∧ track.id = name :=
  Keyed.mem_of_find? h

theorem track?_isSome_iff {name : TrackId} :
    (m.track? name).isSome ↔ name ∈ m.library.map Track.id :=
  Keyed.find?_isSome_iff

theorem mem_of_queue? (h : m.queue? id = some queue) : (id, queue) ∈ m.queues := by
  rcases Option.map_eq_some_iff.mp h with ⟨named, hfind, rfl⟩
  rcases Keyed.mem_of_find? hfind with ⟨hmem, rfl⟩
  exact hmem

theorem queue?_of_mem (hqueues : (m.queues.map Prod.fst).Nodup) (h : (id, queue) ∈ m.queues) :
    m.queue? id = some queue := by
  rw [queue?, (Keyed.find?_eq_some_iff hqueues).mpr ⟨h, rfl⟩]
  rfl

theorem queue?_eq_none_iff : m.queue? id = none ↔ id ∉ m.queues.map Prod.fst := by
  rw [queue?, Option.map_eq_none_iff]
  exact Keyed.find?_eq_none_iff

theorem queue?_isSome_iff : (m.queue? id).isSome ↔ id ∈ m.queues.map Prod.fst := by
  rw [queue?, Option.isSome_map]
  exact Keyed.find?_isSome_iff

/-!
## What changes leave alone
-/

theorem user?_addUser (added : User) (name : UserId) :
    (m.addUser added).user? name = (m.user? name).or
    (if added.id = name then some added else none) :=
  Keyed.find?_concat added name

theorem room?_addRoom (added : RoomState) :
    (m.addRoom added).room? room =
      (m.room? room).or (if added.room.id = room then some added else none) :=
  Keyed.find?_concat added room

theorem room?_modifyRoom {change : RoomState → RoomState}
    (hchange : ∀ state, (change state).room = state.room) (other : RoomId) :
    (m.modifyRoom room change).room? other =
      if other = room then (m.room? room).map change else m.room? other := by
  refine Keyed.find?_update ?_ other
  intro state hstate
  rw [hchange, hstate]

theorem map_id_modifyRoom {change : RoomState → RoomState}
    (hchange : ∀ state, (change state).room = state.room) :
    ((m.modifyRoom room change).rooms.map fun state => state.room.id) =
      m.rooms.map fun state => state.room.id := by
  refine Keyed.map_key_update ?_
  intro state hstate
  rw [hchange, hstate]

theorem mem_modifyRoom {change : RoomState → RoomState} :
    state ∈ (m.modifyRoom room change).rooms ↔
      ∃ before ∈ m.rooms, (if before.room.id = room then change before else before) =
        state := by
  simp [modifyRoom, List.mem_map]

theorem queue?_addQueue (added : QueueId) :
    (m.addQueue added).queue? id = (m.queue? id).or
    (if added = id then some .empty else none) := by
  have hfind : (m.addQueue added).queues.find? (fun named => named.1 = id) =
      (m.queues.find? fun named => named.1 = id).or
        (if added = id then some (added, .empty) else none) :=
    Keyed.find?_concat (added, Queue.empty) id
  rw [queue?, hfind, Option.map_or, queue?]
  by_cases h : added = id <;> simp [h]

theorem map_fst_setQueue (changed : Queue) :
    (m.setQueue id changed).queues.map Prod.fst = m.queues.map Prod.fst :=
  Keyed.map_key_update fun _ _ => rfl

theorem queue?_setQueue (changed : Queue) (other : QueueId) :
    (m.setQueue id changed).queue? other =
      if other = id then (m.queue? id).map fun _ => changed else m.queue? other := by
  have hfind : (m.setQueue id changed).queues.find? (fun named => named.1 = other) =
      if other = id then (m.queues.find? fun named => named.1 = id).map fun _ => (id, changed)
      else m.queues.find? fun named => named.1 = other := by
    apply Keyed.find?_update
    exact fun _ _ => rfl
  rw [queue?, hfind, queue?]
  split <;> simp [queue?, Function.comp_def]

theorem mem_setQueue {changed : Queue} {named : QueueId × Queue}
    (h : named ∈ (m.setQueue id changed).queues) :
    named = (id, changed) ∧ id ∈ m.queues.map Prod.fst ∨ named ∈ m.queues ∧ named.1 ≠ id := by
  rcases List.mem_map.mp h with ⟨before, hbefore, rfl⟩
  by_cases hid : before.1 = id
  · exact Or.inl ⟨if_pos hid, hid ▸ List.mem_map_of_mem hbefore⟩
  · rw [if_neg hid]
    exact Or.inr ⟨hbefore, hid⟩

theorem track?_setTrack (added : Track) (name : TrackId) :
    (m.setTrack added).track? name = if name = added.id then some added
      else m.track? name := by
  show (m.library.filter (fun other => other.id ≠ added.id) ++ [added]).find? _ = _
  rw [Keyed.find?_concat, Keyed.find?_filter_ne]
  by_cases h : name = added.id
  · simp [h]
  · rw [if_neg h, if_neg h, if_neg (Ne.symm h), Option.or_none]
    rfl

theorem mem_library_setTrack {name : TrackId} (added : Track)
    (h : name ∈ m.library.map Track.id) : name ∈ (m.setTrack added).library.map Track.id := by
  rw [← track?_isSome_iff] at h ⊢
  rw [track?_setTrack]
  split
  · rfl
  · exact h

end Memory
end Jukebox
