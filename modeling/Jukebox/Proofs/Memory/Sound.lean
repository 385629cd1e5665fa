import Jukebox.Proofs.Memory.Lookup
import Jukebox.Proofs.Queue.Refinement
import Jukebox.Proofs.Rotation.Rotator

/-!
# Sound stores in memory

A store is sound if its rooms, users and queues have names of their own, every room has a
rotator that hands out its members only, and the members of a room are exactly those who have a
queue in it. Every queue holds a playlist, and every track that was queued or served is kept.
This module shows what each change of a sound store needs to leave it sound.
-/

namespace Jukebox
namespace Memory

/-- Who has a queue in a room, in the order in which the queues were made. -/
def owners (m : Memory) (room : RoomId) : List UserId :=
  (m.queues.filter fun named => named.1.room = room).map fun named => named.1.user

/-- Whether a room's rotator hands out its members only, and is of the room's kind. -/
structure InStep (state : RoomState) : Prop where
  keeps : state.rotator.KeepsTo state.members.length
  kind : state.rotator.kind = state.room.rotator

/-- Whether a queue holds a playlist of tracks that a library has. -/
structure Stocked (library : List Track) (queue : Queue) : Prop where
  holds : queue.Holds queue.items
  kept : ∀ item ∈ queue.items, item.track ∈ library.map Track.id

structure Sound (m : Memory) : Prop where
  roomIds : (m.rooms.map fun state => state.room.id).Nodup
  userIds : (m.users.map User.id).Nodup
  queueIds : (m.queues.map Prod.fst).Nodup
  inStep : ∀ state ∈ m.rooms, InStep state
  members : ∀ state ∈ m.rooms, m.owners state.room.id = state.members
  owned : ∀ named ∈ m.queues, (m.room? named.1.room).isSome ∧ (m.user? named.1.user).isSome
  stocked : ∀ named ∈ m.queues, Stocked m.library named.2
  served : ∀ state ∈ m.rooms, ∀ entry ∈ state.history, entry.track.id ∈ m.library.map Track.id

theorem sound_empty : Sound empty := by
  constructor <;> simp [empty]

variable {m : Memory} {state : RoomState} {room : RoomId} {user : UserId} {queue : Queue}
  {id : QueueId}

theorem mem_owners : user ∈ m.owners room ↔ ⟨room, user⟩ ∈ m.queues.map Prod.fst := by
  simp only [owners, List.mem_map, List.mem_filter, decide_eq_true_eq]
  constructor
  · rintro ⟨named, ⟨hnamed, rfl⟩, rfl⟩
    exact ⟨named, hnamed, rfl⟩
  · rintro ⟨named, hnamed, hid⟩
    exact ⟨named, ⟨hnamed, by rw [hid]⟩, by rw [hid]⟩

/-!
## What a sound store says
-/

namespace Sound

theorem inStep_of_room? (h : m.Sound) (hroom : m.room? room = some state) : InStep state :=
  h.inStep state (mem_of_room? hroom).1

theorem owners_of_room? (h : m.Sound) (hroom : m.room? room = some state) :
    m.owners room = state.members := by
  rcases mem_of_room? hroom with ⟨hmem, rfl⟩
  exact h.members state hmem

theorem mem_members_iff (h : m.Sound) (hroom : m.room? room = some state) :
    user ∈ state.members ↔ (m.queue? ⟨room, user⟩).isSome := by
  rw [← h.owners_of_room? hroom, mem_owners, queue?_isSome_iff]

theorem nodup_owners (h : m.Sound) (room : RoomId) : (m.owners room).Nodup := by
  refine List.Nodup.map_on ?_ ((List.Nodup.of_map _ h.queueIds).filter _)
  intro a ha b hb hab
  simp only [List.mem_filter, decide_eq_true_eq] at ha hb
  refine List.inj_on_of_nodup_map h.queueIds ha.1 hb.1 ?_
  cases ha' : a.1
  cases hb' : b.1
  simp_all

theorem nodup_members (h : m.Sound) (hroom : m.room? room = some state) :
    state.members.Nodup := by
  rw [← h.owners_of_room? hroom]
  exact h.nodup_owners room

theorem exists_queue (h : m.Sound) (hroom : m.room? room = some state)
    (hmember : user ∈ state.members) : ∃ queue, m.queue? ⟨room, user⟩ = some queue :=
  Option.isSome_iff_exists.mp ((h.mem_members_iff hroom).mp hmember)

theorem exists_room (h : m.Sound) (hqueue : m.queue? id = some queue) :
    ∃ state, m.room? id.room = some state :=
  Option.isSome_iff_exists.mp (h.owned _ (mem_of_queue? hqueue)).1

theorem exists_owner (h : m.Sound) (hqueue : m.queue? id = some queue) :
    ∃ owner, m.user? id.user = some owner :=
  Option.isSome_iff_exists.mp (h.owned _ (mem_of_queue? hqueue)).2

theorem exists_user (h : m.Sound) (hroom : m.room? room = some state)
    (hmember : user ∈ state.members) : ∃ found, m.user? user = some found := by
  rcases h.exists_queue hroom hmember with ⟨queue, hqueue⟩
  exact h.exists_owner hqueue

theorem stocked_of_queue? (h : m.Sound) (hqueue : m.queue? id = some queue) :
    Stocked m.library queue :=
  h.stocked _ (mem_of_queue? hqueue)

theorem holds (h : m.Sound) (hqueue : m.queue? id = some queue) : queue.Holds queue.items :=
  (h.stocked_of_queue? hqueue).holds

theorem exists_track (h : m.Sound) (hqueue : m.queue? id = some queue) {item : Item}
    (hitem : item ∈ queue.items) : ∃ track, m.track? item.track = some track :=
  Option.isSome_iff_exists.mp
    (track?_isSome_iff.mpr ((h.stocked_of_queue? hqueue).kept item hitem))

theorem owners_of_none (h : m.Sound) (hroom : m.room? room = none) : m.owners room = [] := by
  apply List.eq_nil_iff_forall_not_mem.mpr
  intro user huser
  rcases Option.isSome_iff_exists.mp (queue?_isSome_iff.mpr (mem_owners.mp huser))
    with ⟨queue, hqueue⟩
  rcases h.exists_room hqueue with ⟨state, hstate⟩
  rw [hroom] at hstate
  cases hstate

/-!
## Changes that keep a store sound
-/

theorem addUser (h : m.Sound) {added : User} (hfree : m.user? added.id = none) :
    (m.addUser added).Sound where
  roomIds := h.roomIds
  userIds := by
    have hid := user?_eq_none_iff.mp hfree
    simpa [Memory.addUser, List.nodup_append, h.userIds] using hid
  queueIds := h.queueIds
  inStep := h.inStep
  members := h.members
  owned := by
    intro named hnamed
    refine ⟨(h.owned named hnamed).1, ?_⟩
    rw [user?_addUser, Option.isSome_or, (h.owned named hnamed).2]
    rfl
  stocked := h.stocked
  served := h.served

theorem addRoom (h : m.Sound) {added : Room} (hfree : m.room? added.id = none) (seed : Nat) :
    (m.addRoom ⟨added, .new added.rotator seed, [], []⟩).Sound where
  roomIds := by
    have hid := room?_eq_none_iff.mp hfree
    simpa [Memory.addRoom, List.nodup_append, h.roomIds] using hid
  userIds := h.userIds
  queueIds := h.queueIds
  inStep := by
    intro state hstate
    rcases List.mem_append.mp hstate with hold | hnew
    · exact h.inStep state hold
    · rw [List.mem_singleton.mp hnew]
      exact ⟨Rotator.keepsTo_new _ _, Rotator.kind_new _ _⟩
  members := by
    intro state hstate
    rcases List.mem_append.mp hstate with hold | hnew
    · exact h.members state hold
    · rw [List.mem_singleton.mp hnew]
      exact h.owners_of_none hfree
  owned := by
    intro named hnamed
    refine ⟨?_, (h.owned named hnamed).2⟩
    rw [room?_addRoom, Option.isSome_or, (h.owned named hnamed).1]
    rfl
  stocked := h.stocked
  served := by
    intro state hstate
    rcases List.mem_append.mp hstate with hold | hnew
    · exact h.served state hold
    · simp [List.mem_singleton.mp hnew]

theorem setTrack (h : m.Sound) (track : Track) : (m.setTrack track).Sound where
  roomIds := h.roomIds
  userIds := h.userIds
  queueIds := h.queueIds
  inStep := h.inStep
  members := h.members
  owned := h.owned
  stocked := fun named hnamed =>
    ⟨(h.stocked named hnamed).holds, fun item hitem =>
      mem_library_setTrack track ((h.stocked named hnamed).kept item hitem)⟩
  served := fun state hstate entry hentry =>
    mem_library_setTrack track (h.served state hstate entry hentry)

theorem owners_setQueue (changed : Queue) (room : RoomId) :
    (m.setQueue id changed).owners room = m.owners room := by
  have howners : ∀ m : Memory, m.owners room =
      ((m.queues.map Prod.fst).filter fun id => id.room = room).map QueueId.user := by
    intro m
    simp [Memory.owners, List.filter_map, Function.comp_def]
  rw [howners, howners, map_fst_setQueue]

theorem setQueue (h : m.Sound) (id : QueueId) {changed : Queue}
    (hchanged : Stocked m.library changed) : (m.setQueue id changed).Sound where
  roomIds := h.roomIds
  userIds := h.userIds
  queueIds := by
    rw [map_fst_setQueue]
    exact h.queueIds
  inStep := h.inStep
  members := fun state hstate => (owners_setQueue changed _).trans (h.members state hstate)
  owned := by
    intro named hnamed
    rcases mem_setQueue hnamed with ⟨rfl, hid⟩ | ⟨hold, -⟩
    · rcases List.mem_map.mp hid with ⟨before, hbefore, hname⟩
      have howned := h.owned before hbefore
      rw [hname] at howned
      exact howned
    · exact h.owned named hold
  stocked := by
    intro named hnamed
    rcases mem_setQueue hnamed with ⟨rfl, -⟩ | ⟨hold, -⟩
    · exact hchanged
    · exact h.stocked named hold
  served := h.served

end Sound

def enroll (user : UserId) (state : RoomState) : RoomState :=
  { state with members := state.members ++ [user], rotator := state.rotator.add }

theorem room_enroll (user : UserId) (state : RoomState) :
    (enroll user state).room = state.room :=
  rfl

def welcome (room : RoomId) (user : UserId) (m : Memory) : Memory :=
  (m.addQueue ⟨room, user⟩).modifyRoom room (enroll user)

theorem length_members_enroll (user : UserId) (state : RoomState) :
    (enroll user state).members.length = state.members.length + 1 :=
  List.length_append

theorem InStep.enroll (h : InStep state) (user : UserId) : InStep (enroll user state) where
  keeps := by
    rw [length_members_enroll]
    exact h.keeps.add
  kind := state.rotator.kind_add.trans h.kind

theorem owners_welcome (other : RoomId) :
    (m.welcome room user).owners other = m.owners other ++ if room = other then [user] else
    [] := by
  simp only [owners, welcome, modifyRoom, addQueue, List.filter_append, List.map_append]
  split <;> simp_all

theorem room?_isSome_modifyRoom {change : RoomState → RoomState}
    (hroom : ∀ state, (change state).room = state.room) {other : RoomId}
    (h : (m.room? other).isSome) : ((m.modifyRoom room change).room? other).isSome := by
  rw [room?_modifyRoom hroom]
  split
  · subst_vars
    simpa using h
  · exact h

namespace Sound

theorem modifyRoom (h : m.Sound) {change : RoomState → RoomState}
    (hroom : ∀ state, (change state).room = state.room)
    (hmembers : ∀ state, (change state).members = state.members)
    (hinStep : ∀ state, m.room? room = some state → InStep (change state))
    (hserved : ∀ state, m.room? room = some state →
      ∀ entry ∈ (change state).history, entry.track.id ∈ m.library.map Track.id) :
    (m.modifyRoom room change).Sound where
  roomIds := by
    rw [map_id_modifyRoom hroom]
    exact h.roomIds
  userIds := h.userIds
  queueIds := h.queueIds
  inStep := by
    intro state hstate
    rcases mem_modifyRoom.mp hstate with ⟨before, hbefore, rfl⟩
    split
    · subst_vars
      exact hinStep before (room?_of_mem h.roomIds hbefore)
    · exact h.inStep before hbefore
  members := by
    intro state hstate
    rcases mem_modifyRoom.mp hstate with ⟨before, hbefore, rfl⟩
    split
    · rw [hroom, hmembers]
      exact h.members before hbefore
    · exact h.members before hbefore
  owned := fun named hnamed =>
    ⟨room?_isSome_modifyRoom hroom (h.owned named hnamed).1, (h.owned named hnamed).2⟩
  stocked := h.stocked
  served := by
    intro state hstate
    rcases mem_modifyRoom.mp hstate with ⟨before, hbefore, rfl⟩
    split
    · subst_vars
      exact hserved before (room?_of_mem h.roomIds hbefore)
    · exact h.served before hbefore

/-- A new member has an empty queue, stands at the end, and makes the rotator grow. -/
theorem welcome (h : m.Sound) (hroom : (m.room? room).isSome) (huser : (m.user? user).isSome)
    (hnew : m.queue? ⟨room, user⟩ = none) : (m.welcome room user).Sound where
  roomIds := by
    rw [Memory.welcome, map_id_modifyRoom (room_enroll user)]
    exact h.roomIds
  userIds := h.userIds
  queueIds := by
    have hid := queue?_eq_none_iff.mp hnew
    have hids : (m.welcome room user).queues.map Prod.fst = m.queues.map Prod.fst ++
        [⟨room, user⟩] := by
      simp [Memory.welcome, Memory.modifyRoom, addQueue]
    rw [hids, List.nodup_append]
    refine ⟨h.queueIds, List.nodup_singleton _, ?_⟩
    rintro id hmem _ hadded rfl
    exact hid (List.mem_singleton.mp hadded ▸ hmem)
  inStep := by
    intro state hstate
    rcases mem_modifyRoom.mp hstate with ⟨before, hbefore, rfl⟩
    split
    · exact (h.inStep before hbefore).enroll user
    · exact h.inStep before hbefore
  members := by
    intro state hstate
    rcases mem_modifyRoom.mp hstate with ⟨before, hbefore, rfl⟩
    have hmembers : m.owners before.room.id = before.members := h.members before hbefore
    rw [owners_welcome]
    split
    · rename_i heq
      rw [room_enroll, hmembers, if_pos heq.symm]
      rfl
    · rename_i hne
      simp [Ne.symm hne, hmembers]
  owned := by
    intro named hnamed
    have hkept : ∀ {other : RoomId}, (m.room? other).isSome →
        ((m.welcome room user).room? other).isSome :=
      fun hother => room?_isSome_modifyRoom (room_enroll user) hother
    rcases List.mem_append.mp hnamed with hold | hadded
    · exact ⟨hkept (h.owned named hold).1, (h.owned named hold).2⟩
    · rw [List.mem_singleton.mp hadded]
      exact ⟨hkept hroom, huser⟩
  stocked := by
    intro named hnamed
    rcases List.mem_append.mp hnamed with hold | hadded
    · exact h.stocked named hold
    · rw [List.mem_singleton.mp hadded]
      exact ⟨Queue.holds_empty, by simp [Queue.items, Queue.toList, Queue.empty,
        Queue.walkFrom]⟩
  served := by
    intro state hstate
    rcases mem_modifyRoom.mp hstate with ⟨before, hbefore, rfl⟩
    split <;> exact h.served before hbefore

end Sound
end Memory
end Jukebox
