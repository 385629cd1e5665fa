import Jukebox.Proofs.Memory.Steps

/-!
# What every step in memory keeps

A step leaves a sound store sound and answers no fault. Three more facts grow with the
operations that were performed: how large rooms and rotators can be, which identifiers entries
have, and which descriptions tracks have.
-/

namespace Jukebox

/-- Whether an error says that the store itself is broken or closed. -/
def StoreError.IsFault : StoreError → Prop
  | .integrity _ | .internal | .writerClosed => True
  | .notFound _ | .conflict _ | .exhausted => False

namespace Operation

def newEntries : Operation → List EntryId
  | .addTrack _ _ _ entry => [entry]
  | _ => []

def queued : Operation → Except StoreError Reply → List Track
  | .addTrack _ track _ _, .ok _ => [track]
  | _, _ => []

end Operation

namespace Memory

open Playlist Rotation

/-- Whether a room's rotator is well-formed and as large as the room has members, and the
members and the orders that it drew are together less than a number. -/
structure Counts (bound : Nat) (state : RoomState) : Prop where
  wellFormed : state.rotator.WellFormed
  size : state.rotator.size = state.members.length
  few : state.members.length + state.rotator.orders < bound

def Within (bound : Nat) (m : Memory) : Prop :=
  ∀ state ∈ m.rooms, Counts bound state

def EntriesFrom (entries : List EntryId) (m : Memory) : Prop :=
  ∀ named ∈ m.queues, ∀ item ∈ named.2.items, item.id ∈ entries

/-- Whether all kept tracks, and all tracks in histories, are described as in a list. -/
structure TracksFrom (tracks : List Track) (m : Memory) : Prop where
  library : ∀ track ∈ m.library, track ∈ tracks
  history : ∀ state ∈ m.rooms, ∀ entry ∈ state.history, entry.track ∈ tracks

variable {config : Config} {m changed : Memory} {operation : Operation}
  {answer : Except StoreError Reply}

/-!
## Soundness
-/

theorem mem_insert {front back : List Item} {new item : Item}
    (h : item ∈ front ++ new :: back) : item = new ∨ item ∈ front ++ back := by
  simp only [List.mem_append, List.mem_cons] at h ⊢
  tauto

theorem sound_added (h : m.Sound) {id : QueueId} {track : Track} {entry : EntryId}
    {queue q : Queue} (hqueue : m.queue? id = some queue) {front back : List Item}
    (hcut : queue.items = front ++ back)
    (hchanged : q.Holds (front ++ ⟨entry, track.id, false⟩ :: back)) :
    ((m.setQueue id q).setTrack track).Sound := by
  have hstocked : Stocked (m.setTrack track).library q := by
    refine ⟨hchanged.items_eq.symm ▸ hchanged, ?_⟩
    intro item hitem
    rw [hchanged.items_eq] at hitem
    rcases mem_insert hitem with rfl | hold
    · simp [Memory.setTrack]
    · exact mem_library_setTrack track ((h.stocked_of_queue? hqueue).kept item (hcut ▸ hold))
  exact (h.setTrack track).setQueue id hstocked

theorem sound_removed (h : m.Sound) {id : QueueId} {queue q : Queue}
    (hqueue : m.queue? id = some queue) {front back : List Item} {item : Item}
    (hcut : queue.items = front ++ item :: back) (hchanged : q.Holds (front ++ back)) :
    (m.setQueue id q).Sound := by
  refine h.setQueue id ⟨hchanged.items_eq.symm ▸ hchanged, ?_⟩
  intro other hother
  rw [hchanged.items_eq] at hother
  refine (h.stocked_of_queue? hqueue).kept other (hcut ▸ ?_)
  simp only [List.mem_append, List.mem_cons] at hother ⊢
  tauto

theorem sound_served (h : m.Sound) {room : RoomId} {state : RoomState}
    (hroom : m.room? room = some state) (asks : Nat) {member : UserId}
    (hmember : member ∈ state.members) {queue q : Queue}
    (hqueue : m.queue? ⟨room, member⟩ = some queue) {front back : List Item} {item : Item}
    (hcut : queue.items = front ++ item :: back)
    (hchanged : q.Holds (front ++ item.play :: back))
    {track : Track} (htrack : m.track? item.track = some track) (now : Timestamp) :
    (m.serve room member q (advance asks state.rotator) (.served member track now)).Sound := by
  have hstocked : Stocked m.library q := by
    refine ⟨hchanged.items_eq.symm ▸ hchanged, ?_⟩
    intro other hother
    rw [hchanged.items_eq] at hother
    have hkept := (h.stocked_of_queue? hqueue).kept
    rw [hcut] at hkept
    rcases mem_insert hother with rfl | hold
    · exact hkept item (List.mem_append_right front List.mem_cons_self)
    · refine hkept other ?_
      simp only [List.mem_append, List.mem_cons] at hold ⊢
      tauto
  have hqueued := h.setQueue ⟨room, member⟩ hstocked
  refine hqueued.modifyRoom (fun _ => rfl) (fun _ => rfl) ?_ ?_
  · intro found hfound
    have hfound : m.room? room = some found := hfound
    rw [hroom] at hfound
    cases hfound
    have hinStep := h.inStep_of_room? hroom
    have hmembers : asks = 0 ∨
        0 < state.members.length := Or.inr (List.length_pos_of_mem hmember)
    exact ⟨Rotator.keepsTo_steady.advance hinStep.keeps asks hmembers,
      (Rotator.kind_advance _ _).trans hinStep.kind⟩
  · intro found hfound entry hentry
    have hfound : m.room? room = some found := hfound
    rw [hroom] at hfound
    cases hfound
    rcases List.mem_append.mp hentry with hold | hnew
    · exact h.served state (mem_of_room? hroom).1 entry hold
    · rw [List.mem_singleton.mp hnew]
      exact List.mem_map_of_mem (mem_of_track? htrack).1

theorem flag_latest (earlier : List TrackEntry) (latest : TrackEntry) (user : UserId) :
    flag earlier.length user (earlier ++ [latest]) = earlier ++ [latest.veto user] := by
  induction earlier with
  | nil => rfl
  | cons first rest ih => exact congrArg (List.cons first) ih

theorem exists_of_mem_flag {history : List TrackEntry} {position : Nat} {user : UserId}
    {entry : TrackEntry} (h : entry ∈ flag position user history) :
    ∃ before ∈ history, entry.track = before.track := by
  rcases List.mem_iff_getElem?.mp h with ⟨i, hi⟩
  rw [flag, List.getElem?_modify, Option.map_eq_map, Option.map_eq_some_iff] at hi
  rcases hi with ⟨before, hbefore, rfl⟩
  refine ⟨before, List.mem_of_getElem? hbefore, ?_⟩
  split <;> rfl

theorem sound_vetoed (h : m.Sound) {room : RoomId} (position : Nat) (user : UserId) :
    (m.modifyRoom room (mark position user)).Sound := by
  refine h.modifyRoom (fun _ => rfl) (fun _ => rfl) ?_ ?_
  · intro state hroom
    have hinStep := h.inStep_of_room? hroom
    exact ⟨hinStep.keeps, hinStep.kind⟩
  · intro state hroom entry hentry
    rcases exists_of_mem_flag hentry with ⟨before, hbefore, htrack⟩
    rw [htrack]
    exact h.served state (mem_of_room? hroom).1 before hbefore

theorem Step.sound (hstep : Step config m operation answer changed) (h : m.Sound) :
    changed.Sound := by
  cases hstep with
  | userCreated hid => exact h.addUser hid
  | roomCreated hcodes hid => exact h.addRoom hid _
  | joined hroom huser hqueue =>
      exact h.welcome (Option.isSome_of_eq_some hroom) (Option.isSome_of_eq_some huser) hqueue
  | added hqueue hnew hcut hafter hback hchanged => exact sound_added h hqueue hcut hchanged
  | removed hqueue hcut hid hplayed hchanged => exact sound_removed h hqueue hcut hchanged
  | served hroom hasks hturn hupcoming hcandidate hmember huser hqueue hcut hfront hplayed
      hchanged htrack =>
      exact sound_served h hroom _ (List.mem_of_getElem? hmember) hqueue hcut hchanged htrack _
  | vetoed hqueue hroom hhistory hveto => exact sound_vetoed h _ _
  | _ => exact h

theorem Step.not_fault {error : StoreError}
    (hstep : Step config m operation (.error error) changed) : ¬error.IsFault := by
  cases hstep with
  | addRefused hqueue hrefused =>
      cases hrefused <;> simp [StoreError.ofQueue, StoreError.IsFault]
  | removeRefused hqueue hrefused =>
      cases hrefused <;> simp [StoreError.ofQueue, StoreError.IsFault]
  | _ => simp [StoreError.IsFault]

/-!
## Bounds
-/

section Counting

variable {bound : Nat} {state : RoomState}

theorem Counts.mono {larger : Nat} (h : Counts bound state) (hle : bound ≤ larger) :
    Counts larger state :=
  ⟨h.wellFormed, h.size, Nat.lt_of_lt_of_le h.few hle⟩

theorem Counts.orders_lt (h : Counts bound state) (hbound : bound < wordLimit) :
    state.rotator.orders + 1 < wordLimit := by
  have hfew := h.few
  omega

theorem counts_new (room : Room) (seed : Nat) :
    Counts 1 ⟨room, .new room.rotator seed, [], []⟩ where
  wellFormed := Rotator.wellFormed_new _ _
  size := Rotator.size_new _ _
  few := by simp

theorem Counts.enroll (h : Counts bound state) (hbound : bound < wordLimit) (user : UserId) :
    Counts (bound + 1) (enroll user state) := by
  have hfew := h.few
  have hroom : state.rotator.size + 1 < wordLimit := by
    rw [h.size]
    omega
  have horders : (Memory.enroll user state).rotator.orders = state.rotator.orders :=
    Rotator.orders_add _
  refine ⟨h.wellFormed.add hroom, ?_, ?_⟩
  · rw [length_members_enroll, ← h.size]
    exact Rotator.size_add hroom
  · rw [length_members_enroll, horders]
    omega

theorem Counts.advance (h : Counts bound state) (hbound : bound < wordLimit) {asks : Nat}
    (hasks : asks ≤ state.members.length) (history : List TrackEntry) :
    Counts (bound + 1)
      { state with rotator := advance asks state.rotator, history := history } := by
  have hfew := h.few
  have hlasts := h.orders_lt hbound
  have hsize : asks ≤ state.rotator.size := Nat.le_trans hasks (Nat.le_of_eq h.size.symm)
  rcases h.wellFormed.advance (.of_orders hlasts asks) hsize with ⟨hwell, hkept⟩
  have hdrawn := Rotator.orders_advance_le h.wellFormed hlasts hsize
  exact ⟨hwell, hkept.trans h.size, by simp only; omega⟩

theorem Within.mono {larger : Nat} (h : m.Within bound) (hle : bound ≤ larger) :
    m.Within larger :=
  fun state hstate => (h state hstate).mono hle

theorem Within.counts_of_room? (h : m.Within bound) {room : RoomId}
    (hroom : m.room? room = some state) : Counts bound state :=
  h state (mem_of_room? hroom).1

theorem Within.modifyRoom (h : m.Within bound) {room : RoomId} {change : RoomState → RoomState}
    (hchange : ∀ state ∈ m.rooms, state.room.id = room → Counts (bound + 1) (change state)) :
    (m.modifyRoom room change).Within (bound + 1) := by
  intro state hstate
  rcases mem_modifyRoom.mp hstate with ⟨before, hbefore, rfl⟩
  split
  · exact hchange before hbefore ‹_›
  · exact h.mono (Nat.le_succ bound) before hbefore

theorem Step.within (hstep : Step config m operation answer changed) (h : m.Sound)
    (hwithin : m.Within bound) (hbound : bound < wordLimit) : changed.Within (bound + 1) := by
  cases hstep with
  | roomCreated hcodes hid =>
      intro state hstate
      rcases List.mem_append.mp hstate with hold | hnew
      · exact hwithin.mono (Nat.le_succ bound) state hold
      · rw [List.mem_singleton.mp hnew]
        exact (counts_new _ _).mono (Nat.succ_le_succ (Nat.zero_le bound))
  | joined hroom huser hqueue =>
      refine Within.modifyRoom (m := m.addQueue _) hwithin ?_
      exact fun state hstate _ => (hwithin state hstate).enroll hbound _
  | served hroom hasks hturn hupcoming hcandidate hmember huser hqueue hcut hfront hplayed
      hchanged htrack =>
      refine Within.modifyRoom (m := m.setQueue _ _) hwithin ?_
      intro found hfound hid
      have hroom' := room?_of_mem h.roomIds hfound
      rw [hid, hroom] at hroom'
      cases hroom'
      exact (hwithin _ hfound).advance hbound hasks _
  | vetoed hqueue hroom hhistory hveto =>
      refine hwithin.modifyRoom ?_
      intro state hstate hid
      have hkept := hwithin.mono (Nat.le_succ bound) state hstate
      exact ⟨hkept.wellFormed, hkept.size, hkept.few⟩
  | _ => exact hwithin.mono (Nat.le_succ bound)

end Counting

/-!
## Identifiers of entries
-/

theorem EntriesFrom.mono {entries larger : List EntryId} (h : m.EntriesFrom entries)
    (hlarger : entries ⊆ larger) : m.EntriesFrom larger :=
  fun named hnamed item hitem => hlarger (h named hnamed item hitem)

theorem EntriesFrom.setQueue {entries : List EntryId} (h : m.EntriesFrom entries)
    (id : QueueId) {q : Queue} (hq : ∀ item ∈ q.items, item.id ∈ entries) :
    (m.setQueue id q).EntriesFrom entries := by
  intro named hnamed
  rcases mem_setQueue hnamed with ⟨rfl, -⟩ | ⟨hold, -⟩
  · exact hq
  · exact h named hold

theorem EntriesFrom.of_holds {entries : List EntryId} (h : m.EntriesFrom entries)
    {id : QueueId} {queue q : Queue} (hqueue : m.queue? id = some queue) {items : List Item}
    (hq : q.Holds items) (hitems : ∀ item ∈ items, item.id ∈ ids queue.items ∨
      item.id ∈ entries) :
    (m.setQueue id q).EntriesFrom entries := by
  refine h.setQueue id ?_
  intro item hitem
  rw [hq.items_eq] at hitem
  rcases hitems item hitem with hold | hnew
  · rcases List.mem_map.mp hold with ⟨before, hbefore, heq⟩
    rw [← heq]
    exact h _ (mem_of_queue? hqueue) before hbefore
  · exact hnew

theorem Step.entriesFrom (hstep : Step config m operation answer changed)
    {entries : List EntryId} (h : m.EntriesFrom entries) :
    changed.EntriesFrom (entries ++ operation.newEntries) := by
  have hgrown := h.mono (List.subset_append_left entries operation.newEntries)
  cases hstep with
  | joined hroom huser hqueue =>
      intro named hnamed
      rcases List.mem_append.mp hnamed with hold | hnew
      · exact hgrown named hold
      · simp [List.mem_singleton.mp hnew, Queue.items, Queue.toList, Queue.empty,
          Queue.walkFrom]
  | added hqueue hnew hcut hafter hback hchanged =>
      refine hgrown.of_holds hqueue hchanged ?_
      intro item hitem
      rcases mem_insert hitem with rfl | hold
      · exact Or.inr (by simp [Operation.newEntries])
      · exact Or.inl (hcut ▸ List.mem_map_of_mem hold)
  | removed hqueue hcut hid hplayed hchanged =>
      refine hgrown.of_holds hqueue hchanged ?_
      intro item hitem
      refine Or.inl (hcut ▸ List.mem_map_of_mem ?_)
      simp only [List.mem_append, List.mem_cons] at hitem ⊢
      tauto
  | served hroom hasks hturn hupcoming hcandidate hmember huser hqueue hcut hfront hplayed
      hchanged htrack =>
      refine hgrown.of_holds hqueue hchanged ?_
      intro item hitem
      refine Or.inl ?_
      rw [hcut, ← ids_play]
      exact List.mem_map_of_mem hitem
  | _ => exact hgrown

/-!
## Descriptions of tracks
-/

theorem TracksFrom.mono {tracks larger : List Track} (h : m.TracksFrom tracks)
    (hlarger : tracks ⊆ larger) : m.TracksFrom larger :=
  ⟨fun track htrack => hlarger (h.library track htrack),
    fun state hstate entry hentry => hlarger (h.history state hstate entry hentry)⟩

theorem TracksFrom.modifyRoom {tracks : List Track} (h : m.TracksFrom tracks) (room : RoomId)
    {change : RoomState → RoomState}
    (hchange : ∀ state ∈ m.rooms, ∀ entry ∈ (change state).history, entry.track ∈ tracks) :
    (m.modifyRoom room change).TracksFrom tracks := by
  refine ⟨h.library, ?_⟩
  intro state hstate
  rcases mem_modifyRoom.mp hstate with ⟨before, hbefore, rfl⟩
  split
  · exact hchange before hbefore
  · exact h.history before hbefore

theorem Step.tracksFrom (hstep : Step config m operation answer changed) {tracks : List Track}
    (h : m.TracksFrom tracks) : changed.TracksFrom (tracks ++ operation.queued answer) := by
  have hgrown := h.mono (List.subset_append_left tracks (operation.queued answer))
  cases hstep with
  | roomCreated hcodes hid =>
      refine ⟨hgrown.library, ?_⟩
      intro state hstate
      rcases List.mem_append.mp hstate with hold | hnew
      · exact hgrown.history state hold
      · simp [List.mem_singleton.mp hnew]
  | joined hroom huser hqueue =>
      refine TracksFrom.modifyRoom (m := m.addQueue _) ⟨hgrown.library, hgrown.history⟩ _ ?_
      exact fun state hstate => hgrown.history state hstate
  | added hqueue hnew hcut hafter hback hchanged =>
      refine ⟨?_, hgrown.history⟩
      intro track htrack
      rcases List.mem_append.mp htrack with hold | hnew
      · exact hgrown.library track (List.mem_filter.mp hold).1
      · exact List.mem_append_right tracks hnew
  | served hroom hasks hturn hupcoming hcandidate hmember huser hqueue hcut hfront hplayed
      hchanged htrack =>
      refine TracksFrom.modifyRoom (m := m.setQueue _ _) ⟨hgrown.library, hgrown.history⟩ _ ?_
      intro state hstate entry hentry
      rcases List.mem_append.mp hentry with hold | hnew
      · exact hgrown.history state hstate entry hold
      · rw [List.mem_singleton.mp hnew]
        exact hgrown.library _ (mem_of_track? htrack).1
  | vetoed hqueue hroom hhistory hveto =>
      refine hgrown.modifyRoom _ ?_
      intro state hstate entry hentry
      rcases exists_of_mem_flag hentry with ⟨before, hbefore, htrack⟩
      rw [htrack]
      exact hgrown.history state hstate before hbefore
  | _ => exact ⟨hgrown.library, hgrown.history⟩

end Memory
end Jukebox
