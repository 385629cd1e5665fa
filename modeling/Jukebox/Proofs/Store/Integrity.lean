import Jukebox.Proofs.Store.Runs

/-!
# Both stores stay intact

A store is intact if in every room the rotator, the members and their queues belong together,
and every queue is one whose tracks are stored. This is stated for a memory and for tables each
in their own terms. After every run both stores are intact, and no answer ever says that a
store is broken.
-/

namespace Jukebox

open Store Memory

/-- A room whose rotator, members and queues belong together. -/
structure RoomIntact (kind : RotatorKind) (rotator : Rotator) (members : List UserId)
    (isUser hasQueue : UserId → Prop) : Prop where
  kind : rotator.kind = kind
  size : rotator.size = members.length
  wellFormed : rotator.WellFormed
  distinct : members.Nodup
  users : ∀ user ∈ members, isUser user
  queues : ∀ user, hasQueue user ↔ user ∈ members

/-- A queue that passes its own check, and whose tracks are stored. -/
structure QueueIntact (queue : Queue) (isStored : TrackId → Prop) : Prop where
  valid : queue.validate = .ok ()
  tracks : ∀ entry ∈ queue.entries, isStored entry.track

structure Memory.Intact (m : Memory) : Prop where
  rooms : ∀ state ∈ m.rooms,
    RoomIntact state.room.rotator state.rotator state.members
      (fun user => (m.user? user).isSome) fun user => (m.queue? ⟨state.room.id, user⟩).isSome
  owned : ∀ named ∈ m.queues, (m.room? named.1.room).isSome
  queues : ∀ named ∈ m.queues, QueueIntact named.2 fun track => (m.track? track).isSome

def Tables.HasTrack (t : Tables) (id : TrackId) : Prop :=
  ∃ row track, t.track? id = some row ∧ Tables.readTrack row = .ok track

/-- A row of a room whose texts can be read, and whose members stand in their join
positions. -/
structure Tables.RoomRowIntact (t : Tables) (row : RoomRow) : Prop where
  readable : ∃ kind rotator, RotatorKind.ofText? row.kind = some kind ∧
    Rotator.decode row.rotator = .ok rotator ∧
    RoomIntact kind rotator ((t.membersOf row.id).map fun member => member.2.id)
      (fun user => (t.user? user).isSome) fun user => (t.queue? ⟨row.id, user⟩).isSome
  positions : ((t.membersOf row.id).map fun member => member.1.joinOrder) =
    List.range (t.membersOf row.id).length

structure Tables.Intact (t : Tables) : Prop where
  rooms : ∀ row ∈ t.rooms, t.RoomRowIntact row
  owned : ∀ row ∈ t.queues, (t.room? row.queue.room).isSome
  queues : ∀ row ∈ t.queues, ∃ queue,
    Queue.ofEntries (Tables.entriesIn t.entries row.queue) row.pointer = .ok queue ∧
      QueueIntact queue t.HasTrack
  entries : ∀ row ∈ t.entries, (t.queue? row.queue).isSome

variable {config : Config} {m : Memory} {t : Tables} {room : RoomId} {state : RoomState}
    {id : QueueId}
  {queue : Queue} {bound : Nat}

/-!
## In memory
-/

theorem Memory.Stocked.intact {library : List Track} (h : Stocked library queue) :
    QueueIntact queue fun track => track ∈ library.map Track.id where
  valid := h.holds.validate_eq
  tracks := fun entry hentry => by
    have hitem := List.mem_map_of_mem (f := QueueEntry.item) (h.holds.links.mem_iff.mp hentry)
    rw [Queue.link, Queue.map_item_chain] at hitem
    exact h.kept _ hitem

theorem Memory.Sound.roomIntact (h : m.Sound) (hwithin : m.Within bound)
    (hroom : m.room? room = some state) :
    RoomIntact state.room.rotator state.rotator state.members
      (fun user => (m.user? user).isSome) fun user => (m.queue? ⟨room, user⟩).isSome where
  kind := (h.inStep_of_room? hroom).kind
  size := (hwithin.counts_of_room? hroom).size
  wellFormed := (hwithin.counts_of_room? hroom).wellFormed
  distinct := h.nodup_members hroom
  users := fun _ huser => Option.isSome_iff_exists.mpr (h.exists_user hroom huser)
  queues := fun _ => (h.mem_members_iff hroom).symm

theorem Memory.Sound.intact (h : m.Sound) (hwithin : m.Within bound) : m.Intact where
  rooms := fun _ hstate => h.roomIntact hwithin (room?_of_mem h.roomIds hstate)
  owned := fun named hnamed => (h.owned named hnamed).1
  queues := fun named hnamed =>
    ⟨(h.stocked named hnamed).intact.valid, fun entry hentry =>
      track?_isSome_iff.mpr ((h.stocked named hnamed).intact.tracks entry hentry)⟩

/-!
## In tables
-/

namespace Mirrors

open Tables

theorem positions_membersOf (h : Mirrors m t) (hsound : m.Sound) (room : RoomId) :
    ((t.membersOf room).map fun member => member.1.joinOrder) =
      List.range (t.membersOf room).length := by
  have hrows : ((t.membersOf room).map fun member => member.1.joinOrder) =
      (t.queuesOf room).map QueueRow.joinOrder := by
    refine map_filterMap ?_
    intro row hrow
    rcases h.exists_user_of_row hsound hrow with ⟨user, huser⟩
    exact ⟨(row, user), by rw [h.user?_eq, huser]; rfl, rfl⟩
  have hpositions := h.positions room
  rw [Tables.positions, ← h.queuesOf_eq] at hpositions
  have hcount := congrArg List.length (h.map_id_membersOf hsound room)
  rw [List.length_map] at hcount
  rw [hrows, hpositions, hcount]

theorem hasTrack (h : Mirrors m t) {name : TrackId} (hname : name ∈ m.library.map Track.id) :
    t.HasTrack name := by
  rcases Option.isSome_iff_exists.mp (track?_isSome_iff.mpr hname) with ⟨track, htrack⟩
  exact ⟨track.row, track.stored, by rw [h.tracks, htrack]; rfl, readTrack_row track⟩

theorem roomRowIntact (h : Mirrors m t) (hsound : m.Sound) (hwithin : m.Within bound)
    (hroom : m.room? room = some state) : t.RoomRowIntact state.row where
  readable := by
    have hid : state.row.id = room := (mem_of_room? hroom).2
    refine ⟨_, _, ofText?_key _, state.rotator.decode_encode, ?_⟩
    rw [hid, h.map_id_membersOf hsound, hsound.owners_of_room? hroom]
    simp only [h.user?_eq, h.queue?_isSome]
    exact hsound.roomIntact hwithin hroom
  positions := h.positions_membersOf hsound state.row.id

theorem intact (h : Mirrors m t) (hsound : m.Sound) (hwithin : m.Within bound) : t.Intact where
  rooms := by
    intro row hrow
    rw [h.rooms] at hrow
    rcases List.mem_map.mp hrow with ⟨state, hstate, rfl⟩
    exact h.roomRowIntact hsound hwithin (room?_of_mem hsound.roomIds hstate)
  owned := by
    intro row hrow
    rcases h.exists_queue_of_row hsound hrow with ⟨queue, hqueue, -⟩
    rcases hsound.exists_room hqueue with ⟨state, hroom⟩
    rw [h.room?_eq, hroom]
    rfl
  queues := by
    intro row hrow
    rcases h.exists_queue_of_row hsound hrow with ⟨queue, hqueue, hpointer⟩
    have hintact := (hsound.stocked_of_queue? hqueue).intact
    refine ⟨queue, hpointer ▸ h.ofEntries_rows hsound hqueue, hintact.valid, ?_⟩
    exact fun entry hentry => h.hasTrack (hintact.tracks entry hentry)
  entries := by
    intro row hrow
    rw [h.queue?_isSome]
    exact queue?_isSome_iff.mpr (h.entries.owned row hrow)

end Mirrors

/-!
## Along runs
-/

theorem Memory.Agree.not_fault {operation : Operation} {answer : Except StoreError Reply}
    {error : StoreError} (h : m.Agree operation answer (.error error))
    (hmemory : ∀ other, answer = .error other → ¬other.IsFault) : ¬error.IsFault := by
  generalize hfailed : Except.error error = other at h
  cases h with
  | @same _ answer =>
      cases answer with
      | ok reply => cases hfailed
      | error refused =>
          cases hfailed
          exact hmemory error rfl
  | noRoom hroom =>
      cases hfailed
      exact id
  | vetoed _ _ => cases hfailed
  | history _ => cases hfailed

theorem memory_not_fault (config : Config) {operations : List Operation} (h : Fresh operations)
    {error : StoreError}
    (hanswer : Except.error error ∈ (runAll config Memory.empty operations).1) :
    ¬error.IsFault := by
  rcases exists_operation_of_mem config hanswer with ⟨i, operation, hoperation, hi⟩
  rcases answers_agree config h hoperation with
    ⟨_, _, answer, _, -, -, hmemory, -, ⟨changed, hstep⟩, -, -⟩
  rw [hmemory] at hi
  cases hi
  exact hstep.not_fault

theorem database_not_fault (config : Config) {operations : List Operation}
    (h : Fresh operations) {error : StoreError}
    (hanswer : Except.error error ∈ (runAll config Database.empty operations).1) :
    ¬error.IsFault := by
  rcases exists_operation_of_mem config hanswer with ⟨i, operation, hoperation, hi⟩
  rcases answers_agree config h hoperation with
    ⟨_, _, answer, other, -, -, -, hdatabase, ⟨changed, hstep⟩, -, hagree⟩
  rw [hdatabase] at hi
  cases hi
  refine hagree.not_fault ?_
  rintro refused rfl
  exact hstep.not_fault

theorem intact_after (config : Config) {operations : List Operation} (h : Fresh operations)
    (hlength : operations.length < wordLimit) :
    (runAll config Memory.empty operations).2.Intact ∧
      (∃ t, (runAll config Database.empty operations).2 = Database.opened t ∧ t.Intact) ∧
      ∀ error, Except.error error ∈ (runAll config Memory.empty operations).1 ∨
        Except.error error ∈ (runAll config Database.empty operations).1 → ¬error.IsFault := by
  rcases together_after config h with ⟨t, hrun, htogether⟩
  rcases within_after config (Nat.le_of_lt hlength) with ⟨hsound, hwithin⟩
  have hintact := htogether.mirrors.intact hsound hwithin
  refine ⟨hsound.intact hwithin, ⟨t, hrun, hintact⟩, ?_⟩
  intro error hanswer
  rcases hanswer with hmemory | hdatabase
  · exact memory_not_fault config h hmemory
  · exact database_not_fault config h hdatabase

/-- A shuffled room in which Ann joins twice, and tries to take back a track that was
played. -/
def busyNight : List Operation :=
  [.createUser ⟨"ann"⟩ "Ann", .createRoom "Den" .shuffle (fun _ => ⟨"DEN"⟩) 1,
    .join ⟨"DEN"⟩ ⟨"ann"⟩, .addTrack ⟨⟨"DEN"⟩, ⟨"ann"⟩⟩ { id := ⟨"t"⟩, name := "Demo" } none
      ⟨"one"⟩,
    .nextTrack ⟨"DEN"⟩ ⟨"now", "now"⟩, .join ⟨"DEN"⟩ ⟨"ann"⟩,
    .removeTrack ⟨⟨"DEN"⟩, ⟨"ann"⟩⟩ ⟨"one"⟩]

theorem intact_after_busyNight :
    Fresh busyNight ∧ busyNight.length < wordLimit ∧
    ((runAll {} Memory.empty busyNight).2.Intact ∧
      (∃ t, (runAll {} Database.empty busyNight).2 = Database.opened t ∧ t.Intact) ∧
      ∀ error, Except.error error ∈ (runAll {} Memory.empty busyNight).1 ∨
        Except.error error ∈ (runAll {} Database.empty busyNight).1 → ¬error.IsFault) ∧
    (runAll {} Memory.empty busyNight).1.drop 4 =
      [.ok (.served ⟨⟨"ann"⟩, "Ann"⟩ { id := ⟨"t"⟩, name := "Demo" }),
        .error (.conflict (.member ⟨"ann"⟩ ⟨"DEN"⟩)),
        .error (.ofQueue ⟨⟨"DEN"⟩, ⟨"ann"⟩⟩ (.removePlayed ⟨"one"⟩))] := by
  have hfresh : Fresh busyNight := by decide
  have hlength : busyNight.length < wordLimit := by decide
  refine ⟨hfresh, hlength, intact_after {} hfresh hlength, ?_⟩
  decide +kernel

end Jukebox
