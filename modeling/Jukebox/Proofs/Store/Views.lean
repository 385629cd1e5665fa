import Jukebox.Proofs.RoomName
import Jukebox.Proofs.Store.Mirror

/-!
# What mirroring tables show

The look-ups that put several tables together: the members of a room with their pointers, the
tracks of a queue, and the history of a room. From mirroring tables they give what the memory
holds; only the tracks of a history are described as they are now.
-/

namespace Jukebox
namespace Mirrors

open Tables

/-!
## Rows that are all found
-/

section Rows

variable {α β γ ε : Type}

theorem map_filterMap {f : α → Option β} {g : β → γ} {k : α → γ} {rows : List α}
    (h : ∀ row ∈ rows, ∃ found, f row = some found ∧ g found = k row) :
    (rows.filterMap f).map g = rows.map k := by
  induction rows with
  | nil => rfl
  | cons row rest ih =>
      rcases h row List.mem_cons_self with ⟨found, hfound, hkey⟩
      rw [List.filterMap_cons_some hfound, List.map_cons, List.map_cons, hkey,
        ih fun other hother => h other (List.mem_cons_of_mem _ hother)]

theorem mapM_eq_ok {f : α → Except ε β} {rows : List α} {found : List β}
    (h : rows.map f = found.map .ok) : rows.mapM f = .ok found := by
  induction rows generalizing found with
  | nil =>
      rw [List.map_nil, eq_comm, List.map_eq_nil_iff] at h
      rw [h]
      rfl
  | cons row rest ih =>
      cases found with
      | nil => cases h
      | cons first others =>
          simp only [List.map_cons, List.cons.injEq] at h
          rw [List.mapM_cons, h.1, ih h.2]
          rfl

end Rows

variable {m : Memory} {t : Tables} {room : RoomId} {state : RoomState} {id : QueueId}
    {queue : Queue}

/-!
## Members
-/

theorem map_named_filter (h : Mirrors m t) (room : RoomId) :
    (t.queues.filter fun row => row.queue.room = room).map QueueRow.named =
      (m.queues.filter fun named => named.1.room = room).map fun named =>
        (named.1, named.2.pointer) := by
  have hrows : (t.queues.filter fun row => row.queue.room = room).map QueueRow.named =
      (t.queues.map QueueRow.named).filter fun named => named.1.room = room := by
    rw [List.filter_map]
    rfl
  rw [hrows, h.pointers, Memory.pointers, List.filter_map]
  rfl

/-- Join positions ascend in the order in which the queues were made. -/
theorem queuesOf_eq (h : Mirrors m t) (room : RoomId) :
    t.queuesOf room = t.queues.filter fun row => row.queue.room = room := by
  refine List.mergeSort_of_pairwise ?_
  have hpositions := h.positions room
  rw [Tables.positions] at hpositions
  have hascending : ((t.queues.filter fun row => row.queue.room = room).map
      QueueRow.joinOrder).Pairwise (· ≤ ·) := by
    rw [hpositions]
    exact List.pairwise_le_range
  simpa [List.pairwise_map] using hascending

theorem map_named_queuesOf (h : Mirrors m t) (room : RoomId) :
    (t.queuesOf room).map QueueRow.named =
      (m.queues.filter fun named => named.1.room = room).map fun named =>
        (named.1, named.2.pointer) := by
  rw [h.queuesOf_eq, h.map_named_filter]

theorem length_queuesOf (h : Mirrors m t) (room : RoomId) :
    (t.queuesOf room).length = (m.owners room).length := by
  rw [← List.length_map (f := QueueRow.named), h.map_named_queuesOf, Memory.owners]
  simp

theorem exists_queue_of_row (h : Mirrors m t) (hsound : m.Sound) {row : QueueRow}
    (hrow : row ∈ t.queues) :
    ∃ queue, m.queue? row.queue = some queue ∧ queue.pointer = row.pointer := by
  have hnamed := List.mem_map_of_mem (f := QueueRow.named) hrow
  rw [h.pointers] at hnamed
  rcases List.mem_map.mp hnamed with ⟨⟨id, queue⟩, hmem, heq⟩
  have hid : id = row.queue := congrArg Prod.fst heq
  subst hid
  exact ⟨queue, Memory.queue?_of_mem hsound.queueIds hmem, congrArg Prod.snd heq⟩

theorem exists_user_of_row (h : Mirrors m t) (hsound : m.Sound) {row : QueueRow}
    (hrow : row ∈ t.queuesOf room) : ∃ user, m.user? row.queue.user = some user := by
  rw [h.queuesOf_eq] at hrow
  rcases h.exists_queue_of_row hsound (List.mem_filter.mp hrow).1 with ⟨queue, hqueue, -⟩
  exact hsound.exists_owner hqueue

theorem membersOf_eq (h : Mirrors m t) (hsound : m.Sound) (room : RoomId) :
    (t.membersOf room).map (fun member => (member.1.named, some member.2)) =
      (m.queues.filter fun named => named.1.room = room).map fun named =>
        ((named.1, named.2.pointer), m.user? named.1.user) := by
  have hrows : (t.membersOf room).map (fun member => (member.1.named, some member.2)) =
      (t.queuesOf room).map fun row => (row.named, m.user? row.named.1.user) := by
    refine map_filterMap ?_
    intro row hrow
    rcases h.exists_user_of_row hsound hrow with ⟨user, huser⟩
    refine ⟨(row, user), ?_, ?_⟩
    · rw [h.user?_eq, huser]
      rfl
    · exact congrArg (Prod.mk row.named) huser.symm
  have hseats : ((t.queuesOf room).map fun row => (row.named, m.user? row.named.1.user)) =
      ((t.queuesOf room).map QueueRow.named).map fun named =>
      (named, m.user? named.1.user) := by
    rw [List.map_map]
    rfl
  rw [hrows, hseats, h.map_named_queuesOf, List.map_map]
  rfl

theorem isSome_pointer (hsound : m.Sound) {named : QueueId × Queue}
    (hnamed : named ∈ m.queues) : named.2.pointer.isSome = named.2.next?.isSome := by
  have hholds := (hsound.stocked named hnamed).holds
  rw [← Option.isSome_map (f := QueueEntry.item) (x := named.2.next?), hholds.next?_item,
    hholds.pointer, Playlist.nextId?, Option.isSome_map]

theorem queue?_of_mem_filter (hsound : m.Sound) {named : QueueId × Queue}
    (hnamed : named ∈ m.queues.filter fun named => named.1.room = room) :
    m.queue? ⟨room, named.1.user⟩ = some named.2 := by
  rcases named with ⟨⟨place, owner⟩, found⟩
  rcases List.mem_filter.mp hnamed with ⟨hmem, hid⟩
  have hid : place = room := of_decide_eq_true hid
  subst hid
  exact Memory.queue?_of_mem hsound.queueIds hmem

theorem map_pointer_membersOf (h : Mirrors m t) (hsound : m.Sound)
    (hroom : m.room? room = some state) :
    (t.membersOf room).map (fun member => member.1.pointer.isSome) = m.candidates state := by
  have hmembers := congrArg (List.map fun seat => seat.1.2.isSome) (h.membersOf_eq hsound room)
  rw [List.map_map, List.map_map] at hmembers
  have hpointers : (t.membersOf room).map (fun member => member.1.pointer.isSome) =
      (m.queues.filter fun named => named.1.room = room).map fun named =>
        named.2.pointer.isSome :=
    hmembers
  rw [hpointers, Memory.candidates, ← hsound.owners_of_room? hroom,
    (Memory.mem_of_room? hroom).2, Memory.owners, List.map_map]
  apply List.map_congr_left
  intro named hnamed
  rw [isSome_pointer hsound (List.mem_filter.mp hnamed).1, Function.comp_apply,
    queue?_of_mem_filter hsound hnamed]
  rfl

theorem exists_membersOf (h : Mirrors m t) (hsound : m.Sound)
    (hroom : m.room? room = some state) {index : Nat} {member : UserId}
    (hmember : state.members[index]? = some member) {user : User}
    (huser : m.user? member = some user) (hqueue : m.queue? ⟨room, member⟩ = some queue) :
    ∃ position, (t.membersOf room)[index]? = some
      (⟨⟨room, member⟩, position, queue.pointer⟩, user) := by
  rw [← hsound.owners_of_room? hroom, Memory.owners, List.getElem?_map, Option.map_eq_some_iff]
    at hmember
  rcases hmember with ⟨named, hnamed, rfl⟩
  have hfilter := List.mem_of_getElem? hnamed
  have hid : named.1 = ⟨room, named.1.user⟩ := by
    rw [← of_decide_eq_true (List.mem_filter.mp hfilter).2]
  have hsame : named.2 = queue :=
    Option.some.inj ((queue?_of_mem_filter hsound hfilter).symm.trans hqueue)
  have hseat := congrArg (fun seats => seats[index]?) (h.membersOf_eq hsound room)
  simp only [List.getElem?_map, hnamed, Option.map_some, huser, Option.map_eq_some_iff]
    at hseat
  rcases hseat with ⟨⟨⟨name, position, pointer⟩, found⟩, hfound, heq⟩
  simp only [QueueRow.named, Prod.mk.injEq, Option.some.injEq] at heq
  rcases heq with ⟨⟨rfl, rfl⟩, rfl⟩
  refine ⟨position, ?_⟩
  rw [hfound, ← hid, hsame]

theorem map_snd_membersOf (h : Mirrors m t) (hsound : m.Sound) (room : RoomId) :
    ((t.membersOf room).map Prod.snd).map some = (m.owners room).map m.user? := by
  have hmembers := congrArg (List.map Prod.snd) (h.membersOf_eq hsound room)
  rw [List.map_map, List.map_map] at hmembers
  rw [List.map_map, Memory.owners, List.map_map]
  exact hmembers

theorem map_id_membersOf (h : Mirrors m t) (hsound : m.Sound) (room : RoomId) :
    ((t.membersOf room).map fun member => member.2.id) = m.owners room := by
  have hids := congrArg (List.map (Option.map User.id)) (h.map_snd_membersOf hsound room)
  have howners : ((m.owners room).map m.user?).map (Option.map User.id) =
      (m.owners room).map some := by
    rw [List.map_map]
    apply List.map_congr_left
    intro user huser
    rcases Option.isSome_iff_exists.mp
      (Memory.queue?_isSome_iff.mpr (Memory.mem_owners.mp huser)) with
      ⟨queue, hqueue⟩
    rcases hsound.exists_owner hqueue with ⟨found, hfound⟩
    rw [Function.comp_apply, hfound, Option.map_some, (Memory.mem_of_user? hfound).2]
  rw [howners] at hids
  have hlists := congrArg (List.filterMap id) hids
  simpa [List.filterMap_map, Function.comp_def] using hlists

theorem run_listMembers (h : Mirrors m t) (hsound : m.Sound)
    (hroom : m.room? room = some state) :
    (listMembers room).run t = (.ok (state.members.filterMap m.user?), t) := by
  have hlist : (t.membersOf room).map Prod.snd = (m.owners room).filterMap m.user? := by
    have hfound := congrArg (List.filterMap id) (h.map_snd_membersOf hsound room)
    simpa [List.filterMap_map] using hfound
  simp [listMembers, h.run_fetchRoom hroom, hlist, hsound.owners_of_room? hroom]

/-!
## Searching
-/

theorem byName_map {α β : Type} (name : β → String) (view : α → β) (items : List α) :
    Store.byName name (items.map view) =
      (Store.byName (fun item => name (view item)) items).map view := by
  rw [Store.byName, Store.byName, List.map_mergeSort]
  exact fun _ _ _ _ => rfl

theorem filter_rooms (h : Mirrors m t) (query : String) :
    (t.rooms.filter fun row =>
        Store.like (Store.containing (normalizeName query).toList) row.normalizedName.toList) =
      (m.rooms.filter fun state => Store.nameMatches (normalizeName query)
        (normalizeName state.room.displayName)).map RoomState.row := by
  have hlike : ∀ state : RoomState,
      Store.like (Store.containing (normalizeName query).toList)
        state.row.normalizedName.toList = Store.nameMatches (normalizeName query)
          (normalizeName state.room.displayName) :=
    fun state => like_normalizeName query state.room.displayName
  rw [h.rooms, List.filter_map]
  simp only [Function.comp_def, hlike]

theorem run_searchRooms (h : Mirrors m t) (query : String) :
    (searchRooms (normalizeName query)).run t =
      (.ok (Store.byName Room.displayName ((m.rooms.map RoomState.room).filter fun room =>
        Store.nameMatches (normalizeName query) (normalizeName room.displayName))), t) := by
  have hread : (Store.byName RoomRow.displayName (t.rooms.filter fun row =>
      Store.like (Store.containing (normalizeName query).toList)
        row.normalizedName.toList)).mapM readRoom =
        .ok (Store.byName Room.displayName ((m.rooms.map RoomState.room).filter fun room =>
          Store.nameMatches (normalizeName query) (normalizeName room.displayName))) := by
    have hname : ∀ state : RoomState, state.row.displayName = state.room.displayName :=
      fun _ => rfl
    refine mapM_eq_ok ?_
    rw [h.filter_rooms, byName_map, List.filter_map, byName_map, List.map_map, List.map_map]
    simp only [Function.comp_def, hname, readRoom_row]
  simp only [searchRooms, Action.run_bind, Action.run_get, Action.run_lift, hread]

/-!
## Whose turn it is
-/

theorem pickMember_nobody (h : Mirrors m t) (hsound : m.Sound)
    (hroom : m.room? room = some state) {rotator : Rotator}
    (hturn : Rotation.nextTurn (m.candidates state) state.rotator = some (.nobody, rotator)) :
    pickMember room (t.membersOf room) state.rotator = .error .exhausted := by
  rw [pickMember, h.map_pointer_membersOf hsound hroom, hturn]

theorem pickMember_taken (h : Mirrors m t) (hsound : m.Sound)
    (hroom : m.room? room = some state) {rotator : Rotator} {index : Nat}
    (hturn : Rotation.nextTurn (m.candidates state) state.rotator =
      some (.taken index, rotator))
    {member : UserId} (hmember : state.members[index]? = some member) {user : User}
    (huser : m.user? member = some user) (hqueue : m.queue? ⟨room, member⟩ = some queue)
    {entry : EntryId} (hpointer : queue.pointer = some entry) :
    pickMember room (t.membersOf room) state.rotator = .ok (user, entry, rotator) := by
  rcases h.exists_membersOf hsound hroom hmember huser hqueue with ⟨position, hseat⟩
  rw [hpointer] at hseat
  rw [pickMember, h.map_pointer_membersOf hsound hroom, hturn]
  simp only [hseat]

/-!
## Tracks
-/

def described (m : Memory) (entries : List QueueEntry) : List (EntryId × Track) :=
  entries.filterMap fun entry => (m.track? entry.track).map fun track =>
    (entry.id, track.stored)

theorem lookup_described {entries : List QueueEntry}
    (hdistinct : (entries.map QueueEntry.id).Nodup)
    (htracks : ∀ entry ∈ entries, ∃ track, m.track? entry.track = some track)
    {entry : QueueEntry} (hentry : entry ∈ entries) :
    (described m entries).lookup entry.id = (m.track? entry.track).map Track.stored := by
  induction entries with
  | nil => cases hentry
  | cons first rest ih =>
      rw [List.map_cons, List.nodup_cons] at hdistinct
      rcases htracks first List.mem_cons_self with ⟨track, htrack⟩
      have hcons : described m (first :: rest) = (first.id, track.stored) ::
          described m rest := by
        simp [described, htrack]
      rw [hcons]
      rcases List.mem_cons.mp hentry with rfl | hrest
      · rw [List.lookup_cons_self, htrack, Option.map_some]
      · have hother : entry.id ≠ first.id := fun heq =>
          hdistinct.1 (heq ▸ List.mem_map_of_mem hrest)
        rw [List.lookup_cons, beq_eq_false_iff_ne.mpr hother]
        exact ih hdistinct.2 (fun other hmem => htracks other (List.mem_cons_of_mem _ hmem))
          hrest

theorem exists_track_of_row (h : Mirrors m t) (hsound : m.Sound)
    (hqueue : m.queue? id = some queue) {entry : QueueEntry}
    (hentry : entry ∈ entriesIn t.entries id) :
    ∃ track, m.track? entry.track = some track := by
  have hlinks := (h.entries_perm hqueue).trans (hsound.holds hqueue).links
  have hitem := List.mem_map_of_mem (f := QueueEntry.item) (hlinks.mem_iff.mp hentry)
  rw [Queue.link, Queue.map_item_chain] at hitem
  exact hsound.exists_track hqueue hitem

theorem ofEntries_rows (h : Mirrors m t) (hsound : m.Sound)
    (hqueue : m.queue? id = some queue) :
    Queue.ofEntries (entriesIn t.entries id) queue.pointer = .ok queue := by
  have hholds := hsound.holds hqueue
  have hlinks := (h.entries_perm hqueue).trans hholds.links
  rcases Queue.ofEntries_of_perm hlinks hholds.nodup hholds.playedFirst
    with ⟨rebuilt, hrebuilt, hsame⟩
  rwa [hsame.unique hholds, ← hholds.pointer] at hrebuilt

def readEntry (m : Memory) (entry : QueueEntry) : Except StoreError (EntryId × Track) :=
  match m.track? entry.track with
  | some track => .ok (entry.id, track.stored)
  | none => .error (.notFound (.track entry.track))

theorem map_ok_described {entries : List QueueEntry}
    (htracks : ∀ entry ∈ entries, ∃ track, m.track? entry.track = some track) :
    (described m entries).map .ok = entries.map (readEntry m) := by
  refine map_filterMap ?_
  intro entry hentry
  rcases htracks entry hentry with ⟨track, htrack⟩
  exact ⟨(entry.id, track.stored), by rw [htrack]; rfl, by rw [readEntry, htrack]⟩

theorem run_listTracks (h : Mirrors m t) (hsound : m.Sound) (hqueue : m.queue? id = some queue)
    (filter : QueueFilter) :
    (listTracks id filter).run t =
      (.ok ((m.describe (queue.list filter)).map QueueTrack.stored), t) := by
  have hholds := hsound.holds hqueue
  have hlinks := (h.entries_perm hqueue).trans hholds.links
  have htracks : ∀ entry ∈ entriesIn t.entries id, ∃ track, m.track? entry.track =
      some track :=
    fun entry hentry => h.exists_track_of_row hsound hqueue hentry
  generalize hrows : ((t.entriesOf id).filterMap fun row =>
    (t.track? row.entry.track).map fun track => (row.entry, track)) = rows
  have hentries : rows.map Prod.fst = entriesIn t.entries id := by
    rw [← hrows]
    refine map_filterMap ?_
    intro row hrow
    rcases htracks row.entry (List.mem_map_of_mem hrow) with ⟨track, htrack⟩
    exact ⟨(row.entry, track.row), by rw [h.tracks, htrack]; rfl, rfl⟩
  have hread : rows.mapM (fun row => (readTrack row.2).map fun track => (row.1.id, track)) =
      .ok (described m (entriesIn t.entries id)) := by
    refine mapM_eq_ok ?_
    rw [map_ok_described htracks, ← entriesOf_map, List.map_map, ← hrows]
    refine map_filterMap ?_
    intro row hrow
    rcases htracks row.entry (List.mem_map_of_mem hrow) with ⟨track, htrack⟩
    refine ⟨(row.entry, track.row), by rw [h.tracks, htrack]; rfl, ?_⟩
    rw [readTrack_row, Function.comp_apply, readEntry, htrack]
    rfl
  have hanswer : ((queue.list filter).filterMap fun entry =>
      ((described m (entriesIn t.entries id)).lookup entry.id).map fun track =>
        (⟨entry.id, entry.played, track⟩ : QueueTrack)) =
          (m.describe (queue.list filter)).map QueueTrack.stored := by
    rw [Memory.describe, List.map_filterMap]
    refine List.filterMap_congr fun entry hentry => ?_
    have hmem : entry ∈ entriesIn t.entries id := by
      rw [hlinks.mem_iff, ← hholds.toList_eq]
      exact (List.mem_filter.mp hentry).1
    rw [lookup_described (nodup_entriesIn h.entries.distinct id) htracks hmem, Option.map_map,
      Option.map_map]
    rfl
  simp [listTracks, h.run_fetchPointer hqueue, hrows, hread, hentries,
    h.ofEntries_rows hsound hqueue, Except.mapError, hanswer]

/-!
## Histories
-/

theorem exists_track_of_play (h : Mirrors m t) (hsound : m.Sound) {row : HistoryRow}
    (hrow : row ∈ t.history) : ∃ track, m.track? row.track = some track := by
  have hplay : row.play ∈ (m.historyOf row.room).map TrackEntry.play := by
    rw [← h.plays]
    exact List.mem_map_of_mem (List.mem_filter.mpr ⟨hrow, decide_eq_true rfl⟩)
  rcases List.mem_map.mp hplay with ⟨entry, hentry, heq⟩
  have htrack : entry.track.id = row.track := congrArg Play.track heq
  rw [Memory.historyOf] at hentry
  cases hroom : m.room? row.room with
  | none =>
      rw [hroom] at hentry
      cases hentry
  | some state =>
      rw [hroom] at hentry
      have hkept := hsound.served state (Memory.mem_of_room? hroom).1 entry hentry
      rw [htrack] at hkept
      exact Option.isSome_iff_exists.mp (Memory.track?_isSome_iff.mpr hkept)

def readPlay (m : Memory) (play : Play) : Except StoreError TrackEntry :=
  match m.track? play.track with
  | some track => .ok (play.entry track.stored)
  | none => .error (.notFound (.track play.track))

theorem readPlay_play {entry : TrackEntry} {track : Track}
    (htrack : m.track? entry.track.id = some track) :
    readPlay m entry.play = .ok (m.redescribe entry) := by
  have htrack' : m.track? entry.play.track = some track := htrack
  rw [readPlay, htrack', Memory.redescribe, htrack]
  rfl

/-- The history of a room is read with the descriptions that its tracks have now. -/
theorem map_readHistory (h : Mirrors m t) (hsound : m.Sound) (room : RoomId) :
    (t.historyOf room).map readHistory = ((m.historyOf room).map m.redescribe).map .ok := by
  have hrows : (t.historyOf room).map readHistory =
      (t.history.filter fun row => row.room = room).map fun row => readPlay m row.play := by
    refine map_filterMap ?_
    intro row hrow
    rcases h.exists_track_of_play hsound (List.mem_filter.mp hrow).1 with ⟨track, htrack⟩
    have htrack' : m.track? row.play.track = some track := htrack
    refine ⟨(row, track.row), by rw [h.tracks, htrack]; rfl, ?_⟩
    rw [readHistory, readTrack_row, readPlay, htrack']
    rfl
  have hplays : ((t.history.filter fun row => row.room = room).map fun row =>
      readPlay m row.play) = ((m.historyOf room).map TrackEntry.play).map (readPlay m) := by
    rw [← h.plays, List.map_map]
    rfl
  rw [hrows, hplays, List.map_map, List.map_map]
  apply List.map_congr_left
  intro entry hentry
  have hplay := List.mem_map_of_mem (f := TrackEntry.play) hentry
  rw [← h.plays] at hplay
  rcases List.mem_map.mp hplay with ⟨row, hrow, heq⟩
  rcases h.exists_track_of_play hsound (List.mem_filter.mp hrow).1 with ⟨track, htrack⟩
  have hid : row.track = entry.track.id := congrArg Play.track heq
  rw [hid] at htrack
  exact readPlay_play htrack

theorem run_listHistory (h : Mirrors m t) (hsound : m.Sound)
    (hroom : m.room? room = some state) :
    (listHistory room).run t = (.ok (state.history.map m.redescribe), t) := by
  have hread := mapM_eq_ok (h.map_readHistory hsound room)
  rw [Memory.historyOf, hroom] at hread
  simp [listHistory, h.run_fetchRoom hroom, hread]

end Mirrors
end Jukebox
