import Jukebox.Proofs.Store.TurnJobs

/-!
# The store of rows follows the store in memory

An operation on tables that mirror a memory ends as the operation in memory does, and leaves
tables that mirror the memory afterwards. Answers are equal, save that a track has lost a
length that is no finite number. The two answers that show the history describe tracks as they
are now. A veto in a room that does not exist misses the room, where a memory misses the queue.
-/

namespace Jukebox

/-- The same reply, with all tracks shown in another way. -/
def Reply.mapTracks (shown : Track → Track) : Reply → Reply
  | .tracks queued => .tracks (queued.map (QueueTrack.mapTrack shown))
  | .served owner track => .served owner (shown track)
  | .vetoed latest => .vetoed (latest.mapTrack shown)
  | .history entries => .history (entries.map (TrackEntry.mapTrack shown))
  | reply => reply

abbrev Reply.stored : Reply → Reply :=
  Reply.mapTracks Track.stored

/-- How the answers of both stores to an operation belong together. -/
inductive Memory.Agree (m : Memory) :
    Operation → Except StoreError Reply → Except StoreError Reply → Prop
  | same {operation : Operation} {answer : Except StoreError Reply} :
    Agree m operation answer (answer.map Reply.stored)
  | noRoom {room : RoomId} {user : UserId} (hroom : m.room? room = none) :
    Agree m (.markVetoed room user) (.error (.notFound (.queue ⟨room, user⟩)))
      (.error (.notFound (.room room)))
  | vetoed {room : RoomId} {user : UserId} {state : RoomState}
      (hroom : m.room? room = some state)
    {latest : TrackEntry} (hlatest : latest ∈ state.history) :
    Agree m (.markVetoed room user) (.ok (.vetoed (latest.veto user)))
      (.ok (.vetoed (m.redescribe (latest.veto user))))
  | history {room : RoomId} {state : RoomState} (hroom : m.room? room = some state) :
    Agree m (.history room) (.ok (.history state.history))
      (.ok (.history (state.history.map m.redescribe)))

namespace Database

variable {α : Type} {config : Config} {operation : Operation} {t changed : Tables}
  {job : Bool → Action Tables α} {query : Action Tables α} {reply : α → Reply}

theorem lostWriter_of_ne {error : StoreError} (h : error ≠ .writerClosed) :
    lostWriter (Except.error error : Except StoreError α) = false := by
  cases error with
  | writerClosed => exact absurd rfl h
  | _ => rfl

theorem step_write_ok {value : α} {answer : Reply}
    (hperform : Store.perform config operation = reply <$> (write job : Action Database α))
    (h : (job false).run t = (.ok value, changed)) (hreply : reply value = answer) :
    Store.step config (opened t) operation = (.ok answer, opened changed) := by
  rw [Store.step, hperform]
  simp [write, opened, Action.run_transaction_ok t h, lostWriter, hreply]

theorem step_write_error {error : StoreError}
    (hperform : Store.perform config operation = reply <$> (write job : Action Database α))
    (h : ((job false).run t).1 = .error error)
    (hopen : lostWriter (Except.error error : Except StoreError α) = false) :
    Store.step config (opened t) operation = (.error error, opened t) := by
  rw [Store.step, hperform]
  simp [write, opened, Action.run_transaction_error t h, hopen]

theorem step_read {answer : Except StoreError α}
    (hperform : Store.perform config operation = reply <$> (read query : Action Database α))
    (h : (query.run t).1 = answer) :
    Store.step config (opened t) operation = (answer.map reply, opened t) := by
  rw [Store.step, hperform]
  simp [read, opened, h]

end Database

open Tables Memory Playlist

variable {config : Config} {m changed : Memory} {t : Tables} {operation : Operation}
  {answer : Except StoreError Reply}

def Follows (config : Config) (m : Memory) (t : Tables) (operation : Operation)
    (answer : Except StoreError Reply) (changed : Memory) : Prop :=
  ∃ answer' t', Store.step config (Database.opened t) operation =
    (answer', Database.opened t') ∧ m.Agree operation answer answer' ∧ Mirrors changed t'

theorem Mirrors.follows {t' : Tables} (h : Mirrors changed t')
    {other : Except StoreError Reply}
    (hstep : Store.step config (Database.opened t) operation = (other, Database.opened t'))
    (hsame : answer.map Reply.stored = other) :
    Follows config m t operation answer changed := by
  subst hsame
  exact ⟨_, t', hstep, .same, h⟩

namespace Mirrors

/-!
## Users and rooms
-/

theorem follows_createUser {id : UserId} {name : String} (h : Mirrors m t)
    (hstep : Step config m (.createUser id name) answer changed) :
    Follows config m t (.createUser id name) answer changed := by
  cases hstep with
  | userTaken hid =>
      have hjob : ((Tables.createUser false id name).run t).1 =
          .error (.conflict (.userExists id)) := by
        simp [Tables.createUser, h.user?_eq, hid]
      exact h.follows (Database.step_write_error rfl hjob rfl) rfl
  | userCreated hid =>
      have hjob : (Tables.createUser false id name).run t =
          (.ok ⟨id, name⟩, t.insertUser ⟨id, name⟩) := by
        simp [Tables.createUser, h.user?_eq, hid]
      exact (h.insertUser ⟨id, name⟩).follows (Database.step_write_ok rfl hjob rfl) rfl

theorem follows_user {id : UserId} (h : Mirrors m t)
    (hstep : Step config m (.user id) answer changed) :
    Follows config m t (.user id) answer changed := by
  cases hstep with
  | userMissing huser =>
      have hjob : ((Tables.fetchUser id).run t).1 = .error (.notFound (.user id)) := by
        simp [Tables.fetchUser, h.user?_eq, huser]
      exact h.follows (Database.step_read rfl hjob) rfl
  | @userFound _ user huser =>
      have hjob : ((Tables.fetchUser id).run t).1 = .ok user := by
        simp [Tables.fetchUser, h.user?_eq, huser]
      exact h.follows (Database.step_read rfl hjob) rfl

theorem follows_createRoom {name : String} {kind : RotatorKind} {codes : Nat → RoomId}
    {seed : Nat} (h : Mirrors m t)
    (hstep : Step config m (.createRoom name kind codes seed) answer changed) :
    Follows config m t (.createRoom name kind codes seed) answer changed := by
  have htaken : (fun id => (t.room? id).isSome) = fun id => (m.room? id).isSome := by
    funext id
    rw [h.room?_eq, Option.isSome_map]
  cases hstep with
  | codesTaken hcodes =>
      have hjob : ((Tables.createRoom false config name kind codes seed).run t).1 =
          .error (.conflict (.codesTaken config.roomCodeAttempts)) := by
        simp [Tables.createRoom, htaken, hcodes]
      exact h.follows (Database.step_write_error rfl hjob rfl) rfl
  | @roomCreated _ _ _ _ id hcodes hid =>
      have hjob : (Tables.createRoom false config name kind codes seed).run t =
          (.ok ⟨id, name, kind⟩,
            t.insertRoom (RoomState.row ⟨⟨id, name, kind⟩, .new kind seed, [], []⟩)) := by
        simp [Tables.createRoom, htaken, hcodes]
        rfl
      exact (h.insertRoom rfl).follows (Database.step_write_ok rfl hjob rfl) rfl

theorem follows_room {room : RoomId} (h : Mirrors m t)
    (hstep : Step config m (.room room) answer changed) :
    Follows config m t (.room room) answer changed := by
  cases hstep with
  | roomMissing hroom =>
      exact h.follows (Database.step_read rfl (congrArg Prod.fst (h.run_fetchRoom_none hroom)))
        rfl
  | roomFound hroom =>
      exact h.follows (Database.step_read rfl (congrArg Prod.fst (h.run_fetchRoom hroom))) rfl

theorem follows_members {room : RoomId} (h : Mirrors m t) (hsound : m.Sound)
    (hstep : Step config m (.members room) answer changed) :
    Follows config m t (.members room) answer changed := by
  cases hstep with
  | membersNoRoom hroom =>
      have hjob : ((Tables.listMembers room).run t).1 = .error (.notFound (.room room)) := by
        simp [Tables.listMembers, h.run_fetchRoom_none hroom]
      exact h.follows (Database.step_read rfl hjob) rfl
  | membersListed hroom =>
      exact h.follows
        (Database.step_read rfl (congrArg Prod.fst (h.run_listMembers hsound hroom))) rfl

theorem follows_history {room : RoomId} (h : Mirrors m t) (hsound : m.Sound)
    (hstep : Step config m (.history room) answer changed) :
    Follows config m t (.history room) answer changed := by
  cases hstep with
  | historyNoRoom hroom =>
      have hjob : ((Tables.listHistory room).run t).1 = .error (.notFound (.room room)) := by
        simp [Tables.listHistory, h.run_fetchRoom_none hroom]
      exact h.follows (Database.step_read rfl hjob) rfl
  | historyListed hroom =>
      refine ⟨_, t,
        Database.step_read rfl (congrArg Prod.fst (h.run_listHistory hsound hroom)), ?_, h⟩
      exact .history hroom

theorem follows_tracks {id : QueueId} {filter : QueueFilter} (h : Mirrors m t)
    (hsound : m.Sound) (hstep : Step config m (.tracks id filter) answer changed) :
    Follows config m t (.tracks id filter) answer changed := by
  cases hstep with
  | tracksNoQueue hqueue =>
      have hjob : ((Tables.listTracks id filter).run t).1 =
          .error (.notFound (.queue id)) := by
        simp [Tables.listTracks, h.run_fetchPointer_none hqueue]
      exact h.follows (Database.step_write_error rfl hjob rfl) rfl
  | tracksListed hqueue =>
      exact h.follows (Database.step_write_ok rfl (h.run_listTracks hsound hqueue filter) rfl)
        rfl

theorem follows_searchRooms {query : String} (h : Mirrors m t)
    (hstep : Step config m (.searchRooms query) answer changed) :
    Follows config m t (.searchRooms query) answer changed := by
  cases hstep with
  | roomsFound =>
      refine h.follows ?_ rfl
      have hperform : Store.perform config (.searchRooms query) =
          Reply.rooms <$> Database.searchRooms query := rfl
      rw [Store.step, hperform, Database.searchRooms]
      by_cases hempty : (normalizeName query).isEmpty
      · simp only [if_pos hempty, Action.run_map, Action.run_pure]
        rfl
      · simp only [if_neg hempty, Action.run_map, Database.read, Action.run_ofRun,
          Database.opened, h.run_searchRooms]
        rfl

/-!
## Members and queues
-/

theorem follows_join {room : RoomId} {user : UserId} (h : Mirrors m t) (hsound : m.Sound)
    (hstep : Step config m (.join room user) answer changed) :
    Follows config m t (.join room user) answer changed := by
  cases hstep with
  | joinNoRoom hroom =>
      have hjob : ((Tables.join false room user).run t).1 =
          .error (.notFound (.room room)) := by
        simp [Tables.join, h.run_loadRotator_none hroom]
      exact h.follows (Database.step_write_error rfl hjob rfl) rfl
  | joinNoUser hroom huser =>
      have hjob : ((Tables.join false room user).run t).1 =
          .error (.notFound (.user user)) := by
        simp [Tables.join, Tables.fetchUser, h.run_loadRotator hroom, h.user?_eq, huser]
      exact h.follows (Database.step_write_error rfl hjob rfl) rfl
  | joinTwice hroom huser hqueue =>
      have hjob : ((Tables.join false room user).run t).1 =
          .error (.conflict (.member user room)) := by
        simp [Tables.join, Tables.fetchUser, h.run_loadRotator hroom, h.user?_eq, huser,
          h.queue?_isSome, hqueue]
      exact h.follows (Database.step_write_error rfl hjob rfl) rfl
  | @joined _ _ state hroom _ huser hqueue =>
      have hjob : (Tables.join false room user).run t =
          (.ok (), (t.insertQueue ⟨⟨room, user⟩, (m.owners room).length, none⟩).updateRoom room
            fun row => { row with rotator := state.rotator.add.encode }) := by
        simp [Tables.join, Tables.fetchUser, h.run_loadRotator hroom, h.user?_eq, huser,
          h.queue?_isSome, hqueue, h.length_queuesOf, saveRotator]
      exact (h.enroll hsound hroom hqueue).follows (Database.step_write_ok rfl hjob rfl) rfl

theorem notMem_rows (h : Mirrors m t) (hsound : m.Sound) {entries : List EntryId}
    (hentries : m.EntriesFrom entries) {entry : EntryId} (hfresh : entry ∉ entries) :
    entry ∉ t.entries.map fun row => row.entry.id := by
  intro hmem
  rcases List.mem_map.mp hmem with ⟨row, hrow, rfl⟩
  rcases List.mem_map.mp (h.entries.owned row hrow) with ⟨named, hnamed, hid⟩
  have hlinks := (h.entries.links named hnamed).trans (hsound.stocked named hnamed).holds.links
  rw [hid] at hlinks
  have hitem := List.mem_map_of_mem (f := QueueEntry.item)
    (hlinks.mem_iff.mp (mem_entriesIn.mpr hrow))
  rw [Queue.link, Queue.map_item_chain] at hitem
  exact hfresh (hentries named hnamed _ hitem)

theorem follows_addTrack {id : QueueId} {track : Track} {after : Option EntryId}
    {entry : EntryId} (h : Mirrors m t) (hsound : m.Sound)
    (hnew : entry ∉ t.entries.map fun row => row.entry.id)
    (hstep : Step config m (.addTrack id track after entry) answer changed) :
    Follows config m t (.addTrack id track after entry) answer changed := by
  cases hstep with
  | addNoQueue hqueue =>
      have hjob : ((Tables.addTrack false id track after entry).run t).1 =
          .error (.notFound (.queue id)) := by
        simp [Tables.addTrack, h.run_fetchPointer_none hqueue]
      exact h.follows (Database.step_write_error rfl hjob rfl) rfl
  | addRefused hqueue hrefused =>
      cases hrefused with
      | duplicate htaken =>
          exact absurd htaken (notMem_ids_of_fresh (h.records hsound hqueue).links hnew)
      | missing hfree anchor hafter hanchor =>
          subst hafter
          have hrecords := h.records hsound hqueue
          have hnone := hrecords.holds.get?_eq_none_iff.mpr hanchor
          exact h.follows (Database.step_write_error rfl (hrecords.addTrack_missing hnone) rfl)
            rfl
      | barred hfree front next rest hcut hafter hplayed =>
          subst hafter
          have hrecords := h.records hsound hqueue
          rw [hcut] at hrecords
          exact h.follows
            (Database.step_write_error rfl (hrecords.addTrack_barred hplayed) rfl) rfl
  | added hqueue hfree hcut hafter hback hchanged =>
      subst hafter
      have hrecords := h.records hsound hqueue
      rw [hcut] at hrecords
      exact (h.afterAdd_mirrors hsound hqueue hcut hback hnew hchanged).follows
        (Database.step_write_ok rfl (hrecords.run_addTrack hback hnew) rfl) rfl

theorem follows_removeTrack {id : QueueId} {entry : EntryId} (h : Mirrors m t)
    (hsound : m.Sound) (hstep : Step config m (.removeTrack id entry) answer changed) :
    Follows config m t (.removeTrack id entry) answer changed := by
  cases hstep with
  | removeNoQueue hqueue =>
      have hjob : ((Tables.removeTrack false id entry).run t).1 =
          .error (.notFound (.queue id)) := by
        simp [Tables.removeTrack, h.run_fetchPointer_none hqueue]
      exact h.follows (Database.step_write_error rfl hjob rfl) rfl
  | removeRefused hqueue hrefused =>
      cases hrefused with
      | missing hid =>
          have hrecords := h.records hsound hqueue
          have hnone := hrecords.holds.get?_eq_none_iff.mpr hid
          exact h.follows
            (Database.step_write_error rfl (hrecords.removeTrack_missing hnone) rfl) rfl
      | barred front item back hcut hid hplayed =>
          subst hid
          have hrecords := h.records hsound hqueue
          rw [hcut] at hrecords
          exact h.follows
            (Database.step_write_error rfl (hrecords.removeTrack_barred hplayed) rfl) rfl
  | removed hqueue hcut hid hplayed hchanged =>
      subst hid
      have hrecords := h.records hsound hqueue
      rw [hcut] at hrecords
      exact (h.afterRemove_mirrors hsound hqueue hcut hplayed hchanged).follows
        (Database.step_write_ok rfl (hrecords.run_removeTrack hplayed) rfl) rfl

/-!
## Turns and vetoes
-/

theorem follows_nextTrack {room : RoomId} {now : Timestamp} (h : Mirrors m t)
    (hsound : m.Sound) (hstep : Step config m (.nextTrack room now) answer changed) :
    Follows config m t (.nextTrack room now) answer changed := by
  cases hstep with
  | nextNoRoom hroom =>
      have hjob : ((Tables.nextTrack false room now).run t).1 =
          .error (.notFound (.room room)) := by
        simp [Tables.nextTrack, h.run_loadRotator_none hroom]
      exact h.follows (Database.step_write_error rfl hjob rfl) rfl
  | exhausted hroom hturn hnobody =>
      exact h.follows (Database.step_write_error rfl
        (h.nextTrack_nobody hsound hroom hturn) rfl) rfl
  | served hroom hasks hturn hupcoming hcandidate hmember huser hqueue hcut hfront hplayed
      hchanged htrack =>
      exact (h.afterServe_mirrors hsound hroom hqueue hcut hchanged hfront hplayed htrack
        _).follows (Database.step_write_ok rfl
          (h.run_nextTrack hsound hroom hturn hmember huser hqueue hcut hfront
          hplayed htrack) rfl) rfl

theorem follows_markVetoed {room : RoomId} {user : UserId} (h : Mirrors m t) (hsound : m.Sound)
    (hstep : Step config m (.markVetoed room user) answer changed) :
    Follows config m t (.markVetoed room user) answer changed := by
  cases hstep with
  | vetoNoQueue hqueue =>
      cases hroom : m.room? room with
      | none =>
          have hjob : ((Tables.markVetoed false config room user).run t).1 =
              .error (.notFound (.room room)) := by
            simp [Tables.markVetoed, h.run_fetchRoom_none hroom]
          exact ⟨_, t, Database.step_write_error rfl hjob rfl, .noRoom hroom, h⟩
      | some state =>
          have hjob : ((Tables.markVetoed false config room user).run t).1 =
              .error (.notFound (.queue ⟨room, user⟩)) := by
            simp [Tables.markVetoed, h.run_fetchRoom hroom, h.run_fetchPointer_none hqueue]
          exact h.follows (Database.step_write_error rfl hjob rfl) rfl
  | vetoRefused hqueue hroom hveto =>
      exact h.follows (Database.step_write_error rfl
        (h.markVetoed_refused hsound hroom hqueue hveto) rfl) rfl
  | @vetoed _ _ _ hqueue _ hroom earlier _ hhistory hveto =>
      rcases h.run_markVetoed hsound hroom hqueue hhistory hveto with
        ⟨_, row, _, -, -, -, hjob, hmirrors⟩
      have hlatest := hhistory ▸ List.mem_append_right earlier List.mem_cons_self
      exact ⟨_, _, Database.step_write_ok rfl hjob rfl, .vetoed hroom hlatest, hmirrors⟩

end Mirrors

/-!
## All operations
-/

/-- Whatever an operation does in memory, the store of rows follows, if the identifiers of new
entries stand in no row. -/
theorem Mirrors.follows_step (h : Mirrors m t) (hsound : m.Sound)
    (hnew : ∀ entry ∈ operation.newEntries, entry ∉ t.entries.map fun row => row.entry.id)
    (hstep : Memory.Step config m operation answer changed) :
    Follows config m t operation answer changed := by
  cases operation with
  | createUser id name => exact h.follows_createUser hstep
  | createRoom name kind codes seed => exact h.follows_createRoom hstep
  | join room user => exact h.follows_join hsound hstep
  | addTrack queue track after entry =>
      exact h.follows_addTrack hsound (hnew entry List.mem_cons_self) hstep
  | removeTrack queue entry => exact h.follows_removeTrack hsound hstep
  | nextTrack room now => exact h.follows_nextTrack hsound hstep
  | markVetoed room user => exact h.follows_markVetoed hsound hstep
  | room id => exact h.follows_room hstep
  | user id => exact h.follows_user hstep
  | members room => exact h.follows_members hsound hstep
  | tracks queue filter => exact h.follows_tracks hsound hstep
  | history room => exact h.follows_history hsound hstep
  | searchRooms query => exact h.follows_searchRooms hstep

theorem Mirrors.step (h : Mirrors m t) (hsound : m.Sound) {entries : List EntryId}
    (hentries : m.EntriesFrom entries)
    (hfresh : ∀ entry ∈ operation.newEntries, entry ∉ entries)
    (hstep : Memory.Step config m operation answer changed) :
    Follows config m t operation answer changed := by
  refine h.follows_step hsound ?_ hstep
  intro entry hentry
  exact h.notMem_rows hsound hentries (hfresh entry hentry)

def Refuses (config : Config) (t : Tables) (operation : Operation) : Prop :=
  ∃ error, Store.step config (Database.opened t) operation = (.error error, Database.opened t)

theorem refuses_taken (config : Config) (queue : QueueId) (track : Track)
    (after : Option EntryId) {entry : EntryId}
    (hentry : entry ∈ t.entries.map fun row => row.entry.id) :
    Refuses config t (.addTrack queue track after entry) := by
  rcases Tables.addTrack_taken queue track after hentry with ⟨error, hjob, hopen⟩
  exact ⟨error, Database.step_write_error rfl hjob (Database.lostWriter_of_ne hopen)⟩

/-- Without any promise about identifiers, the store of rows follows or refuses. -/
theorem Mirrors.follows_or_refuses (h : Mirrors m t) (hsound : m.Sound)
    (hstep : Memory.Step config m operation answer changed) :
    Follows config m t operation answer changed ∨ Refuses config t operation := by
  by_cases hnew : ∀ entry ∈ operation.newEntries, entry ∉ t.entries.map fun row => row.entry.id
  · exact Or.inl (h.follows_step hsound hnew hstep)
  · push Not at hnew
    rcases hnew with ⟨entry, hentry, htaken⟩
    cases operation with
    | addTrack queue track after other =>
        obtain rfl : entry = other := List.mem_singleton.mp hentry
        exact Or.inr (refuses_taken config queue track after htaken)
    | _ => cases hentry

end Jukebox
