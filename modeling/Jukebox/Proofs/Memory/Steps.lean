import Jukebox.Proofs.Memory.Sound
import Jukebox.Proofs.Rotation.Turns
import Jukebox.Proofs.Store.Action

/-!
# What an operation on a store in memory does

All ways in which an operation on a sound store ends, with what was found on the way, the
answer and the store afterwards. Whatever is proved about operations in memory starts from this
list.
-/

namespace Jukebox
namespace Memory

open Playlist Rotation

def turn (rotator : Rotator) (entry : TrackEntry) (state : RoomState) : RoomState :=
  { state with rotator := rotator, history := state.history ++ [entry] }

def serve (room : RoomId) (member : UserId) (queue : Queue) (rotator : Rotator)
    (entry : TrackEntry) (m : Memory) : Memory :=
  (m.setQueue ⟨room, member⟩ queue).modifyRoom room (turn rotator entry)

def mark (position : Nat) (user : UserId) (state : RoomState) : RoomState :=
  { state with history := flag position user state.history }

/-- The tracks of queue entries, as they were described last. -/
def describe (m : Memory) (entries : List QueueEntry) : List QueueTrack :=
  entries.filterMap fun entry =>
    (m.track? entry.track).map fun track => ⟨entry.id, entry.played, track⟩

inductive Step (config : Config) (m : Memory) :
    Operation → Except StoreError Reply → Memory → Prop
  | userTaken {id : UserId} {name : String} (hid : (m.user? id).isSome) :
    Step config m (.createUser id name) (.error (.conflict (.userExists id))) m
  | userCreated {id : UserId} {name : String} (hid : m.user? id = none) :
    Step config m (.createUser id name) (.ok (.user ⟨id, name⟩)) (m.addUser ⟨id, name⟩)
  | codesTaken {name : String} {kind : RotatorKind} {codes : Nat → RoomId} {seed : Nat}
    (hcodes : Store.firstFree? (fun id => (m.room? id).isSome) codes config.roomCodeAttempts =
      none) :
    Step config m (.createRoom name kind codes seed)
      (.error (.conflict (.codesTaken config.roomCodeAttempts))) m
  | roomCreated {name : String} {kind : RotatorKind} {codes : Nat → RoomId} {seed : Nat}
      {id : RoomId}
    (hcodes : Store.firstFree? (fun id => (m.room? id).isSome) codes config.roomCodeAttempts =
      some id)
    (hid : m.room? id = none) :
    Step config m (.createRoom name kind codes seed) (.ok (.room ⟨id, name, kind⟩))
      (m.addRoom ⟨⟨id, name, kind⟩, .new kind seed, [], []⟩)
  | joinNoRoom {room : RoomId} {user : UserId} (hroom : m.room? room = none) :
    Step config m (.join room user) (.error (.notFound (.room room))) m
  | joinNoUser {room : RoomId} {user : UserId} {state : RoomState}
      (hroom : m.room? room = some state)
    (huser : m.user? user = none) : Step config m (.join room user)
      (.error (.notFound (.user user))) m
  | joinTwice {room : RoomId} {user : UserId} {state : RoomState}
      (hroom : m.room? room = some state)
    {found : User} (huser : m.user? user = some found)
      (hqueue : (m.queue? ⟨room, user⟩).isSome) :
    Step config m (.join room user) (.error (.conflict (.member user room))) m
  | joined {room : RoomId} {user : UserId} {state : RoomState}
      (hroom : m.room? room = some state)
    {found : User} (huser : m.user? user = some found)
      (hqueue : m.queue? ⟨room, user⟩ = none) :
    Step config m (.join room user) (.ok .done) (m.welcome room user)
  | addNoQueue {id : QueueId} {track : Track} {after : Option EntryId} {entry : EntryId}
    (hqueue : m.queue? id = none) :
    Step config m (.addTrack id track after entry) (.error (.notFound (.queue id))) m
  | addRefused {id : QueueId} {track : Track} {after : Option EntryId} {entry : EntryId}
      {queue : Queue}
    (hqueue : m.queue? id = some queue) {error : QueueError}
    (hrefused : Insertion queue.items after ⟨entry, track.id, false⟩ (.error error)) :
    Step config m (.addTrack id track after entry) (.error (.ofQueue id error)) m
  | added {id : QueueId} {track : Track} {after : Option EntryId} {entry : EntryId}
    {queue changed : Queue} (hqueue : m.queue? id = some queue) {front back : List Item}
    (hnew : entry ∉ ids queue.items) (hcut : queue.items = front ++ back)
    (hafter : lastId? front = after) (hback : ∀ next, back.head? = some next →
      next.played = false)
    (hchanged : changed.Holds (front ++ ⟨entry, track.id, false⟩ :: back)) :
    Step config m (.addTrack id track after entry) (.ok (.entry entry))
      ((m.setQueue id changed).setTrack track)
  | removeNoQueue {id : QueueId} {entry : EntryId} (hqueue : m.queue? id = none) :
    Step config m (.removeTrack id entry) (.error (.notFound (.queue id))) m
  | removeRefused {id : QueueId} {entry : EntryId} {queue : Queue}
      (hqueue : m.queue? id = some queue)
    {error : QueueError} (hrefused : Removal queue.items entry (.error error)) :
    Step config m (.removeTrack id entry) (.error (.ofQueue id error)) m
  | removed {id : QueueId} {entry : EntryId} {queue changed : Queue}
    (hqueue : m.queue? id = some queue) {front back : List Item} {item : Item}
    (hcut : queue.items = front ++ item :: back) (hid : item.id = entry)
    (hplayed : item.played = false) (hchanged : changed.Holds (front ++ back)) :
    Step config m (.removeTrack id entry) (.ok .done) (m.setQueue id changed)
  | nextNoRoom {room : RoomId} {now : Timestamp} (hroom : m.room? room = none) :
    Step config m (.nextTrack room now) (.error (.notFound (.room room))) m
  | exhausted {room : RoomId} {now : Timestamp} {state : RoomState}
      (hroom : m.room? room = some state)
    {rotator : Rotator} (hturn : nextTurn (m.candidates state) state.rotator =
      some (.nobody, rotator))
    (hnobody : ∀ index ∈ upcoming state.members.length state.rotator,
      (m.candidates state)[index]? = some false) :
    Step config m (.nextTrack room now) (.error .exhausted) m
  | served {room : RoomId} {now : Timestamp} {state : RoomState}
      (hroom : m.room? room = some state)
    {asks index : Nat} (hasks : asks ≤ state.members.length)
    (hturn : nextTurn (m.candidates state) state.rotator =
      some (.taken index, advance asks state.rotator))
    (hupcoming : index ∈ upcoming state.members.length state.rotator)
    (hcandidate : (m.candidates state)[index]? = some true)
    {member : UserId} (hmember : state.members[index]? = some member) {user : User}
    (huser : m.user? member = some user) {queue changed : Queue}
    (hqueue : m.queue? ⟨room, member⟩ = some queue) {front back : List Item} {item : Item}
    (hcut : queue.items = front ++ item :: back)
      (hfront : ∀ other ∈ front, other.played = true)
    (hplayed : item.played = false) (hchanged : changed.Holds (front ++ item.play :: back))
    {track : Track} (htrack : m.track? item.track = some track) :
    Step config m (.nextTrack room now) (.ok (.served user track))
      (m.serve room member changed (advance asks state.rotator) (.served member track now))
  | vetoNoQueue {room : RoomId} {user : UserId} (hqueue : m.queue? ⟨room, user⟩ = none) :
    Step config m (.markVetoed room user) (.error (.notFound (.queue ⟨room, user⟩))) m
  | vetoRefused {room : RoomId} {user : UserId} {queue : Queue}
    (hqueue : m.queue? ⟨room, user⟩ = some queue) {state : RoomState}
    (hroom : m.room? room = some state) {error : VetoError}
    (hveto : vetoTarget state.history user (config.vetoCooldown state.members.length) =
      .error error) :
    Step config m (.markVetoed room user) (.error (.conflict (.veto error))) m
  | vetoed {room : RoomId} {user : UserId} {queue : Queue}
    (hqueue : m.queue? ⟨room, user⟩ = some queue) {state : RoomState}
    (hroom : m.room? room = some state) {earlier : List TrackEntry} {latest : TrackEntry}
    (hhistory : state.history = earlier ++ [latest])
    (hveto : vetoTarget state.history user (config.vetoCooldown state.members.length) =
      .ok earlier.length) :
    Step config m (.markVetoed room user) (.ok (.vetoed (latest.veto user)))
      (m.modifyRoom room (mark earlier.length user))
  | roomMissing {room : RoomId} (hroom : m.room? room = none) :
    Step config m (.room room) (.error (.notFound (.room room))) m
  | roomFound {room : RoomId} {state : RoomState} (hroom : m.room? room = some state) :
    Step config m (.room room) (.ok (.room state.room)) m
  | userMissing {id : UserId} (huser : m.user? id = none) :
    Step config m (.user id) (.error (.notFound (.user id))) m
  | userFound {id : UserId} {user : User} (huser : m.user? id = some user) :
    Step config m (.user id) (.ok (.user user)) m
  | membersNoRoom {room : RoomId} (hroom : m.room? room = none) :
    Step config m (.members room) (.error (.notFound (.room room))) m
  | membersListed {room : RoomId} {state : RoomState} (hroom : m.room? room = some state) :
    Step config m (.members room) (.ok (.users (state.members.filterMap m.user?))) m
  | tracksNoQueue {id : QueueId} {filter : QueueFilter} (hqueue : m.queue? id = none) :
    Step config m (.tracks id filter) (.error (.notFound (.queue id))) m
  | tracksListed {id : QueueId} {filter : QueueFilter} {queue : Queue}
    (hqueue : m.queue? id = some queue) :
    Step config m (.tracks id filter) (.ok (.tracks (m.describe (queue.list filter)))) m
  | historyNoRoom {room : RoomId} (hroom : m.room? room = none) :
    Step config m (.history room) (.error (.notFound (.room room))) m
  | historyListed {room : RoomId} {state : RoomState} (hroom : m.room? room = some state) :
    Step config m (.history room) (.ok (.history state.history)) m
  | roomsFound {query : String} :
    Step config m (.searchRooms query)
      (.ok (.rooms (if (normalizeName query).isEmpty then []
        else Store.byName Room.displayName ((m.rooms.map RoomState.room).filter fun room =>
          Store.nameMatches (normalizeName query) (normalizeName room.displayName))))) m

/-!
## Every operation is a step
-/

section Operations

variable {config : Config} {m : Memory}

/-- Whether an operation ends in one of the ways that are listed. -/
def Ends (config : Config) (m : Memory) (operation : Operation) : Prop :=
  Step config m operation (Store.step config m operation).1 (Store.step config m operation).2

theorem Step.ends {operation : Operation} {answer : Except StoreError Reply} {changed : Memory}
    (h : Step config m operation answer changed)
    (hrun : Store.step config m operation = (answer, changed)) : Ends config m operation := by
  rw [Ends, hrun]
  exact h

theorem firstFree?_free {taken : RoomId → Bool} {codes : Nat → RoomId} {attempts : Nat}
    {id : RoomId} (h : Store.firstFree? taken codes attempts = some id) :
    taken id = false := by
  induction attempts generalizing codes with
  | zero => cases h
  | succ attempts ih =>
      simp only [Store.firstFree?] at h
      split at h
      · exact ih h
      · cases h
        simp_all

theorem ends_createUser (id : UserId) (name : String) :
    Ends config m (.createUser id name) := by
  cases hid : m.user? id with
  | some found =>
      refine (Step.userTaken (by simp [hid])).ends ?_
      simp [Store.step, Store.perform, Store.createUser, createUser, hid]
  | none =>
      refine (Step.userCreated hid).ends ?_
      simp [Store.step, Store.perform, Store.createUser, createUser, hid]

theorem ends_createRoom (name : String) (kind : RotatorKind) (codes : Nat → RoomId)
    (seed : Nat) : Ends config m (.createRoom name kind codes seed) := by
  cases hcodes : Store.firstFree? (fun id => (m.room? id).isSome) codes
    config.roomCodeAttempts with
  | none =>
      refine (Step.codesTaken hcodes).ends ?_
      simp [Store.step, Store.perform, Store.createRoom, createRoom, hcodes]
  | some id =>
      have hid : m.room? id = none := by simpa using firstFree?_free hcodes
      refine (Step.roomCreated hcodes hid).ends ?_
      simp [Store.step, Store.perform, Store.createRoom, createRoom, hcodes]

theorem ends_join (room : RoomId) (user : UserId) : Ends config m (.join room user) := by
  cases hroom : m.room? room with
  | none =>
      refine (Step.joinNoRoom hroom).ends ?_
      simp [Store.step, Store.perform, Store.join, join, fetchRoom, hroom]
  | some state =>
      cases huser : m.user? user with
      | none =>
          refine (Step.joinNoUser hroom huser).ends ?_
          simp [Store.step, Store.perform, Store.join, join, fetchRoom, fetchUser,
            hroom, huser]
      | some found =>
          cases hqueue : m.queue? ⟨room, user⟩ with
          | some queue =>
              refine (Step.joinTwice hroom huser (by simp [hqueue])).ends ?_
              simp [Store.step, Store.perform, Store.join, join, fetchRoom, fetchUser,
                hroom, huser, hqueue]
          | none =>
              refine (Step.joined hroom huser hqueue).ends ?_
              simp [Store.step, Store.perform, Store.join, join, fetchRoom, fetchUser,
                hroom, huser, hqueue]
              rfl

theorem ends_addTrack (h : m.Sound) (id : QueueId) (track : Track) (after : Option EntryId)
    (entry : EntryId) : Ends config m (.addTrack id track after entry) := by
  cases hqueue : m.queue? id with
  | none =>
      refine (Step.addNoQueue hqueue).ends ?_
      simp [Store.step, Store.perform, Store.addTrack, addTrack, fetchQueue, hqueue]
  | some queue =>
      have hholds := h.holds hqueue
      have hmatch := hholds.insertAfter_matches after entry track.id
      have hend := insertion hholds.nodup after ⟨entry, track.id, false⟩
      cases hlist : insertAfter queue.items after ⟨entry, track.id, false⟩ with
      | error error =>
          rw [hlist] at hmatch hend
          have hinsert := hmatch.eq_error
          refine (Step.addRefused hqueue hend).ends ?_
          simp [Store.step, Store.perform, Store.addTrack, addTrack, fetchQueue, hqueue,
            hinsert, Except.mapError]
      | ok outcome =>
          rw [hlist] at hmatch hend
          cases hend with
          | placed hnew front back hcut hafter hback =>
              rcases hmatch.exists_ok with ⟨new, changed, hinsert, -, hchanged⟩
              refine (Step.added hqueue hnew hcut hafter hback hchanged).ends ?_
              simp [Store.step, Store.perform, Store.addTrack, addTrack, fetchQueue, hqueue,
                hinsert, Except.mapError]

theorem ends_removeTrack (h : m.Sound) (id : QueueId) (entry : EntryId) :
    Ends config m (.removeTrack id entry) := by
  cases hqueue : m.queue? id with
  | none =>
      refine (Step.removeNoQueue hqueue).ends ?_
      simp [Store.step, Store.perform, Store.removeTrack, removeTrack, fetchQueue, hqueue]
  | some queue =>
      have hholds := h.holds hqueue
      have hmatch := hholds.remove_matches entry
      have hend := removal hholds.nodup entry
      cases hlist : remove queue.items entry with
      | error error =>
          rw [hlist] at hmatch hend
          have hremove := hmatch.eq_error
          refine (Step.removeRefused hqueue hend).ends ?_
          simp [Store.step, Store.perform, Store.removeTrack, removeTrack, fetchQueue, hqueue,
            hremove, Except.mapError]
      | ok outcome =>
          rw [hlist] at hmatch hend
          cases hend with
          | removed front item back hcut hid hplayed =>
              rcases hmatch.exists_ok with ⟨gone, changed, hremove, -, hchanged⟩
              refine (Step.removed hqueue hcut hid hplayed hchanged).ends ?_
              simp [Store.step, Store.perform, Store.removeTrack, removeTrack,
                fetchQueue, hqueue, hremove, Except.mapError]

theorem exists_next {queue : Queue} (h : queue.Holds queue.items)
    (hnext : queue.next?.isSome) : ∃ front item back, queue.items = front ++ item :: back ∧
      (∀ other ∈ front, other.played = true) ∧ item.played = false := by
  rcases played_or_cut queue.items with hplayed | ⟨front, item, back, hcut, hfront, hitem⟩
  · have hnone := h.next?_item
    rw [next?_eq_none hplayed, Option.map_eq_none_iff] at hnone
    simp [hnone] at hnext
  · exact ⟨front, item, back, hcut, hfront, hitem⟩

theorem ends_nextTrack (h : m.Sound) (room : RoomId) (now : Timestamp) :
    Ends config m (.nextTrack room now) := by
  cases hroom : m.room? room with
  | none =>
      refine (Step.nextNoRoom hroom).ends ?_
      simp [Store.step, Store.perform, Store.nextTrack, nextTrack, fetchRoom, hroom]
  | some state =>
      have hroomId := (mem_of_room? hroom).2
      have hlength : (m.candidates state).length = state.members.length := by simp [candidates]
      have hkeeps := (h.inStep_of_room? hroom).keeps
      rw [← hlength] at hkeeps
      have hsearch := Rotator.keepsTo_steady.nextTurn hkeeps
      rw [hlength] at hsearch
      generalize hturn : nextTurn (m.candidates state) state.rotator = outcome at hsearch
      cases hsearch with
      | nobody hnobody =>
          refine (Step.exhausted hroom hturn hnobody).ends ?_
          simp [Store.step, Store.perform, Store.nextTrack, nextTrack, fetchRoom, hroom,
            pickMember, hturn]
      | taken asked index hasked hcandidate hupcoming =>
          have hmember := hcandidate
          simp only [candidates, List.getElem?_map, Option.map_eq_some_iff, hroomId] at hmember
          rcases hmember with ⟨member, hmember, hnext⟩
          rcases h.exists_user hroom (List.mem_of_getElem? hmember) with ⟨user, huser⟩
          rcases h.exists_queue hroom (List.mem_of_getElem? hmember) with ⟨queue, hqueue⟩
          rw [hqueue, Option.bind_some] at hnext
          have hholds := h.holds hqueue
          rcases exists_next hholds hnext with ⟨front, item, back, hcut, hfront, hplayed⟩
          rcases h.exists_track hqueue (hcut ▸ List.mem_append_right front List.mem_cons_self)
            with ⟨track, htrack⟩
          rw [hcut] at hholds
          have hentry := hholds.next?_cut hfront hplayed
          refine (Step.served hroom hasked hturn hupcoming hcandidate hmember huser hqueue
            hcut hfront hplayed (hholds.play hfront hplayed) htrack).ends ?_
          simp [Store.step, Store.perform, Store.nextTrack, nextTrack, fetchRoom,
            fetchQueue, hroom, pickMember, hturn, hmember, huser, hqueue, hentry, htrack,
            Queue.take?]
          rfl

theorem exists_latest {history : List TrackEntry} {user : UserId} {cooldown position : Nat}
    (h : vetoTarget history user cooldown = .ok position) :
    ∃ earlier latest, history = earlier ++ [latest] ∧ position = earlier.length := by
  rcases List.eq_nil_or_concat history with rfl | ⟨earlier, latest, rfl⟩
  · simp [vetoTarget] at h
  · refine ⟨earlier, latest, List.concat_eq_append, ?_⟩
    simp only [vetoTarget, List.concat_eq_append, List.getLast?_append_of_ne_nil, ne_eq,
      List.cons_ne_nil, not_false_eq_true, List.getLast?_singleton] at h
    split at h
    · cases h
    · split at h
      · cases h
      · simpa using (Except.ok.inj h).symm

theorem step_markVetoed_refused {room : RoomId} {user : UserId} {state : RoomState}
    (hqueue : (m.queue? ⟨room, user⟩).isSome) (hroom : m.room? room = some state)
    {error : VetoError}
    (hveto : vetoTarget state.history user (config.vetoCooldown state.members.length) =
      .error error) :
    Store.step config m (.markVetoed room user) = (.error (.conflict (.veto error)), m) := by
  rcases Option.isSome_iff_exists.mp hqueue with ⟨queue, hqueue⟩
  simp [Store.step, Store.perform, Store.markVetoed, markVetoed, fetchQueue, fetchRoom,
    hqueue, hroom, hveto, Except.mapError]

theorem step_markVetoed {room : RoomId} {user : UserId} {state : RoomState}
    (hqueue : (m.queue? ⟨room, user⟩).isSome) (hroom : m.room? room = some state)
    {earlier : List TrackEntry} {latest : TrackEntry}
    (hhistory : state.history = earlier ++ [latest])
    (hveto : vetoTarget state.history user (config.vetoCooldown state.members.length) =
      .ok earlier.length) :
    Store.step config m (.markVetoed room user) =
      (.ok (.vetoed (latest.veto user)), m.modifyRoom room (mark earlier.length user)) := by
  rcases Option.isSome_iff_exists.mp hqueue with ⟨queue, hqueue⟩
  have hlatest : state.history[earlier.length]? = some latest := by simp [hhistory]
  simp [Store.step, Store.perform, Store.markVetoed, markVetoed, fetchQueue, fetchRoom,
    hqueue, hroom, hveto, hlatest, Except.mapError]
  rfl

theorem ends_markVetoed (h : m.Sound) (room : RoomId) (user : UserId) :
    Ends config m (.markVetoed room user) := by
  cases hqueue : m.queue? ⟨room, user⟩ with
  | none =>
      refine (Step.vetoNoQueue hqueue).ends ?_
      simp [Store.step, Store.perform, Store.markVetoed, markVetoed, fetchQueue, hqueue]
  | some queue =>
      rcases h.exists_room hqueue with ⟨state, hroom⟩
      have hroom : m.room? room = some state := hroom
      have hmember := Option.isSome_of_eq_some hqueue
      cases hveto : vetoTarget state.history user (config.vetoCooldown state.members.length)
        with
      | error error =>
          exact (Step.vetoRefused hqueue hroom hveto).ends
            (step_markVetoed_refused hmember hroom hveto)
      | ok position =>
          rcases exists_latest hveto with ⟨earlier, latest, hhistory, rfl⟩
          exact (Step.vetoed hqueue hroom hhistory hveto).ends
            (step_markVetoed hmember hroom hhistory hveto)

theorem ends_room (room : RoomId) : Ends config m (.room room) := by
  cases hroom : m.room? room with
  | none =>
      refine (Step.roomMissing hroom).ends ?_
      simp [Store.step, Store.perform, Store.room, fetchRoom, hroom]
  | some state =>
      refine (Step.roomFound hroom).ends ?_
      simp [Store.step, Store.perform, Store.room, fetchRoom, hroom]

theorem ends_user (id : UserId) : Ends config m (.user id) := by
  cases huser : m.user? id with
  | none =>
      refine (Step.userMissing huser).ends ?_
      simp [Store.step, Store.perform, Store.user, fetchUser, huser]
  | some user =>
      refine (Step.userFound huser).ends ?_
      simp [Store.step, Store.perform, Store.user, fetchUser, huser]

theorem ends_members (h : m.Sound) (room : RoomId) : Ends config m (.members room) := by
  cases hroom : m.room? room with
  | none =>
      refine (Step.membersNoRoom hroom).ends ?_
      simp [Store.step, Store.perform, Store.members, listMembers, fetchRoom, hroom]
  | some state =>
      refine (Step.membersListed hroom).ends ?_
      have hlist : (state.members.mapM fun id =>
          Action.require (.notFound (.user id)) (m.user? id)).run m =
            (.ok (state.members.filterMap m.user?), m) := by
        apply Action.run_mapM
        intro id hid
        rcases h.exists_user hroom hid with ⟨user, huser⟩
        exact ⟨user, huser, by simp [huser]⟩
      simp [Store.step, Store.perform, Store.members, listMembers, fetchRoom, hroom, hlist]

theorem ends_tracks (h : m.Sound) (id : QueueId) (filter : QueueFilter) :
    Ends config m (.tracks id filter) := by
  cases hqueue : m.queue? id with
  | none =>
      refine (Step.tracksNoQueue hqueue).ends ?_
      simp [Store.step, Store.perform, Store.tracks, listTracks, fetchQueue, hqueue]
  | some queue =>
      refine (Step.tracksListed hqueue).ends ?_
      have hlist : ((queue.list filter).mapM fun entry =>
          (Action.require (.integrity (.trackMissing entry.track)) (m.track? entry.track)).map
            fun track => (⟨entry.id, entry.played, track⟩ : QueueTrack)).run m =
              (.ok (m.describe (queue.list filter)), m) := by
        apply Action.run_mapM
        intro entry hentry
        have hitem : entry.item ∈ queue.items :=
          List.mem_map_of_mem (List.mem_filter.mp hentry).1
        rcases h.exists_track hqueue hitem with ⟨track, htrack⟩
        have htrack : m.track? entry.track = some track := htrack
        exact ⟨⟨entry.id, entry.played, track⟩, by simp [htrack], by rw [htrack]; rfl⟩
      simp [Store.step, Store.perform, Store.tracks, listTracks, fetchQueue, hqueue]
      exact ⟨congrArg (fun outcome => outcome.1.map Reply.tracks) hlist,
        congrArg Prod.snd hlist⟩

theorem ends_history (room : RoomId) : Ends config m (.history room) := by
  cases hroom : m.room? room with
  | none =>
      refine (Step.historyNoRoom hroom).ends ?_
      simp [Store.step, Store.perform, Store.history, fetchRoom, hroom]
  | some state =>
      refine (Step.historyListed hroom).ends ?_
      simp [Store.step, Store.perform, Store.history, fetchRoom, hroom]

theorem ends_searchRooms (query : String) : Ends config m (.searchRooms query) := by
  refine Step.roomsFound.ends ?_
  simp [Store.step, Store.perform, Store.searchRooms, searchRooms]
  split <;> simp

end Operations

/-- Every operation on a sound store ends in one of the listed ways. -/
theorem Sound.step {m : Memory} (h : m.Sound) (config : Config) (operation : Operation) :
    Step config m operation (Store.step config m operation).1
      (Store.step config m operation).2 := by
  cases operation with
  | createUser id name => exact ends_createUser id name
  | createRoom name kind codes seed => exact ends_createRoom name kind codes seed
  | join room user => exact ends_join room user
  | addTrack queue track after entry => exact ends_addTrack h queue track after entry
  | removeTrack queue entry => exact ends_removeTrack h queue entry
  | nextTrack room now => exact ends_nextTrack h room now
  | markVetoed room user => exact ends_markVetoed h room user
  | room id => exact ends_room id
  | user id => exact ends_user id
  | members room => exact ends_members h room
  | tracks queue filter => exact ends_tracks h queue filter
  | history room => exact ends_history room
  | searchRooms query => exact ends_searchRooms query

end Memory
end Jukebox
