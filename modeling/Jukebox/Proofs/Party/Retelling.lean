import Jukebox.Party
import Jukebox.Proofs.Store.Equivalence
import Jukebox.Proofs.Store.Story

/-!
# What was told and what is held

Operations that go through are told in their rooms. What was told about the tracks of a room
spells its history, entry by entry and each veto behind the entry that it concerns. Those who
were told to have joined are its members. A step in memory appends the same to what is held and
to what is told, so both go on to agree. Tracks are told and shown in one way: as they are in
memory, or as they are read back.
-/

namespace Jukebox

namespace Event

def ofTracks (room : RoomId) : Event → Bool
  | nowPlaying other .. => other = room
  | vetoed other .. => other = room
  | _ => false

def joined? (room : RoomId) : Event → Option User
  | userJoined other user => if other = room then some user else none
  | _ => none

def updated? (room : RoomId) : Event → Option UserId
  | queueUpdated other user => if other = room then some user else none
  | _ => none

def mapTrack (shown : Track → Track) : Event → Event
  | nowPlaying room user track => nowPlaying room user (shown track)
  | vetoed room user entry => vetoed room user (entry.mapTrack shown)
  | event => event

variable {event : Event} {room : RoomId} {user : User} {shown : Track → Track}

@[simp]
theorem room_mapTrack : (event.mapTrack shown).room = event.room := by
  cases event <;> rfl

@[simp]
theorem ofTracks_mapTrack : (event.mapTrack shown).ofTracks room = event.ofTracks room := by
  cases event <;> rfl

@[simp]
theorem joined?_mapTrack : (event.mapTrack shown).joined? room = event.joined? room := by
  cases event <;> rfl

theorem joined?_eq_some (h : event.joined? room = some user) :
    event = .userJoined room user := by
  cases event with
  | userJoined other joined =>
      simp only [joined?, Option.ite_none_right_eq_some, Option.some.injEq] at h
      rw [h.1, h.2]
  | _ => cases h

theorem ofTracks_cases (h : event.ofTracks room = true) :
    (∃ user track, event = .nowPlaying room user track) ∨
    ∃ user entry, event = .vetoed room user entry := by
  cases event with
  | nowPlaying other user track =>
      obtain rfl : other = room := of_decide_eq_true h
      exact Or.inl ⟨user, track, rfl⟩
  | vetoed other user entry =>
      obtain rfl : other = room := of_decide_eq_true h
      exact Or.inr ⟨user, entry, rfl⟩
  | _ => cases h

theorem room_of_ofTracks (h : event.ofTracks room = true) : event.room = room := by
  rcases ofTracks_cases h with ⟨user, track, rfl⟩ | ⟨user, entry, rfl⟩
  · rfl
  · rfl

end Event

/-- What is told about a history entry: that it plays, and then who vetoed it, if somebody
did. -/
def TrackEntry.announced (room : RoomId) (name : UserId → String) (entry : TrackEntry) :
    List Event :=
  .nowPlaying room ⟨entry.user, name entry.user⟩ entry.track ::
    (entry.vetoedBy.map fun user => .vetoed room user entry).toList

theorem announced_mapTrack (shown : Track → Track) (room : RoomId) (name : UserId → String)
    (entry : TrackEntry) : (entry.mapTrack shown).announced room name =
      (entry.announced room name).map (Event.mapTrack shown) := by
  rcases entry with ⟨user, track, vetoed, vetoedBy, playedAt⟩
  cases vetoedBy <;> rfl

namespace Catalog

def offers (catalog : Catalog) : List Track :=
  catalog.tracks.filter fun track => catalog.tracks.find? (fun other => other.id = track.id) =
    some track

variable {catalog : Catalog} {track : Track}

theorem mem_offers {id : TrackId} (h : catalog.track id = .ok track) :
    track ∈ catalog.offers := by
  rw [Catalog.track] at h
  split at h
  · rename_i found hfind
    cases h
    rcases Keyed.mem_of_find? hfind with ⟨hmem, rfl⟩
    exact List.mem_filter.mpr ⟨hmem, decide_eq_true hfind⟩
  · cases h

theorem offers_unique : ∀ one ∈ catalog.offers, ∀ two ∈ catalog.offers, one.id = two.id →
    one = two := by
  intro one hone two htwo hid
  have hfirst := of_decide_eq_true (List.mem_filter.mp hone).2
  have hsecond := of_decide_eq_true (List.mem_filter.mp htwo).2
  rw [hid, hsecond] at hfirst
  exact (Option.some.inj hfirst).symm

end Catalog

namespace Memory

def nameOf (m : Memory) (user : UserId) : String :=
  ((m.user? user).map User.displayName).getD ""

def membersOf (m : Memory) (room : RoomId) : List UserId :=
  ((m.room? room).map RoomState.members).getD []

/-- What is told about an operation that got an answer. -/
def tells (m : Memory) : Operation → Except StoreError Reply → List Event
  | .join room user, .ok _ => ((m.user? user).map (.userJoined room)).toList
  | .addTrack queue _ _ _, .ok _ => [.queueUpdated queue.room queue.user]
  | .removeTrack queue _, .ok _ => [.queueUpdated queue.room queue.user]
  | .nextTrack room _, .ok (.served user track) => [.nowPlaying room user track]
  | .markVetoed room user, .ok (.vetoed entry) => [.vetoed room user entry]
  | _, _ => []

/-- What a store answers where a memory has a reply, if the store shows tracks in some way. -/
def ShowsAs (shown : Track → Track) (m : Memory) (operation : Operation)
    (reply answer : Except StoreError Reply) : Prop :=
  shown = id ∧ answer = reply ∨ shown = Track.stored ∧ m.Agree operation reply answer

/-- Whether a memory holds what was told about tracks that are shown in some way, and every
track is described as a catalog does. -/
structure Retold (shown : Track → Track) (catalog : Catalog) (m : Memory)
    (events : List Event) : Prop where
  sound : m.Sound
  tracks : m.TracksFrom catalog.offers
  recounts : m.Recounts
  named : ∀ room, ∀ entry ∈ m.historyOf room, entry.vetoed = entry.vetoedBy.isSome
  rooms : ∀ event ∈ events, (m.room? event.room).isSome
  told : ∀ room, events.filter (Event.ofTracks room) =
    ((m.historyOf room).flatMap (TrackEntry.announced room m.nameOf)).map
    (Event.mapTrack shown)
  joined : ∀ room, events.filterMap (Event.joined? room) = (m.membersOf room).filterMap m.user?

theorem retold_empty (shown : Track → Track) (catalog : Catalog) :
    Retold shown catalog empty [] where
  sound := sound_empty
  tracks := ⟨fun _ htrack => absurd htrack List.not_mem_nil,
    fun _ hstate => absurd hstate List.not_mem_nil⟩
  recounts := fun _ _ _ hroom => nomatch hroom
  named := fun _ _ hentry => absurd hentry List.not_mem_nil
  rooms := fun _ hevent => absurd hevent List.not_mem_nil
  told := fun _ => rfl
  joined := fun _ => rfl

variable {shown : Track → Track} {config : Config} {catalog : Catalog} {m changed : Memory}
  {operation : Operation} {answer other : Except StoreError Reply} {room : RoomId}
  {state after : RoomState} {events : List Event}

/-!
## Users
-/

theorem nameOf_eq {id : UserId} {user : User} (huser : m.user? id = some user) :
    m.nameOf id = user.displayName := by
  rw [nameOf, huser]
  rfl

theorem Step.user?_kept (hstep : Step config m operation answer changed) {id : UserId}
    {user : User} (huser : m.user? id = some user) : changed.user? id = some user := by
  cases hstep with
  | userCreated hid => rw [user?_addUser, huser, Option.some_or]
  | _ => exact huser

theorem Step.served_user {now : Timestamp} {user : User} {track : Track}
    (hstep : Step config m (.nextTrack room now) (.ok (.served user track)) changed) :
    m.user? user.id = some user := by
  cases hstep with
  | served _ _ _ _ _ _ huser =>
      rw [(mem_of_user? huser).2]
      exact huser

/-!
## Members
-/

theorem membersOf_eq (hroom : m.room? room = some state) :
    m.membersOf room = state.members := by
  rw [membersOf, hroom]
  rfl

theorem membersOf_none (hroom : m.room? room = none) : m.membersOf room = [] := by
  rw [membersOf, hroom]
  rfl

theorem membersOf_modifyRoom {change : RoomState → RoomState} {other : RoomId}
    (hroom : ∀ state, (change state).room = state.room)
    (hmembers : ∀ state, (change state).members = state.members) :
    (m.modifyRoom other change).membersOf room = m.membersOf room := by
  rw [membersOf, room?_modifyRoom hroom, membersOf]
  split
  · subst_vars
    rw [Option.map_map]
    congr 2
    funext state
    exact hmembers state
  · rfl

theorem membersOf_welcome {other : RoomId} {user : UserId}
    (hother : m.room? other = some state) :
    (m.welcome other user).membersOf room = m.membersOf room ++ if other = room then [user]
      else [] := by
  rw [welcome, membersOf, room?_modifyRoom (room_enroll user)]
  by_cases hroom : room = other
  · subst hroom
    have hkept : (m.addQueue ⟨room, user⟩).room? room = some state := hother
    rw [if_pos rfl, if_pos rfl, hkept, membersOf_eq hother]
    rfl
  · rw [if_neg hroom, if_neg (Ne.symm hroom), List.append_nil]
    rfl

theorem Step.membersOf_step (hstep : Step config m operation answer changed) (room : RoomId) :
    changed.membersOf room =
      m.membersOf room ++ ((m.tells operation answer).filterMap (Event.joined? room)).map
        User.id := by
  cases hstep with
  | @roomCreated name kind codes seed id hcodes hid =>
      have htold : m.tells (.createRoom name kind codes seed) (.ok (.room ⟨id, name, kind⟩)) =
          [] := rfl
      rw [htold, List.filterMap_nil, List.map_nil, List.append_nil, membersOf, room?_addRoom,
        membersOf]
      cases m.room? room with
      | some state => rfl
      | none => by_cases heq : id = room <;> simp [heq]
  | @joined other user state hother found huser hqueue =>
      have htold : m.tells (.join other user) (.ok .done) = [.userJoined other found] := by
        rw [tells, huser]
        rfl
      rw [membersOf_welcome hother, htold]
      by_cases hroom : other = room
      · simp [Event.joined?, hroom, (mem_of_user? huser).2]
      · simp [Event.joined?, hroom]
  | added => exact (List.append_nil _).symm
  | removed => exact (List.append_nil _).symm
  | served =>
      rw [serve, membersOf_modifyRoom (room_turn _ _) fun _ => rfl]
      exact (List.append_nil _).symm
  | vetoed =>
      rw [membersOf_modifyRoom (room_mark _ _) fun _ => rfl]
      exact (List.append_nil _).symm
  | _ => exact (List.append_nil _).symm

theorem Sound.exists_member (h : m.Sound) {user : UserId} (huser : user ∈ m.membersOf room) :
    ∃ found, m.user? user = some found := by
  cases hroom : m.room? room with
  | none =>
      rw [membersOf_none hroom] at huser
      cases huser
  | some state =>
      rw [membersOf_eq hroom] at huser
      exact h.exists_user hroom huser

theorem tells_joined {user : User}
    (h : user ∈ (m.tells operation answer).filterMap (Event.joined? room)) :
    m.user? user.id = some user := by
  rcases List.mem_filterMap.mp h with ⟨event, hevent, hjoined⟩
  rw [Event.joined?_eq_some hjoined] at hevent
  unfold tells at hevent
  split at hevent
  · simp only [Option.mem_toList, Option.map_eq_some_iff, Event.userJoined.injEq] at hevent
    rcases hevent with ⟨found, hfound, -, rfl⟩
    rw [(mem_of_user? hfound).2]
    exact hfound
  all_goals simp at hevent

theorem Step.joined_step (hstep : Step config m operation answer changed) (h : m.Sound)
    (room : RoomId) :
    (changed.membersOf room).filterMap changed.user? =
      (m.membersOf room).filterMap m.user? ++
        (m.tells operation answer).filterMap (Event.joined? room) := by
  have hold : (m.membersOf room).filterMap changed.user? =
      (m.membersOf room).filterMap m.user? := by
    apply List.filterMap_congr
    intro user huser
    rcases h.exists_member huser with ⟨found, hfound⟩
    rw [hfound, hstep.user?_kept hfound]
  have hnew : (((m.tells operation answer).filterMap (Event.joined? room)).map
      User.id).filterMap changed.user? = (m.tells operation answer).filterMap
        (Event.joined? room) := by
    rw [List.filterMap_map]
    refine (List.filterMap_congr ?_).trans List.filterMap_some
    intro user huser
    exact hstep.user?_kept (tells_joined huser)
  rw [hstep.membersOf_step, List.filterMap_append, hold, hnew]

/-!
## Histories
-/

theorem Step.tells_room (hstep : Step config m operation answer changed) (h : m.Sound)
    {event : Event} (hevent : event ∈ m.tells operation answer) :
    (m.room? event.room).isSome := by
  cases hstep with
  | @joined _ _ _ hroom _ huser _ =>
      rw [tells, huser] at hevent
      rw [List.mem_singleton.mp hevent]
      exact Option.isSome_of_eq_some hroom
  | added hqueue =>
      rw [List.mem_singleton.mp hevent]
      exact (h.owned _ (mem_of_queue? hqueue)).1
  | removed hqueue =>
      rw [List.mem_singleton.mp hevent]
      exact (h.owned _ (mem_of_queue? hqueue)).1
  | served hroom =>
      rw [List.mem_singleton.mp hevent]
      exact Option.isSome_of_eq_some hroom
  | vetoed _ hroom =>
      rw [List.mem_singleton.mp hevent]
      exact Option.isSome_of_eq_some hroom
  | _ => cases hevent

theorem tells_playing {user : User} {track : Track}
    (h : .nowPlaying room user track ∈ m.tells operation answer) :
    ∃ now, operation = .nextTrack room now := by
  unfold tells at h
  split at h <;> simp_all

theorem tells_vetoed {user : UserId} {entry : TrackEntry}
    (h : .vetoed room user entry ∈ m.tells operation answer) :
    operation = .markVetoed room user := by
  unfold tells at h
  split at h <;> simp_all

/-- Where nothing is served and nothing is vetoed, nothing is told about tracks. -/
theorem Quiet.untold (h : Quiet room operation answer) :
    (m.tells operation answer).filter (Event.ofTracks room) = [] := by
  rw [List.filter_eq_nil_iff]
  intro event hevent hof
  rcases h with ⟨error, rfl⟩ | ⟨hserved, hvetoed⟩
  · cases operation <;> cases hevent
  · rcases Event.ofTracks_cases hof with ⟨user, track, rfl⟩ | ⟨user, entry, rfl⟩
    · rcases tells_playing hevent with ⟨now, hoperation⟩
      exact hserved now hoperation
    · exact hvetoed user (tells_vetoed hevent)

theorem announced_unvetoed {name : UserId → String} {entry : TrackEntry}
    (h : entry.vetoedBy = none) :
    entry.announced room name =
      [.nowPlaying room ⟨entry.user, name entry.user⟩ entry.track] := by
  rw [TrackEntry.announced, h]
  rfl

theorem RoomStep.told_step (h : RoomStep m room state operation answer after)
    (hstep : Step config m operation answer changed)
    (hnamed : ∀ entry ∈ state.history, entry.vetoed = entry.vetoedBy.isSome)
    {name : UserId → String} (hname : ∀ user : User, m.user? user.id = some user →
      name user.id = user.displayName) :
    after.history.flatMap (TrackEntry.announced room name) =
      state.history.flatMap (TrackEntry.announced room name) ++
        (m.tells operation answer).filter (Event.ofTracks room) := by
  cases h with
  | kept hquiet => rw [hquiet.untold, List.append_nil]
  | @joined user =>
      have hquiet : Quiet room (.join room user) (.ok .done) := by simp [Quiet]
      rw [hquiet.untold, List.append_nil]
      rfl
  | @served now index rotator user track hturn hmember =>
      have hhistory : (turn rotator (.served user.id track now) state).history =
          state.history ++ [.served user.id track now] := rfl
      have htold : (m.tells (.nextTrack room now) (.ok (.served user track))).filter
          (Event.ofTracks room) = [.nowPlaying room user track] := by
        simp [tells, Event.ofTracks]
      have hlast : (TrackEntry.served user.id track now).announced room name =
          [.nowPlaying room user track] := by
        have huser : (⟨user.id, name user.id⟩ : User) = user := by
          rw [hname user hstep.served_user]
        rw [announced_unvetoed rfl]
        exact congrArg (fun found => [Event.nowPlaying room found track]) huser
      rw [hhistory, List.flatMap_append, htold, List.flatMap_singleton, hlast]
  | @vetoed user earlier latest hhistory hlatest =>
      have hnone : latest.vetoedBy = none := by
        have hnamed :=
          hnamed latest (hhistory ▸ List.mem_append_right earlier List.mem_cons_self)
        rw [hlatest] at hnamed
        exact Option.not_isSome_iff_eq_none.mp (Bool.eq_false_iff.mp hnamed.symm)
      have htold : (m.tells (.markVetoed room user) (.ok (.vetoed (latest.veto user)))).filter
          (Event.ofTracks room) = [.vetoed room user (latest.veto user)] := by
        simp [tells, Event.ofTracks]
      rw [htold, hhistory, List.flatMap_append, List.flatMap_append, List.flatMap_singleton,
        List.flatMap_singleton, announced_unvetoed hnone, List.append_assoc]
      rfl

theorem RoomStep.named_step (h : RoomStep m room state operation answer after)
    (hnamed : ∀ entry ∈ state.history, entry.vetoed = entry.vetoedBy.isSome) :
    ∀ entry ∈ after.history, entry.vetoed = entry.vetoedBy.isSome := by
  cases h with
  | kept _ => exact hnamed
  | joined => exact hnamed
  | served _ _ =>
      intro entry hentry
      rcases List.mem_append.mp hentry with hold | hnew
      · exact hnamed entry hold
      · rw [List.mem_singleton.mp hnew]
        rfl
  | vetoed hhistory _ =>
      intro entry hentry
      rcases List.mem_append.mp hentry with hold | hnew
      · exact hnamed entry (hhistory ▸ List.mem_append_left _ hold)
      · rw [List.mem_singleton.mp hnew]
        rfl

/-!
## Answers
-/

theorem mapTracks_id (reply : Reply) : reply.mapTracks id = reply := by
  have hqueued : QueueTrack.mapTrack id = id := rfl
  have hentry : TrackEntry.mapTrack id = id := rfl
  cases reply <;> simp [Reply.mapTracks, hqueued, hentry]

theorem map_mapTracks_id (answer : Except StoreError Reply) :
    answer.map (Reply.mapTracks id) = answer := by
  cases answer with
  | ok reply => exact congrArg Except.ok (mapTracks_id reply)
  | error error => rfl

theorem tells_mapTracks (m : Memory) (operation : Operation)
    (answer : Except StoreError Reply) :
    m.tells operation (answer.map (Reply.mapTracks shown)) =
      (m.tells operation answer).map (Event.mapTrack shown) := by
  cases answer with
  | error error => cases operation <;> rfl
  | ok reply =>
      cases operation with
      | join room user =>
          simp only [Except.map, tells]
          cases m.user? user <;> rfl
      | nextTrack room now => cases reply <;> rfl
      | markVetoed room user => cases reply <;> rfl
      | _ => rfl

theorem ShowsAs.eq_of_plain (h : m.ShowsAs shown operation answer other)
    (hplain : operation.plain = true) : other = answer.map (Reply.mapTracks shown) := by
  rcases h with ⟨rfl, rfl⟩ | ⟨rfl, hagree⟩
  · exact (map_mapTracks_id other).symm
  · exact hagree.eq_of_plain hplain

/-!
## Steps
-/

namespace Retold

theorem exists_player (h : Retold shown catalog m events) (hroom : m.room? room = some state)
    {entry : TrackEntry} (hentry : entry ∈ state.history) :
    ∃ user, m.user? entry.user = some user :=
  h.sound.exists_user hroom (h.recounts.mem_members h.sound hroom hentry)

theorem announced_kept (h : Retold shown catalog m events)
    (hstep : Step config m operation answer changed) (hroom : m.room? room = some state) :
    state.history.flatMap (TrackEntry.announced room changed.nameOf) =
      state.history.flatMap (TrackEntry.announced room m.nameOf) := by
  apply List.flatMap_congr
  intro entry hentry
  rcases h.exists_player hroom hentry with ⟨user, huser⟩
  rw [TrackEntry.announced, TrackEntry.announced, nameOf_eq huser,
    nameOf_eq (hstep.user?_kept huser)]

theorem told_step (h : Retold shown catalog m events)
    (hstep : Step config m operation answer changed) (room : RoomId) :
    (events ++ m.tells operation (answer.map (Reply.mapTracks shown))).filter
    (Event.ofTracks room) =
      ((changed.historyOf room).flatMap (TrackEntry.announced room changed.nameOf)).map
        (Event.mapTrack shown) := by
  have hof : Event.ofTracks room ∘ Event.mapTrack shown = Event.ofTracks room :=
    funext fun _ => Event.ofTracks_mapTrack
  rw [List.filter_append, h.told, tells_mapTracks, List.filter_map, hof, ← List.map_append]
  congr 1
  cases hroom : m.room? room with
  | none =>
      -- Nothing is told in a room that is not there, not even by the step that creates it.
      have hnone : (m.tells operation answer).filter (Event.ofTracks room) = [] := by
        rw [List.filter_eq_nil_iff]
        intro event hevent hof
        have hsome := hstep.tells_room h.sound hevent
        rw [Event.room_of_ofTracks hof, hroom] at hsome
        cases hsome
      rw [historyOf_none hroom, hstep.historyOf_new hroom, hnone]
      rfl
  | some state =>
      rcases hstep.room_step hroom with ⟨after, hafter, hchange⟩
      have hnamed := h.named room
      rw [historyOf_eq hroom] at hnamed
      have hname : ∀ user : User, m.user? user.id = some user →
          changed.nameOf user.id = user.displayName := by
        intro user huser
        exact nameOf_eq (hstep.user?_kept huser)
      rw [historyOf_eq hroom, historyOf_eq hafter, hchange.told_step hstep hnamed hname,
        h.announced_kept hstep hroom]

theorem named_step (h : Retold shown catalog m events)
    (hstep : Step config m operation answer changed) (room : RoomId) :
    ∀ entry ∈ changed.historyOf room, entry.vetoed = entry.vetoedBy.isSome := by
  have hnamed := h.named room
  cases hroom : m.room? room with
  | none =>
      rw [hstep.historyOf_new hroom]
      intro entry hentry
      cases hentry
  | some state =>
      rcases hstep.room_step hroom with ⟨after, hafter, hchange⟩
      rw [historyOf_eq hroom] at hnamed
      rw [historyOf_eq hafter]
      exact hchange.named_step hnamed

theorem rooms_step (h : Retold shown catalog m events)
    (hstep : Step config m operation answer changed) :
    ∀ event ∈ events ++ m.tells operation (answer.map (Reply.mapTracks shown)),
      (changed.room? event.room).isSome := by
  intro event hevent
  have hsome : (m.room? event.room).isSome := by
    rcases List.mem_append.mp hevent with hold | hnew
    · exact h.rooms event hold
    · rw [tells_mapTracks] at hnew
      rcases List.mem_map.mp hnew with ⟨told, htold, rfl⟩
      rw [Event.room_mapTrack]
      exact hstep.tells_room h.sound htold
  rcases Option.isSome_iff_exists.mp hsome with ⟨state, hroom⟩
  rcases hstep.room_step hroom with ⟨after, hafter, -⟩
  exact Option.isSome_of_eq_some hafter

theorem joined_step (h : Retold shown catalog m events)
    (hstep : Step config m operation answer changed) (room : RoomId) :
    (events ++ m.tells operation (answer.map (Reply.mapTracks shown))).filterMap
      (Event.joined? room) = (changed.membersOf room).filterMap changed.user? := by
  have hjoined : Event.joined? room ∘ Event.mapTrack shown = Event.joined? room :=
    funext fun _ => Event.joined?_mapTrack
  rw [List.filterMap_append, h.joined, tells_mapTracks, List.filterMap_map, hjoined,
    hstep.joined_step h.sound]

/-- What a step adds to a memory is what it tells. -/
theorem step (h : Retold shown catalog m events)
    (hstep : Step config m operation answer changed)
    (hoffered : ∀ track ∈ operation.queued answer, track ∈ catalog.offers) :
    Retold shown catalog changed
      (events ++ m.tells operation (answer.map (Reply.mapTracks shown))) where
  sound := hstep.sound h.sound
  tracks := by
    apply (hstep.tracksFrom h.tracks).mono
    intro track htrack
    rcases List.mem_append.mp htrack with hold | hnew
    · exact hold
    · exact hoffered track hnew
  recounts := hstep.recounts h.sound h.recounts
  named := h.named_step hstep
  rooms := h.rooms_step hstep
  told := h.told_step hstep
  joined := h.joined_step hstep

/-- If tracks are described as a catalog does, a store answers as the memory that stands for
it, or both fail. -/
theorem exact (h : Retold shown catalog m events)
    (hstep : Step config m operation answer changed)
    (hshows : m.ShowsAs shown operation answer other) :
    other = answer.map (Reply.mapTracks shown) ∨
      changed = m ∧ (∃ error, answer = .error error) ∧ ∃ error, other = .error error := by
  rcases hshows with ⟨rfl, rfl⟩ | ⟨rfl, hagree⟩
  · exact Or.inl (map_mapTracks_id other).symm
  have hsame : (∀ room user, operation = .markVetoed room user → (m.room? room).isSome) →
      other = answer.map Reply.stored :=
    (hagree.corresponds h.tracks).eq Catalog.offers_unique
  cases hagree with
  | same => exact Or.inl rfl
  | noRoom hroom => exact Or.inr ⟨hstep.eq_of_error, ⟨_, rfl⟩, _, rfl⟩
  | vetoed hroom hlatest =>
      left
      apply hsame
      rintro room user ⟨⟩
      exact Option.isSome_of_eq_some hroom
  | history hroom =>
      left
      apply hsame
      rintro room user ⟨⟩

end Retold

end Memory
end Jukebox
