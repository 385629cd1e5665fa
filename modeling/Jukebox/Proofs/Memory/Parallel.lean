import Jukebox.Proofs.Memory.Alike

/-!
# The same operation on two stores

An operation that is not about another room answers alike on two stores that are alike for a
room, and they are alike afterwards. It is proved along the code: what is looked up is the same
in both stores, so both go on or both fail, and the changes are the same. Nothing but the
descriptions of tracks is looked up outside of what the room sees.
-/

namespace Jukebox
namespace Memory

open Jukebox.Action Playlist

variable {room : RoomId} {m n : Memory} {α β : Type}

/-- Whether two outcomes have one answer and stores that are alike. -/
structure SameEnd (room : RoomId) (outcome other : Except StoreError α × Memory) : Prop where
  answer : other.1 = outcome.1
  alike : Alike room outcome.2 other.2

def SameTracks (m n : Memory) : Prop :=
  ∀ id track other, m.track? id = some track → n.track? id = some other → other = track

/-!
## One step after another
-/

namespace SameEnd

theorem pure (h : Alike room m n) (value : α) :
    SameEnd room ((pure value : Action Memory α).run m)
      ((pure value : Action Memory α).run n) :=
  ⟨rfl, h⟩

theorem get {next other : Memory → Action Memory β}
    (h : SameEnd room ((next m).run m) ((other n).run n)) :
    SameEnd room ((get >>= next).run m) ((get >>= other).run n) := by
  rw [run_bind, run_get, run_bind, run_get]
  exact h

theorem modify (change : Memory → Memory) {next : PUnit → Action Memory β}
    (h : SameEnd room ((next ⟨⟩).run (change m)) ((next ⟨⟩).run (change n))) :
    SameEnd room ((modify change >>= next).run m) ((modify change >>= next).run n) := by
  rw [run_bind, run_modify, run_bind, run_modify]
  exact h

theorem refusing {condition : Prop} [Decidable condition] {error : StoreError}
    {next : Unit → Action Memory α} (halike : Alike room m n)
    (h : SameEnd room ((next ()).run m) ((next ()).run n)) :
    SameEnd room ((if condition then throw error >>= next else next ()).run m)
      ((if condition then throw error >>= next else next ()).run n) := by
  split
  · exact ⟨rfl, halike⟩
  · exact h

theorem map (f : α → β) {action other : Action Memory α}
    (h : SameEnd room (action.run m) (other.run n)) :
    SameEnd room ((f <$> action).run m) ((f <$> other).run n) := by
  rw [run_map, run_map]
  exact ⟨congrArg (Except.map f) h.answer, h.alike⟩

theorem require (h : Alike room m n) (error : StoreError) (found : Option α) :
    SameEnd room ((require error found : Action Memory α).run m)
      ((require error found : Action Memory α).run n) := by
  cases found with
  | none => exact ⟨rfl, h⟩
  | some value => exact ⟨rfl, h⟩

/-- What only looks leaves both stores as they are, so it is enough to see how they go on from
there. -/
theorem looking {action other : Action Memory α} {next follow : α → Action Memory β}
    (h : SameEnd room (action.run m) (other.run n)) (hreads : action.ReadsOnly)
    (hother : other.ReadsOnly)
    (hnext : ∀ value, (action.run m).1 = .ok value →
      SameEnd room ((next value).run m) ((follow value).run n)) :
    SameEnd room ((action >>= next).run m) ((other >>= follow).run n) := by
  rw [run_bind, run_bind]
  rcases hm : action.run m with ⟨answer, changed⟩
  rcases hn : other.run n with ⟨answer', changed'⟩
  obtain rfl : changed = m := (congrArg Prod.snd hm).symm.trans (hreads m)
  obtain rfl : changed' = n := (congrArg Prod.snd hn).symm.trans (hother n)
  rw [hm, hn] at h
  rw [hm] at hnext
  cases h.answer
  cases answer with
  | ok value => exact hnext value rfl
  | error error => exact ⟨rfl, h.alike⟩

theorem requiring (halike : Alike room m n) {error : StoreError} {found : Option α}
    {next follow : α → Action Memory β}
    (h : ∀ value, found = some value →
      SameEnd room ((next value).run m) ((follow value).run n)) :
    SameEnd room ((Action.require error found >>= next).run m)
      ((Action.require error found >>= follow).run n) := by
  cases found with
  | none => exact ⟨rfl, halike⟩
  | some value => exact h value rfl

theorem lifting (halike : Alike room m n) {outcome : Except StoreError α}
    {next follow : α → Action Memory β}
    (h : ∀ value, SameEnd room ((next value).run m) ((follow value).run n)) :
    SameEnd room ((lift outcome >>= next).run m) ((lift outcome >>= follow).run n) := by
  cases outcome with
  | error error => exact ⟨rfl, halike⟩
  | ok value => exact h value

theorem mapM {action other : α → Action Memory β} (halike : Alike room m n)
    (hreads : ∀ value, (action value).ReadsOnly) (hother : ∀ value, (other value).ReadsOnly)
    {values : List α}
    (h : ∀ value ∈ values, SameEnd room ((action value).run m) ((other value).run n)) :
    SameEnd room ((values.mapM action).run m) ((values.mapM other).run n) := by
  induction values with
  | nil => exact .pure halike []
  | cons value rest ih =>
      rw [List.mapM_cons, List.mapM_cons]
      apply looking (h value List.mem_cons_self) (hreads value) (hother value)
      intro first _
      have hrest := ih fun later hlater => h later (List.mem_cons_of_mem value hlater)
      apply looking hrest (readsOnly_mapM hreads rest) (readsOnly_mapM hother rest)
      intro others _
      exact .pure halike _

end SameEnd

/-!
## Looking up
-/

theorem Sound.item_of_next? (h : m.Sound) {id : QueueId} {queue : Queue}
    (hqueue : m.queue? id = some queue) {entry : QueueEntry}
    (hnext : queue.next? = some entry) : entry.item ∈ queue.items := by
  have hitem := (h.holds hqueue).next?_item
  rw [hnext, Option.map_some] at hitem
  exact (mem_of_next? hitem.symm).1

theorem SameTracks.track? (h : SameTracks m n) (hm : m.Sound) (hn : n.Sound) {id : QueueId}
    {queue : Queue} (hqueue : m.queue? id = some queue) (hother : n.queue? id = some queue)
    {entry : QueueEntry} (hentry : entry.item ∈ queue.items) :
    n.track? entry.track = m.track? entry.track := by
  rcases hm.exists_track hqueue hentry with ⟨track, htrack⟩
  rcases hn.exists_track hother hentry with ⟨again, hagain⟩
  have htrack : m.track? entry.track = some track := htrack
  have hagain : n.track? entry.track = some again := hagain
  rw [htrack, hagain, h entry.track track again htrack hagain]

namespace Alike

theorem fetchRoom (h : Alike room m n) :
    SameEnd room ((fetchRoom room).run m) ((fetchRoom room).run n) := by
  show SameEnd room ((require _ (m.room? room)).run m) ((require _ (n.room? room)).run n)
  rw [h.state]
  exact .require h _ _

theorem fetchUser (h : Alike room m n) (id : UserId) :
    SameEnd room ((fetchUser id).run m) ((fetchUser id).run n) := by
  show SameEnd room ((require _ (m.user? id)).run m) ((require _ (n.user? id)).run n)
  rw [h.user?]
  exact .require h _ _

theorem fetchingRoom (h : Alike room m n) {next : RoomState → Action Memory β}
    (hnext : ∀ state, m.room? room = some state →
      SameEnd room ((next state).run m) ((next state).run n)) :
    SameEnd room ((Memory.fetchRoom room >>= next).run m)
      ((Memory.fetchRoom room >>= next).run n) := by
  show SameEnd room ((require _ (m.room? room) >>= next).run m)
    ((require _ (n.room? room) >>= next).run n)
  rw [h.state]
  exact .requiring h hnext

theorem fetchingQueue (h : Alike room m n) {user : UserId}
    {next follow : Queue → Action Memory β}
    (hnext : ∀ queue, m.queue? ⟨room, user⟩ = some queue → n.queue? ⟨room, user⟩ = some queue →
      SameEnd room ((next queue).run m) ((follow queue).run n)) :
    SameEnd room ((fetchQueue ⟨room, user⟩ >>= next).run m)
      ((fetchQueue ⟨room, user⟩ >>= follow).run n) := by
  show SameEnd room ((require _ (m.queue? ⟨room, user⟩) >>= next).run m)
    ((require _ (n.queue? ⟨room, user⟩) >>= follow).run n)
  rw [h.queues]
  refine .requiring h ?_
  intro queue hqueue
  exact hnext queue hqueue ((h.queues user).trans hqueue)

theorem pickMember (h : Alike room m n) {state : RoomState}
    (hroom : m.room? room = some state) : n.pickMember state = m.pickMember state := by
  have hid := (mem_of_room? hroom).2
  have hcandidates : n.candidates state = m.candidates state := by
    rw [candidates, candidates]
    refine List.map_congr_left ?_
    intro user _
    rw [hid, h.queues]
  rw [Memory.pickMember, Memory.pickMember, hcandidates]

/-!
## Users and rooms
-/

theorem createUser (h : Alike room m n) (id : UserId) (name : String) :
    SameEnd room ((createUser id name).run m) ((createUser id name).run n) := by
  unfold Memory.createUser
  apply SameEnd.get
  rw [h.user?]
  apply SameEnd.refusing h
  apply SameEnd.modify
  exact .pure (h.addUser ⟨id, name⟩) _

theorem createRoom (h : Alike room m n) (config : Config) (name : String) (kind : RotatorKind)
    (codes : Nat → RoomId) (seed : Nat) :
    SameEnd room ((createRoom config name kind codes seed).run m)
      ((createRoom config name kind codes seed).run n) := by
  unfold Memory.createRoom
  apply SameEnd.get
  have htaken : (fun id => (n.room? id).isSome) = fun id => (m.room? id).isSome :=
    funext h.isSome_room?
  rw [htaken]
  apply SameEnd.requiring h
  intro id _
  apply SameEnd.modify
  exact .pure (h.addRoom _) _

theorem searchRooms (h : Alike room m n) (query : String) :
    SameEnd room ((searchRooms query).run m) ((searchRooms query).run n) := by
  unfold Memory.searchRooms
  apply SameEnd.get
  dsimp only
  rw [h.rooms]
  split
  · exact .pure h _
  · exact .pure h _

theorem join (h : Alike room m n) (user : UserId) :
    SameEnd room ((join room user).run m) ((join room user).run n) := by
  unfold Memory.join
  apply h.fetchingRoom
  intro state _
  apply SameEnd.looking (h.fetchUser user) (readsOnly_fetchUser user)
    (readsOnly_fetchUser user)
  intro found _
  apply SameEnd.get
  rw [h.queues]
  apply SameEnd.refusing h
  apply SameEnd.modify
  exact ⟨rfl, (h.addQueue user).modifyRoom fun _ => rfl⟩

/-!
## Queues
-/

theorem addTrack (h : Alike room m n) (user : UserId) (track : Track) (after : Option EntryId)
    (entry : EntryId) :
    SameEnd room ((addTrack ⟨room, user⟩ track after entry).run m)
      ((addTrack ⟨room, user⟩ track after entry).run n) := by
  unfold Memory.addTrack
  apply h.fetchingQueue
  intro queue _ _
  apply SameEnd.lifting h
  rintro ⟨_, changed⟩
  apply SameEnd.modify
  exact ⟨rfl, (h.setQueue user changed).setTrack track⟩

theorem removeTrack (h : Alike room m n) (user : UserId) (entry : EntryId) :
    SameEnd room ((removeTrack ⟨room, user⟩ entry).run m)
      ((removeTrack ⟨room, user⟩ entry).run n) := by
  unfold Memory.removeTrack
  apply h.fetchingQueue
  intro queue _ _
  apply SameEnd.lifting h
  rintro ⟨_, changed⟩
  exact ⟨rfl, h.setQueue user changed⟩

theorem listTracks (h : Alike room m n) (hm : m.Sound) (hn : n.Sound)
    (htracks : SameTracks m n) (user : UserId) (filter : QueueFilter) :
    SameEnd room ((listTracks ⟨room, user⟩ filter).run m)
      ((listTracks ⟨room, user⟩ filter).run n) := by
  unfold Memory.listTracks
  apply h.fetchingQueue
  intro queue hqueue hother
  apply SameEnd.get
  apply SameEnd.mapM h
  · exact fun entry => (readsOnly_require _ (m.track? entry.track)).map _
  · exact fun entry => (readsOnly_require _ (n.track? entry.track)).map _
  · intro entry hentry
    have htrack : n.track? entry.track = m.track? entry.track := by
      refine htracks.track? hm hn hqueue hother ?_
      exact List.mem_map_of_mem (List.mem_filter.mp hentry).1
    rw [htrack]
    exact (SameEnd.require h _ _).map _

/-!
## Turns
-/

theorem nextTrack (h : Alike room m n) (hm : m.Sound) (hn : n.Sound) (htracks : SameTracks m n)
    (now : Timestamp) :
    SameEnd room ((nextTrack room now).run m) ((nextTrack room now).run n) := by
  unfold Memory.nextTrack
  apply h.fetchingRoom
  intro state hroom
  apply SameEnd.get
  rw [h.pickMember hroom]
  apply SameEnd.lifting h
  rintro ⟨member, rotator⟩
  dsimp only
  rw [h.user?]
  apply SameEnd.requiring h
  intro user _
  apply h.fetchingQueue
  intro queue hqueue hother
  have hnext : (queue.next?.bind fun entry => n.track? entry.track) =
      queue.next?.bind fun entry => m.track? entry.track := by
    refine Option.bind_congr ?_
    intro entry hentry
    exact htracks.track? hm hn hqueue hother (hm.item_of_next? hqueue hentry)
  rw [hnext]
  apply SameEnd.requiring h
  intro track _
  apply SameEnd.modify
  apply SameEnd.modify
  apply SameEnd.pure
  exact (h.setQueue member _).modifyRoom fun _ => by rfl

theorem markVetoed (h : Alike room m n) (config : Config) (user : UserId) :
    SameEnd room ((markVetoed config room user).run m)
      ((markVetoed config room user).run n) := by
  unfold Memory.markVetoed
  apply h.fetchingQueue
  intro queue _ _
  apply h.fetchingRoom
  intro state _
  apply SameEnd.lifting h
  intro position
  apply SameEnd.requiring h
  intro latest _
  apply SameEnd.modify
  apply SameEnd.pure
  exact h.modifyRoom fun _ => by rfl

theorem listMembers (h : Alike room m n) :
    SameEnd room ((listMembers room).run m) ((listMembers room).run n) := by
  unfold Memory.listMembers
  apply h.fetchingRoom
  intro state _
  apply SameEnd.get
  apply SameEnd.mapM h
  · exact fun id => readsOnly_require _ (m.user? id)
  · exact fun id => readsOnly_require _ (n.user? id)
  · intro id _
    rw [h.user?]
    exact .require h _ _

/-!
## All operations
-/

/-- Whatever is not about another room ends in the same way. -/
theorem step (h : Alike room m n) (hm : m.Sound) (hn : n.Sound) (htracks : SameTracks m n)
    (config : Config) {operation : Operation} (hhere : ¬ operation.Elsewhere room) :
    SameEnd room (Store.step config m operation) (Store.step config n operation) := by
  have hroom : ∀ id, operation.about? = some id → id = room := by
    intro id habout
    by_contra hother
    exact hhere ⟨id, habout, hother⟩
  cases operation with
  | createUser id name => exact (h.createUser id name).map _
  | createRoom name kind codes seed => exact (h.createRoom config name kind codes seed).map _
  | user id => exact (h.fetchUser id).map _
  | searchRooms query => exact (h.searchRooms query).map _
  | join id user =>
      obtain rfl := hroom id rfl
      exact (h.join user).map _
  | addTrack queue track after entry =>
      obtain rfl := hroom queue.room rfl
      exact (h.addTrack queue.user track after entry).map _
  | removeTrack queue entry =>
      obtain rfl := hroom queue.room rfl
      exact (h.removeTrack queue.user entry).map _
  | nextTrack id now =>
      obtain rfl := hroom id rfl
      exact (h.nextTrack hm hn htracks now).map _
  | markVetoed id user =>
      obtain rfl := hroom id rfl
      exact (h.markVetoed config user).map _
  | room id =>
      obtain rfl := hroom id rfl
      exact (h.fetchRoom.map _).map _
  | members id =>
      obtain rfl := hroom id rfl
      exact h.listMembers.map _
  | tracks queue filter =>
      obtain rfl := hroom queue.room rfl
      exact (h.listTracks hm hn htracks queue.user filter).map _
  | history id =>
      obtain rfl := hroom id rfl
      exact (h.fetchRoom.map _).map _

end Alike
end Memory
end Jukebox
