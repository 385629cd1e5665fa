import Jukebox.Proofs.Memory.Serving
import Jukebox.Proofs.Store.Runs

/-!
# Asking a store in the middle of a run

What a store is like after the first operations of a run is told by the answers that it would
give then. In this way one statement is about any kind of store. During a run, either store is
followed by a course of memories: an operation does what it does in memory, or it fails and
leaves the memory as it was. So what holds along all courses holds for both stores. Nothing is
assumed about the run: an identifier that is used twice only makes an operation fail.
-/

namespace Jukebox

open Store Memory Playlist

section Asking

variable {σ : Type} [Store σ] (config : Config) (start : σ)

def ask (operations : List Operation) (i : Nat) (operation : Operation) :
    Except StoreError Reply :=
  (Store.step config (runAll config start (operations.take i)).2 operation).1

theorem runAll_take_succ {operations : List Operation} {i : Nat} {operation : Operation}
    (h : operations[i]? = some operation) :
    (runAll config start (operations.take (i + 1))).2 =
      (Store.step config (runAll config start (operations.take i)).2 operation).2 := by
  rw [List.take_add_one, h, Option.toList_some, runAll_concat]

theorem runAll_take_succ_of_none {operations : List Operation} {i : Nat}
    (h : operations[i]? = none) : (runAll config start (operations.take (i + 1))).2 =
      (runAll config start (operations.take i)).2 := by
  rw [List.take_add_one, h, Option.toList_none, List.append_nil]

end Asking

/-!
## Courses
-/

def Operation.lookUp : Operation → Bool
  | .room _ | .user _ | .members _ | .tracks .. | .history _ | .searchRooms _ => true
  | _ => false

/-- What a store answers where the memory that stands for it has a reply. -/
def Memory.Shows (m : Memory) (operation : Operation)
    (reply answer : Except StoreError Reply) : Prop :=
  answer = reply ∨ m.Agree operation reply answer

/-- What an operation on a store does to the memory that stands for it. -/
inductive Memory.Moves (config : Config) (m : Memory) (operation : Operation)
    (answer : Except StoreError Reply) : Memory → Prop
  | done {reply : Except StoreError Reply} {changed : Memory}
    (hstep : Step config m operation reply changed) (hshows : m.Shows operation reply answer) :
    Moves config m operation answer changed
  | failed {error : StoreError} (hanswer : answer = .error error) : Moves config m operation
      answer m

/-- The memories that stand for a store during a run. -/
structure Course (config : Config) (operations : List Operation)
    (asked : Nat → Operation → Except StoreError Reply) (states : Nat → Memory) : Prop where
  start : states 0 = Memory.empty
  moves : ∀ {i : Nat} {operation : Operation}, operations[i]? = some operation →
    (states i).Moves config operation (asked i operation) (states (i + 1))
  rests : ∀ {i : Nat}, operations[i]? = none → states (i + 1) = states i
  shows : ∀ (i : Nat) (operation : Operation), operation.lookUp = true →
    ∃ reply changed, Step config (states i) operation reply changed ∧
      (states i).Shows operation reply (asked i operation)

variable {config : Config} {operations : List Operation}
  {asked : Nat → Operation → Except StoreError Reply} {states : Nat → Memory} {i : Nat}
  {operation : Operation} {room : RoomId} {id : QueueId} {filter : QueueFilter}

/-- Whether the answer to an operation shows nothing of a history. -/
def Operation.plain : Operation → Bool
  | .markVetoed .. | .history .. => false
  | _ => true

theorem Memory.Agree.eq_of_plain {m : Memory} {answer other : Except StoreError Reply}
    (h : m.Agree operation answer other) (hplain : operation.plain = true) :
    other = answer.map Reply.stored := by
  cases h with
  | same => rfl
  | noRoom _ => cases hplain
  | vetoed _ _ => cases hplain
  | history _ => cases hplain

theorem Memory.Shows.eq_of_plain {m : Memory} {reply answer : Except StoreError Reply}
    (h : m.Shows operation reply answer) (hplain : operation.plain = true) :
    answer = reply ∨ answer = reply.map Reply.stored :=
  h.imp_right fun hagree => hagree.eq_of_plain hplain

def Item.key (item : Item) : EntryId × TrackId :=
  (item.id, item.track)

def QueueTrack.key (queued : QueueTrack) : EntryId × TrackId :=
  (queued.id, queued.track.id)

theorem keys_stored (listed : List QueueTrack) :
    (listed.map QueueTrack.stored).map QueueTrack.key = listed.map QueueTrack.key := by
  rw [List.map_map]
  apply List.map_congr_left
  intro queued _
  exact congrArg (Prod.mk queued.id) queued.track.id_stored

namespace Course

/-- What every step in memory keeps holds throughout a course. -/
theorem invariant {P : Memory → Prop} (h : Course config operations asked states)
    (hempty : P Memory.empty)
    (hkept : ∀ {m changed : Memory} {operation : Operation} {reply : Except StoreError Reply},
      Step config m operation reply changed → P m → P changed) (i : Nat) : P (states i) := by
  induction i with
  | zero => exact h.start ▸ hempty
  | succ i ih =>
      cases hoperation : operations[i]? with
      | none => exact h.rests hoperation ▸ ih
      | some operation =>
          have hmoves := h.moves hoperation
          generalize states (i + 1) = after at hmoves
          cases hmoves with
          | done hstep _ => exact hkept hstep ih
          | failed _ => exact ih

theorem sound (h : Course config operations asked states) (i : Nat) : (states i).Sound :=
  h.invariant sound_empty (fun hstep => hstep.sound) i

theorem within (h : Course config operations asked states) (hi : i ≤ wordLimit) :
    (states i).Within i := by
  induction i with
  | zero =>
      rw [h.start]
      exact fun _ hstate => absurd hstate List.not_mem_nil
  | succ i ih =>
      have hbefore := ih (Nat.le_of_succ_le hi)
      cases hoperation : operations[i]? with
      | none => exact h.rests hoperation ▸ hbefore.mono (Nat.le_succ i)
      | some operation =>
          have hmoves := h.moves hoperation
          generalize states (i + 1) = after at hmoves
          cases hmoves with
          | done hstep _ => exact hstep.within (h.sound i) hbefore hi
          | failed _ => exact hbefore.mono (Nat.le_succ i)

theorem room_iff (h : Course config operations asked states) {found : Room} :
    asked i (.room room) = .ok (.room found) ↔
      ∃ state, (states i).room? room = some state ∧ found = state.room := by
  rcases h.shows i (.room room) rfl with ⟨reply, changed, hstep, hshows⟩
  have hanswer := hshows.eq_of_plain rfl
  cases hstep with
  | roomMissing hroom => rcases hanswer with hsame | hsame <;> simp [hsame, hroom, Except.map]
  | roomFound hroom =>
      rcases hanswer with hsame | hsame <;>
        simp [hsame, hroom, Except.map, Reply.mapTracks, eq_comm]

theorem members_iff (h : Course config operations asked states) {users : List User} :
    asked i (.members room) = .ok (.users users) ↔
      ∃ state, (states i).room? room = some state ∧
        users = state.members.filterMap (states i).user? := by
  rcases h.shows i (.members room) rfl with ⟨reply, changed, hstep, hshows⟩
  have hanswer := hshows.eq_of_plain rfl
  cases hstep with
  | membersNoRoom hroom =>
      rcases hanswer with hsame | hsame <;> simp [hsame, hroom, Except.map]
  | membersListed hroom =>
      rcases hanswer with hsame | hsame <;>
        simp [hsame, hroom, Except.map, Reply.mapTracks, eq_comm]

theorem exists_tracks (h : Course config operations asked states) {queue : Queue}
    (hqueue : (states i).queue? id = some queue) (filter : QueueFilter) :
    ∃ listed, asked i (.tracks id filter) = .ok (.tracks listed) ∧
      listed.map QueueTrack.key = ((states i).describe (queue.list filter)).map
        QueueTrack.key := by
  rcases h.shows i (.tracks id filter) rfl with ⟨reply, changed, hstep, hshows⟩
  have hanswer := hshows.eq_of_plain rfl
  cases hstep with
  | tracksNoQueue hnone => exact absurd (hnone.symm.trans hqueue) (by simp)
  | tracksListed hfound =>
      obtain rfl := Option.some.inj (hfound.symm.trans hqueue)
      rcases hanswer with hsame | hsame
      · exact ⟨_, hsame, rfl⟩
      · exact ⟨_, hsame, keys_stored _⟩

theorem tracks (h : Course config operations asked states) {listed : List QueueTrack}
    (hasked : asked i (.tracks id filter) = .ok (.tracks listed)) :
    ∃ queue, (states i).queue? id = some queue ∧
      listed.map QueueTrack.key = ((states i).describe (queue.list filter)).map
        QueueTrack.key := by
  rcases h.shows i (.tracks id filter) rfl with ⟨reply, changed, hstep, hshows⟩
  cases hstep with
  | tracksNoQueue _ =>
      rcases hshows.eq_of_plain rfl with hsame | hsame <;> cases hasked.symm.trans hsame
  | tracksListed hqueue =>
      rcases h.exists_tracks hqueue filter with ⟨others, hothers, hkeys⟩
      rw [hasked] at hothers
      cases hothers
      exact ⟨_, hqueue, hkeys⟩

end Course

/-!
## What is shown
-/

theorem play_stored (entry : TrackEntry) : entry.stored.play = entry.play :=
  congrArg (fun id => Play.mk entry.user id entry.vetoed entry.vetoedBy entry.playedAt)
    entry.track.id_stored

theorem plays_stored (entries : List TrackEntry) :
    (entries.map TrackEntry.stored).map TrackEntry.play = entries.map TrackEntry.play := by
  rw [List.map_map]
  apply List.map_congr_left
  intro entry _
  exact play_stored entry

theorem play_redescribe (m : Memory) (entry : TrackEntry) :
    (m.redescribe entry).play = entry.play := by
  rw [redescribe]
  cases htrack : m.track? entry.track.id with
  | none => exact play_stored entry
  | some track =>
      have hid : track.id = entry.track.id := (mem_of_track? htrack).2
      rw [Option.getD_some, TrackEntry.play, TrackEntry.play, Track.id_stored, hid]

theorem plays_redescribe (m : Memory) (entries : List TrackEntry) :
    (entries.map m.redescribe).map TrackEntry.play = entries.map TrackEntry.play := by
  rw [List.map_map]
  apply List.map_congr_left
  intro entry _
  exact play_redescribe m entry

theorem Memory.Shows.exists_plays {m : Memory} {entries : List TrackEntry}
    {answer : Except StoreError Reply}
    (h : m.Shows (.history room) (.ok (.history entries)) answer) :
    ∃ others, answer = .ok (.history others) ∧
      others.map TrackEntry.play = entries.map TrackEntry.play := by
  rcases h with rfl | hagree
  · exact ⟨entries, rfl, rfl⟩
  · cases hagree with
    | same => exact ⟨_, rfl, plays_stored entries⟩
    | history _ => exact ⟨_, rfl, plays_redescribe m _⟩

theorem Course.exists_history (h : Course config operations asked states) {state : RoomState}
    (hroom : (states i).room? room = some state) :
    ∃ entries, asked i (.history room) = .ok (.history entries) ∧
      entries.map TrackEntry.play = state.history.map TrackEntry.play := by
  rcases h.shows i (.history room) rfl with ⟨reply, changed, hstep, hshows⟩
  cases hstep with
  | historyNoRoom hnone => exact absurd (hnone.symm.trans hroom) (by simp)
  | historyListed hfound =>
      obtain rfl := Option.some.inj (hfound.symm.trans hroom)
      exact hshows.exists_plays

theorem Course.history (h : Course config operations asked states) {entries : List TrackEntry}
    (hasked : asked i (.history room) = .ok (.history entries)) :
    ∃ state, (states i).room? room = some state ∧
      entries.map TrackEntry.play = state.history.map TrackEntry.play := by
  rcases h.shows i (.history room) rfl with ⟨reply, changed, hstep, hshows⟩
  cases hstep with
  | historyNoRoom hnone =>
      rw [hasked] at hshows
      rcases hshows with hsame | hagree
      · cases hsame
      · exact nomatch hagree
  | historyListed hroom =>
      rcases h.exists_history hroom with ⟨others, hothers, hplays⟩
      rw [hasked] at hothers
      cases hothers
      exact ⟨_, hroom, hplays⟩

theorem Memory.Sound.key_described {m : Memory} (h : m.Sound) {queue : Queue}
    (hqueue : m.queue? id = some queue) (filter : QueueFilter) :
    (m.describe (queue.list filter)).map QueueTrack.key =
      (queue.items.filter fun item => filter.admits item.played).map Item.key := by
  rw [← (h.holds hqueue).list_item filter, List.map_map, describe]
  apply Mirrors.map_filterMap
  intro entry hentry
  have hitem : entry.item ∈ queue.items := List.mem_map_of_mem (List.mem_filter.mp hentry).1
  rcases h.exists_track hqueue hitem with ⟨track, htrack⟩
  have hid : track.id = entry.track := (mem_of_track? htrack).2
  have htrack : m.track? entry.track = some track := htrack
  refine ⟨⟨entry.id, entry.played, track⟩, ?_, ?_⟩
  · rw [htrack, Option.map_some]
  · exact congrArg (Prod.mk entry.id) hid

theorem Course.key_listed (h : Course config operations asked states)
    {listed : List QueueTrack} (hasked : asked i (.tracks id filter) = .ok (.tracks listed)) :
    listed.map QueueTrack.key =
      (((states i).itemsOf id).filter fun item => filter.admits item.played).map Item.key := by
  rcases h.tracks hasked with ⟨queue, hqueue, hkeys⟩
  rw [itemsOf_eq hqueue, hkeys]
  exact (h.sound i).key_described hqueue filter

/-!
## The store in memory
-/

def memoryAt (config : Config) (operations : List Operation) (i : Nat) : Memory :=
  (runAll config Memory.empty (operations.take i)).2

theorem sound_memoryAt (config : Config) (operations : List Operation) (i : Nat) :
    (memoryAt config operations i).Sound := by
  unfold memoryAt
  induction operations.take i using List.reverseRecOn with
  | nil => exact sound_empty
  | append_singleton before operation ih =>
      rw [runAll_concat]
      exact (ih.step config operation).sound ih

theorem course_memory (config : Config) (operations : List Operation) :
    Course config operations (ask config Memory.empty operations)
      (memoryAt config operations) where
  start := rfl
  moves := by
    intro i operation hoperation
    refine .done ?_ (Or.inl rfl)
    rw [memoryAt, memoryAt, runAll_take_succ config Memory.empty hoperation]
    exact (sound_memoryAt config operations i).step config operation
  rests := runAll_take_succ_of_none config Memory.empty
  shows := fun i operation _ =>
    ⟨_, _, (sound_memoryAt config operations i).step config operation, Or.inl rfl⟩

/-!
## The database
-/

/-- The memory that stands for the database: only operations that went through have reached
it. -/
def mirroredAt (config : Config) (operations : List Operation) : Nat → Memory
  | 0 => Memory.empty
  | i + 1 =>
    match operations[i]? with
    | none => mirroredAt config operations i
    | some operation =>
      match ask config Database.empty operations i operation with
      | .ok _ => (Store.step config (mirroredAt config operations i) operation).2
      | .error _ => mirroredAt config operations i

theorem Memory.Step.eq_of_error {m changed : Memory} {error : StoreError}
    (h : Step config m operation (.error error) changed) : changed = m := by
  cases h <;> rfl

theorem Memory.Agree.exists_error {m : Memory} {answer : Except StoreError Reply}
    {error : StoreError} (h : m.Agree operation answer (.error error)) :
    ∃ other, answer = .error other := by
  cases answer with
  | error other => exact ⟨other, rfl⟩
  | ok reply => exact nomatch h

theorem Memory.Shows.exists_ok {m : Memory} {answer : Except StoreError Reply} {reply : Reply}
    (h : m.Shows operation answer (.ok reply)) : ∃ other, answer = .ok other := by
  cases answer with
  | ok other => exact ⟨other, rfl⟩
  | error error =>
      rcases h with hsame | hagree
      · cases hsame
      · exact nomatch hagree

theorem Memory.Agree.exists_served {m : Memory} {answer : Except StoreError Reply}
    {user : User} {track : Track} (h : m.Agree operation answer (.ok (.served user track))) :
    ∃ other, answer = .ok (.served user other) := by
  generalize hserved : Except.ok (Reply.served user track) = other at h
  cases h with
  | same =>
      cases answer with
      | error error => cases hserved
      | ok reply =>
          cases reply <;> cases hserved
          exact ⟨_, rfl⟩
  | noRoom _ => cases hserved
  | vetoed _ _ => cases hserved
  | history _ => cases hserved

theorem Mirrors.moves {m : Memory} {t : Tables} (h : Mirrors m t) (hsound : m.Sound)
    (config : Config) (operation : Operation) :
    ∃ answer t', Store.step config (Database.opened t) operation =
      (answer, Database.opened t') ∧ ∃ changed, m.Moves config operation answer changed ∧
      Mirrors changed t' ∧
        changed = match answer with
          | .ok _ => (Store.step config m operation).2
          | .error _ => m := by
  have hstep := hsound.step config operation
  rcases h.follows_or_refuses hsound hstep
    with ⟨answer, t', hrun, hagree, hmirrors⟩ | ⟨error, hrun⟩
  · refine ⟨answer, t', hrun, _, .done hstep (Or.inr hagree), hmirrors, ?_⟩
    cases answer with
    | ok reply => rfl
    | error error =>
        rcases hagree.exists_error with ⟨other, hother⟩
        rw [hother] at hstep
        exact hstep.eq_of_error
  · exact ⟨.error error, t, hrun, m, .failed rfl, h, rfl⟩

/-- The tables of the database after the first operations of a run, and the memory that they
mirror. -/
structure Mirrored (config : Config) (operations : List Operation) (i : Nat) (t : Tables) :
    Prop where
  tables : (runAll config Database.empty (operations.take i)).2 = Database.opened t
  mirrors : Mirrors (mirroredAt config operations i) t
  sound : (mirroredAt config operations i).Sound

namespace Mirrored

variable {t : Tables}

theorem rest (h : Mirrored config operations i t) (hoperation : operations[i]? = none) :
    mirroredAt config operations (i + 1) = mirroredAt config operations i ∧
      Mirrored config operations (i + 1) t := by
  have hsame : mirroredAt config operations (i + 1) = mirroredAt config operations i := by
    simp only [mirroredAt, hoperation]
  refine ⟨hsame, (runAll_take_succ_of_none config Database.empty hoperation).trans h.tables,
    ?_, ?_⟩
  · exact hsame ▸ h.mirrors
  · exact hsame ▸ h.sound

theorem next (h : Mirrored config operations i t)
    (hoperation : operations[i]? = some operation) :
    (mirroredAt config operations i).Moves config operation
        (ask config Database.empty operations i operation)
        (mirroredAt config operations (i + 1)) ∧
      ∃ t', Mirrored config operations (i + 1) t' := by
  rcases h.mirrors.moves h.sound config operation with
    ⟨answer, t', hstep, changed, hmoves, hafter, hchanged⟩
  have hanswer : ask config Database.empty operations i operation = answer := by
    rw [ask, h.tables, hstep]
  have hnext : mirroredAt config operations (i + 1) = changed := by
    simp only [mirroredAt, hoperation, hanswer, hchanged]
  rw [hanswer, hnext]
  refine ⟨hmoves, t', ?_, hnext ▸ hafter, hnext ▸ ?_⟩
  · rw [runAll_take_succ config Database.empty hoperation, h.tables, hstep]
  · cases hmoves with
    | done hmemory _ => exact hmemory.sound h.sound
    | failed _ => exact h.sound

end Mirrored

theorem exists_mirrored (config : Config) (operations : List Operation) (i : Nat) :
    ∃ t, Mirrored config operations i t := by
  induction i with
  | zero => exact ⟨Tables.empty, rfl, mirrors_empty, sound_empty⟩
  | succ i ih =>
      rcases ih with ⟨t, hmirrored⟩
      cases hoperation : operations[i]? with
      | none => exact ⟨t, (hmirrored.rest hoperation).2⟩
      | some operation => exact (hmirrored.next hoperation).2

theorem course_database (config : Config) (operations : List Operation) :
    Course config operations (ask config Database.empty operations)
      (mirroredAt config operations) where
  start := rfl
  moves := by
    intro i operation hoperation
    rcases exists_mirrored config operations i with ⟨t, hmirrored⟩
    exact (hmirrored.next hoperation).1
  rests := by
    intro i hoperation
    rcases exists_mirrored config operations i with ⟨t, hmirrored⟩
    exact (hmirrored.rest hoperation).1
  shows := by
    intro i operation hlookUp
    rcases exists_mirrored config operations i with ⟨t, hmirrored⟩
    have hstep := hmirrored.sound.step config operation
    have hnone : operation.newEntries = [] := by
      cases operation <;> first | rfl | cases hlookUp
    rcases hmirrored.mirrors.follows_step hmirrored.sound (by simp [hnone]) hstep with
      ⟨answer, t', hrun, hagree, -⟩
    have hanswer : ask config Database.empty operations i operation = answer := by
      rw [ask, hmirrored.tables, hrun]
    exact ⟨_, _, hstep, Or.inr (hanswer ▸ hagree)⟩

end Jukebox
