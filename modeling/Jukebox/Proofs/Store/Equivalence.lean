import Jukebox.Proofs.Store.Runs

/-!
# Both stores answer alike

The same operations on an empty memory and on an empty database get the same answers. There are
three exceptions. A veto in a room that does not exist misses the queue in memory and the room
in the database. Histories describe a track as it was when it was served in memory, and as it
is now in the database; so the descriptions may differ where a track was queued under two of
them. And a track whose length is no finite number has no length any more once the database has
written it down.
-/

namespace Jukebox

open Store Memory

/-- Whether two history entries differ in nothing but the description of the track. Both
descriptions were queued under the same identifier, and the second one is shown as it is read
back. -/
structure Redescribed (queued : List Track) (entry other : TrackEntry) : Prop where
  rest : other = { entry with track := other.track }
  id : other.track.id = entry.track.id
  first : entry.track ∈ queued
  second : ∃ track ∈ queued, other.track = track.stored

/-- Whether two answers to an operation are those of both stores, when the memory holds certain
rooms and certain tracks were queued before. -/
inductive Corresponds (m : Memory) (queued : List Track) :
    Operation → Except StoreError Reply → Except StoreError Reply → Prop
  | same {operation : Operation} {answer : Except StoreError Reply} :
    Corresponds m queued operation answer (answer.map Reply.stored)
  | noRoom {room : RoomId} {user : UserId} (hroom : m.room? room = none) :
    Corresponds m queued (.markVetoed room user) (.error (.notFound (.queue ⟨room, user⟩)))
      (.error (.notFound (.room room)))
  | vetoed {room : RoomId} {user : UserId} {entry other : TrackEntry}
    (hentry : Redescribed queued entry other) :
    Corresponds m queued (.markVetoed room user) (.ok (.vetoed entry)) (.ok (.vetoed other))
  | history {room : RoomId} {entries others : List TrackEntry}
    (hentries : List.Forall₂ (Redescribed queued) entries others) :
    Corresponds m queued (.history room) (.ok (.history entries)) (.ok (.history others))

variable {config : Config} {m : Memory} {queued : List Track} {operation : Operation}
  {answer other : Except StoreError Reply}

/-!
## Tracks of one description
-/

theorem Redescribed.eq {entry again : TrackEntry} (h : Redescribed queued entry again)
    (hunique : ∀ one ∈ queued, ∀ two ∈ queued, one.id = two.id → one = two) :
    again = entry.stored := by
  rcases h.second with ⟨track, htrack, hstored⟩
  have hid : track.id = entry.track.id := by rw [← h.id, hstored, Track.id_stored]
  rw [h.rest, hstored, hunique track htrack entry.track h.first hid]
  rfl

theorem Corresponds.eq (h : Corresponds m queued operation answer other)
    (hunique : ∀ one ∈ queued, ∀ two ∈ queued, one.id = two.id → one = two)
    (hrooms : ∀ room user, operation = .markVetoed room user → (m.room? room).isSome) :
    other = answer.map Reply.stored := by
  cases h with
  | same => rfl
  | noRoom hroom =>
      have hsome := hrooms _ _ rfl
      rw [hroom] at hsome
      cases hsome
  | vetoed hentry =>
      rw [hentry.eq hunique]
      rfl
  | history hentries =>
      have hsame := List.Forall₂.imp (fun _ _ hentry => (hentry.eq hunique).symm) hentries
      rw [← List.forall₂_map_left_iff, List.forall₂_eq_eq_eq] at hsame
      rw [← hsame]
      rfl

/-!
## Lost lengths
-/

def Reply.shown : Reply → List Track
  | .tracks queued => queued.map QueueTrack.track
  | .served _ track => [track]
  | .vetoed latest => [latest.track]
  | .history entries => entries.map TrackEntry.track
  | _ => []

theorem Reply.stored_eq {reply : Reply} (h : ∀ track ∈ reply.shown, track.stored = track) :
    reply.stored = reply := by
  cases reply with
  | tracks queued =>
      refine congrArg Reply.tracks
        ((List.map_congr_left fun one hone => ?_).trans (List.map_id _))
      rw [QueueTrack.mapTrack, h one.track (List.mem_map_of_mem hone)]
      rfl
  | served user track =>
      exact congrArg (Reply.served user) (h track (List.mem_singleton_self track))
  | vetoed latest =>
      refine congrArg Reply.vetoed ?_
      rw [TrackEntry.mapTrack, h latest.track (List.mem_singleton_self latest.track)]
  | history entries =>
      refine congrArg Reply.history
        ((List.map_congr_left fun one hone => ?_).trans (List.map_id _))
      rw [TrackEntry.mapTrack, h one.track (List.mem_map_of_mem hone)]
      rfl
  | _ => rfl

theorem Memory.Step.mem_of_shown {reply : Reply} {changed : Memory}
    (h : Step config m operation (.ok reply) changed) (htracks : m.TracksFrom queued)
    {track : Track} (hshown : track ∈ reply.shown) : track ∈ queued := by
  cases h with
  | served _ _ _ _ _ _ _ _ _ _ _ _ htrack =>
      obtain rfl := List.mem_singleton.mp hshown
      exact htracks.library _ (mem_of_track? htrack).1
  | @vetoed _ _ _ _ _ hroom _ latest hhistory =>
      obtain rfl := List.mem_singleton.mp hshown
      refine htracks.history _ (mem_of_room? hroom).1 latest ?_
      rw [hhistory]
      exact List.mem_append_right _ (List.mem_singleton_self latest)
  | tracksListed _ =>
      obtain ⟨one, hone, rfl⟩ := List.mem_map.mp hshown
      obtain ⟨entry, -, hdescribed⟩ := List.mem_filterMap.mp hone
      obtain ⟨found, htrack, rfl⟩ := Option.map_eq_some_iff.mp hdescribed
      exact htracks.library _ (mem_of_track? htrack).1
  | historyListed hroom =>
      obtain ⟨entry, hentry, rfl⟩ := List.mem_map.mp hshown
      exact htracks.history _ (mem_of_room? hroom).1 _ hentry
  | _ => exact absurd hshown List.not_mem_nil

/-!
## Histories
-/

theorem redescribed_redescribe (h : m.TracksFrom queued) {state : RoomState}
    (hstate : state ∈ m.rooms) {entry : TrackEntry} (hentry : entry ∈ state.history) :
    Redescribed queued entry (m.redescribe entry) := by
  have hfirst := h.history state hstate entry hentry
  cases htrack : m.track? entry.track.id with
  | none =>
      have hsame : m.redescribe entry = entry.stored := by rw [Memory.redescribe, htrack]; rfl
      rw [hsame]
      exact ⟨rfl, entry.track.id_stored, hfirst, entry.track, hfirst, rfl⟩
  | some track =>
      have hchanged : m.redescribe entry = { entry with track := track.stored } := by
        rw [Memory.redescribe, htrack]
        rfl
      rcases mem_of_track? htrack with ⟨hmem, hid⟩
      rw [hchanged]
      exact ⟨rfl, track.id_stored.trans hid, hfirst, track, h.library track hmem, rfl⟩

theorem Memory.Agree.corresponds (h : m.Agree operation answer other)
    (htracks : m.TracksFrom queued) : Corresponds m queued operation answer other := by
  cases h with
  | same => exact .same
  | noRoom hroom => exact .noRoom hroom
  | @vetoed _ user _ hroom _ hlatest =>
      have hentry := redescribed_redescribe htracks (mem_of_room? hroom).1 hlatest
      refine .vetoed ⟨?_, hentry.id, hentry.first, hentry.second⟩
      exact congrArg (fun entry => entry.veto user) hentry.rest
  | history hroom =>
      refine .history ?_
      rw [List.forall₂_map_right_iff, List.forall₂_same]
      exact fun entry hentry => redescribed_redescribe htracks (mem_of_room? hroom).1 hentry

/-- Whatever is performed on both stores, the answers correspond one by one. Nothing is lost
while all tracks that were queued have finite lengths. -/
theorem answers_correspond (config : Config) {operations : List Operation}
    (h : Fresh operations) {i : Nat} {operation : Operation}
    (hoperation : operations[i]? = some operation) : ∃ answer other,
      (runAll config Memory.empty operations).1[i]? = some answer ∧
      (runAll config Database.empty operations).1[i]? = some other ∧
      Corresponds (runAll config Memory.empty (operations.take i)).2
        (queuedBy (operations.take i) (runAll config Memory.empty (operations.take i)).1)
        operation answer other ∧
      ((∀ track ∈ queuedBy (operations.take i)
        (runAll config Memory.empty (operations.take i)).1,
        ∀ length ∈ track.duration, length.isFinite) → answer.map Reply.stored = answer) := by
  rcases answers_agree config h hoperation with
    ⟨_, _, answer, other, rfl, rfl, hanswer, hother, ⟨changed, hstep⟩, htracks, hagree⟩
  refine ⟨answer, other, hanswer, hother, hagree.corresponds htracks, fun hfinite => ?_⟩
  cases answer with
  | error e => rfl
  | ok reply =>
      refine congrArg Except.ok (Reply.stored_eq fun track hshown => ?_)
      exact Track.stored_eq_iff.mpr (hfinite track (hstep.mem_of_shown htracks hshown))

/-- A track is queued and served as a demo, and then queued again as a single. -/
def queuedTwice : List Operation :=
  [.createUser ⟨"ann"⟩ "Ann", .createRoom "Den" .roundRobin (fun _ => ⟨"DEN"⟩) 0,
    .join ⟨"DEN"⟩ ⟨"ann"⟩, .addTrack ⟨⟨"DEN"⟩, ⟨"ann"⟩⟩ { id := ⟨"t"⟩, name := "Demo" } none
      ⟨"one"⟩,
    .nextTrack ⟨"DEN"⟩ ⟨"now", "now"⟩,
    .addTrack ⟨⟨"DEN"⟩, ⟨"ann"⟩⟩ { id := ⟨"t"⟩, name := "Single" } (some ⟨"one"⟩) ⟨"two"⟩,
    .history ⟨"DEN"⟩]

def endless : List Operation :=
  [.createUser ⟨"ann"⟩ "Ann", .createRoom "Den" .roundRobin (fun _ => ⟨"DEN"⟩) 0,
    .join ⟨"DEN"⟩ ⟨"ann"⟩,
    .addTrack ⟨⟨"DEN"⟩, ⟨"ann"⟩⟩
      { id := ⟨"t"⟩, name := "Drone", duration := some (.infinite false) } none ⟨"one"⟩,
    .nextTrack ⟨"DEN"⟩ ⟨"now", "now"⟩]

/-- The memory shows the demo in its history, and the database the single. The memory serves a
track without an end, and the database one without a length. -/
theorem answers_correspond_queuedTwice :
    Fresh queuedTwice ∧ queuedTwice[6]? = some (.history ⟨"DEN"⟩) ∧
    (∃ answer other,
      (runAll {} Memory.empty queuedTwice).1[6]? = some answer ∧
      (runAll {} Database.empty queuedTwice).1[6]? = some other ∧
      Corresponds (runAll {} Memory.empty (queuedTwice.take 6)).2
        (queuedBy (queuedTwice.take 6) (runAll {} Memory.empty (queuedTwice.take 6)).1)
        (.history ⟨"DEN"⟩) answer other ∧
      ((∀ track ∈ queuedBy (queuedTwice.take 6)
        (runAll {} Memory.empty (queuedTwice.take 6)).1,
        ∀ length ∈ track.duration, length.isFinite) → answer.map Reply.stored = answer)) ∧
    (runAll {} Memory.empty queuedTwice).1[6]? =
      some (.ok (.history [.served ⟨"ann"⟩ { id := ⟨"t"⟩, name := "Demo" } ⟨"now", "now"⟩])) ∧
    (runAll {} Database.empty queuedTwice).1[6]? =
      some (.ok (.history
        [.served ⟨"ann"⟩ { id := ⟨"t"⟩, name := "Single" } ⟨"now", "now"⟩])) ∧
    Fresh endless ∧
    (runAll {} Memory.empty endless).1[4]? =
      some (.ok (.served ⟨⟨"ann"⟩, "Ann"⟩
        { id := ⟨"t"⟩, name := "Drone", duration := some (.infinite false) })) ∧
    (runAll {} Database.empty endless).1[4]? =
      some (.ok (.served ⟨⟨"ann"⟩, "Ann"⟩
        { id := ⟨"t"⟩, name := "Drone", duration := none })) := by
  have hfresh : Fresh queuedTwice := by decide
  refine ⟨hfresh, rfl, answers_correspond {} hfresh rfl, ?_, ?_, by decide, ?_, ?_⟩
  · decide +kernel
  · decide +kernel
  · decide +kernel
  · decide +kernel

end Jukebox
