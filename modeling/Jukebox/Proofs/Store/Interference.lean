import Mathlib.Data.List.Flatten
import Jukebox.Proofs.Memory.Parallel
import Jukebox.Proofs.Store.Equivalence

/-!
# Rooms do not interfere

Leave out of a run any operations on other rooms: whoever asks about the room that stays gets
the same answers as before. In memory, the stores of the two runs are alike for that room all
the way. A database mirrors its memory, although all rooms share its tables, so its answers are
those of the memory, with one exception that depends on the list of rooms only.
-/

namespace Jukebox

open Store Memory

def Operation.described : Operation → List Track
  | .addTrack _ track _ _ => [track]
  | _ => []

/-- Whether no two of some tracks describe the same one differently. -/
def DescribedOnce (tracks : List Track) : Prop :=
  ∀ track ∈ tracks, ∀ other ∈ tracks, track.id = other.id → track = other

/-- Whether a run is another one without some of the operations on other rooms. -/
inductive Thinned (room : RoomId) : List Operation → List Operation → Prop
  | nil : Thinned room [] []
  | keep {full thin : List Operation} (operation : Operation) (h : Thinned room full thin) :
    Thinned room (operation :: full) (operation :: thin)
  | drop {full thin : List Operation} {operation : Operation}
      (helsewhere : operation.Elsewhere room)
    (h : Thinned room full thin) : Thinned room (operation :: full) thin

def heard (room : RoomId) (operations : List Operation)
    (answers : List (Except StoreError Reply)) : List (Operation × Except StoreError Reply) :=
  (operations.zip answers).filter fun asked => ¬ asked.1.Elsewhere room

variable {room : RoomId} {full thin rest : List Operation} {operation : Operation}

theorem heard_here (h : ¬ operation.Elsewhere room) (answer : Except StoreError Reply)
    (answers : List (Except StoreError Reply)) :
    heard room (operation :: rest) (answer :: answers) = (operation, answer) ::
      heard room rest answers := by
  simp [heard, h]

theorem heard_elsewhere (h : operation.Elsewhere room) (answer : Except StoreError Reply)
    (answers : List (Except StoreError Reply)) :
    heard room (operation :: rest) (answer :: answers) = heard room rest answers := by
  simp [heard, h]

theorem Thinned.sublist (h : Thinned room full thin) : thin.Sublist full := by
  induction h with
  | nil => exact .refl []
  | keep operation h ih => exact ih.cons_cons operation
  | drop helsewhere h ih => exact ih.cons _

/-!
## Both stores on their way
-/

/-- What both stores are like on their way, when all tracks are described as in a list, and the
operations to come use identifiers of their own. -/
structure Ready (entries : List EntryId) (tracks : List Track) (rest : List Operation)
    (m : Memory) (t : Tables) : Prop extends Together entries tracks m t where
  unused : (entries ++ rest.flatMap Operation.newEntries).Nodup
  described : rest.flatMap Operation.described ⊆ tracks

variable {entries entries' : List EntryId} {tracks : List Track} {m n : Memory}
  {t s : Tables}

theorem ready_empty (h : Fresh rest) (htracks : rest.flatMap Operation.described ⊆ tracks) :
    Ready [] tracks rest Memory.empty Tables.empty where
  toTogether :=
    { together_empty with
      tracksFrom := together_empty.tracksFrom.mono (List.nil_subset tracks) }
  unused := h
  described := htracks

theorem Operation.queued_subset (operation : Operation) (answer : Except StoreError Reply) :
    operation.queued answer ⊆ operation.described := by
  cases operation <;> cases answer <;> simp [queued, described]

theorem Ready.step (h : Ready entries tracks (operation :: rest) m t) (config : Config) :
    ∃ answer t', Store.step config (Database.opened t) operation =
      (answer, Database.opened t') ∧
      m.Agree operation (Store.step config m operation).1 answer ∧
      Ready (entries ++ operation.newEntries) tracks rest
        (Store.step config m operation).2 t' := by
  have hunused := h.unused
  have hdescribed := h.described
  rw [List.flatMap_cons] at hunused hdescribed
  have hfresh : ∀ entry ∈ operation.newEntries, entry ∉ entries := by
    intro entry hnew hold
    exact (List.nodup_append.mp hunused).2.2 entry hold entry (List.mem_append_left _ hnew) rfl
  rcases h.toTogether.step config hfresh with ⟨answer, t', hstep, hagree, hafter⟩
  refine ⟨answer, t', hstep, hagree, ?_⟩
  have hqueued : operation.queued (Store.step config m operation).1 ⊆ tracks :=
    fun track htrack => hdescribed (List.mem_append_left _ (operation.queued_subset _ htrack))
  have htracks : tracks ++ operation.queued (Store.step config m operation).1 ⊆ tracks :=
    List.append_subset.mpr ⟨List.Subset.refl tracks, hqueued⟩
  exact
    { hafter with
      tracksFrom := hafter.tracksFrom.mono htracks
      unused := by
        rw [List.append_assoc]
        exact hunused
      described := fun track hlater => hdescribed (List.mem_append_right _ hlater) }

theorem Ready.sameTracks (h : Ready entries tracks full m t)
    (hother : Ready entries' tracks thin n s) (hunique : DescribedOnce tracks) :
    SameTracks m n := by
  intro id track other htrack hagain
  rcases mem_of_track? htrack with ⟨hmem, hid⟩
  rcases mem_of_track? hagain with ⟨hmem', hid'⟩
  exact hunique other (hother.tracksFrom.library other hmem') track
    (h.tracksFrom.library track hmem) (hid'.trans hid.symm)

/-!
## The answers of a database
-/

theorem Mirrors.step_markVetoed_none (h : Mirrors m t) (config : Config) {id : RoomId}
    (hroom : m.room? id = none) (user : UserId) :
    Store.step config (Database.opened t) (.markVetoed id user) =
      (.error (.notFound (.room id)), Database.opened t) := by
  have hjob : ((Tables.markVetoed false config id user).run t).1 =
      .error (.notFound (.room id)) := by
    simp [Tables.markVetoed, h.run_fetchRoom_none hroom]
  exact Database.step_write_error rfl hjob rfl

theorem Ready.answers_eq (h : Ready entries tracks (operation :: full) m t)
    (hother : Ready entries' tracks (operation :: thin) n s)
    (hunique : DescribedOnce tracks) (halike : Alike room m n) (config : Config)
    (hanswer : (Store.step config n operation).1 = (Store.step config m operation).1) :
    (Store.step config (Database.opened s) operation).1 =
      (Store.step config (Database.opened t) operation).1 := by
  -- A veto in a room that does not exist misses the room, where the memory misses the queue:
  -- so the answer of the memory does not decide, but the rooms of both databases do.
  by_cases hnowhere : ∃ id user, operation = .markVetoed id user ∧ m.room? id = none
  · rcases hnowhere with ⟨id, user, rfl, hroom⟩
    have hgone : n.room? id = none := by
      have hsome := halike.isSome_room? id
      rw [hroom] at hsome
      exact Option.isNone_iff_eq_none.mp (Option.isSome_eq_false_iff.mp hsome)
    rw [h.mirrors.step_markVetoed_none config hroom,
      hother.mirrors.step_markVetoed_none config hgone]
  · rcases h.step config with ⟨answer, t', hstep, hagree, -⟩
    rcases hother.step config with ⟨answer', s', hstep', hagree', -⟩
    have hrooms : ∀ id user, operation = .markVetoed id user → (m.room? id).isSome := by
      intro id user hveto
      rw [Option.isSome_iff_ne_none]
      exact fun hroom => hnowhere ⟨id, user, hveto, hroom⟩
    have hrooms' : ∀ id user, operation = .markVetoed id user → (n.room? id).isSome := by
      intro id user hveto
      rw [halike.isSome_room?]
      exact hrooms id user hveto
    have hsame := (hagree.corresponds h.tracksFrom).eq hunique hrooms
    have hsame' := (hagree'.corresponds hother.tracksFrom).eq hunique hrooms'
    rw [hstep, hstep', hsame, hsame', hanswer]

/-!
## Two runs
-/

theorem Thinned.heard_eq (h : Thinned room full thin) (config : Config)
    (hunique : DescribedOnce tracks) (halike : Alike room m n)
    (hfull : Ready entries tracks full m t)
    (hthin : Ready entries' tracks thin n s) :
    heard room full (runAll config m full).1 = heard room thin (runAll config n thin).1 ∧
    heard room full (runAll config (Database.opened t) full).1 =
      heard room thin (runAll config (Database.opened s) thin).1 := by
  induction h generalizing entries entries' m n t s with
  | nil => exact ⟨rfl, rfl⟩
  | @keep full thin operation h ih =>
      rcases hfull.step config with ⟨answer, t', hstep, -, hfull'⟩
      rcases hthin.step config with ⟨answer', s', hstep', -, hthin'⟩
      simp only [runAll, hstep, hstep']
      by_cases helsewhere : operation.Elsewhere room
      -- Both runs go on with another room, perhaps in two different ways.
      · have halike' : Alike room (Store.step config m operation).2
            (Store.step config n operation).2 :=
          ((hfull.sound.step config operation).alike helsewhere).symm.trans
            (halike.trans ((hthin.sound.step config operation).alike helsewhere))
        simp only [heard_elsewhere helsewhere]
        exact ih halike' hfull' hthin'
      · have hend :=
          halike.step hfull.sound hthin.sound (hfull.sameTracks hthin hunique) config
          helsewhere
        have hanswer : answer' = answer := by
          have hsame := hfull.answers_eq hthin hunique halike config hend.answer
          rwa [hstep, hstep'] at hsame
        rcases ih hend.alike hfull' hthin' with ⟨hmemory, hdatabase⟩
        simp only [heard_here helsewhere, hend.answer, hanswer, hmemory, hdatabase, and_self]
  | @drop full thin operation helsewhere h ih =>
      rcases hfull.step config with ⟨answer, t', hstep, -, hfull'⟩
      have halike' : Alike room (Store.step config m operation).2 n :=
        ((hfull.sound.step config operation).alike helsewhere).symm.trans halike
      simp only [runAll, hstep, heard_elsewhere helsewhere]
      exact ih halike' hfull' hthin

/-- Whatever is left out on other rooms, all other answers stay the same, in both stores. -/
theorem rooms_do_not_interfere (config : Config) (room : RoomId) {full thin : List Operation}
    (hfresh : Fresh full) (htracks : DescribedOnce (full.flatMap Operation.described))
    (hthin : Thinned room full thin) :
    heard room full (runAll config Memory.empty full).1 =
      heard room thin (runAll config Memory.empty thin).1 ∧
    heard room full (runAll config Database.empty full).1 =
      heard room thin (runAll config Database.empty thin).1 := by
  have hsublist := hthin.sublist
  exact hthin.heard_eq config htracks (.refl room Memory.empty)
    (ready_empty hfresh (List.Subset.refl _))
    (ready_empty (hfresh.sublist hsublist) (hsublist.flatMap Operation.described).subset)

/-- Ann and Bob share the Den, and Bob has the Attic for himself. The same song is queued in
both. -/
def twoRooms : List Operation :=
  [.createUser ⟨"ann"⟩ "Ann", .createUser ⟨"bob"⟩ "Bob",
    .createRoom "Den" .roundRobin (fun _ => ⟨"DEN"⟩) 0, .createRoom "Attic" .shuffle
      (fun _ => ⟨"ATT"⟩) 7,
    .join ⟨"DEN"⟩ ⟨"ann"⟩, .join ⟨"ATT"⟩ ⟨"bob"⟩, .join ⟨"DEN"⟩ ⟨"bob"⟩,
    .addTrack ⟨⟨"ATT"⟩, ⟨"bob"⟩⟩ { id := ⟨"t"⟩, name := "Song" } none ⟨"one"⟩,
    .addTrack ⟨⟨"DEN"⟩, ⟨"bob"⟩⟩ { id := ⟨"t"⟩, name := "Song" } none ⟨"two"⟩,
    .nextTrack ⟨"ATT"⟩ ⟨"now", "now"⟩, .nextTrack ⟨"DEN"⟩ ⟨"now", "now"⟩,
    .markVetoed ⟨"ATT"⟩ ⟨"bob"⟩, .markVetoed ⟨"DEN"⟩ ⟨"ann"⟩, .history ⟨"DEN"⟩]

def oneRoom : List Operation :=
  [.createUser ⟨"ann"⟩ "Ann", .createUser ⟨"bob"⟩ "Bob",
    .createRoom "Den" .roundRobin (fun _ => ⟨"DEN"⟩) 0, .createRoom "Attic" .shuffle
      (fun _ => ⟨"ATT"⟩) 7,
    .join ⟨"DEN"⟩ ⟨"ann"⟩, .join ⟨"DEN"⟩ ⟨"bob"⟩,
    .addTrack ⟨⟨"ATT"⟩, ⟨"bob"⟩⟩ { id := ⟨"t"⟩, name := "Song" } none ⟨"one"⟩,
    .addTrack ⟨⟨"DEN"⟩, ⟨"bob"⟩⟩ { id := ⟨"t"⟩, name := "Song" } none ⟨"two"⟩,
    .nextTrack ⟨"DEN"⟩ ⟨"now", "now"⟩, .markVetoed ⟨"DEN"⟩ ⟨"ann"⟩, .history ⟨"DEN"⟩]

theorem thinned_oneRoom : Thinned ⟨"DEN"⟩ twoRooms oneRoom := by
  have helsewhere : (⟨"ATT"⟩ : RoomId) ≠ ⟨"DEN"⟩ := by decide
  refine .keep _ (.keep _ (.keep _ (.keep _ (.keep _ ?_))))
  refine .drop ⟨_, rfl, helsewhere⟩ (.keep _ (.keep _ (.keep _ ?_)))
  refine .drop ⟨_, rfl, helsewhere⟩ (.keep _ ?_)
  exact .drop ⟨_, rfl, helsewhere⟩ (.keep _ (.keep _ .nil))

/-- The Den serves Bob's song and takes Ann's veto, whatever happens in the Attic. -/
theorem rooms_do_not_interfere_twoRooms :
    Fresh twoRooms ∧ DescribedOnce (twoRooms.flatMap Operation.described) ∧
    Thinned ⟨"DEN"⟩ twoRooms oneRoom ∧
    (heard ⟨"DEN"⟩ twoRooms (runAll {} Memory.empty twoRooms).1 =
        heard ⟨"DEN"⟩ oneRoom (runAll {} Memory.empty oneRoom).1 ∧
      heard ⟨"DEN"⟩ twoRooms (runAll {} Database.empty twoRooms).1 =
        heard ⟨"DEN"⟩ oneRoom (runAll {} Database.empty oneRoom).1) ∧
    (runAll {} Database.empty twoRooms).1[7]? = some (.ok (.entry ⟨"one"⟩)) ∧
    (runAll {} Database.empty oneRoom).1[6]? =
      some (.error (.notFound (.queue ⟨⟨"ATT"⟩, ⟨"bob"⟩⟩))) ∧
    (runAll {} Memory.empty oneRoom).1[8]? =
      some (.ok (.served ⟨⟨"bob"⟩, "Bob"⟩ { id := ⟨"t"⟩, name := "Song" })) := by
  have hfresh : Fresh twoRooms := by decide
  have htracks : DescribedOnce (twoRooms.flatMap Operation.described) := by
    unfold DescribedOnce
    decide
  refine ⟨hfresh, htracks, thinned_oneRoom,
    rooms_do_not_interfere {} ⟨"DEN"⟩ hfresh htracks thinned_oneRoom, ?_, ?_, ?_⟩
  · decide +kernel
  · decide +kernel
  · decide +kernel

end Jukebox
