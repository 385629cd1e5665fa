import Mathlib.Data.List.Flatten
import Jukebox.Proofs.Store.Simulation

/-!
# Runs of both stores

Operations are performed one after another, on an empty memory and on an empty database alike.
What one step keeps holds after every run: the memory is sound, and the tables of the database
mirror it, if entries have identifiers that were never used before. Rotators count right until
64 bits overflow.
-/

namespace Jukebox

namespace Store

variable {σ : Type} [Store σ] (config : Config)

theorem runAll_append (store : σ) (first rest : List Operation) :
    runAll config store (first ++ rest) =
      ((runAll config store first).1 ++ (runAll config (runAll config store first).2 rest).1,
        (runAll config (runAll config store first).2 rest).2) := by
  induction first generalizing store with
  | nil => rfl
  | cons operation others ih => simp [runAll, ih]

theorem runAll_concat (store : σ) (first : List Operation) (operation : Operation) :
    runAll config store (first ++ [operation]) =
      ((runAll config store first).1 ++
        [(step config (runAll config store first).2 operation).1],
        (step config (runAll config store first).2 operation).2) := by
  rw [runAll_append]
  rfl

@[simp]
theorem length_runAll (store : σ) (operations : List Operation) :
    (runAll config store operations).1.length = operations.length := by
  induction operations generalizing store with
  | nil => rfl
  | cons operation rest ih => simp [runAll, ih]

/-- An answer within a run is that of one step, after all operations before. -/
theorem getElem?_runAll (store : σ) {operations : List Operation} {i : Nat}
    {operation : Operation} (h : operations[i]? = some operation) :
    (runAll config store operations).1[i]? =
      some (step config (runAll config store (operations.take i)).2 operation).1 := by
  induction operations generalizing store i with
  | nil => cases h
  | cons first rest ih =>
      cases i with
      | zero =>
          cases h
          rfl
      | succ i =>
          simp only [runAll, List.getElem?_cons_succ, List.take_succ_cons] at h ⊢
          exact ih _ h

theorem exists_operation_of_mem {store : σ} {operations : List Operation}
    {answer : Except StoreError Reply} (h : answer ∈ (runAll config store operations).1) :
    ∃ (i : Nat) (operation : Operation), operations[i]? = some operation ∧
      (runAll config store operations).1[i]? = some answer := by
  rcases List.mem_iff_getElem?.mp h with ⟨i, hi⟩
  have hlt := (List.getElem?_eq_some_iff.mp hi).1
  rw [length_runAll] at hlt
  exact ⟨i, operations[i], List.getElem?_eq_getElem hlt, hi⟩

end Store

open Store Memory

def queuedBy (operations : List Operation) (answers : List (Except StoreError Reply)) :
    List Track :=
  (List.zipWith Operation.queued operations answers).flatten

/-- Whether new entries get new identifiers. -/
def Fresh (operations : List Operation) : Prop :=
  (operations.flatMap Operation.newEntries).Nodup

instance (operations : List Operation) : Decidable (Fresh operations) :=
  inferInstanceAs (Decidable (List.Nodup _))

theorem Fresh.sublist {thin full : List Operation} (h : Fresh full)
    (hthin : thin.Sublist full) : Fresh thin :=
  List.Nodup.sublist (hthin.flatMap Operation.newEntries) h

theorem Fresh.take {operations : List Operation} (h : Fresh operations) (i : Nat) :
    Fresh (operations.take i) :=
  h.sublist (List.take_sublist i operations)

theorem Fresh.notMem {operations : List Operation} (h : Fresh operations) {i : Nat}
    {operation : Operation} (hoperation : operations[i]? = some operation) {entry : EntryId}
    (hentry : entry ∈ operation.newEntries) :
    entry ∉ (operations.take i).flatMap Operation.newEntries := by
  rcases List.getElem?_eq_some_iff.mp hoperation with ⟨hi, rfl⟩
  rw [Fresh, ← List.take_append_drop i operations, List.drop_eq_getElem_cons hi,
    List.flatMap_append, List.flatMap_cons, List.nodup_append] at h
  exact fun hold => h.2.2 entry hold entry (List.mem_append_left _ hentry) rfl

/-- What both stores are like after some operations. -/
structure Together (entries : List EntryId) (tracks : List Track) (m : Memory) (t : Tables) :
    Prop where
  sound : m.Sound
  entriesFrom : m.EntriesFrom entries
  tracksFrom : m.TracksFrom tracks
  mirrors : Mirrors m t

theorem together_empty : Together [] [] Memory.empty Tables.empty where
  sound := sound_empty
  entriesFrom := fun _ hnamed => absurd hnamed List.not_mem_nil
  tracksFrom := ⟨fun _ htrack => absurd htrack List.not_mem_nil,
    fun _ hstate => absurd hstate List.not_mem_nil⟩
  mirrors := mirrors_empty

variable {entries : List EntryId} {tracks : List Track} {m : Memory} {t : Tables}

theorem Together.step (h : Together entries tracks m t) (config : Config)
    {operation : Operation} (hfresh : ∀ entry ∈ operation.newEntries, entry ∉ entries) :
    ∃ answer t', Store.step config (Database.opened t) operation =
      (answer, Database.opened t') ∧
      m.Agree operation (Store.step config m operation).1 answer ∧
      Together (entries ++ operation.newEntries)
        (tracks ++ operation.queued (Store.step config m operation).1)
        (Store.step config m operation).2 t' := by
  have hstep := h.sound.step config operation
  rcases h.mirrors.step h.sound h.entriesFrom hfresh hstep with
    ⟨answer, t', hrun, hagree, hmirrors⟩
  refine ⟨answer, t', hrun, hagree, ?_⟩
  exact
    { sound := hstep.sound h.sound
      entriesFrom := hstep.entriesFrom h.entriesFrom
      tracksFrom := hstep.tracksFrom h.tracksFrom
      mirrors := hmirrors }

theorem together_after (config : Config) {operations : List Operation} (h : Fresh operations) :
    ∃ t, (runAll config Database.empty operations).2 = Database.opened t ∧
      Together (operations.flatMap Operation.newEntries)
        (queuedBy operations (runAll config Memory.empty operations).1)
        (runAll config Memory.empty operations).2 t := by
  induction operations using List.reverseRecOn with
  | nil => exact ⟨Tables.empty, rfl, together_empty⟩
  | append_singleton before operation ih =>
      have hbefore : Fresh before := by
        simpa using h.take before.length
      rcases ih hbefore with ⟨t, hrun, htogether⟩
      have hfresh : ∀ entry ∈ operation.newEntries,
          entry ∉ before.flatMap Operation.newEntries := by
        intro entry hentry
        have hlast : (before ++ [operation])[before.length]? = some operation := by simp
        simpa using h.notMem hlast hentry
      rcases htogether.step config hfresh with ⟨answer, t', hstep, -, hafter⟩
      refine ⟨t', ?_, ?_⟩
      · rw [runAll_concat, hrun, hstep]
      · have hqueued : queuedBy (before ++ [operation])
            (runAll config Memory.empty (before ++ [operation])).1 =
              queuedBy before (runAll config Memory.empty before).1 ++
                operation.queued
                  (Store.step config (runAll config Memory.empty before).2 operation).1 := by
          rw [queuedBy, runAll_concat, List.zipWith_append (by simp), List.flatten_append,
            queuedBy]
          simp
        rw [hqueued, runAll_concat, List.flatMap_append]
        simpa using hafter

theorem within_after (config : Config) {operations : List Operation}
    (hroom : operations.length ≤ wordLimit) :
    (runAll config Memory.empty operations).2.Sound ∧
      (runAll config Memory.empty operations).2.Within operations.length := by
  induction operations using List.reverseRecOn with
  | nil => exact ⟨sound_empty, fun _ hstate => absurd hstate List.not_mem_nil⟩
  | append_singleton before operation ih =>
      rw [List.length_append, List.length_singleton] at hroom ⊢
      rcases ih (Nat.le_of_succ_le hroom) with ⟨hsound, hwithin⟩
      have hstep := hsound.step config operation
      rw [runAll_concat]
      exact ⟨hstep.sound hsound, hstep.within hsound hwithin hroom⟩

theorem answers_agree (config : Config) {operations : List Operation} (h : Fresh operations)
    {i : Nat} {operation : Operation} (hoperation : operations[i]? = some operation) :
    ∃ m tracks answer other,
      m = (runAll config Memory.empty (operations.take i)).2 ∧
      tracks = queuedBy (operations.take i)
        (runAll config Memory.empty (operations.take i)).1 ∧
      (runAll config Memory.empty operations).1[i]? = some answer ∧
      (runAll config Database.empty operations).1[i]? = some other ∧
      (∃ changed, Memory.Step config m operation answer changed) ∧
      m.TracksFrom tracks ∧ m.Agree operation answer other := by
  rcases together_after config (h.take i) with ⟨t, hrun, htogether⟩
  rcases htogether.step config (fun _ => h.notMem hoperation) with
    ⟨other, t', hstep, hagree, -⟩
  refine ⟨_, _, _, other, rfl, rfl, getElem?_runAll config _ hoperation, ?_,
    ⟨_, htogether.sound.step config operation⟩, htogether.tracksFrom, hagree⟩
  rw [getElem?_runAll config _ hoperation, hrun, hstep]

end Jukebox
