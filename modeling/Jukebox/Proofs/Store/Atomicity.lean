import Mathlib.Data.List.Basic
import Jukebox.Proofs.Store.Action
import Jukebox.Store.Database
import Jukebox.Store.Edit
import Jukebox.Store.Memory

/-!
# Nothing is done by halves

An operation that fails leaves the store as it found it, in whatever state that store is:
nothing here asks for a state that operations led to. In memory it comes from the order of
steps: whatever may fail comes before the first change, and a change does not fail. The writer
of a database changes rows before it knows that all goes well, and takes them back. A job that
adds a user or lists a queue needs no taking back.
-/

namespace Jukebox

namespace Action

variable {σ α β : Type}

/-!
## Ways to leave a store
-/

def ReadsOnly (action : Action σ α) : Prop :=
  ∀ store, (action.run store).2 = store

def Succeeds (action : Action σ α) : Prop :=
  ∀ store, ∃ value, (action.run store).1 = .ok value

/-- An action that leaves the store as it is where it fails. -/
def AllOrNothing (action : Action σ α) : Prop :=
  ∀ store error, (action.run store).1 = .error error → (action.run store).2 = store

theorem ReadsOnly.allOrNothing {action : Action σ α} (h : action.ReadsOnly) :
    action.AllOrNothing := by
  intro store error _
  exact h store

theorem Succeeds.allOrNothing {action : Action σ α} (h : action.Succeeds) :
    action.AllOrNothing := by
  intro store error herror
  rcases h store with ⟨value, hvalue⟩
  rw [hvalue] at herror
  cases herror

/-!
## Looking at the store
-/

theorem readsOnly_pure (value : α) : (pure value : Action σ α).ReadsOnly :=
  fun _ => rfl

theorem readsOnly_throw (error : StoreError) : (throw error : Action σ α).ReadsOnly :=
  fun _ => rfl

theorem readsOnly_get : (get : Action σ σ).ReadsOnly :=
  fun _ => rfl

theorem readsOnly_require (error : StoreError) (found : Option α) :
    (require error found : Action σ α).ReadsOnly := by
  cases found with
  | none => exact readsOnly_throw error
  | some value => exact readsOnly_pure value

theorem readsOnly_lift (outcome : Except StoreError α) :
    (lift outcome : Action σ α).ReadsOnly := by
  intro store
  rw [run_lift]

theorem ReadsOnly.bind {action : Action σ α} {next : α → Action σ β} (h : action.ReadsOnly)
    (hnext : ∀ value, (next value).ReadsOnly) : (action >>= next).ReadsOnly := by
  intro store
  rw [run_bind]
  rcases hrun : action.run store with ⟨answer, changed⟩
  obtain rfl : changed = store := (congrArg Prod.snd hrun).symm.trans (h store)
  cases answer with
  | ok value => exact hnext value changed
  | error error => rfl

theorem ReadsOnly.map {action : Action σ α} (f : α → β) (h : action.ReadsOnly) :
    (f <$> action).ReadsOnly := by
  intro store
  rw [run_map]
  exact h store

theorem ReadsOnly.ite {condition : Prop} [Decidable condition] {action other : Action σ α}
    (h : action.ReadsOnly) (hother : other.ReadsOnly) :
    (if condition then action else other).ReadsOnly := by
  split
  · exact h
  · exact hother

theorem readsOnly_mapM {action : α → Action σ β} (h : ∀ value, (action value).ReadsOnly)
    (values : List α) : (values.mapM action).ReadsOnly := by
  induction values with
  | nil => exact readsOnly_pure []
  | cons value rest ih =>
      rw [List.mapM_cons]
      apply (h value).bind
      intro first
      apply ih.bind
      intro others
      exact readsOnly_pure (first :: others)

/-!
## Changing the store
-/

theorem succeeds_modify (change : σ → σ) : (modify change : Action σ PUnit).Succeeds :=
  fun _ => ⟨_, rfl⟩

theorem succeeds_pure (value : α) : (pure value : Action σ α).Succeeds :=
  fun _ => ⟨_, rfl⟩

theorem Succeeds.bind {action : Action σ α} {next : α → Action σ β} (h : action.Succeeds)
    (hnext : ∀ value, (next value).Succeeds) : (action >>= next).Succeeds := by
  intro store
  rw [run_bind]
  rcases h store with ⟨value, hvalue⟩
  rcases hrun : action.run store with ⟨answer, changed⟩
  rw [hrun] at hvalue
  cases hvalue
  exact hnext value changed

theorem ReadsOnly.followed {action : Action σ α} {next : α → Action σ β} (h : action.ReadsOnly)
    (hnext : ∀ value, (next value).AllOrNothing) : (action >>= next).AllOrNothing := by
  intro store
  rw [run_bind]
  rcases hrun : action.run store with ⟨answer, changed⟩
  obtain rfl : changed = store := (congrArg Prod.snd hrun).symm.trans (h store)
  cases answer with
  | ok value => exact hnext value changed
  | error error => exact fun _ _ => rfl

theorem AllOrNothing.refusing {condition : Prop} [Decidable condition] {error : StoreError}
    {next : Unit → Action σ α} (h : (next ()).AllOrNothing) :
    (if condition then throw error >>= next else next ()).AllOrNothing := by
  split
  · intro store _ _
    rfl
  · exact h

theorem AllOrNothing.map {action : Action σ α} (f : α → β) (h : action.AllOrNothing) :
    (f <$> action).AllOrNothing := by
  intro store error herror
  rw [run_map] at herror ⊢
  cases hanswer : (action.run store).1 with
  | ok value =>
      rw [hanswer] at herror
      cases herror
  | error cause => exact h store cause hanswer

/-- A transaction needs nothing of its steps. -/
theorem allOrNothing_transaction (action : Action σ α) : action.transaction.AllOrNothing := by
  intro store error herror
  rcases hrun : action.run store with ⟨answer, changed⟩
  cases answer with
  | ok value =>
      rw [run_transaction_ok store hrun] at herror
      cases herror
  | error cause =>
      have hfailed : (action.run store).1 = .error cause := congrArg Prod.fst hrun
      rw [run_transaction_error store hfailed]

/-- An action that leaves nothing behind where it fails has nothing to be undone. -/
theorem AllOrNothing.transaction_eq {action : Action σ α} (h : action.AllOrNothing) :
    action.transaction = action := by
  funext store
  show action.transaction.run store = action.run store
  rcases hrun : action.run store with ⟨answer, changed⟩
  cases answer with
  | ok value => exact run_transaction_ok store hrun
  | error error =>
      have hfailed : (action.run store).1 = .error error := congrArg Prod.fst hrun
      obtain rfl : changed = store :=
        (congrArg Prod.snd hrun).symm.trans (h store error hfailed)
      exact run_transaction_error changed hfailed

end Action

open Jukebox.Action

/-!
## The store in memory
-/

namespace Memory

theorem readsOnly_fetchRoom (id : RoomId) : (fetchRoom id).ReadsOnly :=
  readsOnly_get.bind fun m => readsOnly_require _ (m.room? id)

theorem readsOnly_fetchUser (id : UserId) : (fetchUser id).ReadsOnly :=
  readsOnly_get.bind fun m => readsOnly_require _ (m.user? id)

theorem readsOnly_fetchQueue (id : QueueId) : (fetchQueue id).ReadsOnly :=
  readsOnly_get.bind fun m => readsOnly_require _ (m.queue? id)

theorem allOrNothing_createUser (id : UserId) (name : String) :
    (createUser id name).AllOrNothing := by
  unfold createUser
  apply readsOnly_get.followed
  intro m
  apply AllOrNothing.refusing
  apply Succeeds.allOrNothing
  exact (succeeds_modify _).bind fun _ => succeeds_pure _

theorem allOrNothing_createRoom (config : Config) (name : String) (kind : RotatorKind)
    (codes : Nat → RoomId) (seed : Nat) :
    (createRoom config name kind codes seed).AllOrNothing := by
  unfold createRoom
  apply readsOnly_get.followed
  intro m
  apply (readsOnly_require _ _).followed
  intro id
  apply Succeeds.allOrNothing
  exact (succeeds_modify _).bind fun _ => succeeds_pure _

theorem allOrNothing_join (room : RoomId) (user : UserId) : (join room user).AllOrNothing := by
  unfold join
  apply (readsOnly_fetchRoom room).followed
  intro state
  apply (readsOnly_fetchUser user).followed
  intro found
  apply readsOnly_get.followed
  intro m
  apply AllOrNothing.refusing
  apply Succeeds.allOrNothing
  exact (succeeds_modify _).bind fun _ => succeeds_modify _

theorem allOrNothing_addTrack (id : QueueId) (track : Track) (after : Option EntryId)
    (entry : EntryId) : (addTrack id track after entry).AllOrNothing := by
  unfold addTrack
  apply (readsOnly_fetchQueue id).followed
  intro queue
  apply (readsOnly_lift _).followed
  rintro ⟨inserted, changed⟩
  apply Succeeds.allOrNothing
  exact (succeeds_modify _).bind fun _ => succeeds_modify _

theorem allOrNothing_removeTrack (id : QueueId) (entry : EntryId) :
    (removeTrack id entry).AllOrNothing := by
  unfold removeTrack
  apply (readsOnly_fetchQueue id).followed
  intro queue
  apply (readsOnly_lift _).followed
  rintro ⟨removed, changed⟩
  exact (succeeds_modify _).allOrNothing

/-- The rotator makes its turn on the side; the room gets it together with everything else. -/
theorem allOrNothing_nextTrack (room : RoomId) (now : Timestamp) :
    (nextTrack room now).AllOrNothing := by
  unfold nextTrack
  apply (readsOnly_fetchRoom room).followed
  intro state
  apply readsOnly_get.followed
  intro m
  apply (readsOnly_lift _).followed
  rintro ⟨member, rotator⟩
  apply (readsOnly_require _ _).followed
  intro user
  apply (readsOnly_fetchQueue _).followed
  intro queue
  apply (readsOnly_require _ _).followed
  intro track
  apply Succeeds.allOrNothing
  apply (succeeds_modify _).bind
  intro _
  exact (succeeds_modify _).bind fun _ => succeeds_pure _

theorem allOrNothing_markVetoed (config : Config) (room : RoomId) (user : UserId) :
    (markVetoed config room user).AllOrNothing := by
  unfold markVetoed
  apply (readsOnly_fetchQueue _).followed
  intro queue
  apply (readsOnly_fetchRoom room).followed
  intro state
  apply (readsOnly_lift _).followed
  intro position
  apply (readsOnly_require _ _).followed
  intro latest
  apply Succeeds.allOrNothing
  exact (succeeds_modify _).bind fun _ => succeeds_pure _

theorem readsOnly_listMembers (room : RoomId) : (listMembers room).ReadsOnly := by
  unfold listMembers
  apply (readsOnly_fetchRoom room).bind
  intro state
  apply readsOnly_get.bind
  intro m
  exact readsOnly_mapM (fun id => readsOnly_require _ (m.user? id)) state.members

theorem readsOnly_listTracks (id : QueueId) (filter : QueueFilter) :
    (listTracks id filter).ReadsOnly := by
  unfold listTracks
  apply (readsOnly_fetchQueue id).bind
  intro queue
  apply readsOnly_get.bind
  intro m
  apply readsOnly_mapM
  intro entry
  exact (readsOnly_require _ (m.track? entry.track)).map _

theorem readsOnly_searchRooms (query : String) : (searchRooms query).ReadsOnly := by
  unfold searchRooms
  apply readsOnly_get.bind
  intro m
  exact (readsOnly_pure _).ite (readsOnly_pure _)

theorem allOrNothing_perform (config : Config) (operation : Operation) :
    (Store.perform config operation : Action Memory Reply).AllOrNothing := by
  cases operation with
  | createUser id name => exact (allOrNothing_createUser id name).map _
  | createRoom name kind codes seed =>
      exact (allOrNothing_createRoom config name kind codes seed).map _
  | join room user => exact (allOrNothing_join room user).map _
  | addTrack queue track after entry =>
      exact (allOrNothing_addTrack queue track after entry).map _
  | removeTrack queue entry => exact (allOrNothing_removeTrack queue entry).map _
  | nextTrack room now => exact (allOrNothing_nextTrack room now).map _
  | markVetoed room user => exact (allOrNothing_markVetoed config room user).map _
  | room id => exact (((readsOnly_fetchRoom id).map _).map _).allOrNothing
  | user id => exact ((readsOnly_fetchUser id).map _).allOrNothing
  | members room => exact ((readsOnly_listMembers room).map _).allOrNothing
  | tracks queue filter => exact ((readsOnly_listTracks queue filter).map _).allOrNothing
  | history id => exact (((readsOnly_fetchRoom id).map _).map _).allOrNothing
  | searchRooms query => exact ((readsOnly_searchRooms query).map _).allOrNothing

end Memory

/-!
## The database
-/

namespace Tables

theorem readsOnly_fetchPointer (id : QueueId) : (fetchPointer id).ReadsOnly := by
  unfold fetchPointer
  apply readsOnly_get.bind
  intro t
  exact (readsOnly_require _ (t.queue? id)).bind fun row => readsOnly_pure row.pointer

theorem allOrNothing_createUser (frozen : Bool) (id : UserId) (name : String) :
    (createUser frozen id name).AllOrNothing := by
  unfold createUser
  apply readsOnly_get.followed
  intro t
  apply AllOrNothing.refusing
  apply ((readsOnly_pure ()).ite (readsOnly_throw .internal)).followed
  intro _
  apply Succeeds.allOrNothing
  exact (succeeds_modify _).bind fun _ => succeeds_pure _

theorem readsOnly_listTracks (queue : QueueId) (filter : QueueFilter) :
    (listTracks queue filter).ReadsOnly := by
  unfold listTracks
  apply (readsOnly_fetchPointer queue).bind
  intro pointer
  apply readsOnly_get.bind
  intro t
  apply (readsOnly_lift _).bind
  intro tracks
  exact (readsOnly_lift _).bind fun _ => readsOnly_pure _

theorem transaction_createUser (frozen : Bool) (id : UserId) (name : String) :
    (createUser frozen id name).transaction = createUser frozen id name :=
  (allOrNothing_createUser frozen id name).transaction_eq

theorem transaction_listTracks (queue : QueueId) (filter : QueueFilter) :
    (listTracks queue filter).transaction = listTracks queue filter :=
  (readsOnly_listTracks queue filter).allOrNothing.transaction_eq

end Tables

namespace Database

variable {α β : Type}

/-- An action that leaves nothing in the tables where it fails; at worst it loses the
writer. -/
def Undoes (action : Action Database α) : Prop :=
  ∀ db error, (action.run db).1 = .error error →
    (action.run db).2 = db ∨
      error = .writerClosed ∧ (action.run db).2 = { db with writerOpen := false }

theorem undoes_of_readsOnly {action : Action Database α} (h : action.ReadsOnly) :
    Undoes action := by
  intro db error _
  exact .inl (h db)

theorem Undoes.map {action : Action Database α} (f : α → β) (h : Undoes action) :
    Undoes (f <$> action) := by
  intro db error herror
  rw [run_map] at herror ⊢
  cases hanswer : (action.run db).1 with
  | ok value =>
      rw [hanswer] at herror
      cases herror
  | error cause =>
      rw [hanswer] at herror
      cases herror
      exact h db error hanswer

theorem undoes_write (job : Bool → Action Tables α) : Undoes (write job) := by
  intro db error herror
  unfold write at herror ⊢
  rw [run_ofRun] at herror ⊢
  split at herror
  · rename_i hopen
    have hundone := allOrNothing_transaction (job db.frozen) db.tables
    rcases hjob : (job db.frozen).transaction.run db.tables with ⟨answer, tables⟩
    rw [hjob] at herror hundone
    obtain rfl : answer = .error error := herror
    obtain rfl : tables = db.tables := hundone error rfl
    rw [if_pos hopen]
    cases error with
    | writerClosed => exact .inr ⟨rfl, rfl⟩
    | notFound _ | conflict _ | exhausted | integrity _ | internal =>
        left
        show { db with writerOpen := true } = db
        rw [← hopen]
  · rename_i hclosed
    rw [if_neg hclosed]
    exact .inl rfl

theorem readsOnly_read (query : Action Tables α) : (read query).ReadsOnly := by
  intro db
  unfold read
  rw [run_ofRun]
  split
  · rfl
  · rfl

theorem readsOnly_searchRooms (query : String) : (searchRooms query).ReadsOnly := by
  unfold searchRooms
  exact (readsOnly_pure _).ite (readsOnly_read _)

theorem undoes_perform (config : Config) (operation : Operation) :
    Undoes (Store.perform config operation : Action Database Reply) := by
  cases operation with
  | createUser | createRoom | join | addTrack | removeTrack | nextTrack | markVetoed |
    tracks =>
      exact (undoes_write _).map _
  | room | user | members | history =>
      exact undoes_of_readsOnly ((readsOnly_read _).map _)
  | searchRooms query => exact undoes_of_readsOnly ((readsOnly_searchRooms query).map _)

end Database

/-!
## Both stores
-/

/-- An operation that fails changes nothing in the store, whatever was stored before. -/
theorem failed_changes_nothing (config : Config) (operation : Operation) (error : StoreError) :
    (∀ m : Memory, (Store.step config m operation).1 = .error error →
      (Store.step config m operation).2 = m) ∧
    (∀ db : Database, (Store.step config db operation).1 = .error error →
      (Store.step config db operation).2.tables = db.tables ∧
        ((Store.step config db operation).2 = db ∨
          error = .writerClosed ∧
            (Store.step config db operation).2 = { db with writerOpen := false })) := by
  constructor
  · intro m herror
    exact Memory.allOrNothing_perform config operation m error herror
  · intro db herror
    rcases Database.undoes_perform config operation db error herror
      with hsame | ⟨hclosed, hlost⟩
    · exact ⟨congrArg Database.tables hsame, .inl hsame⟩
    · refine ⟨?_, .inr ⟨hclosed, hlost⟩⟩
      rw [Store.step, hlost]

def oneQueued : List Operation :=
  [.createUser ⟨"ann"⟩ "Ann", .createRoom "Den" .roundRobin (fun _ => ⟨"DEN"⟩) 0,
    .join ⟨"DEN"⟩ ⟨"ann"⟩, .addTrack ⟨⟨"DEN"⟩, ⟨"ann"⟩⟩ { id := ⟨"t"⟩, name := "Demo" } none
      ⟨"one"⟩]

def unreadable : Tables :=
  ((Store.runAll {} Database.empty oneQueued).2.tables.edit (.track ⟨"t"⟩ "torn")).1

def misplaced : Operation :=
  .addTrack ⟨⟨"DEN"⟩, ⟨"ann"⟩⟩ { id := ⟨"u"⟩, name := "Single" } (some ⟨"two"⟩) ⟨"six"⟩

/-- The job has played the entry and moved the rotator on when it comes to the track. -/
theorem failed_changes_nothing_unreadable :
    ((Tables.nextTrack false ⟨"DEN"⟩ ⟨"now", "now"⟩).run unreadable).2 ≠ unreadable ∧
    (Store.step {} (Database.opened unreadable) (.nextTrack ⟨"DEN"⟩ ⟨"now", "now"⟩)).1 =
      .error (.integrity .trackUnreadable) ∧
    (Store.step {} (Database.opened unreadable) (.nextTrack ⟨"DEN"⟩ ⟨"now", "now"⟩)).2.tables =
      (Database.opened unreadable).tables ∧
    (Store.step {} (Store.runAll {} Memory.empty oneQueued).2 misplaced).2 =
      (Store.runAll {} Memory.empty oneQueued).2 := by
  have hfailed : (Store.step {} (Database.opened unreadable)
      (.nextTrack ⟨"DEN"⟩ ⟨"now", "now"⟩)).1 = .error (.integrity .trackUnreadable) := by
    decide +kernel
  have hrefused : (Store.step {} (Store.runAll {} Memory.empty oneQueued).2 misplaced).1 =
      .error (.notFound (.entry ⟨"two"⟩)) := by
    decide +kernel
  have hdatabase := (failed_changes_nothing {} _ _).2 _ hfailed
  have hmemory := (failed_changes_nothing {} _ _).1 _ hrefused
  refine ⟨?_, hfailed, hdatabase.1, hmemory⟩
  decide +kernel

end Jukebox
