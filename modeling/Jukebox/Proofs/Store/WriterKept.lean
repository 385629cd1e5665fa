import Jukebox.Proofs.Rotation.Derailed
import Jukebox.Proofs.Rotation.Encoding
import Jukebox.Proofs.Store.Runs

/-!
# What keeps the writer

The writer of a database is lost if it runs into a rotator that has no next turn. Nobody is
asked for a turn in a room without members, so such a rotator may wait there, as long as it
finds its track when somebody joins. Jobs write no other rotators than those on their track, so
the writer is kept for good, whatever else the tables hold.
-/

namespace Jukebox

open Jukebox.Action

namespace Tables

def Vacant (t : Tables) (room : RoomId) : Prop :=
  ∀ row ∈ t.queues, row.queue.room ≠ room

/-- Whether no rotator that can be read is ever asked for a turn that it does not have. -/
def OnTrack (t : Tables) : Prop :=
  ∀ row ∈ t.rooms, ∀ rotator, Rotator.decode row.rotator = .ok rotator →
    rotator.add.OnTrack ∧ (rotator.Derailed → t.Vacant row.id)

variable {α β : Type} {P : α → Prop} {Q : β → Prop} {t changed : Tables} {rotator : Rotator}

theorem OnTrack.of_rooms (h : t.OnTrack) (hrooms : changed.rooms = t.rooms)
    (hqueues : ∀ room, t.Vacant room → changed.Vacant room) : changed.OnTrack := by
  intro row hrow rotator hdecode
  rcases h row (hrooms ▸ hrow) rotator hdecode with ⟨hadd, hvacant⟩
  exact ⟨hadd, fun hderailed => hqueues row.id (hvacant hderailed)⟩

theorem OnTrack.insertRoom (h : t.OnTrack) {row : RoomRow} (hrotator : rotator.OnTrack)
    (hrow : row.rotator = rotator.encode) : (t.insertRoom row).OnTrack := by
  intro other hother found hfound
  rcases List.mem_append.mp hother with hold | hnew
  · exact h other hold found hfound
  · rw [List.mem_singleton.mp hnew, hrow, rotator.decode_encode] at hfound
    cases hfound
    exact ⟨hrotator.add, fun hderailed => absurd hderailed hrotator.not_derailed⟩

theorem OnTrack.updateRotator (h : t.OnTrack) {text : String} {id : RoomId}
    (htext : ∀ rotator, Rotator.decode text = .ok rotator →
      rotator.add.OnTrack ∧ (rotator.Derailed → t.Vacant id)) :
    (t.updateRoom id fun row => { row with rotator := text }).OnTrack := by
  intro other hother found hfound
  rcases List.mem_map.mp hother with ⟨row, hrow, rfl⟩
  split at hfound
  · rename_i hid
    rw [if_pos hid, hid]
    exact htext found hfound
  · rename_i hid
    rw [if_neg hid]
    exact h row hrow found hfound

theorem OnTrack.saveRotator (h : t.OnTrack) (id : RoomId) (hadd : rotator.add.OnTrack)
    (hturn : ¬rotator.Derailed) :
    (t.updateRoom id fun row => { row with rotator := rotator.encode }).OnTrack := by
  apply h.updateRotator
  intro found hfound
  rw [rotator.decode_encode] at hfound
  cases hfound
  exact ⟨hadd, fun hderailed => absurd hderailed hturn⟩

theorem OnTrack.enroll (h : t.OnTrack) (id : QueueId) (position : Nat)
    (hrotator : rotator.OnTrack) :
    ((t.insertQueue ⟨id, position, none⟩).updateRoom id.room fun row =>
      { row with rotator := rotator.encode }).OnTrack := by
  intro other hother found hfound
  rcases List.mem_map.mp hother with ⟨room, hroom, rfl⟩
  split at hfound
  · rw [rotator.decode_encode] at hfound
    cases hfound
    exact ⟨hrotator.add, fun hderailed => absurd hderailed hrotator.not_derailed⟩
  · rename_i hid
    rcases h room hroom found hfound with ⟨hadd, hvacant⟩
    refine ⟨hadd, fun hderailed queue hqueue => ?_⟩
    rw [if_neg hid]
    rcases List.mem_append.mp hqueue with hold | hnew
    · exact hvacant hderailed queue hold
    · rw [List.mem_singleton.mp hnew]
      exact fun heq => hid heq.symm

theorem Vacant.updateQueue {room : RoomId} (h : t.Vacant room) (id : QueueId)
    (pointer : Option EntryId) :
    (t.updateQueue id fun row => { row with pointer := pointer }).Vacant room := by
  intro other hother
  rcases List.mem_map.mp hother with ⟨row, hrow, rfl⟩
  split
  · exact h row hrow
  · exact h row hrow

theorem Vacant.membersOf_eq {room : RoomId} (h : t.Vacant room) : t.membersOf room = [] := by
  have hnone : t.queues.filter (fun row => row.queue.room = room) = [] :=
    List.filter_eq_nil_iff.mpr fun row hrow => by simpa using h row hrow
  rw [membersOf, queuesOf, hnone, List.mergeSort_nil, List.filterMap_nil]

/-!
## Jobs step by step
-/

/-- How an action on tables may end: with a result of some kind, or with an ordinary
failure. -/
inductive Kept (P : α → Prop) : Except StoreError α × Tables → Prop
  | done {value : α} {changed : Tables} (hvalue : P value) (hchanged : changed.OnTrack) :
    Kept P (.ok value, changed)
  | failed {error : StoreError} {changed : Tables} (hopen : error ≠ .writerClosed) :
    Kept P (.error error, changed)

/-- An action that keeps the writer where every rotator is on its track. -/
def Keeps (P : α → Prop) (action : Action Tables α) : Prop :=
  ∀ t : Tables, t.OnTrack → Kept P (action.run t)

theorem keeps_pure {value : α} (h : P value) : Keeps P (pure value) :=
  fun _ ht => .done h ht

theorem keeps_throw {error : StoreError} (h : error ≠ .writerClosed) : Keeps P (throw error) :=
  fun _ _ => .failed h

theorem keeps_get : Keeps OnTrack (get : Action Tables Tables) :=
  fun _ ht => .done ht ht

theorem keeps_modify {change : Tables → Tables} (h : ∀ t : Tables, t.OnTrack →
    (change t).OnTrack) : Keeps (fun _ => True) (modify change) :=
  fun t ht => .done trivial (h t ht)

theorem keeps_modify_of_rooms {change : Tables → Tables} (h : ∀ t, (change t).rooms = t.rooms)
    (hqueues : ∀ t, (change t).queues = t.queues) : Keeps (fun _ => True) (modify change) := by
  refine keeps_modify fun t ht => ht.of_rooms (h t) fun room hvacant row hrow => ?_
  rw [hqueues] at hrow
  exact hvacant row hrow

theorem keeps_require {error : StoreError} (herror : error ≠ .writerClosed) {found : Option α}
    (h : ∀ value, found = some value → P value) : Keeps P (require error found) := by
  cases found with
  | none => exact keeps_throw herror
  | some value => exact keeps_pure (h value rfl)

theorem keeps_found {error : StoreError} (herror : error ≠ .writerClosed) (found : Option α) :
    Keeps (fun _ => True) (require error found) :=
  keeps_require herror fun _ _ => trivial

theorem keeps_check {error : StoreError} (herror : error ≠ .writerClosed) (condition : Bool) :
    Keeps (fun _ => True) (check error condition) := by
  cases condition with
  | true => exact keeps_pure trivial
  | false => exact keeps_throw herror

theorem keeps_lift {outcome : Except StoreError α} (h : ∀ value, outcome = .ok value → P value)
    (hopen : outcome ≠ .error .writerClosed) : Keeps P (lift outcome) := by
  cases outcome with
  | ok value => exact keeps_pure (h value rfl)
  | error error => exact keeps_throw fun heq => hopen (congrArg _ heq)

theorem keeps_outcome {outcome : Except StoreError α}
    (hopen : outcome ≠ .error .writerClosed) : Keeps (fun _ => True) (lift outcome) :=
  keeps_lift (fun _ _ => trivial) hopen

theorem Keeps.bind {action : Action Tables α} {next : α → Action Tables β} (h : Keeps P action)
    (hnext : ∀ value, P value → Keeps Q (next value)) : Keeps Q (action >>= next) := by
  intro t ht
  rw [run_bind]
  have hkept := h t ht
  generalize action.run t = outcome at hkept
  cases hkept with
  | done hvalue hchanged => exact hnext _ hvalue _ hchanged
  | failed hopen => exact .failed hopen

theorem Keeps.map {action : Action Tables α} (f : α → β) (h : Keeps P action) :
    Keeps (fun _ => True) (f <$> action) := by
  intro t ht
  rw [run_map]
  have hkept := h t ht
  generalize action.run t = outcome at hkept ⊢
  cases hkept with
  | done hvalue hchanged => exact .done trivial hchanged
  | failed hopen => exact .failed hopen

theorem Keeps.ite {condition : Prop} [Decidable condition] {action other : Action Tables α}
    (h : Keeps P action) (hother : Keeps P other) :
    Keeps P (if condition then action else other) := by
  split
  · exact h
  · exact hother

theorem Keeps.changing {change : Tables → Tables} {next : PUnit → Action Tables α}
    (hrooms : ∀ t, (change t).rooms = t.rooms) (hqueues : ∀ t, (change t).queues = t.queues)
    (h : Keeps P (next ⟨⟩)) : Keeps P (modify change >>= next) :=
  (keeps_modify_of_rooms hrooms hqueues).bind fun _ _ => h

theorem Keeps.refusing {condition : Prop} [Decidable condition] {error : StoreError}
    {next : Unit → Action Tables α} (herror : error ≠ .writerClosed) (h : Keeps P (next ())) :
    Keeps P (if condition then throw error >>= next else next ()) :=
  ((keeps_throw (P := fun _ => False) herror).bind fun _ hfalse => hfalse.elim).ite h

/-!
## Look-ups
-/

theorem map_ne_closed {f : α → β} {outcome : Except StoreError α}
    (h : outcome ≠ .error .writerClosed) : outcome.map f ≠ .error .writerClosed := by
  cases outcome with
  | ok value => simp
  | error error => exact fun heq => h (congrArg _ (Except.error.inj heq))

theorem mapM_ne_closed {read : α → Except StoreError β}
    (h : ∀ row, read row ≠ .error .writerClosed) (rows : List α) :
    rows.mapM read ≠ .error .writerClosed := by
  induction rows with
  | nil =>
      intro heq
      cases heq
  | cons row rest ih =>
      rw [List.mapM_cons]
      cases hrow : read row with
      | error error =>
          intro heq
          exact h row (hrow.trans (congrArg _ (Except.error.inj heq)))
      | ok first =>
          cases hrest : rest.mapM read with
          | error error =>
              intro heq
              exact ih (hrest.trans (congrArg _ (Except.error.inj heq)))
          | ok others =>
              intro heq
              cases heq

theorem readTrack_ne_closed (row : TrackRow) : readTrack row ≠ .error .writerClosed := by
  unfold readTrack
  split <;> simp

theorem readHistory_ne_closed (row : HistoryRow × TrackRow) :
    readHistory row ≠ .error .writerClosed :=
  map_ne_closed (readTrack_ne_closed row.2)

theorem readRoom_ne_closed (row : RoomRow) : readRoom row ≠ .error .writerClosed := by
  unfold readRoom
  split <;> simp

theorem keeps_fetchRoom (id : RoomId) : Keeps (fun _ => True) (fetchRoom id) := by
  unfold fetchRoom
  apply keeps_get.bind
  intro t _
  apply (keeps_found (by simp) _).bind
  intro row _
  exact keeps_outcome (readRoom_ne_closed row)

theorem keeps_fetchUser (id : UserId) : Keeps (fun _ => True) (fetchUser id) :=
  keeps_get.bind fun _ _ => keeps_found (by simp) _

theorem keeps_fetchTrack (id : TrackId) : Keeps (fun _ => True) (fetchTrack id) := by
  unfold fetchTrack
  apply keeps_get.bind
  intro t _
  apply (keeps_found (by simp) _).bind
  intro row _
  exact keeps_outcome (readTrack_ne_closed row)

theorem keeps_fetchPointer (id : QueueId) : Keeps (fun _ => True) (fetchPointer id) := by
  unfold fetchPointer
  apply keeps_get.bind
  intro t _
  apply (keeps_found (by simp) _).bind
  intro row _
  exact keeps_pure trivial

theorem keeps_fetchEntry (queue : QueueId) (id : EntryId) :
    Keeps (fun _ => True) (fetchEntry queue id) :=
  keeps_get.bind fun _ _ => keeps_found (by simp) _

theorem keeps_loadRotator (id : RoomId) :
    Keeps (fun rotator => rotator.add.OnTrack) (loadRotator id) := by
  unfold loadRotator
  apply keeps_get.bind
  intro t ht
  apply (keeps_require (P := fun row => row ∈ t.rooms) (by simp) ?_).bind
  · intro row hrow
    cases hdecode : Rotator.decode row.rotator with
    | error error => exact keeps_throw (by simp)
    | ok rotator => exact keeps_pure (ht row hrow rotator hdecode).1
  · intro row hrow
    exact List.mem_of_find?_eq_some hrow

theorem keeps_saveRotator (id : RoomId) (hadd : rotator.add.OnTrack)
    (hturn : ¬rotator.Derailed) : Keeps (fun _ => True) (saveRotator id rotator) :=
  keeps_modify fun _ ht => ht.saveRotator id hadd hturn

theorem keeps_savePointer (id : QueueId) (pointer : Option EntryId) :
    Keeps (fun _ => True) (savePointer id pointer) :=
  keeps_modify fun _ ht => ht.of_rooms rfl fun _ hvacant => hvacant.updateQueue id pointer

theorem keeps_linkNext (id : EntryId) (next : Option EntryId) :
    Keeps (fun _ => True) (linkNext id next) :=
  keeps_modify_of_rooms (fun _ => rfl) fun _ => rfl

theorem keeps_linkPrevious (id : EntryId) (previous : Option EntryId) :
    Keeps (fun _ => True) (linkPrevious id previous) :=
  keeps_modify_of_rooms (fun _ => rfl) fun _ => rfl

/-!
## Jobs
-/

theorem keeps_createUser (frozen : Bool) (id : UserId) (name : String) :
    Keeps (fun _ => True) (createUser frozen id name) := by
  unfold createUser
  apply keeps_get.bind
  intro t _
  apply Keeps.refusing (by simp)
  apply (keeps_check (by simp) _).bind
  intro _ _
  refine Keeps.changing (fun _ => rfl) (fun _ => rfl) ?_
  exact keeps_pure trivial

theorem keeps_createRoom (frozen : Bool) (config : Config) (name : String) (kind : RotatorKind)
    (codes : Nat → RoomId) (seed : Nat) :
    Keeps (fun _ => True) (createRoom frozen config name kind codes seed) := by
  unfold createRoom
  apply keeps_get.bind
  intro t _
  apply (keeps_found (by simp) _).bind
  intro id _
  apply (keeps_check (by simp) _).bind
  intro _ _
  apply (keeps_modify fun t ht => ht.insertRoom (Rotator.onTrack_new kind seed) rfl).bind
  intro _ _
  exact keeps_pure trivial

theorem keeps_join (frozen : Bool) (room : RoomId) (user : UserId) :
    Keeps (fun _ => True) (join frozen room user) := by
  unfold join
  apply (keeps_loadRotator room).bind
  intro rotator hrotator
  apply (keeps_fetchUser user).bind
  intro found _
  apply keeps_get.bind
  intro t _
  apply Keeps.refusing (by simp)
  apply keeps_get.bind
  intro t _
  apply (keeps_check (by simp) _).bind
  intro _ _
  refine fun t ht => ?_
  rw [run_bind, run_modify]
  exact .done trivial (ht.enroll ⟨room, user⟩ _ hrotator)

theorem keeps_successor (queue : QueueId) (after : Option EntryId) :
    Keeps (fun _ => True) (successor queue after) := by
  cases after with
  | none => exact keeps_get.bind fun _ _ => keeps_pure trivial
  | some after => exact (keeps_fetchEntry queue after).map _

theorem keeps_requireUnplayed (queue : QueueId) (next : Option EntryId) :
    Keeps (fun _ => True) (requireUnplayed queue next) := by
  cases next with
  | none => exact keeps_pure trivial
  | some next =>
      apply (keeps_fetchEntry queue next).bind
      intro entry _
      exact (keeps_throw (by simp [StoreError.ofQueue])).ite (keeps_pure trivial)

theorem rooms_upsertTrack (row : TrackRow) : (t.upsertTrack row).rooms = t.rooms := by
  unfold upsertTrack
  split <;> rfl

theorem keeps_insertNewEntry (row : EntryRow) :
    Keeps (fun _ => True) (insertNewEntry row) := by
  unfold insertNewEntry
  apply keeps_get.bind
  intro t _
  apply Keeps.refusing (by simp)
  exact keeps_modify_of_rooms (fun _ => rfl) fun _ => rfl

theorem keeps_addTrack (frozen : Bool) (queue : QueueId) (track : Track)
    (after : Option EntryId) (id : EntryId) :
    Keeps (fun _ => True) (addTrack frozen queue track after id) := by
  unfold addTrack
  apply (keeps_fetchPointer queue).bind
  intro pointer _
  apply (keeps_successor queue after).bind
  intro next _
  apply (keeps_requireUnplayed queue next).bind
  intro _ _
  apply (keeps_check (by simp) _).bind
  intro _ _
  refine Keeps.changing (fun _ => rooms_upsertTrack _) (fun _ => queues_upsertTrack _) ?_
  apply (keeps_insertNewEntry _).bind
  intro _ _
  have hmoved : ∀ next, Keeps (fun _ => True)
      (if pointer = none ∨ pointer = next then savePointer queue (some id) else pure ()) :=
    fun _ =>
    (keeps_savePointer queue (some id)).ite (keeps_pure trivial)
  have hprevious : ∀ next, Keeps (fun _ => True) (do
      linkPrevious next (some id)
      if pointer = none ∨ pointer = some next then savePointer queue (some id) else pure ()) :=
    fun next => (keeps_linkPrevious next (some id)).bind fun _ _ => hmoved (some next)
  cases after with
  | none =>
      cases next with
      | none => exact hmoved none
      | some next => exact hprevious next
  | some after =>
      apply (keeps_linkNext after (some id)).bind
      intro _ _
      cases next with
      | none => exact hmoved none
      | some next => exact hprevious next

theorem keeps_removeTrack (frozen : Bool) (queue : QueueId) (id : EntryId) :
    Keeps (fun _ => True) (removeTrack frozen queue id) := by
  unfold removeTrack
  apply (keeps_fetchPointer queue).bind
  intro pointer _
  apply (keeps_fetchEntry queue id).bind
  rintro ⟨_, _, _, previous, next⟩ _
  apply Keeps.refusing (by simp [StoreError.ofQueue])
  apply (keeps_check (by simp) _).bind
  intro _ _
  have hdeleted : Keeps (fun _ => True) (do
      modify (deleteEntry id)
      if pointer = some id then savePointer queue next else pure ()) := by
    refine Keeps.changing (fun _ => rfl) (fun _ => rfl) ?_
    exact (keeps_savePointer queue next).ite (keeps_pure trivial)
  have hnext : ∀ next', Keeps (fun _ => True) (do
      linkPrevious next' previous
      modify (deleteEntry id)
      if pointer = some id then savePointer queue next else pure ()) :=
    fun next' => (keeps_linkPrevious next' previous).bind fun _ _ => hdeleted
  cases previous with
  | none =>
      cases next with
      | none => exact hdeleted
      | some next => exact hnext next
  | some previous =>
      apply (keeps_linkNext previous next).bind
      intro _ _
      cases next with
      | none => exact hdeleted
      | some next => exact hnext next

theorem pickMember_eq_closed {room : RoomId} {members : List (QueueRow × User)} :
    pickMember room members rotator = .error .writerClosed ↔ rotator.Derailed ∧
    members ≠ [] := by
  have hturn : Rotation.nextTurn (members.map fun member => member.1.pointer.isSome)
      rotator = none ↔ rotator.Derailed ∧ members ≠ [] := by
    rw [Rotation.nextTurn, Rotator.turnWithin_eq_none, List.length_map, List.length_pos_iff,
      and_comm]
  rw [← hturn, pickMember]
  cases Rotation.nextTurn (members.map fun member => member.1.pointer.isSome) rotator with
  | none => simp
  | some outcome =>
      rcases outcome with ⟨turn, after⟩
      cases turn with
      | nobody => simp
      | outOfRange index => simp
      | taken index =>
          simp only
          split <;> simp

/-- Whoever is picked leaves a rotator that is on its track, or the one of before. -/
theorem onTrack_or_eq_of_pickMember {room : RoomId} {members : List (QueueRow × User)}
    {picked : User × EntryId × Rotator} (h : pickMember room members rotator = .ok picked) :
    picked.2.2.OnTrack ∨ picked.2.2 = rotator ∧ members ≠ [] := by
  unfold pickMember at h
  cases hturn : Rotation.nextTurn (members.map fun member => member.1.pointer.isSome)
    rotator with
  | none => simp [hturn] at h
  | some outcome =>
      rcases outcome with ⟨turn, after⟩
      rw [hturn] at h
      cases turn with
      | nobody => simp at h
      | outOfRange index => simp at h
      | taken index =>
          simp only at h
          split at h
          · rename_i hmember
            cases h
            refine (Rotator.onTrack_or_eq_of_turnWithin hturn).imp_right fun hsame =>
              ⟨hsame, ?_⟩
            exact List.ne_nil_of_mem (List.mem_of_getElem? hmember)
          · cases h

theorem keeps_picking (room : RoomId) {next : User × EntryId × Rotator → Action Tables α}
    (h : ∀ picked, picked.2.2.add.OnTrack → ¬picked.2.2.Derailed → Keeps P (next picked)) :
    Keeps P (do
      let rotator ← loadRotator room
      let picked ← lift (pickMember room ((← get).membersOf room) rotator)
      next picked) := by
  intro t ht
  simp only [loadRotator, run_bind, run_get]
  cases hrow : t.room? room with
  | none =>
      simp only [run_require_none]
      exact .failed (by simp)
  | some row =>
      have hid : row.id = room := by simpa using List.find?_some hrow
      simp only [run_require_some, run_lift]
      cases hdecode : Rotator.decode row.rotator with
      | error error => exact .failed (by simp)
      | ok rotator =>
          rcases ht row (List.mem_of_find?_eq_some hrow) rotator hdecode with ⟨hadd, hvacant⟩
          rw [hid] at hvacant
          have hbusy : t.membersOf room ≠ [] → ¬rotator.Derailed :=
            fun hmembers hderailed => hmembers (hvacant hderailed).membersOf_eq
          simp only [Except.mapError]
          cases hpick : pickMember room (t.membersOf room) rotator with
          | error error =>
              refine .failed fun hlost => ?_
              rcases pickMember_eq_closed.mp (hlost ▸ hpick) with ⟨hderailed, hmembers⟩
              exact hbusy hmembers hderailed
          | ok picked =>
              rcases onTrack_or_eq_of_pickMember hpick with hon | ⟨hsame, hmembers⟩
              · exact h picked hon.add hon.not_derailed t ht
              · exact h picked (hsame ▸ hadd) (hsame ▸ hbusy hmembers) t ht

theorem keeps_insertServed (room : RoomId) (user : UserId) (track : TrackId)
    (now : Timestamp) : Keeps (fun _ => True) (insertServed room user track now) := by
  unfold insertServed
  apply keeps_get.bind
  intro t _
  apply Keeps.refusing (by simp)
  exact keeps_modify_of_rooms (fun _ => rfl) fun _ => rfl

theorem keeps_nextTrack (frozen : Bool) (room : RoomId) (now : Timestamp) :
    Keeps (fun _ => True) (nextTrack frozen room now) := by
  apply keeps_picking
  rintro ⟨user, id, after⟩ hadd hturn
  apply keeps_get.bind
  intro t _
  apply (keeps_found (by simp) _).bind
  intro entry _
  apply (keeps_check (by simp) _).bind
  intro _ _
  refine Keeps.changing (fun _ => rfl) (fun _ => rfl) ?_
  apply (keeps_savePointer _ _).bind
  intro _ _
  apply (keeps_saveRotator room hadd hturn).bind
  intro _ _
  apply (keeps_fetchTrack _).bind
  intro track _
  apply (keeps_insertServed _ _ _ _).bind
  intro _ _
  exact keeps_pure trivial

theorem keeps_markVetoed (frozen : Bool) (config : Config) (room : RoomId) (user : UserId) :
    Keeps (fun _ => True) (markVetoed frozen config room user) := by
  unfold markVetoed
  apply (keeps_fetchRoom room).bind
  intro found _
  apply (keeps_fetchPointer _).bind
  intro pointer _
  apply keeps_get.bind
  intro t _
  apply (keeps_outcome (mapM_ne_closed readHistory_ne_closed _)).bind
  intro recent _
  apply (keeps_outcome ?_).bind
  · intro position _
    apply (keeps_found (by simp) _).bind
    intro row _
    apply (keeps_found (by simp) _).bind
    intro entry _
    apply (keeps_check (by simp) _).bind
    intro _ _
    apply Keeps.refusing (by simp)
    refine Keeps.changing (fun _ => rfl) (fun _ => rfl) ?_
    exact keeps_pure trivial
  · cases vetoTarget recent user (config.vetoCooldown (t.queuesOf room).length) with
    | ok position => simp [Except.mapError]
    | error error => simp [Except.mapError]

theorem keeps_listTracks (queue : QueueId) (filter : QueueFilter) :
    Keeps (fun _ => True) (listTracks queue filter) := by
  unfold listTracks
  apply (keeps_fetchPointer queue).bind
  intro pointer _
  apply keeps_get.bind
  intro t _
  apply (keeps_outcome (mapM_ne_closed ?_ _)).bind
  · intro tracks _
    apply (keeps_outcome ?_).bind
    · intro queue _
      exact keeps_pure trivial
    · generalize Queue.ofEntries _ pointer = outcome
      cases outcome with
      | ok found => simp [Except.mapError]
      | error error => cases error <;> simp [Except.mapError, StoreError.ofQueue]
  · intro row
    exact map_ne_closed (readTrack_ne_closed row.2)

/-!
## Look-ups past the writer
-/

theorem keeps_listMembers (room : RoomId) : Keeps (fun _ => True) (listMembers room) := by
  unfold listMembers
  apply (keeps_fetchRoom room).bind
  intro found _
  exact keeps_get.bind fun _ _ => keeps_pure trivial

theorem keeps_listHistory (room : RoomId) : Keeps (fun _ => True) (listHistory room) := by
  unfold listHistory
  apply (keeps_fetchRoom room).bind
  intro found _
  apply keeps_get.bind
  intro t _
  exact keeps_outcome (mapM_ne_closed readHistory_ne_closed _)

theorem keeps_searchRooms (query : String) : Keeps (fun _ => True) (searchRooms query) := by
  unfold searchRooms
  apply keeps_get.bind
  intro t _
  exact keeps_outcome (mapM_ne_closed readRoom_ne_closed _)

end Tables

/-!
## The database
-/

namespace Database

/-- A database whose writer is open, and will not be lost to a rotator. -/
structure Steady (db : Database) : Prop where
  writer : db.writerOpen = true
  rotators : db.tables.OnTrack

variable {α : Type} {db : Database}

def Stays (outcome : Except StoreError α × Database) : Prop :=
  outcome.1 ≠ .error .writerClosed ∧ outcome.2.Steady

theorem Steady.write (h : db.Steady) {job : Bool → Action Tables α}
    (hjob : Tables.Keeps (fun _ => True) (job db.frozen)) : Stays ((write job).run db) := by
  have hkept := hjob db.tables h.rotators
  rcases hrun : (job db.frozen).run db.tables with ⟨answer, changed⟩
  rw [hrun] at hkept
  rw [Database.write, run_ofRun, if_pos h.writer]
  cases hkept with
  | done _ hchanged =>
      rw [run_transaction_ok _ hrun]
      exact ⟨by simp, rfl, hchanged⟩
  | @failed error _ hopen =>
      have hfailed : ((job db.frozen).run db.tables).1 = .error error := congrArg Prod.fst hrun
      rw [run_transaction_error _ hfailed]
      refine ⟨fun heq => hopen (Except.error.inj heq), ?_, h.rotators⟩
      cases error with
      | writerClosed => exact absurd rfl hopen
      | notFound _ | conflict _ | exhausted | integrity _ | internal => rfl

theorem Steady.read (h : db.Steady) {query : Action Tables α}
    (hquery : Tables.Keeps (fun _ => True) query) : Stays ((read query).run db) := by
  have hkept := hquery db.tables h.rotators
  generalize hrun : query.run db.tables = outcome at hkept
  rw [Database.read, run_ofRun, hrun]
  split
  · cases hkept with
    | done _ _ => exact ⟨by simp, h⟩
    | failed hopen => exact ⟨fun heq => hopen (Except.error.inj heq), h⟩
  · exact ⟨by simp, h⟩

theorem Stays.map {β : Type} {action : Action Database α} (f : α → β)
    (h : Stays (action.run db)) : Stays ((f <$> action).run db) := by
  rw [run_map]
  exact ⟨Tables.map_ne_closed h.1, h.2⟩

theorem Steady.searchRooms (h : db.Steady) (query : String) :
    Stays ((searchRooms query).run db) := by
  by_cases hempty : (normalizeName query).isEmpty
  · rw [Database.searchRooms, if_pos hempty]
    exact ⟨by simp, h⟩
  · rw [Database.searchRooms, if_neg hempty]
    exact h.read (Tables.keeps_searchRooms _)

/-- No operation loses the writer, or leads to a rotator that might. -/
theorem Steady.step (h : db.Steady) (config : Config) (operation : Operation) :
    Stays (Store.step config db operation) := by
  cases operation with
  | createUser id name => exact (h.write (Tables.keeps_createUser _ id name)).map _
  | createRoom name kind codes seed =>
      exact (h.write (Tables.keeps_createRoom _ config name kind codes seed)).map _
  | join room user => exact (h.write (Tables.keeps_join _ room user)).map _
  | addTrack queue track after entry =>
      exact (h.write (Tables.keeps_addTrack _ queue track after entry)).map _
  | removeTrack queue entry => exact (h.write (Tables.keeps_removeTrack _ queue entry)).map _
  | nextTrack room now => exact (h.write (Tables.keeps_nextTrack _ room now)).map _
  | markVetoed room user => exact (h.write (Tables.keeps_markVetoed _ config room user)).map _
  | room id => exact (h.read (Tables.keeps_fetchRoom id)).map _
  | user id => exact (h.read (Tables.keeps_fetchUser id)).map _
  | members room => exact (h.read (Tables.keeps_listMembers room)).map _
  | tracks queue filter => exact (h.write (Tables.keeps_listTracks queue filter)).map _
  | history room => exact (h.read (Tables.keeps_listHistory room)).map _
  | searchRooms query => exact (h.searchRooms query).map _

theorem Steady.runAll (h : db.Steady) (config : Config) (operations : List Operation) :
    (Store.runAll config db operations).2.Steady ∧
      ∀ answer ∈ (Store.runAll config db operations).1, answer ≠ .error .writerClosed := by
  induction operations generalizing db with
  | nil => exact ⟨h, fun _ hanswer => absurd hanswer List.not_mem_nil⟩
  | cons operation rest ih =>
      rcases h.step config operation with ⟨hanswer, hafter⟩
      rcases ih hafter with ⟨hlast, hanswers⟩
      exact ⟨hlast, List.forall_mem_cons.mpr ⟨hanswer, hanswers⟩⟩

end Database
end Jukebox
