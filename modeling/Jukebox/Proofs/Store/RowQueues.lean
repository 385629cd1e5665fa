import Jukebox.Proofs.Queue.Rebuilding
import Jukebox.Proofs.Store.Simulation

/-!
# Rows do what queues do

Jobs that add, remove and serve entries update single rows. They find the head of a queue by
its missing predecessor, and neighbours by their identifiers alone. Where the rows and the
pointer of a queue make it up, the updated ones make up the queue that the operation of the
same name leaves. The rows and the pointers of all other queues stay, whether those make up a
queue or not.
-/

namespace Jukebox
namespace Tables

open Playlist

/-- What the rows and the pointer of a queue make up, if the queue is there. -/
def rebuild? (t : Tables) (id : QueueId) : Option (Except QueueError Queue) :=
  (t.queue? id).map fun row =>
    Queue.ofEntries ((t.entriesOf id).map EntryRow.entry) row.pointer

structure DistinctKeys (t : Tables) : Prop where
  queues : (t.queues.map QueueRow.queue).Nodup
  entries : (t.entries.map fun row => row.entry.id).Nodup

structure QueueChanged (t : Tables) (id : QueueId) (queue : Queue) (t' : Tables) : Prop where
  rebuilt : t'.rebuild? id = some (.ok queue)
  pointers : ∀ other, other ≠ id → t'.queue? other = t.queue? other
  rows : ∀ other, other ≠ id → t'.entriesOf other = t.entriesOf other
  keys : t'.DistinctKeys

variable {t t' : Tables} {id : QueueId} {queue : Queue} {items front back : List Item}
    {item : Item}

/-!
## Rows that make up a queue
-/

theorem Records.rebuild?_eq (h : t.Records id queue items) :
    t.rebuild? id = some (.ok queue) := by
  rcases Option.map_eq_some_iff.mp h.pointer with ⟨row, hrow, hpointer⟩
  have hlisted : ((t.entriesOf id).map EntryRow.entry).Perm (queue.list .all) := by
    rw [entriesOf_map, h.holds.list_all]
    exact h.links
  rw [rebuild?, hrow, Option.map_some, hpointer, h.holds.ofEntries_eq hlisted]

theorem exists_records (h : t.rebuild? id = some (.ok queue)) :
    ∃ items, t.Records id queue items := by
  rcases Option.map_eq_some_iff.mp h with ⟨row, hrow, haccepted⟩
  rcases Queue.exists_holds_of_ofEntries haccepted with ⟨items, hholds⟩
  rcases Queue.ofEntries_eq_ok haccepted with ⟨-, hperm, hpointer⟩
  refine ⟨items, ?_, ?_, hholds⟩
  · rw [hrow, Option.map_some, hpointer]
  · rw [← entriesOf_map]
    exact hperm.symm

theorem entriesOf_eq (t : Tables) (id : QueueId) :
    t.entriesOf id = (entriesIn t.entries id).map (EntryRow.mk id) := by
  rw [← entriesOf_map, List.map_map]
  conv_lhs => rw [← List.map_id (t.entriesOf id)]
  apply List.map_congr_left
  intro row hrow
  have hid : row.queue = id := of_decide_eq_true (List.mem_filter.mp hrow).2
  rw [← hid]
  rfl

/-!
## Changes of one queue
-/

structure Requeued (t : Tables) (id : QueueId) (rows : List EntryRow)
    (pointer : Option EntryId) (t' : Tables) : Prop where
  rows : t'.entries = rows
  pointer : (t'.queue? id).map QueueRow.pointer = some pointer
  others : ∀ other, other ≠ id → t'.queue? other = t.queue? other
  keys : t'.queues.map QueueRow.queue = t.queues.map QueueRow.queue

theorem requeued_setPointer {u : Tables} (hqueues : u.queues = t.queues) {old : Option EntryId}
    (hpointer : (t.queue? id).map QueueRow.pointer = some old) (new : Option EntryId) :
    Requeued t id u.entries new (u.updateQueue id fun row => { row with pointer := new }) where
  rows := rfl
  pointer := by
    rcases Option.map_eq_some_iff.mp hpointer with ⟨row, hrow, -⟩
    rw [queue?_setPointer, if_pos rfl, queue?_of_queues hqueues, hrow]
    rfl
  others := by
    intro other hother
    rw [queue?_setPointer, if_neg hother, queue?_of_queues hqueues]
  keys := by
    rw [← hqueues]
    exact Keyed.map_key_update fun _ hid => hid

theorem requeued_of_moved {u : Tables} (hqueues : u.queues = t.queues) {old : Option EntryId}
    (hpointer : (t.queue? id).map QueueRow.pointer = some old) (new : Option EntryId)
    (moved : Prop) [Decidable moved] :
    Requeued t id u.entries (if moved then new else old)
      (if moved then u.updateQueue id fun row => { row with pointer := new } else u) := by
  split
  · exact requeued_setPointer hqueues hpointer new
  · have hsame := queue?_of_queues hqueues
    exact ⟨rfl, (congrArg _ (hsame id)).trans hpointer,
      fun other _ => hsame other, by rw [hqueues]⟩

theorem Requeued.queueChanged {rows : List EntryRow} (h : Requeued t id rows queue.pointer t')
    (hkeys : t.DistinctKeys) (hholds : queue.Holds items)
    (hrows : (entriesIn rows id).Perm (Queue.link items))
    (hothers : ∀ other, other ≠ id → entriesIn rows other = entriesIn t.entries other)
    (hdistinct : (rows.map fun row => row.entry.id).Nodup) : QueueChanged t id queue t' where
  rebuilt := by
    have hrecorded : (entriesIn t'.entries id).Perm queue.entries := by
      rw [h.rows]
      exact hrows.trans hholds.links.symm
    exact Records.rebuild?_eq ⟨h.pointer, hrecorded, hholds⟩
  pointers := h.others
  rows := by
    intro other hother
    rw [entriesOf_eq, h.rows, hothers other hother, ← entriesOf_eq]
  keys := by
    refine ⟨?_, ?_⟩
    · rw [h.keys]
      exact hkeys.queues
    · rw [h.rows]
      exact hdistinct

theorem QueueChanged.of_same {u : Tables} (h : QueueChanged t id queue t')
    (hqueues : u.queues = t'.queues) (hentries : u.entries = t'.entries) :
    QueueChanged t id queue u := by
  have hpointer := queue?_of_queues hqueues
  have hrows : ∀ other, u.entriesOf other = t'.entriesOf other := fun other => by
    rw [entriesOf, hentries, entriesOf]
  refine ⟨?_, ?_, ?_, ?_, ?_⟩
  · rw [rebuild?, hpointer, hrows]
    exact h.rebuilt
  · exact fun other hother => (hpointer other).trans (h.pointers other hother)
  · exact fun other hother => (hrows other).trans (h.rows other hother)
  · rw [hqueues]
    exact h.keys.queues
  · rw [hentries]
    exact h.keys.entries

/-!
## Adding and removing
-/

theorem Records.afterAdd_changed (h : t.Records id queue (front ++ back))
    (hkeys : t.DistinctKeys) {track : Track} {entry : EntryId}
    (hback : ∀ next, back.head? = some next → next.played = false)
    (hnew : entry ∉ t.entries.map fun row => row.entry.id) {q : Queue}
    (hq : q.Holds (front ++ ⟨entry, track.id, false⟩ :: back)) :
    QueueChanged t id q (afterAdd id track entry front back queue.pointer t) := by
  have hmoved := requeued_of_moved (t := t) (u := { t.upsertTrack track.row with
      entries := addEntry id ⟨entry, track.id, false, lastId? front, firstId? back⟩
        (t.upsertTrack track.row).entries })
    (queues_upsertTrack track.row) h.pointer (some entry)
    (queue.pointer = none ∨ queue.pointer = firstId? back)
  rw [← pointer_add h.holds hback hq] at hmoved
  have hstored := entries_upsertTrack (t := t) track.row
  refine hmoved.queueChanged hkeys hq ?_ ?_ ?_
  · rw [hstored]
    exact entriesIn_addEntry ⟨entry, track.id, false⟩ h.links h.holds.nodup hnew
  · intro other hother
    rw [hstored]
    exact entriesIn_addEntry_other ⟨entry, track.id, false⟩ hkeys.entries h.links hnew hother
  · rw [hstored]
    exact nodup_addEntry hkeys.entries hnew

theorem Records.afterRemove_changed (h : t.Records id queue (front ++ item :: back))
    (hkeys : t.DistinctKeys) (hplayed : item.played = false) {q : Queue}
    (hq : q.Holds (front ++ back)) :
    QueueChanged t id q (afterRemove id item front back queue.pointer t) := by
  have hmoved := requeued_of_moved (t := t) (u := { t with
      entries := removeEntry ⟨item.id, item.track, item.played, lastId? front, firstId? back⟩
        t.entries }) rfl h.pointer (firstId? back) (queue.pointer = some item.id)
  rw [← pointer_remove h.holds hplayed hq] at hmoved
  refine hmoved.queueChanged hkeys hq ?_ ?_ ?_
  · exact entriesIn_removeEntry h.links h.holds.nodup
  · exact fun other hother => entriesIn_removeEntry_other hkeys.entries h.links hother
  · exact nodup_removeEntry hkeys.entries _

/-!
## Serving
-/

section Serving

variable {room : RoomId} {user : User} {rotator after : Rotator} {entry : EntryId}

/-- The step of a turn that concerns a queue: the next entry is marked as played, and the
pointer moves on. -/
def serveEntry (frozen : Bool) (queue : QueueId) (id : EntryId) :
    Action Tables QueueEntry := do
  let entry ← Action.require (.integrity (.dangling queue id)) ((← get).entryOf? queue id)
  Action.check .internal !frozen
  modify (updateEntry id fun entry => { entry with played := true })
  savePointer queue entry.next
  return entry

/-- The rest of a turn: the rotator is stored, and the track goes into the history. -/
def recordTurn (room : RoomId) (user : User) (rotator : Rotator) (entry : QueueEntry)
    (now : Timestamp) : Action Tables (User × Track) := do
  saveRotator room rotator
  let track ← fetchTrack entry.track
  insertServed room user.id track.id now
  return (user, track)

theorem nextTrack_eq (frozen : Bool) (room : RoomId) (now : Timestamp) :
    nextTrack frozen room now = (do
      let rotator ← loadRotator room
      let (user, id, rotator) ← Action.lift (pickMember room ((← get).membersOf room) rotator)
      let entry ← serveEntry frozen ⟨room, user.id⟩ id
      recordTurn room user rotator entry now) := by
  simp only [nextTrack, serveEntry, recordTurn, bind_assoc, pure_bind]

theorem exists_member_of_pick {members : List (QueueRow × User)}
    (h : pickMember room members rotator = .ok (user, entry, after)) :
    ∃ row, (row, user) ∈ members ∧ row.pointer = some entry := by
  unfold pickMember at h
  split at h
  · cases h
  · cases h
  · cases h
  · split at h
    · rename_i hmember
      cases h
      exact ⟨_, List.mem_of_getElem? hmember, rfl⟩
    · cases h

theorem user?_of_pick
    (h : pickMember room (t.membersOf room) rotator = .ok (user, entry, after)) :
    t.user? user.id = some user := by
  rcases exists_member_of_pick h with ⟨row, hmember, -⟩
  exact user?_of_member hmember

theorem pointer_of_pick (hkeys : t.DistinctKeys)
    (h : pickMember room (t.membersOf room) rotator = .ok (user, entry, after)) :
    (t.queue? ⟨room, user.id⟩).map QueueRow.pointer = some (some entry) := by
  rcases exists_member_of_pick h with ⟨row, hmember, hpointer⟩
  rcases queue_of_member hmember with ⟨hrow, hid⟩
  have hfound : t.queue? ⟨room, user.id⟩ = some row :=
    (Keyed.find?_eq_some_iff hkeys.queues).mpr ⟨hrow, hid⟩
  rw [hfound, Option.map_some, hpointer]

theorem run_nextTrack_of_pick (now : Timestamp)
    (hload : (loadRotator room).run t = (.ok rotator, t))
    (hpick : pickMember room (t.membersOf room) rotator = .ok (user, entry, after))
    {found : QueueEntry}
    (hserve : (serveEntry false ⟨room, user.id⟩ entry).run t = (.ok found, t')) :
    (nextTrack false room now).run t = (recordTurn room user after found now).run t' := by
  rw [nextTrack_eq]
  simp only [Action.run_bind, hload, Action.run_get, Action.run_lift, hpick, hserve]

theorem Records.exists_next (h : t.Records id queue items)
    (hpointer : queue.pointer = some entry) :
    ∃ front item back, items = front ++ item :: back ∧ (∀ other ∈ front, other.played = true) ∧
      item.played = false ∧ item.id = entry := by
  rw [h.holds.pointer] at hpointer
  rcases played_or_cut items with hplayed | ⟨front, item, back, rfl, hfront, hitem⟩
  · rw [nextId?, next?_eq_none hplayed] at hpointer
    cases hpointer
  · rw [nextId?_cut hfront hitem] at hpointer
    exact ⟨front, item, back, rfl, hfront, hitem, Option.some.inj hpointer⟩

def afterTake (id : QueueId) (item : Item) (back : List Item) (t : Tables) : Tables :=
  { t with entries := playEntry item.id t.entries }.updateQueue id fun row =>
    { row with pointer := firstId? back }

theorem Records.run_serveEntry (h : t.Records id queue (front ++ item :: back)) :
    (serveEntry false id item.id).run t =
      (.ok ⟨item.id, item.track, item.played, lastId? front, firstId? back⟩,
        afterTake id item back t) := by
  have hentry := (h.entryOf?_eq item.id).trans h.holds.get?_cut
  simp only [serveEntry, Action.run_bind, Action.run_get, hentry, Action.run_require_some,
    Bool.not_false, Action.run_check_true, Action.run_modify, savePointer, Action.run_pure,
    updateEntry_eq]
  rfl

theorem Records.afterTake_changed (h : t.Records id queue (front ++ item :: back))
    (hkeys : t.DistinctKeys) (hfront : ∀ other ∈ front, other.played = true)
    (hplayed : item.played = false) {q : Queue} (hq : q.Holds (front ++ item.play :: back)) :
    QueueChanged t id q (afterTake id item back t) := by
  have hmoved :=
    requeued_setPointer (t := t) (u := { t with entries := playEntry item.id t.entries })
    rfl h.pointer (firstId? back)
  have hpointer : q.pointer = firstId? back := by
    rw [hq.pointer, nextId?_play h.holds.playedFirst hfront hplayed]
  rw [afterTake, ← hpointer]
  rw [← hpointer] at hmoved
  refine hmoved.queueChanged hkeys hq ?_ ?_ ?_
  · exact entriesIn_playEntry h.links h.holds.nodup
  · exact fun other hother => entriesIn_playEntry_other hkeys.entries h.links hother
  · exact nodup_playEntry hkeys.entries _

inductive TurnRecorded (t : Tables) (user : User) :
    Except StoreError (User × Track) × Tables → Prop
  | recorded (track : Track) (u : Tables) (hqueues : u.queues = t.queues)
    (hentries : u.entries = t.entries) : TurnRecorded t user (.ok (user, track), u)
  | failed (error : StoreError) (u : Tables) (hopen : error ≠ .writerClosed) :
    TurnRecorded t user (.error error, u)

theorem turnRecorded (t : Tables) (room : RoomId) (user : User) (rotator : Rotator)
    (entry : QueueEntry) (now : Timestamp) :
    TurnRecorded t user ((recordTurn room user rotator entry now).run t) := by
  simp only [recordTurn, saveRotator, Action.run_bind, Action.run_modify]
  generalize hstored : updateRoom room _ t = stored
  have hqueues : stored.queues = t.queues := by rw [← hstored]; rfl
  have hentries : stored.entries = t.entries := by rw [← hstored]; rfl
  cases looks_fetchTrack entry.track stored with
  | failed error hrun hopen =>
      simp only [hrun]
      exact .failed error _ hopen
  | found track hrun =>
      simp only [hrun, insertServed, Action.run_bind, Action.run_get]
      by_cases hmissing : (stored.track? track.id).isNone ∨ (stored.user? user.id).isNone
      · simp only [if_pos hmissing, Action.run_bind, Action.run_throw]
        exact .failed .internal _ (by simp)
      · simp only [if_neg hmissing, Action.run_modify, Action.run_pure]
        exact .recorded track _ hqueues hentries

end Serving

/-!
## Operations of the store
-/

open Store Database

variable {config : Config} {entry : EntryId} {track : Track}

/-- Whether an operation of the store does to a queue what an operation of queues gives, and
fails exactly if that one fails. -/
def Implements (t : Tables) (id : QueueId) (outcome : Except QueueError Queue) (reply : Reply)
    (after : Except StoreError Reply × Database) : Prop :=
  match outcome with
  | .ok queue => ∃ t', after = (.ok reply, opened t') ∧ QueueChanged t id queue t'
  | .error error => after = (.error (.ofQueue id error), opened t)

theorem Records.addTrack_implements (h : t.Records id queue items) (hkeys : t.DistinctKeys)
    (after : Option EntryId) (hnew : entry ∉ t.entries.map fun row => row.entry.id) :
    Implements t id ((queue.insertAfter after entry track.id).map Prod.snd) (.entry entry)
      (step config (opened t) (.addTrack id track after entry)) := by
  have hmatches := h.holds.insertAfter_matches after entry track.id
  have hend := insertion h.holds.nodup after ⟨entry, track.id, false⟩
  generalize Playlist.insertAfter items after ⟨entry, track.id, false⟩ =
    outcome at hmatches hend
  cases hend with
  | duplicate htaken => exact absurd htaken (notMem_ids_of_fresh h.links hnew)
  | missing hfree anchor hafter hanchor =>
      subst hafter
      have hnone := h.holds.get?_eq_none_iff.mpr hanchor
      rw [hmatches.eq_error]
      exact step_write_error rfl (h.addTrack_missing hnone) rfl
  | barred hfree front next rest hcut hafter hplayed =>
      subst hcut hafter
      rw [hmatches.eq_error]
      exact step_write_error rfl (h.addTrack_barred hplayed) rfl
  | placed hfree front back hcut hafter hback =>
      subst hcut hafter
      rcases hmatches.exists_ok with ⟨added, changed, houtcome, -, hchanged⟩
      rw [houtcome]
      exact ⟨_, step_write_ok rfl (h.run_addTrack hback hnew) rfl,
        h.afterAdd_changed hkeys hback hnew hchanged⟩

theorem Records.removeTrack_implements (h : t.Records id queue items) (hkeys : t.DistinctKeys)
    (entry : EntryId) :
    Implements t id ((queue.remove entry).map Prod.snd) .done
      (step config (opened t) (.removeTrack id entry)) := by
  have hmatches := h.holds.remove_matches entry
  have hend := removal h.holds.nodup entry
  generalize Playlist.remove items entry = outcome at hmatches hend
  cases hend with
  | missing hid =>
      have hnone := h.holds.get?_eq_none_iff.mpr hid
      rw [hmatches.eq_error]
      exact step_write_error rfl (h.removeTrack_missing hnone) rfl
  | barred front item back hcut hid hplayed =>
      subst hcut hid
      rw [hmatches.eq_error]
      exact step_write_error rfl (h.removeTrack_barred hplayed) rfl
  | removed front item back hcut hid hplayed =>
      subst hcut hid
      rcases hmatches.exists_ok with ⟨removed, changed, houtcome, -, hchanged⟩
      rw [houtcome]
      exact ⟨_, step_write_ok rfl (h.run_removeTrack hplayed) rfl,
        h.afterRemove_changed hkeys hplayed hchanged⟩

/-- How a turn ends for the member who was picked. It may fail behind the step that concerns
the queue, but only if the track of the entry is not stored as it was written. -/
inductive Serves (t : Tables) (id : QueueId) (user : User) (taken : QueueEntry)
    (left : Queue) : Except StoreError Reply × Database → Prop
  | served (track : Track) (t' : Tables) (hchanged : QueueChanged t id left t') :
    Serves t id user taken left (.ok (.served user track), opened t')
  | damaged (error : StoreError)
      (htrack : ∀ track : Track, t.track? taken.track ≠ some track.row) :
    Serves t id user taken left (.error error, opened t)

theorem Records.nextTrack_serves {room : RoomId} {user : User} {rotator after : Rotator}
    (h : t.Records ⟨room, user.id⟩ queue items) (hkeys : t.DistinctKeys)
    (hload : (loadRotator room).run t = (.ok rotator, t))
    (hpick : pickMember room (t.membersOf room) rotator = .ok (user, entry, after)) :
    ∃ taken left, queue.take? = some (taken, left) ∧
      (∃ found t', (serveEntry false ⟨room, user.id⟩ entry).run t = (.ok found, t') ∧
        { found with played := true } = taken ∧ QueueChanged t ⟨room, user.id⟩ left t') ∧
      ∀ now, Serves t ⟨room, user.id⟩ user taken left
        (step config (opened t) (.nextTrack room now)) := by
  have hpointer : queue.pointer = some entry :=
    Option.some.inj (h.pointer.symm.trans (pointer_of_pick hkeys hpick))
  rcases h.exists_next hpointer with ⟨front, item, back, rfl, hfront, hplayed, rfl⟩
  rcases h.holds.take?_cut hfront hplayed with ⟨left, htake, hleft⟩
  have hchanged := h.afterTake_changed hkeys hfront hplayed hleft
  refine ⟨_, left, htake, ⟨_, _, h.run_serveEntry, rfl, hchanged⟩, ?_⟩
  intro now
  have hrun := run_nextTrack_of_pick now hload hpick h.run_serveEntry
  have hends := turnRecorded (afterTake ⟨room, user.id⟩ item back t) room user after
    ⟨item.id, item.track, item.played, lastId? front, firstId? back⟩ now
  rw [← hrun] at hends
  generalize houtcome : (nextTrack false room now).run t = outcome at hends
  cases hends with
  | recorded track u hqueues hentries =>
      rw [step_write_ok rfl houtcome rfl]
      exact .served track u (hchanged.of_same hqueues hentries)
  | failed error u hopen =>
      rw [step_write_error rfl (congrArg Prod.fst houtcome) (lostWriter_of_ne hopen)]
      refine .damaged error ?_
      -- As it was written, the track can be read, and the turn goes through.
      intro track htrack
      have hentry := (h.entryOf?_eq item.id).trans h.holds.get?_cut
      have huser := Option.isSome_of_eq_some (user?_of_pick hpick)
      rw [Mirrors.run_nextTrack_picked hload hpick hentry htrack huser] at houtcome
      cases houtcome

/-- What the operations of the store do to the rows of a queue. -/
structure ActsAs (config : Config) (t : Tables) (id : QueueId) (queue : Queue) : Prop where
  added : ∀ (track : Track) (after : Option EntryId) {entry : EntryId},
    entry ∉ (t.entries.map fun row => row.entry.id) →
      Implements t id ((queue.insertAfter after entry track.id).map Prod.snd) (.entry entry)
        (step config (opened t) (.addTrack id track after entry))
  removed : ∀ entry : EntryId,
    Implements t id ((queue.remove entry).map Prod.snd) .done
      (step config (opened t) (.removeTrack id entry))
  /-- If the owner is picked, there is an entry to take, and the step that serves it takes the
  same. -/
  served : ∀ {user : User} {entry : EntryId} {rotator after : Rotator}, user.id = id.user →
    (loadRotator id.room).run t = (.ok rotator, t) →
    pickMember id.room (t.membersOf id.room) rotator = .ok (user, entry, after) →
      ∃ taken left, queue.take? = some (taken, left) ∧
        (∃ found t', (serveEntry false id entry).run t = (.ok found, t') ∧
          { found with played := true } = taken ∧ QueueChanged t id left t') ∧
        ∀ now, Serves t id user taken left (step config (opened t) (.nextTrack id.room now))

/-- As long as keys are distinct, rows that make up a queue act as the queue does: after a
track was added, removed or served they make up the queue that the operation of the same name
leaves, an operation fails exactly if that one fails, and all other queues keep their rows and
pointers. A queue that is not there is reported missing.
-/
theorem rows_act_as_queues (config : Config) (hkeys : t.DistinctKeys) (id : QueueId) :
    (∀ {queue : Queue}, t.rebuild? id = some (.ok queue) → ActsAs config t id queue) ∧
    (t.queue? id = none →
      (∀ track after entry, step config (opened t) (.addTrack id track after entry) =
        (.error (.notFound (.queue id)), opened t)) ∧
      ∀ entry, step config (opened t) (.removeTrack id entry) =
        (.error (.notFound (.queue id)), opened t)) := by
  constructor
  · intro queue hqueue
    rcases exists_records hqueue with ⟨items, hrecords⟩
    refine ⟨?_, ?_, ?_⟩
    · exact fun track after entry hnew => hrecords.addTrack_implements hkeys after hnew
    · exact hrecords.removeTrack_implements hkeys
    · rcases id with ⟨room, name⟩
      rintro user entry rotator after rfl hload hpick
      exact hrecords.nextTrack_serves hkeys hload hpick
  · intro hnone
    have hfetch : (fetchPointer id).run t = (.error (.notFound (.queue id)), t) := by
      simp [fetchPointer, hnone]
    constructor
    · intro track after entry
      exact step_write_error rfl (by simp [addTrack, hfetch]) rfl
    · intro entry
      exact step_write_error rfl (by simp [removeTrack, hfetch]) rfl

/-- Ann has played one of two entries, which are stored backwards, and Bob has one to play. -/
def twoMembers : Tables :=
  { Tables.empty with
    rooms := [⟨⟨"DEN"⟩, "Den", "den", RotatorKind.roundRobin.key,
      (Rotator.roundRobin { order := [0, 1], cursor := 0 }).encode⟩]
    users := [⟨⟨"ann"⟩, "Ann"⟩, ⟨⟨"bob"⟩, "Bob"⟩]
    queues := [⟨⟨⟨"DEN"⟩, ⟨"ann"⟩⟩, 0, some ⟨"b"⟩⟩, ⟨⟨⟨"DEN"⟩, ⟨"bob"⟩⟩, 1, some ⟨"c"⟩⟩]
    entries := Queue.storedPair.map (EntryRow.mk ⟨⟨"DEN"⟩, ⟨"ann"⟩⟩) ++
      [⟨⟨⟨"DEN"⟩, ⟨"bob"⟩⟩, ⟨⟨"c"⟩, ⟨"s"⟩, false, none, none⟩⟩] }

/-- Ann's rows act as her queue, and it is her turn. Nobody else has a queue but Bob. -/
theorem rows_act_as_queues_twoMembers :
    DistinctKeys twoMembers ∧
      (twoMembers.rebuild? ⟨⟨"DEN"⟩, ⟨"ann"⟩⟩ =
          some (.ok (Queue.pairPlayed.foldl Queue.change .empty)) ∧
        ActsAs {} twoMembers ⟨⟨"DEN"⟩, ⟨"ann"⟩⟩ (Queue.pairPlayed.foldl Queue.change .empty)) ∧
      ((loadRotator ⟨"DEN"⟩).run twoMembers =
        (.ok (.roundRobin { order := [0, 1], cursor := 0 }), twoMembers) ∧
        pickMember ⟨"DEN"⟩ (twoMembers.membersOf ⟨"DEN"⟩)
            (.roundRobin { order := [0, 1], cursor := 0 }) =
          .ok (⟨⟨"ann"⟩, "Ann"⟩, ⟨"b"⟩, .roundRobin { order := [0, 1], cursor := 1 })) ∧
      twoMembers.queue? ⟨⟨"DEN"⟩, ⟨"cid"⟩⟩ = none ∧
        ∀ entry, step {} (opened twoMembers) (.removeTrack ⟨⟨"DEN"⟩, ⟨"cid"⟩⟩ entry) =
          (.error (.notFound (.queue ⟨⟨"DEN"⟩, ⟨"cid"⟩⟩)), opened twoMembers) := by
  have hkeys : DistinctKeys twoMembers := ⟨by decide +kernel, by decide +kernel⟩
  have hqueue : twoMembers.rebuild? ⟨⟨"DEN"⟩, ⟨"ann"⟩⟩ =
      some (.ok (Queue.pairPlayed.foldl Queue.change .empty)) := by decide +kernel
  have hnone : twoMembers.queue? ⟨⟨"DEN"⟩, ⟨"cid"⟩⟩ = none := by decide +kernel
  have hsorted : twoMembers.queuesOf ⟨"DEN"⟩ = twoMembers.queues :=
    List.mergeSort_of_pairwise (by decide +kernel)
  refine ⟨hkeys, ⟨hqueue, (rows_act_as_queues {} hkeys _).1 hqueue⟩, ⟨?_, ?_⟩, hnone, ?_⟩
  · decide +kernel
  · rw [membersOf, hsorted]
    decide +kernel
  · exact ((rows_act_as_queues {} hkeys _).2 hnone).2

end Tables
end Jukebox
