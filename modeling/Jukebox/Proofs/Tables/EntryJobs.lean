import Jukebox.Proofs.Store.Action
import Jukebox.Proofs.Tables.Linked

/-!
# Jobs that change entries

Rows record a queue if its entries are stored in some order next to its pointer. What the jobs
that add and remove entries do to such rows is followed statement by statement. The statements
find the neighbours of an entry where the playlist of the queue has them.
-/

namespace Jukebox
namespace Tables

open Playlist

variable {t : Tables} {id : QueueId} {queue : Queue} {items front back : List Item}
    {item : Item}
  {entry : EntryId} {track : Track}

/-- Whether the rows and the pointer of a queue record one that holds a playlist. -/
structure Records (t : Tables) (id : QueueId) (queue : Queue) (items : List Item) : Prop where
  pointer : (t.queue? id).map QueueRow.pointer = some queue.pointer
  rows : (entriesIn t.entries id).Perm queue.entries
  holds : queue.Holds items

/-!
## Statements on entries
-/

theorem relink_none (change : QueueEntry → QueueEntry) (rows : List EntryRow) :
    relink none change rows = rows := by
  simp [relink]

theorem updateEntry_eq (id : EntryId) (change : QueueEntry → QueueEntry) :
    t.updateEntry id change = { t with entries := relink (some id) change t.entries } := by
  simp [updateEntry, relink]

theorem run_fetchPointer {pointer : Option EntryId}
    (hpointer : (t.queue? id).map QueueRow.pointer = some pointer) :
    (fetchPointer id).run t = (.ok pointer, t) := by
  rcases Option.map_eq_some_iff.mp hpointer with ⟨row, hrow, rfl⟩
  simp [fetchPointer, hrow]

theorem entries_upsertTrack (row : TrackRow) : (t.upsertTrack row).entries = t.entries := by
  rcases upsertTrack_eq (t := t) row with ⟨tracks, heq⟩
  rw [heq]

theorem queues_upsertTrack (row : TrackRow) : (t.upsertTrack row).queues = t.queues := by
  rcases upsertTrack_eq (t := t) row with ⟨tracks, heq⟩
  rw [heq]

theorem run_linkNext (entry : EntryId) (next : Option EntryId) :
    (linkNext entry next).run t =
      (.ok (), { t with entries := relink (some entry) (Queue.setNext next) t.entries }) := by
  rw [← updateEntry_eq]
  rfl

theorem run_linkPrevious (entry : EntryId) (previous : Option EntryId) :
    (linkPrevious entry previous).run t =
      (.ok (), { t with
        entries := relink (some entry) (Queue.setPrevious previous) t.entries }) := by
  rw [← updateEntry_eq]
  rfl

theorem run_insertNewEntry {row : EntryRow}
    (hnew : row.entry.id ∉ t.entries.map fun row => row.entry.id) :
    (insertNewEntry row).run t = (.ok (), t.insertEntry row) := by
  have hfree : (t.entries.any fun other => other.entry.id = row.entry.id) = false := by
    rw [List.any_eq_false]
    intro other hother
    simpa using fun heq : other.entry.id = row.entry.id =>
      hnew (heq ▸ List.mem_map_of_mem hother)
  simp only [insertNewEntry, Action.run_bind, Action.run_get, hfree, Bool.false_eq_true,
    if_false, Action.run_modify]

theorem run_insertNewEntry_taken {row : EntryRow}
    (htaken : row.entry.id ∈ t.entries.map fun row => row.entry.id) :
    (insertNewEntry row).run t = (.error .internal, t) := by
  have hany : (t.entries.any fun other => other.entry.id = row.entry.id) = true := by
    rcases List.mem_map.mp htaken with ⟨other, hother, hid⟩
    exact List.any_eq_true.mpr ⟨other, hother, decide_eq_true hid⟩
  simp only [insertNewEntry, Action.run_bind, Action.run_get, hany, if_true, Action.run_throw]

namespace Records

theorem links (h : t.Records id queue items) :
    (entriesIn t.entries id).Perm (Queue.link items) :=
  h.rows.trans h.holds.links

theorem run_fetchPointer (h : t.Records id queue items) :
    (fetchPointer id).run t = (.ok queue.pointer, t) :=
  Tables.run_fetchPointer h.pointer

theorem entryOf?_eq (h : t.Records id queue items) (entry : EntryId) :
    t.entryOf? id entry = queue.get? entry := by
  rw [Tables.entryOf?_eq]
  refine Keyed.find?_perm h.rows ?_ entry
  rw [(h.rows.map QueueEntry.id).nodup_iff]
  exact h.holds.sorted.nodup

theorem head?_eq (h : t.Records id queue items) : t.head? id = queue.head := by
  have hheads := Queue.heads_of_perm h.links
  have hfirst : (Queue.heads (entriesIn t.entries id)).head? = firstId? items := by
    rw [hheads]
    cases firstId? items <;> rfl
  have hnone : (fun entry : QueueEntry => decide (entry.previous = none)) =
      fun entry => entry.previous.isNone := by
    funext entry
    cases entry.previous <;> rfl
  rw [Tables.head?_eq, h.holds.head, ← hfirst, Queue.heads, List.head?_map,
    List.head?_filter, hnone]

theorem run_fetchEntry (h : t.Records id queue items) {found : QueueEntry}
    (hfound : queue.get? entry = some found) :
    (fetchEntry id entry).run t = (.ok found, t) := by
  simp [fetchEntry, h.entryOf?_eq, hfound]

theorem run_fetchEntry_none (h : t.Records id queue items) (hnone : queue.get? entry = none) :
    (fetchEntry id entry).run t = (.error (.notFound (.entry entry)), t) := by
  simp [fetchEntry, h.entryOf?_eq, hnone]

/-- The successor of a new entry is where the playlist is cut. -/
theorem run_successor (h : t.Records id queue (front ++ back)) :
    (successor id (lastId? front)).run t = (.ok (firstId? back), t) := by
  cases hafter : lastId? front with
  | none =>
      have hhead := h.holds.head
      rw [lastId?_eq_none.mp hafter, List.nil_append] at hhead
      simp [successor, h.head?_eq, hhead]
  | some anchor =>
      rcases h.holds.get?_last hafter with ⟨found, hfound, hnext⟩
      simp [successor, h.run_fetchEntry hfound, hnext]

theorem run_requireUnplayed (h : t.Records id queue (front ++ back))
    (hback : ∀ next, back.head? = some next → next.played = false) :
    (requireUnplayed id (firstId? back)).run t = (.ok (), t) := by
  cases back with
  | nil => rfl
  | cons next rest =>
      simp [requireUnplayed, h.run_fetchEntry h.holds.get?_cut, hback next rfl]

theorem run_requireUnplayed_played (h : t.Records id queue (front ++ item :: back))
    (hplayed : item.played = true) :
    ((requireUnplayed id (some item.id)).run t).1 =
      .error (.ofQueue id (.insertBeforePlayed item.id)) := by
  simp [requireUnplayed, h.run_fetchEntry h.holds.get?_cut, hplayed]

end Records

/-!
## Adding
-/

def afterAdd (id : QueueId) (track : Track) (entry : EntryId) (front back : List Item)
    (pointer : Option EntryId) (t : Tables) : Tables :=
  let t := t.upsertTrack track.row
  let t := { t with
    entries := addEntry id ⟨entry, track.id, false, lastId? front, firstId? back⟩ t.entries }
  if pointer = none ∨ pointer = firstId? back then
    t.updateQueue id fun row => { row with pointer := some entry }
  else t

theorem Records.run_addTrack (h : t.Records id queue (front ++ back))
    (hback : ∀ next, back.head? = some next → next.played = false)
    (hnew : entry ∉ t.entries.map fun row => row.entry.id) :
    (Tables.addTrack false id track (lastId? front) entry).run t =
      (.ok (), afterAdd id track entry front back queue.pointer t) := by
  have hinsert :
      (insertNewEntry ⟨id, ⟨entry, track.id, false, lastId? front, firstId? back⟩⟩).run
      (t.upsertTrack track.row) = (.ok (), (t.upsertTrack track.row).insertEntry
        ⟨id, ⟨entry, track.id, false, lastId? front, firstId? back⟩⟩) := by
    refine run_insertNewEntry ?_
    rw [entries_upsertTrack]
    exact hnew
  have hrow : (⟨track.id, track.encode⟩ : TrackRow) = track.row := rfl
  simp only [Tables.addTrack, Action.run_bind, h.run_fetchPointer, h.run_successor,
    h.run_requireUnplayed hback, Bool.not_false, Action.run_check_true, Action.run_modify,
    hrow, hinsert, afterAdd, addEntry]
  generalize t.upsertTrack track.row = u
  -- a neighbour that is missing has no statement, and the row that `relink none` changes is no
  -- row
  cases lastId? front <;> cases firstId? back <;>
    simp only [Action.run_bind, run_linkNext, run_linkPrevious, relink_none] <;> split <;> rfl

theorem pointer_add (hholds : queue.Holds (front ++ back)) {q : Queue}
    (hback : ∀ next, back.head? = some next → next.played = false)
    (hq : q.Holds (front ++ ⟨entry, track.id, false⟩ :: back)) :
    q.pointer =
      if queue.pointer = none ∨
      queue.pointer = firstId? back then some entry else queue.pointer := by
  rw [hq.pointer, nextId?_insert hholds.nodup rfl hback, ← hholds.pointer]

theorem Records.addTrack_missing (h : t.Records id queue items) {anchor : EntryId}
    (hanchor : queue.get? anchor = none) :
    ((Tables.addTrack false id track (some anchor) entry).run t).1 =
      .error (.notFound (.entry anchor)) := by
  simp [Tables.addTrack, h.run_fetchPointer, successor, h.run_fetchEntry_none hanchor]

theorem Records.addTrack_barred (h : t.Records id queue (front ++ item :: back))
    (hplayed : item.played = true) :
    ((Tables.addTrack false id track (lastId? front) entry).run t).1 =
      .error (.ofQueue id (.insertBeforePlayed item.id)) := by
  have hrequire := h.run_requireUnplayed_played hplayed
  have hsuccessor := h.run_successor
  rw [Queue.firstId?_cons] at hsuccessor
  simp only [Tables.addTrack, Action.run_bind, h.run_fetchPointer, hsuccessor]
  generalize (requireUnplayed id (some item.id)).run t = outcome at hrequire
  rcases outcome with ⟨answer, left⟩
  have hrequire : answer = _ := hrequire
  rw [hrequire]

/-- What a look-up does to the tables: it finds something, or it fails in an ordinary way. -/
inductive Looks {α : Type} (query : Action Tables α) (t : Tables) : Prop
  | found (value : α) (hrun : query.run t = (.ok value, t))
  | failed (error : StoreError) (hrun : query.run t = (.error error, t))
    (hopen : error ≠ .writerClosed)

theorem looks_fetchPointer (id : QueueId) (t : Tables) : Looks (fetchPointer id) t := by
  cases hrow : t.queue? id with
  | none => exact .failed (.notFound (.queue id)) (by simp [fetchPointer, hrow]) (by simp)
  | some row => exact .found row.pointer (by simp [fetchPointer, hrow])

theorem looks_fetchEntry (id : QueueId) (entry : EntryId) (t : Tables) :
    Looks (fetchEntry id entry) t := by
  cases hfound : t.entryOf? id entry with
  | none => exact .failed (.notFound (.entry entry)) (by simp [fetchEntry, hfound]) (by simp)
  | some found => exact .found found (by simp [fetchEntry, hfound])

theorem looks_fetchTrack (name : TrackId) (t : Tables) : Looks (fetchTrack name) t := by
  cases hrow : t.track? name with
  | none => exact .failed (.notFound (.track name)) (by simp [fetchTrack, hrow]) (by simp)
  | some row =>
      cases hread : Track.decode? row.track with
      | none =>
          exact .failed (.integrity .trackUnreadable)
            (by simp [fetchTrack, hrow, readTrack, hread]) (by simp)
      | some track => exact .found track (by simp [fetchTrack, hrow, readTrack, hread])

theorem looks_successor (id : QueueId) (after : Option EntryId) (t : Tables) :
    Looks (successor id after) t := by
  cases after with
  | none => exact .found (t.head? id) rfl
  | some anchor =>
      cases looks_fetchEntry id anchor t with
      | found entry hrun => exact .found entry.next (by simp [successor, hrun])
      | failed error hrun hopen => exact .failed error (by simp [successor, hrun]) hopen

theorem looks_requireUnplayed (id : QueueId) (next : Option EntryId) (t : Tables) :
    Looks (requireUnplayed id next) t := by
  cases next with
  | none => exact .found () rfl
  | some next =>
      cases looks_fetchEntry id next t with
      | failed error hrun hopen => exact .failed error (by simp [requireUnplayed, hrun]) hopen
      | found entry hrun =>
          cases hplayed : entry.played with
          | false => exact .found () (by simp [requireUnplayed, hrun, hplayed])
          | true =>
              refine .failed (.ofQueue id (.insertBeforePlayed next)) ?_
                (by simp [StoreError.ofQueue])
              simp [requireUnplayed, hrun, hplayed]

/-- No entry is added with an identifier that a row has, in whatever queue. -/
theorem addTrack_taken (id : QueueId) (track : Track) (after : Option EntryId)
    (hentry : entry ∈ t.entries.map fun row => row.entry.id) :
    ∃ error, ((Tables.addTrack false id track after entry).run t).1 = .error error ∧
      error ≠ .writerClosed := by
  have hinsert : ∀ next, (insertNewEntry ⟨id, ⟨entry, track.id, false, after, next⟩⟩).run
      (t.upsertTrack ⟨track.id, track.encode⟩) =
      (.error .internal, t.upsertTrack ⟨track.id, track.encode⟩) := by
    intro next
    apply run_insertNewEntry_taken
    rw [entries_upsertTrack]
    exact hentry
  cases looks_fetchPointer id t with
  | failed error hrun hopen => exact ⟨error, by simp [Tables.addTrack, hrun], hopen⟩
  | found pointer hpointer =>
      cases looks_successor id after t with
      | failed error hrun hopen =>
          exact ⟨error, by simp [Tables.addTrack, hpointer, hrun], hopen⟩
      | found next hnext =>
          cases looks_requireUnplayed id next t with
          | failed error hrun hopen =>
              exact ⟨error, by simp [Tables.addTrack, hpointer, hnext, hrun], hopen⟩
          | found value hunplayed =>
              refine ⟨.internal, ?_, by simp⟩
              simp [Tables.addTrack, hpointer, hnext, hunplayed, hinsert]

/-!
## Removing
-/

def afterRemove (id : QueueId) (item : Item) (front back : List Item)
    (pointer : Option EntryId) (t : Tables) : Tables :=
  let t := { t with
    entries := removeEntry ⟨item.id, item.track, item.played, lastId? front, firstId? back⟩
      t.entries }
  if pointer = some item.id then
    t.updateQueue id fun row => { row with pointer := firstId? back }
  else t

theorem Records.run_removeTrack (h : t.Records id queue (front ++ item :: back))
    (hplayed : item.played = false) :
    (Tables.removeTrack false id item.id).run t =
      (.ok (), afterRemove id item front back queue.pointer t) := by
  simp only [Tables.removeTrack, Action.run_bind, h.run_fetchPointer,
    h.run_fetchEntry h.holds.get?_cut, hplayed, Bool.false_eq_true, if_false, Bool.not_false,
    Action.run_check_true, afterRemove, removeEntry]
  cases lastId? front <;> cases firstId? back <;>
    simp only [Action.run_bind, run_linkNext, run_linkPrevious, relink_none,
      Action.run_modify] <;>
    split <;> rfl

theorem pointer_remove (hholds : queue.Holds (front ++ item :: back))
    (hplayed : item.played = false) {q : Queue} (hq : q.Holds (front ++ back)) :
    q.pointer = if queue.pointer = some item.id then firstId? back else queue.pointer := by
  rw [hq.pointer, nextId?_remove hholds.nodup hholds.playedFirst hplayed, ← hholds.pointer]

theorem Records.removeTrack_missing (h : t.Records id queue items)
    (hentry : queue.get? entry = none) :
    ((Tables.removeTrack false id entry).run t).1 = .error (.notFound (.entry entry)) := by
  simp [Tables.removeTrack, h.run_fetchPointer, h.run_fetchEntry_none hentry]

theorem Records.removeTrack_barred (h : t.Records id queue (front ++ item :: back))
    (hplayed : item.played = true) :
    ((Tables.removeTrack false id item.id).run t).1 = .error
    (.ofQueue id (.removePlayed item.id)) := by
  simp [Tables.removeTrack, h.run_fetchPointer, h.run_fetchEntry h.holds.get?_cut, hplayed]

end Tables
end Jukebox
