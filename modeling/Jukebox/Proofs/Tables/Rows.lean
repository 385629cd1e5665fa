import Jukebox.Proofs.Queue.Sorted
import Jukebox.Store.Database

/-!
# Selecting and changing rows

What the look-ups of the tables find after each statement. The rows of a queue are followed
through all statements on single entries: as long as no identifier stands twice, such a
statement concerns one queue only.
-/

namespace Jukebox

def Track.row (track : Track) : TrackRow :=
  ⟨track.id, track.encode⟩

namespace Tables

variable {t : Tables}

/-!
## Entries of one queue
-/

def entriesIn (rows : List EntryRow) (queue : QueueId) : List QueueEntry :=
  (rows.filter fun row => row.queue = queue).map EntryRow.entry

variable {rows : List EntryRow} {queue : QueueId}

theorem entriesOf_map : (t.entriesOf queue).map EntryRow.entry = entriesIn t.entries queue :=
  rfl

theorem entryOf?_eq (queue : QueueId) (id : EntryId) :
    t.entryOf? queue id = Queue.find? (entriesIn t.entries queue) id := by
  rw [entryOf?, Queue.find?, entriesIn, List.find?_map, List.find?_filter]
  congr 2
  funext row
  simp [and_comm]

theorem head?_eq (queue : QueueId) :
    t.head? queue =
      ((entriesIn t.entries queue).find? fun entry => entry.previous = none).map
        QueueEntry.id := by
  rw [head?, entriesIn, List.find?_map, Option.map_map]
  rfl

theorem mem_entriesIn {entry : QueueEntry} :
    entry ∈ entriesIn rows queue ↔ ⟨queue, entry⟩ ∈ rows := by
  simp only [entriesIn, List.mem_map, List.mem_filter, decide_eq_true_eq]
  constructor
  · rintro ⟨row, ⟨hrow, rfl⟩, rfl⟩
    exact hrow
  · intro hrow
    exact ⟨_, ⟨hrow, rfl⟩, rfl⟩

/-- Changes the entry with an identifier, if there is one, whichever queue it is in. -/
def relink (id : Option EntryId) (change : QueueEntry → QueueEntry) (rows : List EntryRow) :
    List EntryRow :=
  rows.map fun row => if some row.entry.id = id then { row with
    entry := change row.entry } else row

theorem entriesIn_relink (id : Option EntryId) (change : QueueEntry → QueueEntry) :
    entriesIn (relink id change rows) queue =
      Queue.modify id change (entriesIn rows queue) := by
  have hqueue : (fun row : EntryRow => decide
      ((if some row.entry.id = id then { row with entry := change row.entry } else row).queue =
        queue)) = fun row => decide (row.queue = queue) := by
    funext row
    split <;> rfl
  simp only [entriesIn, relink, Queue.modify, List.filter_map, Function.comp_def, hqueue,
    List.map_map]
  apply List.map_congr_left
  intro row _
  split <;> rfl

theorem map_id_relink {id : Option EntryId} {change : QueueEntry → QueueEntry}
    (hchange : Queue.KeepsId change) :
    ((relink id change rows).map fun row => row.entry.id) = rows.map fun row =>
      row.entry.id := by
  simp only [relink, List.map_map]
  apply List.map_congr_left
  intro row _
  simp only [Function.comp_apply]
  split
  · exact hchange row.entry
  · rfl

theorem map_queue_relink (id : Option EntryId) (change : QueueEntry → QueueEntry) :
    (relink id change rows).map EntryRow.queue = rows.map EntryRow.queue := by
  simp only [relink, List.map_map]
  apply List.map_congr_left
  intro row _
  simp only [Function.comp_apply]
  split <;> rfl

theorem entriesIn_concat (row : EntryRow) :
    entriesIn (rows ++ [row]) queue =
      entriesIn rows queue ++ if row.queue = queue then [row.entry] else [] := by
  simp only [entriesIn, List.filter_append, List.map_append]
  split <;> simp_all

theorem entriesIn_delete (id : EntryId) :
    entriesIn (rows.filter fun row => row.entry.id ≠ id) queue =
      (entriesIn rows queue).filter fun entry => entry.id ≠ id := by
  simp only [entriesIn, List.filter_map, List.filter_filter, Function.comp_def]
  congr 2
  funext row
  simp [Bool.and_comm]

/-!
## Queues and their members
-/

theorem queue?_of_queues {u : Tables} (h : u.queues = t.queues) (id : QueueId) :
    u.queue? id = t.queue? id := by
  rw [queue?, h, queue?]

theorem queue?_setPointer (id : QueueId) (pointer : Option EntryId) (other : QueueId) :
    (t.updateQueue id fun row => { row with pointer := pointer }).queue? other =
      if other = id then (t.queue? id).map fun row => { row with pointer := pointer }
      else t.queue? other := by
  apply Keyed.find?_update
  exact fun _ hid => hid

theorem user?_of_member {room : RoomId} {row : QueueRow} {user : User}
    (h : (row, user) ∈ t.membersOf room) : t.user? user.id = some user := by
  rw [membersOf, List.mem_filterMap] at h
  rcases h with ⟨other, -, hother⟩
  rcases Option.map_eq_some_iff.mp hother with ⟨found, hfound, heq⟩
  cases heq
  have hid : user.id = row.queue.user := (Keyed.mem_of_find? hfound).2
  rw [hid]
  exact hfound

theorem queue_of_member {room : RoomId} {row : QueueRow} {user : User}
    (h : (row, user) ∈ t.membersOf room) : row ∈ t.queues ∧ row.queue = ⟨room, user.id⟩ := by
  rw [membersOf, List.mem_filterMap] at h
  rcases h with ⟨other, hrow, hother⟩
  rcases Option.map_eq_some_iff.mp hother with ⟨found, hfound, heq⟩
  cases heq
  rw [queuesOf, List.mem_mergeSort, List.mem_filter, decide_eq_true_eq] at hrow
  have hid : user.id = row.queue.user := (Keyed.mem_of_find? hfound).2
  refine ⟨hrow.1, ?_⟩
  rw [← hrow.2, hid]

/-!
## Other look-ups
-/

theorem upsertTrack_eq (row : TrackRow) :
    ∃ tracks, t.upsertTrack row = { t with tracks := tracks } := by
  unfold upsertTrack
  split
  · exact ⟨_, rfl⟩
  · exact ⟨_, rfl⟩

theorem track?_upsertTrack (row : TrackRow) (name : TrackId) :
    (t.upsertTrack row).track? name = if name = row.id then some row else t.track? name := by
  unfold upsertTrack
  split
  · rename_i hold
    have hfind : (Keyed.update TrackRow.id row.id (fun _ => row) t.tracks).find?
        (fun other => other.id = name) =
          if name = row.id then (t.tracks.find? fun other => other.id = row.id).map
            fun _ => row
          else t.tracks.find? fun other => other.id = name := by
      apply Keyed.find?_update
      exact fun _ _ => rfl
    show (Keyed.update TrackRow.id row.id (fun _ => row) t.tracks).find? _ = _
    rw [hfind]
    split
    · rcases Option.isSome_iff_exists.mp hold with ⟨found, hfound⟩
      have hfound : (t.tracks.find? fun other => other.id = row.id) = some found := hfound
      rw [hfound]
      rfl
    · rfl
  · rename_i hnew
    show (t.tracks ++ [row]).find? _ = _
    rw [Keyed.find?_concat]
    by_cases hname : name = row.id
    · subst hname
      have hnone : (t.tracks.find? fun other => other.id = row.id) = none := by
        simpa [track?] using hnew
      simp [hnone]
    · simp [hname, Ne.symm hname, track?]

end Tables
end Jukebox
