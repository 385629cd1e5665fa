import Jukebox.Proofs.Queue.Operations
import Jukebox.Proofs.Tables.Rows

/-!
# Rows of entries that make up queues

Rows of entries are linked if every queue's rows are its entries, in some order, and no
identifier stands twice. The statements that add, remove or play an entry change rows and queue
alike, and leave the rows of all other queues alone.
-/

namespace Jukebox
namespace Tables

open Playlist

/-- Whether the rows of entries are those of some queues. -/
structure Linked (queues : List (QueueId × Queue)) (rows : List EntryRow) : Prop where
  distinct : (rows.map fun row => row.entry.id).Nodup
  owned : ∀ row ∈ rows, row.queue ∈ queues.map Prod.fst
  links : ∀ named ∈ queues, (entriesIn rows named.1).Perm named.2.entries

theorem linked_nil : Linked [] [] := by
  constructor <;> simp

variable {queues : List (QueueId × Queue)} {rows changed : List EntryRow} {id other : QueueId}
  {queue : Queue} {front back : List Item} {item : Item}

/-!
## One identifier, one queue
-/

theorem notMem_other (hdistinct : (rows.map fun row => row.entry.id).Nodup)
    (hother : other ≠ id) {entry : EntryId}
    (hentry : entry ∈ (entriesIn rows id).map QueueEntry.id) :
    entry ∉ (entriesIn rows other).map QueueEntry.id := by
  rcases List.mem_map.mp hentry with ⟨found, hfound, rfl⟩
  rw [entriesIn, List.map_map]
  exact Keyed.notMem_map_filter hdistinct (mem_entriesIn.mp hfound)
    (decide_eq_false hother.symm)

theorem entriesIn_relink_other (hdistinct : (rows.map fun row => row.entry.id).Nodup)
    (hother : other ≠ id) {target : Option EntryId}
    (htarget : ∀ entry, target = some entry → entry ∈ (entriesIn rows id).map QueueEntry.id)
    (change : QueueEntry → QueueEntry) :
    entriesIn (relink target change rows) other = entriesIn rows other := by
  rw [entriesIn_relink]
  cases target with
  | none => exact Queue.modify_none _ _
  | some entry =>
      rw [Queue.modify_some, Keyed.update_of_notMem]
      exact notMem_other hdistinct hother (htarget entry rfl)

theorem map_id_entriesIn_relink {target : Option EntryId} {change : QueueEntry → QueueEntry}
    (hchange : Queue.KeepsId change) :
    (entriesIn (relink target change rows) id).map QueueEntry.id =
      (entriesIn rows id).map QueueEntry.id := by
  rw [entriesIn_relink, Queue.map_id_modify hchange]

theorem entriesIn_relink_both (hdistinct : (rows.map fun row => row.entry.id).Nodup)
    (hother : other ≠ id) {one two : Option EntryId}
    (hone : ∀ entry, one = some entry → entry ∈ (entriesIn rows id).map QueueEntry.id)
    (htwo : ∀ entry, two = some entry → entry ∈ (entriesIn rows id).map QueueEntry.id)
    {change : QueueEntry → QueueEntry} (hchange : Queue.KeepsId change)
    (again : QueueEntry → QueueEntry) :
    entriesIn (relink two again (relink one change rows)) other = entriesIn rows other := by
  rw [entriesIn_relink_other _ hother, entriesIn_relink_other hdistinct hother hone]
  · rw [map_id_entriesIn_relink hchange]
    exact htwo
  · rw [map_id_relink hchange]
    exact hdistinct

theorem nodup_entriesIn (hdistinct : (rows.map fun row => row.entry.id).Nodup) (id : QueueId) :
    ((entriesIn rows id).map QueueEntry.id).Nodup := by
  rw [entriesIn, List.map_map]
  exact hdistinct.sublist (List.filter_sublist.map _)

/-- Rows of which one queue's were changed, and no others. -/
theorem Linked.change (h : Linked queues rows) (hqueue : (id, queue) ∈ queues) {q : Queue}
    (hdistinct : (changed.map fun row => row.entry.id).Nodup)
    (howned : changed.map EntryRow.queue ⊆ id :: rows.map EntryRow.queue)
    (hlinks : (entriesIn changed id).Perm q.entries)
    (hothers : ∀ other, other ≠ id → entriesIn changed other = entriesIn rows other) :
    Linked (queues.map fun named => if named.1 = id then (id, q) else named) changed where
  distinct := hdistinct
  owned := by
    have hkeys : (queues.map fun named => if named.1 = id then (id, q) else named).map
        Prod.fst = queues.map Prod.fst := Keyed.map_key_update fun _ _ => rfl
    rw [hkeys]
    intro row hrow
    rcases List.mem_cons.mp (howned (List.mem_map_of_mem hrow)) with hid | hold
    · rw [hid]
      exact List.mem_map_of_mem (f := Prod.fst) hqueue
    · rcases List.mem_map.mp hold with ⟨before, hbefore, heq⟩
      exact heq ▸ h.owned before hbefore
  links := by
    intro named hnamed
    rcases List.mem_map.mp hnamed with ⟨before, hbefore, rfl⟩
    split
    · exact hlinks
    · rw [hothers before.1 ‹_›]
      exact h.links before hbefore

theorem Linked.addQueue (h : Linked queues rows) (hnew : id ∉ queues.map Prod.fst) :
    Linked (queues ++ [(id, .empty)]) rows where
  distinct := h.distinct
  owned := fun row hrow => by
    rw [List.map_append]
    exact List.mem_append_left _ (h.owned row hrow)
  links := by
    intro named hnamed
    rcases List.mem_append.mp hnamed with hold | hadded
    · exact h.links named hold
    · rw [List.mem_singleton.mp hadded]
      have hnone : entriesIn rows id = [] := by
        apply List.eq_nil_iff_forall_not_mem.mpr
        intro entry hentry
        exact hnew (h.owned _ (mem_entriesIn.mp hentry))
      rw [hnone]
      exact .refl _

/-!
## Adding, removing and playing entries
-/

/-- The rows after a new entry was added behind one entry and in front of another. -/
def addEntry (queue : QueueId) (entry : QueueEntry) (rows : List EntryRow) : List EntryRow :=
  relink entry.next (Queue.setPrevious (some entry.id))
    (relink entry.previous (Queue.setNext (some entry.id)) (rows ++ [⟨queue, entry⟩]))

def removeEntry (entry : QueueEntry) (rows : List EntryRow) : List EntryRow :=
  (relink entry.next (Queue.setPrevious entry.previous)
    (relink entry.previous (Queue.setNext entry.next) rows)).filter
      fun row => row.entry.id ≠ entry.id

def playEntry (id : EntryId) (rows : List EntryRow) : List EntryRow :=
  relink (some id) (fun entry => { entry with played := true }) rows

theorem mem_ids_entriesIn {items : List Item}
    (hlinks : (entriesIn rows id).Perm (Queue.link items))
    {entry : EntryId} : entry ∈ (entriesIn rows id).map QueueEntry.id ↔ entry ∈ ids items := by
  rw [(hlinks.map QueueEntry.id).mem_iff, Queue.link, Queue.map_id_chain]

theorem Linked.links_of_mem (h : Linked queues rows) (hqueue : (id, queue) ∈ queues)
    {items : List Item} (hholds : queue.Holds items) :
    (entriesIn rows id).Perm (Queue.link items) :=
  (h.links _ hqueue).trans hholds.links

theorem mem_ids_left {entry : EntryId} (h : lastId? front = some entry) :
    entry ∈ ids (front ++ back) := by
  rw [ids_append]
  exact List.mem_append_left _ (lastId?_mem h)

theorem mem_ids_right {entry : EntryId} (h : firstId? back = some entry) :
    entry ∈ ids (front ++ back) := by
  rw [ids_append]
  exact List.mem_append_right _ (firstId?_mem h)

theorem modify_singleton {target : Option EntryId} {change : QueueEntry → QueueEntry}
    {entry : QueueEntry} (h : target ≠ some entry.id) :
    Queue.modify target change [entry] = [entry] := by
  simp [Queue.modify, Ne.symm h]

theorem map_queue_addEntry (entry : QueueEntry) :
    (addEntry id entry rows).map EntryRow.queue = rows.map EntryRow.queue ++ [id] := by
  simp [addEntry, map_queue_relink]

theorem map_id_addEntry (entry : QueueEntry) :
    ((addEntry id entry rows).map fun row => row.entry.id) =
      (rows.map fun row => row.entry.id) ++ [entry.id] := by
  rw [addEntry, map_id_relink (Queue.keepsId_setPrevious _),
    map_id_relink (Queue.keepsId_setNext _)]
  simp

theorem notMem_ids_of_fresh {items : List Item}
    (hlinks : (entriesIn rows id).Perm (Queue.link items))
    {entry : EntryId} (hnew : entry ∉ rows.map fun row => row.entry.id) :
    entry ∉ ids items := by
  intro hmem
  rcases List.mem_map.mp ((mem_ids_entriesIn hlinks).mpr hmem) with ⟨found, hfound, heq⟩
  exact hnew (List.mem_map.mpr ⟨_, mem_entriesIn.mp hfound, heq⟩)

theorem nodup_concat (hdistinct : (rows.map fun row => row.entry.id).Nodup) {entry : EntryId}
    (hnew : entry ∉ rows.map fun row => row.entry.id) :
    ((rows.map fun row => row.entry.id) ++ [entry]).Nodup := by
  rw [List.nodup_append]
  refine ⟨hdistinct, List.nodup_singleton _, ?_⟩
  rintro found hfound _ hadded rfl
  rw [List.mem_singleton.mp hadded] at hfound
  exact hnew hfound

theorem nodup_addEntry (hdistinct : (rows.map fun row => row.entry.id).Nodup)
    {entry : QueueEntry} (hnew : entry.id ∉ rows.map fun row => row.entry.id) :
    ((addEntry id entry rows).map fun row => row.entry.id).Nodup := by
  rw [map_id_addEntry]
  exact nodup_concat hdistinct hnew

theorem entriesIn_addEntry (item : Item)
    (hlinks : (entriesIn rows id).Perm (Queue.link (front ++ back)))
    (hnodup : (ids (front ++ back)).Nodup)
    (hnew : item.id ∉ rows.map fun row => row.entry.id) :
    (entriesIn (addEntry id ⟨item.id, item.track, item.played, lastId? front,
      firstId? back⟩ rows) id).Perm (Queue.link (front ++ item :: back)) := by
  have hfresh := notMem_ids_of_fresh hlinks hnew
  have hbehind : lastId? front ≠ some item.id := fun heq => hfresh (mem_ids_left heq)
  have hbefore : firstId? back ≠ some item.id := fun heq => hfresh (mem_ids_right heq)
  rw [addEntry, entriesIn_relink, entriesIn_relink, entriesIn_concat, if_pos rfl,
    Queue.modify_append, Queue.modify_append, modify_singleton hbehind,
    modify_singleton hbefore]
  exact (List.perm_append_singleton _ _).trans (Queue.link_insert hlinks hnodup item)

theorem entriesIn_addEntry_other (item : Item)
    (hdistinct : (rows.map fun row => row.entry.id).Nodup)
    (hlinks : (entriesIn rows id).Perm (Queue.link (front ++ back)))
    (hnew : item.id ∉ rows.map fun row => row.entry.id) (hother : other ≠ id) :
    entriesIn (addEntry id ⟨item.id, item.track, item.played, lastId? front,
      firstId? back⟩ rows) other = entriesIn rows other := by
  have hrows : entriesIn (rows ++ [⟨id, ⟨item.id, item.track, item.played, lastId? front,
      firstId? back⟩⟩]) other = entriesIn rows other := by
    rw [entriesIn_concat, if_neg (Ne.symm hother), List.append_nil]
  have hkeeps : ∀ entry ∈ ids (front ++ back), entry ∈ (entriesIn (rows ++ [⟨id, ⟨item.id,
      item.track, item.played, lastId? front, firstId? back⟩⟩]) id).map QueueEntry.id := by
    intro entry hentry
    rw [entriesIn_concat, List.map_append]
    exact List.mem_append_left _ ((mem_ids_entriesIn hlinks).mpr hentry)
  rw [addEntry, entriesIn_relink_both _ hother, hrows]
  · exact fun entry hentry => hkeeps entry (mem_ids_left hentry)
  · exact fun entry hentry => hkeeps entry (mem_ids_right hentry)
  · exact Queue.keepsId_setNext _
  · rw [List.map_append]
    exact nodup_concat hdistinct hnew

theorem Linked.addEntry (h : Linked queues rows) (hqueue : (id, queue) ∈ queues)
    (hholds : queue.Holds (front ++ back)) (hnew : item.id ∉ rows.map fun row => row.entry.id)
    {q : Queue} (hq : q.Holds (front ++ item :: back)) :
    Linked (queues.map fun named => if named.1 = id then (id, q) else named)
      (Tables.addEntry id ⟨item.id, item.track, item.played, lastId? front, firstId? back⟩
        rows) := by
  have hlinks := h.links_of_mem hqueue hholds
  refine h.change hqueue (nodup_addEntry h.distinct hnew) ?_ ?_ ?_
  · rw [map_queue_addEntry]
    exact (List.perm_append_singleton _ _).subset
  · exact (entriesIn_addEntry item hlinks hholds.nodup hnew).trans hq.links.symm
  · exact fun other hother => entriesIn_addEntry_other item h.distinct hlinks hnew hother

/-- Deleting an entry and changing links that keep their identifiers can be exchanged. -/
theorem filter_modify {change : QueueEntry → QueueEntry} (hchange : Queue.KeepsId change)
    (target : Option EntryId) (gone : EntryId) (entries : List QueueEntry) :
    (Queue.modify target change entries).filter (fun entry => entry.id ≠ gone) =
      Queue.modify target change (entries.filter fun entry => entry.id ≠ gone) := by
  have hid : ∀ entry : QueueEntry,
      (if some entry.id = target then change entry else entry).id = entry.id := by
    intro entry
    split
    · exact hchange entry
    · rfl
  simp only [Queue.modify, List.filter_map, Function.comp_def, hid]

theorem map_queue_removeEntry (entry : QueueEntry) :
    (removeEntry entry rows).map EntryRow.queue ⊆ rows.map EntryRow.queue := by
  have hkept : (removeEntry entry rows).map EntryRow.queue ⊆ _ :=
    (List.filter_sublist.map EntryRow.queue).subset
  rwa [map_queue_relink, map_queue_relink] at hkept

theorem nodup_removeEntry (hdistinct : (rows.map fun row => row.entry.id).Nodup)
    (entry : QueueEntry) : ((removeEntry entry rows).map fun row => row.entry.id).Nodup := by
  refine List.Nodup.sublist (List.filter_sublist.map _) ?_
  rw [map_id_relink (Queue.keepsId_setPrevious _), map_id_relink (Queue.keepsId_setNext _)]
  exact hdistinct

theorem entriesIn_removeEntry
    (hlinks : (entriesIn rows id).Perm (Queue.link (front ++ item :: back)))
    (hnodup : (ids (front ++ item :: back)).Nodup) :
    (entriesIn (removeEntry ⟨item.id, item.track, item.played, lastId? front,
      firstId? back⟩ rows) id).Perm (Queue.link (front ++ back)) := by
  rw [removeEntry, entriesIn_delete, entriesIn_relink, entriesIn_relink,
    filter_modify (Queue.keepsId_setPrevious _), filter_modify (Queue.keepsId_setNext _)]
  exact Queue.link_remove hlinks hnodup

theorem entriesIn_removeEntry_other (hdistinct : (rows.map fun row => row.entry.id).Nodup)
    (hlinks : (entriesIn rows id).Perm (Queue.link (front ++ item :: back)))
    (hother : other ≠ id) :
    entriesIn (removeEntry ⟨item.id, item.track, item.played, lastId? front,
      firstId? back⟩ rows) other = entriesIn rows other := by
  have hbehind : ∀ entry, lastId? front = some entry →
      entry ∈ (entriesIn rows id).map QueueEntry.id :=
    fun entry hentry => (mem_ids_entriesIn hlinks).mpr (mem_ids_left hentry)
  have hbefore : ∀ entry, firstId? back = some entry →
      entry ∈ (entriesIn rows id).map QueueEntry.id := by
    intro entry hentry
    rw [mem_ids_entriesIn hlinks, ids_append, ids_cons]
    exact List.mem_append_right _ (List.mem_cons_of_mem _ (firstId?_mem hentry))
  have hitem : item.id ∈ (entriesIn rows id).map QueueEntry.id :=
    (mem_ids_entriesIn hlinks).mpr (by simp)
  rw [removeEntry, entriesIn_delete,
    entriesIn_relink_both hdistinct hother hbehind hbefore (Queue.keepsId_setNext _)]
  apply List.filter_eq_self.mpr
  intro entry hentry
  refine decide_eq_true fun heq => notMem_other hdistinct hother hitem ?_
  exact List.mem_map.mpr ⟨entry, hentry, heq⟩

theorem Linked.removeEntry (h : Linked queues rows) (hqueue : (id, queue) ∈ queues)
    (hholds : queue.Holds (front ++ item :: back)) {q : Queue} (hq : q.Holds (front ++ back)) :
    Linked (queues.map fun named => if named.1 = id then (id, q) else named)
      (Tables.removeEntry ⟨item.id, item.track, item.played, lastId? front, firstId? back⟩
        rows) := by
  have hlinks := h.links_of_mem hqueue hholds
  refine h.change hqueue (nodup_removeEntry h.distinct _) ?_ ?_ ?_
  · exact List.subset_cons_of_subset _ (map_queue_removeEntry _)
  · exact (entriesIn_removeEntry hlinks hholds.nodup).trans hq.links.symm
  · exact fun other hother => entriesIn_removeEntry_other h.distinct hlinks hother

theorem nodup_playEntry (hdistinct : (rows.map fun row => row.entry.id).Nodup)
    (entry : EntryId) : ((playEntry entry rows).map fun row => row.entry.id).Nodup := by
  rw [playEntry, map_id_relink Queue.keepsId_play]
  exact hdistinct

theorem entriesIn_playEntry
    (hlinks : (entriesIn rows id).Perm (Queue.link (front ++ item :: back)))
    (hnodup : (ids (front ++ item :: back)).Nodup) :
    (entriesIn (playEntry item.id rows) id).Perm
    (Queue.link (front ++ item.play :: back)) := by
  rw [playEntry, entriesIn_relink]
  exact Queue.link_play hlinks hnodup

theorem entriesIn_playEntry_other (hdistinct : (rows.map fun row => row.entry.id).Nodup)
    (hlinks : (entriesIn rows id).Perm (Queue.link (front ++ item :: back)))
    (hother : other ≠ id) :
    entriesIn (playEntry item.id rows) other = entriesIn rows other := by
  have hitem : item.id ∈ (entriesIn rows id).map QueueEntry.id :=
    (mem_ids_entriesIn hlinks).mpr (by simp)
  refine entriesIn_relink_other hdistinct hother ?_ _
  exact fun entry hentry => Option.some.inj hentry ▸ hitem

theorem Linked.playEntry (h : Linked queues rows) (hqueue : (id, queue) ∈ queues)
    (hholds : queue.Holds (front ++ item :: back)) {q : Queue}
    (hq : q.Holds (front ++ item.play :: back)) :
    Linked (queues.map fun named => if named.1 = id then (id, q) else named)
      (Tables.playEntry item.id rows) := by
  have hlinks := h.links_of_mem hqueue hholds
  refine h.change hqueue (nodup_playEntry h.distinct _) ?_ ?_ ?_
  · rw [Tables.playEntry, map_queue_relink]
    exact List.subset_cons_self _ _
  · exact (entriesIn_playEntry hlinks hholds.nodup).trans hq.links.symm
  · exact fun other hother => entriesIn_playEntry_other h.distinct hlinks hother

end Tables
end Jukebox
