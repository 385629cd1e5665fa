import Jukebox.Proofs.Queue.Chain
import Jukebox.Proofs.Queue.Sorted

/-!
# What a queue holds

A queue holds a playlist when its entries are the linked items of the list and its head and
pointer mark the first and the first unplayed one. This module reads the answers of a queue off
its playlist, shows that such a queue passes its own check, and that nothing else does.
-/

namespace Jukebox
namespace Queue

open Playlist

/-- Whether a queue is the linked form of a playlist. -/
structure Holds (q : Queue) (items : List Item) : Prop where
  sorted : Sorted q.entries
  links : q.entries.Perm (link items)
  head : q.head = firstId? items
  pointer : q.pointer = nextId? items
  nodup : (ids items).Nodup
  playedFirst : PlayedFirst items

variable {q : Queue} {items front back : List Item} {item : Item} {id : EntryId}

theorem holds_empty : Holds empty [] where
  sorted := List.Pairwise.nil
  links := List.Perm.refl _
  head := rfl
  pointer := rfl
  nodup := List.nodup_nil
  playedFirst := List.Pairwise.nil

/-!
## Looking up
-/

theorem find?_link_cut (hnodup : (ids (front ++ item :: back)).Nodup) :
    find? (link (front ++ item :: back)) item.id =
      some ⟨item.id, item.track, item.played, lastId? front, firstId? back⟩ := by
  rw [find?, Keyed.find?_eq_some_iff (by simpa [link] using hnodup)]
  simp [link_cut]

theorem find?_link_of_notMem (h : id ∉ ids items) : find? (link items) id = none := by
  rw [find?, Keyed.find?_eq_none_iff]
  simpa [link] using h

theorem find?_link_item (hnodup : (ids items).Nodup) (id : EntryId) :
    (find? (link items) id).map QueueEntry.item = Playlist.find? items id := by
  by_cases hmem : id ∈ ids items
  · rcases List.mem_map.mp hmem with ⟨item, hitem, rfl⟩
    rcases List.append_of_mem hitem with ⟨front, back, rfl⟩
    rw [find?_link_cut hnodup, Playlist.find?,
      (Keyed.find?_eq_some_iff hnodup).mpr ⟨hitem, rfl⟩]
    rfl
  · rw [find?_link_of_notMem hmem, Playlist.find?, Keyed.find?_eq_none_iff.mpr hmem]
    rfl

theorem Holds.get?_eq (h : q.Holds items) (id : EntryId) : q.get? id = find? (link items) id :=
  Keyed.find?_perm h.links h.sorted.nodup id

theorem Holds.get?_cut (h : q.Holds (front ++ item :: back)) :
    q.get? item.id =
      some ⟨item.id, item.track, item.played, lastId? front, firstId? back⟩ := by
  rw [h.get?_eq, find?_link_cut h.nodup]

theorem Holds.get?_item (h : q.Holds items) (id : EntryId) :
    (q.get? id).map QueueEntry.item = Playlist.find? items id := by
  rw [h.get?_eq, find?_link_item h.nodup]

theorem Holds.get?_isSome (h : q.Holds items) (id : EntryId) :
    (q.get? id).isSome ↔ id ∈ ids items := by
  rw [← Option.isSome_map (f := QueueEntry.item), h.get?_item]
  exact Keyed.find?_isSome_iff

theorem Holds.get?_eq_none_iff (h : q.Holds items) {id : EntryId} :
    q.get? id = none ↔ id ∉ ids items := by
  rw [← Option.not_isSome_iff_eq_none, h.get?_isSome]

theorem Holds.get?_of_mem (h : q.Holds items) (hitem : item ∈ items) :
    ∃ entry, q.get? item.id = some entry ∧ entry.item = item := by
  rcases List.append_of_mem hitem with ⟨front, back, rfl⟩
  exact ⟨_, h.get?_cut, rfl⟩

theorem Holds.head?_item (h : q.Holds items) : q.head?.map QueueEntry.item = items.head? := by
  cases items with
  | nil => simp [head?, h.head, firstId?]
  | cons first rest =>
      rcases h.get?_of_mem List.mem_cons_self with ⟨entry, hentry, hitem⟩
      simp [head?, h.head, hentry, hitem]

theorem Holds.next?_item (h : q.Holds items) :
    q.next?.map QueueEntry.item = Playlist.next? items := by
  cases hnext : Playlist.next? items with
  | none => simp [next?, h.pointer, nextId?, hnext]
  | some item =>
      rcases h.get?_of_mem (mem_of_next? hnext).1 with ⟨entry, hentry, hitem⟩
      simp [next?, h.pointer, nextId?, hnext, hentry, hitem]

theorem Holds.next?_eq_none_iff (h : q.Holds items) :
    q.next? = none ↔ ∀ entry ∈ q.entries, entry.played = true := by
  have hitems : (q.entries.map QueueEntry.item).Perm items := by
    have hperm := h.links.map QueueEntry.item
    rwa [link, map_item_chain] at hperm
  rw [← Option.map_eq_none_iff (f := QueueEntry.item), h.next?_item,
    Playlist.next?_eq_none_iff]
  constructor
  · intro hplayed entry hentry
    exact hplayed entry.item (hitems.mem_iff.mp (List.mem_map_of_mem hentry))
  · intro hplayed item hitem
    rcases List.mem_map.mp (hitems.mem_iff.mpr hitem) with ⟨entry, hentry, rfl⟩
    exact hplayed entry hentry

/-!
## Walking
-/

/-- A walk that has come to the second part of a playlist sees the rest of the chain. -/
theorem Holds.walkFrom_eq (h : q.Holds (front ++ back)) {steps : Nat}
    (hsteps : back.length ≤ steps) :
    q.walkFrom steps (firstId? back) = chain (lastId? front) back none := by
  induction back generalizing front steps with
  | nil => cases steps <;> rfl
  | cons item rest ih =>
      cases steps with
      | zero => simp at hsteps
      | succ steps =>
          have hmoved : q.Holds ((front ++ [item]) ++ rest) := by simpa using h
          have hrest := ih hmoved (Nat.le_of_succ_le_succ hsteps)
          simp only [lastId?_append, lastId?_cons, lastId?_eq_none.mpr, Option.none_or,
            Option.some_or] at hrest
          simp only [walkFrom, firstId?_cons, Option.bind_some, h.get?_cut, chain, hrest,
            Option.or_none]

theorem Holds.length_eq (h : q.Holds items) : q.entries.length = items.length := by
  rw [h.links.length_eq, link, length_chain]

theorem Holds.toList_eq (h : q.Holds items) : q.toList = link items := by
  have hstart : q.Holds ([] ++ items) := h
  rw [toList, h.head]
  exact hstart.walkFrom_eq (by rw [h.length_eq])

theorem Holds.eq_toList (h : q.Holds items) : items = q.toList.map QueueEntry.item := by
  rw [h.toList_eq, link, map_item_chain]

theorem Holds.list_item (h : q.Holds items) (filter : QueueFilter) :
    (q.list filter).map QueueEntry.item = items.filter fun item =>
      filter.admits item.played := by
  have hfilter : (fun entry : QueueEntry => filter.admits entry.played) =
      (fun item : Item => filter.admits item.played) ∘ QueueEntry.item := rfl
  rw [list, hfilter, ← List.filter_map, ← h.eq_toList]

theorem Holds.unique {other : Queue} (h : q.Holds items) (hother : other.Holds items) :
    q = other := by
  cases q
  cases other
  have hentries := h.sorted.eq_of_perm hother.sorted (h.links.trans hother.links.symm)
  have hhead := h.head.trans hother.head.symm
  have hpointer := h.pointer.trans hother.pointer.symm
  simp_all

end Queue
end Jukebox
