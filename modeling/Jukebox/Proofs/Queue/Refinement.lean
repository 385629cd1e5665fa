import Jukebox.Proofs.Queue.Operations

/-!
# Queues refine playlists

Whatever changes are made to a queue that is empty or was accepted, it stays a well-formed
list, and all its answers can be read off the plain list that went through the same changes. A
change that fails leaves everything as it was, in a queue as in a playlist.
-/

namespace Jukebox
namespace Queue

inductive Change
  | insert (after : Option EntryId) (id : EntryId) (track : TrackId)
  | remove (id : EntryId)
  | take

def change (q : Queue) : Change → Queue
  | .insert after id track =>
    match q.insertAfter after id track with
    | .ok (_, changed) => changed
    | .error _ => q
  | .remove id =>
    match q.remove id with
    | .ok (_, changed) => changed
    | .error _ => q
  | .take =>
    match q.take? with
    | some (_, changed) => changed
    | none => q

def items (q : Queue) : List Item :=
  q.toList.map QueueEntry.item

/-- What can be seen of the outcome of an operation. -/
def seen (outcome : QueueEntry × Queue) : Item × List Item :=
  (outcome.1.item, outcome.2.items)

end Queue

namespace Playlist

def change (items : List Item) : Queue.Change → List Item
  | .insert after id track =>
    match insertAfter items after ⟨id, track, false⟩ with
    | .ok (_, changed) => changed
    | .error _ => items
  | .remove id =>
    match remove items id with
    | .ok (_, changed) => changed
    | .error _ => items
  | .take =>
    match take? items with
    | some (_, changed) => changed
    | none => items

def Refuses (items : List Item) : Queue.Change → Prop
  | .insert after id track =>
      ∃ error, insertAfter items after ⟨id, track, false⟩ = .error error
  | .remove id => ∃ error, remove items id = .error error
  | .take => take? items = none

end Playlist

namespace Queue

open Playlist

/-- A queue that is a well-formed list and behaves as a playlist does. -/
structure Refines (q : Queue) (items : List Item) : Prop where
  valid : q.validate = .ok ()
  walk : q.toList = link items
  insertAfter : ∀ after id track,
    (q.insertAfter after id track).map seen = Playlist.insertAfter items after
    ⟨id, track, false⟩
  remove : ∀ id, (q.remove id).map seen = Playlist.remove items id
  take : q.take?.map seen = Playlist.take? items
  get : ∀ id, q.get? id = find? (link items) id ∧
    (q.get? id).map QueueEntry.item = Playlist.find? items id
  head : q.head?.map QueueEntry.item = items.head?
  next : q.next?.map QueueEntry.item = Playlist.next? items
  list : ∀ filter, (q.list filter).map QueueEntry.item =
    items.filter fun item => QueueFilter.admits filter item.played
  refused : ∀ change, Refuses items change → q.change change = q

variable {q : Queue} {items : List Item}

theorem Holds.items_eq (h : q.Holds items) : q.items = items :=
  h.eq_toList.symm

theorem Matches.map_seen {outcome : Except QueueError (QueueEntry × Queue)}
    {expected : Except QueueError (Item × List Item)} (h : Matches outcome expected) :
    outcome.map seen = expected := by
  match outcome, expected, h with
  | .ok (entry, changed), .ok (item, items), h =>
      simp [Except.map, seen, h.1, h.2.items_eq]
  | .error e, .error e', h =>
      simp only [Matches] at h
      simp [Except.map, h]

theorem Holds.change_holds (h : q.Holds items) (change : Change) :
    (q.change change).Holds (Playlist.change items change) := by
  cases change with
  | insert after id track =>
      have hmatch := h.insertAfter_matches after id track
      simp only [Queue.change, Playlist.change]
      revert hmatch
      cases q.insertAfter after id track <;>
        cases Playlist.insertAfter items after ⟨id, track, false⟩ <;>
        simp only [Matches, false_implies] <;> intro hmatch
      · exact h
      · exact hmatch.2
  | remove id =>
      have hmatch := h.remove_matches id
      simp only [Queue.change, Playlist.change]
      revert hmatch
      cases q.remove id <;> cases Playlist.remove items id <;>
        simp only [Matches, false_implies] <;> intro hmatch
      · exact h
      · exact hmatch.2
  | take =>
      simp only [Queue.change, Playlist.change]
      rcases h.take?_matches with ⟨hq, hitems⟩ | ⟨entry, q', item, items', hq, hitems,
        -, hholds⟩
      · rw [hq, hitems]
        exact h
      · rw [hq, hitems]
        exact hholds

theorem Holds.changes_hold (h : q.Holds items) (changes : List Change) :
    (changes.foldl Queue.change q).Holds (changes.foldl Playlist.change items) := by
  induction changes generalizing q items with
  | nil => exact h
  | cons change rest ih => exact ih (h.change_holds change)

theorem Holds.refused (h : q.Holds items) {change : Change} (hrefuses : Refuses items change) :
    q.change change = q := by
  have hkept : Playlist.change items change = items := by
    cases change with
    | insert after id track =>
        rcases hrefuses with ⟨error, herror⟩
        simp [Playlist.change, herror]
    | remove id =>
        rcases hrefuses with ⟨error, herror⟩
        simp [Playlist.change, herror]
    | take =>
        have hnone : Playlist.take? items = none := hrefuses
        simp [Playlist.change, hnone]
  have hchanged := h.change_holds change
  rw [hkept] at hchanged
  exact hchanged.unique h

theorem Holds.refines (h : q.Holds items) : q.Refines items where
  valid := h.validate_eq
  walk := h.toList_eq
  insertAfter := fun after id track => (h.insertAfter_matches after id track).map_seen
  remove := fun id => (h.remove_matches id).map_seen
  take := by
    rcases h.take?_matches with ⟨hq, hitems⟩ | ⟨entry, q', item, items', hq, hitems,
      rfl, hholds⟩
    · rw [hq, hitems]
      rfl
    · rw [hq, hitems]
      simp [seen, hholds.items_eq]
  get := fun id => ⟨h.get?_eq id, h.get?_item id⟩
  head := h.head?_item
  next := h.next?_item
  list := h.list_item
  refused := fun _ => h.refused

/-- Whether a queue is empty or was rebuilt from stored entries. -/
def IsStart (q : Queue) : Prop :=
  q = empty ∨ ∃ entries pointer, ofEntries entries pointer = .ok q

theorem exists_holds_of_isStart (h : q.IsStart) : ∃ items, q.Holds items := by
  rcases h with rfl | ⟨entries, pointer, hentries⟩
  · exact ⟨[], holds_empty⟩
  · exact exists_holds_of_ofEntries hentries

theorem refines_after_changes {start : Queue} (hstart : start.IsStart)
    (changes : List Change) :
    (changes.foldl Queue.change start).Refines
    (changes.foldl Playlist.change start.items) := by
  rcases exists_holds_of_isStart hstart with ⟨items, hholds⟩
  rw [hholds.items_eq]
  exact (hholds.changes_hold changes).refines

def storedPair : List QueueEntry :=
  [⟨⟨"b"⟩, ⟨"t"⟩, false, some ⟨"a"⟩, none⟩, ⟨⟨"a"⟩, ⟨"s"⟩, true, none, some ⟨"b"⟩⟩]

theorem refines_after_changes_storedPair :
    IsStart ⟨storedPair.reverse, some ⟨"a"⟩, some ⟨"b"⟩⟩ ∧
      Refines ⟨[⟨⟨"a"⟩, ⟨"s"⟩, true, none, some ⟨"c"⟩⟩,
        ⟨⟨"c"⟩, ⟨"t"⟩, false, some ⟨"a"⟩, none⟩],
          some ⟨"a"⟩, some ⟨"c"⟩⟩
        [⟨⟨"a"⟩, ⟨"s"⟩, true⟩, ⟨⟨"c"⟩, ⟨"t"⟩, false⟩] := by
  have hstart : IsStart ⟨storedPair.reverse, some ⟨"a"⟩, some ⟨"b"⟩⟩ :=
    Or.inr ⟨storedPair, some ⟨"b"⟩, by decide +kernel⟩
  refine ⟨hstart, ?_⟩
  -- A new entry goes to the played border, one cannot go in front, and the old entry goes
  -- away.
  exact refines_after_changes hstart
    [.insert (some ⟨"a"⟩) ⟨"c"⟩ ⟨"t"⟩, .insert none ⟨"d"⟩ ⟨"t"⟩, .remove ⟨"b"⟩]

end Queue
end Jukebox
