import Jukebox.Proofs.Queue.Check

/-!
# Operations of queues

Every operation of a queue does to its playlist what the operation of the same name does to a
plain list, and fails exactly when that one fails.
-/

namespace Jukebox
namespace Queue

open Playlist

variable {q : Queue} {items front back : List Item}

/-- Whether the outcome of a queue operation is that of a list operation. -/
def Matches : Except QueueError (QueueEntry × Queue) →
    Except QueueError (Item × List Item) → Prop
  | .ok (entry, q), .ok (item, items) => entry.item = item ∧ q.Holds items
  | .error e, .error e' => e = e'
  | _, _ => False

theorem Matches.eq_error {outcome : Except QueueError (QueueEntry × Queue)}
    {error : QueueError} (h : Matches outcome (.error error)) : outcome = .error error := by
  cases outcome with
  | ok changed => cases h
  | error other => exact congrArg _ h

theorem Matches.exists_ok {outcome : Except QueueError (QueueEntry × Queue)} {item : Item}
    (h : Matches outcome (.ok (item, items))) :
    ∃ entry changed, outcome = .ok (entry, changed) ∧ entry.item = item ∧
    changed.Holds items := by
  cases outcome with
  | ok changed => exact ⟨changed.1, changed.2, rfl, h⟩
  | error other => cases h

/-!
## Adding
-/

theorem Holds.get?_last (h : q.Holds (front ++ back)) {anchor : EntryId}
    (hanchor : lastId? front = some anchor) :
    ∃ entry, q.get? anchor = some entry ∧ entry.next = firstId? back := by
  rcases List.eq_nil_or_concat front with rfl | ⟨before, last, rfl⟩
  · cases hanchor
  · have hlast : last.id = anchor := by simpa [lastId?] using hanchor
    subst hlast
    rw [List.concat_eq_append, List.append_assoc, List.singleton_append] at h
    exact ⟨_, h.get?_cut, rfl⟩

theorem Holds.insertBefore_eq (h : q.Holds (front ++ back)) (id : EntryId) (track : TrackId) :
    insertAfter.insertBefore q (lastId? front) id track (firstId? back) =
      match back.head?.filter Item.played with
      | some next => .error (.insertBeforePlayed next.id)
      | none =>
        .ok (⟨id, track, false, lastId? front, firstId? back⟩,
          { entries := place ⟨id, track, false, lastId? front, firstId? back⟩
              (modify (firstId? back) (setPrevious (some id))
                (modify (lastId? front) (setNext (some id)) q.entries))
            head := if lastId? front = none then some id else q.head
            pointer := if q.pointer = none ∨
              q.pointer = firstId? back then some id else q.pointer }) := by
  cases back with
  | nil => rfl
  | cons next rest =>
      have hentry := h.get?_cut
      cases hplayed : next.played <;>
        simp [insertAfter.insertBefore, hentry, Option.filter, hplayed]

theorem Holds.insertAfter_eq (h : q.Holds (front ++ back)) {id : EntryId}
    (hid : id ∉ ids (front ++ back)) (track : TrackId) :
    q.insertAfter (lastId? front) id track =
      insertAfter.insertBefore q (lastId? front) id track (firstId? back) := by
  have hfree : ¬(q.get? id).isSome := by rwa [h.get?_isSome]
  cases hanchor : lastId? front with
  | none =>
      have hfront : front = [] := lastId?_eq_none.mp hanchor
      subst hfront
      rw [insertAfter, if_neg hfree]
      simp [h.head]
  | some anchor =>
      rcases h.get?_last hanchor with ⟨entry, hentry, hnext⟩
      rw [insertAfter, if_neg hfree]
      simp [hentry, hnext]

theorem Holds.insert (h : q.Holds (front ++ back)) {new : Item}
    (hnew : new.id ∉ ids (front ++ back)) (hunplayed : new.played = false)
    (hback : ∀ next, back.head? = some next → next.played = false) :
    Holds
      { entries := place ⟨new.id, new.track, new.played, lastId? front, firstId? back⟩
          (modify (firstId? back) (setPrevious (some new.id))
            (modify (lastId? front) (setNext (some new.id)) q.entries))
        head := if lastId? front = none then some new.id else q.head
        pointer :=
          if q.pointer = none ∨ q.pointer = firstId? back then some new.id else q.pointer }
      (front ++ new :: back) where
  sorted := by
    have hsorted : Sorted (modify (firstId? back) (setPrevious (some new.id))
        (modify (lastId? front) (setNext (some new.id)) q.entries)) :=
      (h.sorted.modify (keepsId_setNext _) _).modify (keepsId_setPrevious _) _
    refine hsorted.place ?_
    rw [map_id_modify (keepsId_setPrevious _), map_id_modify (keepsId_setNext _),
      (h.links.map QueueEntry.id).mem_iff]
    simpa [link] using hnew
  links := (place_perm _ _).trans (link_insert h.links h.nodup new)
  head := by
    cases front with
    | nil => rfl
    | cons first rest => simp [h.head, firstId?]
  pointer := by
    rw [nextId?_insert h.nodup hunplayed hback, h.pointer]
  nodup := nodup_insert h.nodup hnew
  playedFirst := playedFirst_insert h.playedFirst hunplayed hback

theorem Holds.insertAfter_matches (h : q.Holds items) (after : Option EntryId) (id : EntryId)
    (track : TrackId) :
    Matches (q.insertAfter after id track)
      (Playlist.insertAfter items after ⟨id, track, false⟩) := by
  have hend := insertion h.nodup after ⟨id, track, false⟩
  generalize Playlist.insertAfter items after ⟨id, track, false⟩ = outcome at hend
  cases hend with
  | duplicate hid =>
      rw [insertAfter, if_pos ((h.get?_isSome id).mpr hid)]
      rfl
  | missing hid anchor hafter hanchor =>
      subst hafter
      have hnone := h.get?_eq_none_iff.mpr hanchor
      rw [insertAfter, if_neg (by rwa [h.get?_isSome])]
      simp [hnone, Matches]
  | barred hid front next rest hcut hafter hplayed =>
      subst hcut hafter
      rw [h.insertAfter_eq hid, h.insertBefore_eq]
      simp [Option.filter, hplayed, Matches]
  | placed hid front back hcut hafter hback =>
      subst hcut hafter
      have hnone : back.head?.filter Item.played = none := by
        cases hhead : back.head? with
        | none => rfl
        | some next => simp [Option.filter, hback next hhead]
      rw [h.insertAfter_eq hid, h.insertBefore_eq, hnone]
      let new : Item := ⟨id, track, false⟩
      have hnew : new.id ∉ ids (front ++ back) := hid
      exact ⟨rfl, h.insert hnew rfl hback⟩

/-!
## Removing
-/

theorem Holds.delete {item : Item} (h : q.Holds (front ++ item :: back))
    (hitem : item.played = false) : Holds
      { entries := modify (firstId? back) (setPrevious (lastId? front))
          (modify (lastId? front) (setNext (firstId? back))
            (q.entries.filter fun other => other.id ≠ item.id))
        head := if lastId? front = none then firstId? back else q.head
        pointer := if q.pointer = some item.id then firstId? back else q.pointer }
      (front ++ back) where
  sorted :=
    ((h.sorted.filter _).modify (keepsId_setNext _) _).modify (keepsId_setPrevious _) _
  links := link_remove h.links h.nodup
  head := by
    cases front with
    | nil => rfl
    | cons first rest => simp [h.head, firstId?]
  pointer := by
    rw [nextId?_remove h.nodup h.playedFirst hitem, h.pointer]
  nodup := nodup_remove h.nodup
  playedFirst := playedFirst_remove h.playedFirst

theorem Holds.remove_matches (h : q.Holds items) (id : EntryId) :
    Matches (q.remove id) (Playlist.remove items id) := by
  have hend := removal h.nodup id
  generalize Playlist.remove items id = outcome at hend
  cases hend with
  | missing hid =>
      rw [remove, h.get?_eq_none_iff.mpr hid]
      rfl
  | barred front item back hcut hid hplayed =>
      subst hcut hid
      rw [remove, h.get?_cut]
      simp [hplayed, Matches]
  | removed front item back hcut hid hplayed =>
      subst hcut hid
      rw [remove, h.get?_cut]
      simp only [hplayed, Bool.false_eq_true, if_false]
      exact ⟨by simp [QueueEntry.item, ← hplayed], h.delete hplayed⟩

/-!
## Taking
-/

theorem Holds.play {item : Item} (h : q.Holds (front ++ item :: back))
    (hfront : ∀ other ∈ front, other.played = true) (hitem : item.played = false) :
    Holds
      { q with
        entries := modify (some item.id) (fun entry => { entry with played := true }) q.entries
        pointer := firstId? back }
      (front ++ item.play :: back) where
  sorted := h.sorted.modify keepsId_play _
  links := link_play h.links h.nodup
  head := by
    cases front with
    | nil => simp [h.head, Item.play]
    | cons first rest => simp [h.head]
  pointer := (nextId?_play h.playedFirst hfront hitem).symm
  nodup := by
    rw [ids_play]
    exact h.nodup
  playedFirst := playedFirst_play h.playedFirst hfront

theorem Holds.next?_cut {item : Item} (h : q.Holds (front ++ item :: back))
    (hfront : ∀ other ∈ front, other.played = true) (hitem : item.played = false) :
    q.next? = some ⟨item.id, item.track, item.played, lastId? front, firstId? back⟩ := by
  rw [next?, h.pointer, nextId?_cut hfront hitem]
  exact h.get?_cut

theorem Holds.take?_cut {item : Item} (h : q.Holds (front ++ item :: back))
    (hfront : ∀ other ∈ front, other.played = true) (hitem : item.played = false) :
    ∃ left, q.take? = some (⟨item.id, item.track, true, lastId? front, firstId? back⟩, left) ∧
      left.Holds (front ++ item.play :: back) := by
  refine ⟨_, ?_, h.play hfront hitem⟩
  rw [take?, h.next?_cut hfront hitem]
  rfl

theorem Holds.take?_matches (h : q.Holds items) :
    (q.take? = none ∧ Playlist.take? items = none) ∨
      ∃ entry q' item items', q.take? = some (entry, q') ∧
        Playlist.take? items = some (item, items') ∧ entry.item = item ∧ q'.Holds items' := by
  rcases played_or_cut items with hplayed | ⟨front, item, back, rfl, hfront, hitem⟩
  · refine Or.inl ⟨?_, Playlist.take?_eq_none hplayed⟩
    have hpointer : q.pointer = none := by
      rw [h.pointer, nextId?, next?_eq_none hplayed]
      rfl
    simp [take?, next?, hpointer]
  · rcases h.take?_cut hfront hitem with ⟨left, htake, hleft⟩
    exact Or.inr ⟨_, left, item.play, _, htake, Playlist.take?_cut hfront hitem, rfl, hleft⟩

end Queue
end Jukebox
