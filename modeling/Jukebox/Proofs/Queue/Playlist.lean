import Jukebox.Queue.Basic
import Jukebox.Proofs.Keyed

/-!
# Playlists

What a queue means, without its links: a plain list of items. This module says what adding,
removing and taking do to such a list. An item can be added behind another one or in front,
unless a played item would follow it; items that were played stay; and the item taken is the
first unplayed one.
-/

namespace Jukebox

/-- What a walk through a queue sees of an entry. -/
structure Item where
  id : EntryId
  track : TrackId
  played : Bool
  deriving DecidableEq

def QueueEntry.item (entry : QueueEntry) : Item :=
  ⟨entry.id, entry.track, entry.played⟩

namespace Item

def play (item : Item) : Item :=
  { item with played := true }

end Item

namespace Playlist

def ids (items : List Item) : List EntryId :=
  items.map Item.id

def firstId? (items : List Item) : Option EntryId :=
  items.head?.map Item.id

def lastId? (items : List Item) : Option EntryId :=
  items.getLast?.map Item.id

def find? (items : List Item) (id : EntryId) : Option Item :=
  items.find? fun item => item.id = id

def next? (items : List Item) : Option Item :=
  items.find? fun item => !item.played

def nextId? (items : List Item) : Option EntryId :=
  (next? items).map Item.id

def PlayedFirst (items : List Item) : Prop :=
  items.Pairwise fun earlier later => later.played = true → earlier.played = true

/-!
## Operations
-/

def follower? (items : List Item) : Option EntryId → Option Item
  | none => items.head?
  | some after => (items.dropWhile fun item => item.id ≠ after).tail.head?

def place (new : Item) : Option EntryId → List Item → List Item
  | none, items => new :: items
  | some _, [] => []
  | some after, item :: rest =>
    if item.id = after then item :: new :: rest else item :: place new (some after) rest

/-- Adds a new item; a played item must not follow it. -/
def insertAfter (items : List Item) (after : Option EntryId) (new : Item) :
    Except QueueError (Item × List Item) :=
  if new.id ∈ ids items then .error (.duplicateEntry new.id)
  else
    match after.filter fun anchor => anchor ∉ ids items with
    | some anchor => .error (.entryNotFound anchor)
    | none =>
      match (follower? items after).filter Item.played with
      | some next => .error (.insertBeforePlayed next.id)
      | none => .ok (new, place new after items)

/-- Removes an item that was not played. -/
def remove (items : List Item) (id : EntryId) : Except QueueError (Item × List Item) :=
  match find? items id with
  | none => .error (.entryNotFound id)
  | some item =>
    if item.played then .error (.removePlayed id)
    else .ok (item, items.filter fun other => other.id ≠ id)

/-- Plays the first unplayed item; none when everything was played. -/
def take? : List Item → Option (Item × List Item)
  | [] => none
  | item :: rest =>
    if item.played then (take? rest).map fun taken => (taken.1, item :: taken.2)
    else some (item.play, item.play :: rest)

/-!
## Lists cut in two
-/

variable {items front back : List Item} {id : EntryId}

@[simp]
theorem ids_nil : ids [] = [] :=
  rfl

@[simp]
theorem length_ids : (ids items).length = items.length := by
  simp [ids]

@[simp]
theorem ids_append : ids (front ++ back) = ids front ++ ids back := by
  simp [ids]

@[simp]
theorem ids_cons {item : Item} : ids (item :: back) = item.id :: ids back := by
  simp [ids]

theorem lastId?_mem (h : lastId? front = some id) : id ∈ ids front := by
  rcases Option.map_eq_some_iff.mp h with ⟨item, hitem, rfl⟩
  exact List.mem_map_of_mem (List.mem_of_getLast? hitem)

theorem firstId?_mem (h : firstId? back = some id) : id ∈ ids back := by
  rcases Option.map_eq_some_iff.mp h with ⟨item, hitem, rfl⟩
  exact List.mem_map_of_mem (List.mem_of_head? hitem)

@[simp]
theorem lastId?_eq_none : lastId? front = none ↔ front = [] := by
  simp [lastId?]

/-- Every place for a new item cuts the list in two; the anchor is the last item of the first
part. -/
theorem exists_cut {after : Option EntryId} (h : ∀ anchor, after = some anchor →
    anchor ∈ ids items) : ∃ front back, items = front ++ back ∧ lastId? front = after := by
  cases after with
  | none => exact ⟨[], items, rfl, rfl⟩
  | some anchor =>
      rcases List.mem_map.mp (h anchor rfl) with ⟨item, hitem, rfl⟩
      rcases List.append_of_mem hitem with ⟨before, back, rfl⟩
      exact ⟨before ++ [item], back, by simp, by simp [lastId?]⟩

theorem nodup_cut (hnodup : (ids (front ++ back)).Nodup) :
    (ids front).Nodup ∧ (ids back).Nodup ∧ ∀ id ∈ ids front, id ∉ ids back := by
  rw [ids_append, List.nodup_append] at hnodup
  exact ⟨hnodup.1, hnodup.2.1, fun id hfront hback => hnodup.2.2 id hfront id hback rfl⟩

theorem follower?_cut (hnodup : (ids (front ++ back)).Nodup) :
    follower? (front ++ back) (lastId? front) = back.head? := by
  rcases List.eq_nil_or_concat front with rfl | ⟨before, anchor, rfl⟩
  · rfl
  · have hbefore : ∀ item ∈ before, item.id ≠ anchor.id := by
      intro item hitem heq
      have hfront := (nodup_cut hnodup).1
      rw [List.concat_eq_append, ids_append, List.nodup_append] at hfront
      exact hfront.2.2 item.id (List.mem_map_of_mem hitem) anchor.id (by simp) heq
    have hlast : lastId? (before.concat anchor) = some anchor.id := by simp [lastId?]
    rw [hlast, follower?, List.concat_eq_append, List.append_assoc,
      List.dropWhile_append_of_pos (by simpa using hbefore)]
    simp

theorem place_cut (hnodup : (ids (front ++ back)).Nodup) (new : Item) :
    place new (lastId? front) (front ++ back) = front ++ new :: back := by
  rcases List.eq_nil_or_concat front with rfl | ⟨before, anchor, rfl⟩
  · simp [lastId?, place]
  · simp only [lastId?, List.concat_eq_append, List.getLast?_append, List.getLast?_singleton,
      Option.some_or, Option.map_some]
    induction before with
    | nil => simp [place]
    | cons first rest ih =>
        have hrest : (ids (rest.concat anchor ++ back)).Nodup := by
          have := hnodup
          simp only [List.concat_eq_append, List.cons_append, ids_cons, List.nodup_cons]
            at this
          simpa using this.2
        have hfirst : first.id ≠ anchor.id := by
          intro heq
          simp [heq] at hnodup
        simp only [List.cons_append, place, if_neg hfirst]
        rw [ih hrest]

theorem take?_cut {item : Item} (hfront : ∀ other ∈ front, other.played = true)
    (hitem : item.played = false) :
    take? (front ++ item :: back) = some (item.play, front ++ item.play :: back) := by
  induction front with
  | nil => simp [take?, hitem]
  | cons first rest ih =>
      rw [List.cons_append, take?, if_pos (hfront first (by simp)),
        ih fun other hother => hfront other (by simp [hother])]
      rfl

theorem take?_eq_none (h : ∀ item ∈ items, item.played = true) : take? items = none := by
  induction items with
  | nil => rfl
  | cons first rest ih =>
      rw [take?, if_pos (h first (by simp)), ih fun item hitem => h item (by simp [hitem])]
      rfl

/-!
## The first unplayed item
-/

theorem played_or_cut (items : List Item) :
    (∀ item ∈ items, item.played = true) ∨
      ∃ front item back, items = front ++ item :: back ∧
        (∀ other ∈ front, other.played = true) ∧ item.played = false := by
  induction items with
  | nil => simp
  | cons first rest ih =>
      cases hfirst : first.played with
      | false => exact Or.inr ⟨[], first, rest, rfl, by simp, hfirst⟩
      | true =>
          rcases ih with hrest | ⟨front, item, back, rfl, hfront, hitem⟩
          · exact Or.inl (by simpa [hfirst] using hrest)
          · exact Or.inr
              ⟨first :: front, item, back, rfl, by simpa [hfirst] using hfront, hitem⟩

theorem next?_eq_none_iff : next? items = none ↔ ∀ item ∈ items, item.played = true := by
  simp [next?, List.find?_eq_none]

theorem next?_eq_none (h : ∀ item ∈ items, item.played = true) : next? items = none :=
  next?_eq_none_iff.mpr h

theorem next?_cut {item : Item} (hfront : ∀ other ∈ front, other.played = true)
    (hitem : item.played = false) : next? (front ++ item :: back) = some item := by
  have hnone : front.find? (fun other => !other.played) = none := next?_eq_none hfront
  simp [next?, List.find?_append, hnone, hitem]

theorem next?_append : next? (front ++ back) = (next? front).or (next? back) := by
  simp [next?, List.find?_append]

theorem next?_cons {item : Item} (hitem : item.played = false) :
    next? (item :: back) = some item := by
  simp [next?, hitem]

theorem mem_of_next? {item : Item} (h : next? items = some item) :
    item ∈ items ∧ item.played = false :=
  ⟨List.mem_of_find?_eq_some h, by simpa using List.find?_some h⟩

theorem PlayedFirst.unplayed_behind {item : Item} (h : PlayedFirst (front ++ item :: back))
    (hitem : item.played = false) : ∀ other ∈ back, other.played = false := by
  intro other hother
  have hback := (List.pairwise_cons.mp (List.pairwise_append.mp h).2.1).1 other hother
  cases hplayed : other.played with
  | false => rfl
  | true => simp [hback hplayed] at hitem

theorem PlayedFirst.played_before (h : PlayedFirst (front ++ back)) {other item : Item}
    (hitem : item ∈ back) (hplayed : item.played = true) (hother : other ∈ front) :
    other.played = true :=
  (List.pairwise_append.mp h).2.2 other hother item hitem hplayed

theorem next?_of_unplayed (h : ∀ item ∈ items, item.played = false) :
    next? items = items.head? := by
  cases items with
  | nil => rfl
  | cons first rest => simp [next?, h first (by simp)]

/-!
## What operations keep
-/

theorem playedFirst_insert {new : Item} (h : PlayedFirst (front ++ back))
    (hnew : new.played = false) (hback : ∀ next, back.head? = some next →
      next.played = false) :
    PlayedFirst (front ++ new :: back) := by
  have hunplayed : ∀ item ∈ back, item.played = false := by
    cases back with
    | nil => simp
    | cons next rest =>
        intro item hitem
        rcases List.mem_cons.mp hitem with rfl | hrest
        · exact hback item rfl
        · exact h.unplayed_behind (hback next rfl) item hrest
  rcases List.pairwise_append.mp h with ⟨hfront, hrest, hcross⟩
  refine List.pairwise_append.mpr ⟨hfront, List.pairwise_cons.mpr ⟨?_, hrest⟩, ?_⟩
  · intro item hitem hplayed
    simp [hunplayed item hitem] at hplayed
  · intro earlier hearlier item hitem hplayed
    rcases List.mem_cons.mp hitem with rfl | hitem
    · simp [hnew] at hplayed
    · exact hcross earlier hearlier item hitem hplayed

theorem playedFirst_remove {item : Item} (h : PlayedFirst (front ++ item :: back)) :
    PlayedFirst (front ++ back) :=
  h.sublist ((List.sublist_cons_self item back).append_left front)

theorem playedFirst_play {item : Item} (h : PlayedFirst (front ++ item :: back))
    (hfront : ∀ other ∈ front, other.played = true) :
    PlayedFirst (front ++ item.play :: back) := by
  rcases List.pairwise_append.mp h with ⟨hbefore, hrest, -⟩
  rw [List.pairwise_cons] at hrest
  refine List.pairwise_append.mpr ⟨hbefore, List.pairwise_cons.mpr ⟨?_, hrest.2⟩, ?_⟩
  · exact fun other _ _ => rfl
  · exact fun other hother _ _ _ => hfront other hother

theorem nodup_insert {new : Item} (h : (ids (front ++ back)).Nodup)
    (hnew : new.id ∉ ids (front ++ back)) : (ids (front ++ new :: back)).Nodup := by
  have hperm : (ids (front ++ new :: back)).Perm (new.id :: ids (front ++ back)) :=
    List.perm_middle.map Item.id
  rw [hperm.nodup_iff, List.nodup_cons]
  exact ⟨hnew, h⟩

theorem nodup_remove {item : Item} (h : (ids (front ++ item :: back)).Nodup) :
    (ids (front ++ back)).Nodup :=
  h.sublist (((List.sublist_cons_self item back).append_left front).map Item.id)

@[simp]
theorem ids_play {item : Item} :
    ids (front ++ item.play :: back) = ids (front ++ item :: back) := by
  simp [Item.play]

/-!
## Where the pointer goes
-/

theorem nextId?_insert {new : Item} (hnodup : (ids (front ++ back)).Nodup)
    (hnew : new.played = false) (hback : ∀ next, back.head? = some next →
      next.played = false) :
    nextId? (front ++ new :: back) =
      if nextId? (front ++ back) = none ∨
      nextId? (front ++ back) = firstId? back then some new.id
      else nextId? (front ++ back) := by
  cases hfront : next? front with
  | none =>
      have hfirst : nextId? (front ++ back) = firstId? back := by
        cases back with
        | nil => simp [nextId?, hfront, firstId?]
        | cons next rest =>
            simp [nextId?, next?_append, hfront, next?_cons (hback next rfl), firstId?]
      rw [if_pos (Or.inr hfirst)]
      simp [nextId?, next?_append, hfront, next?_cons hnew]
  | some item =>
      have hnext : ∀ others, nextId? (front ++ others) = some item.id := by
        simp [nextId?, next?_append, hfront]
      have hmem : item.id ∈ ids front := List.mem_map_of_mem (mem_of_next? hfront).1
      have hfirst : some item.id ≠ firstId? back := fun heq =>
        (nodup_cut hnodup).2.2 item.id hmem (firstId?_mem heq.symm)
      simp [hnext, hfirst]

theorem nextId?_remove {item : Item} (hnodup : (ids (front ++ item :: back)).Nodup)
    (hplayedFirst : PlayedFirst (front ++ item :: back)) (hitem : item.played = false) :
    nextId? (front ++ back) =
      if nextId? (front ++ item :: back) = some item.id then firstId? back
      else nextId? (front ++ item :: back) := by
  cases hfront : next? front with
  | none =>
      have hback : next? back = back.head? :=
        next?_of_unplayed (hplayedFirst.unplayed_behind hitem)
      have hnext : nextId? (front ++ item :: back) = some item.id := by
        simp [nextId?, next?_append, hfront, next?_cons hitem]
      rw [if_pos hnext]
      simp [nextId?, next?_append, hfront, hback, firstId?]
  | some other =>
      have hnext : ∀ others, nextId? (front ++ others) = some other.id := by
        simp [nextId?, next?_append, hfront]
      have hmem : other.id ∈ ids front := List.mem_map_of_mem (mem_of_next? hfront).1
      have hne : other.id ≠ item.id := fun heq =>
        (nodup_cut hnodup).2.2 other.id hmem (by simp [heq])
      simp [hnext, hne]

theorem nextId?_play {item : Item} (hplayedFirst : PlayedFirst (front ++ item :: back))
    (hfront : ∀ other ∈ front, other.played = true) (hitem : item.played = false) :
    nextId? (front ++ item.play :: back) = firstId? back := by
  have hback : next? back = back.head? :=
    next?_of_unplayed (hplayedFirst.unplayed_behind hitem)
  have hplayed : next? [item.play] = none := rfl
  rw [← List.singleton_append, nextId?, next?_append, next?_append, next?_eq_none hfront,
    hplayed, hback]
  simp [firstId?]

theorem nextId?_cut {item : Item} (hfront : ∀ other ∈ front, other.played = true)
    (hitem : item.played = false) : nextId? (front ++ item :: back) = some item.id := by
  rw [nextId?, next?_cut hfront hitem]
  rfl

/-!
## How operations end
-/

/-- The ways in which adding an item ends; where it goes through, the list is cut in two. -/
inductive Insertion (items : List Item) (after : Option EntryId) (new : Item) :
    Except QueueError (Item × List Item) → Prop
  | duplicate (hnew : new.id ∈ ids items) :
    Insertion items after new (.error (.duplicateEntry new.id))
  | missing (hnew : new.id ∉ ids items) (anchor : EntryId) (hafter : after = some anchor)
    (hanchor : anchor ∉ ids items) : Insertion items after new (.error (.entryNotFound anchor))
  | barred (hnew : new.id ∉ ids items) (front : List Item) (next : Item) (rest : List Item)
    (hcut : items = front ++ next :: rest) (hafter : lastId? front = after)
    (hplayed : next.played = true) :
    Insertion items after new (.error (.insertBeforePlayed next.id))
  | placed (hnew : new.id ∉ ids items) (front back : List Item) (hcut : items = front ++ back)
    (hafter : lastId? front = after) (hback : ∀ next, back.head? = some next →
      next.played = false) :
    Insertion items after new (.ok (new, front ++ new :: back))

theorem insertion (hnodup : (ids items).Nodup) (after : Option EntryId) (new : Item) :
    Insertion items after new (insertAfter items after new) := by
  unfold insertAfter
  split
  · next hnew => exact .duplicate hnew
  · next hnew =>
    split
    · next anchor hmissing =>
      rcases Option.filter_eq_some_iff.mp hmissing with ⟨hafter, hanchor⟩
      exact .missing hnew anchor hafter (by simpa using hanchor)
    · next hpresent =>
      have hafter : ∀ anchor, after = some anchor → anchor ∈ ids items := by
        intro anchor hanchor
        simpa [hanchor] using hpresent
      rcases exists_cut hafter with ⟨front, back, rfl, rfl⟩
      rw [follower?_cut hnodup, place_cut hnodup]
      split
      · next next hfollower =>
        rcases Option.filter_eq_some_iff.mp hfollower with ⟨hnext, hplayed⟩
        rcases List.head?_eq_some_iff.mp hnext with ⟨rest, rfl⟩
        exact .barred hnew front next rest rfl rfl hplayed
      · next hfollower =>
        refine .placed hnew front back rfl rfl ?_
        intro next hnext
        simpa [hnext] using hfollower

inductive Removal (items : List Item) (id : EntryId) :
    Except QueueError (Item × List Item) → Prop
  | missing (hid : id ∉ ids items) : Removal items id (.error (.entryNotFound id))
  | barred (front : List Item) (item : Item) (back : List Item)
      (hcut : items = front ++ item :: back)
    (hid : item.id = id) (hplayed : item.played = true) : Removal items id
      (.error (.removePlayed id))
  | removed (front : List Item) (item : Item) (back : List Item)
    (hcut : items = front ++ item :: back) (hid : item.id = id)
    (hplayed : item.played = false) : Removal items id (.ok (item, front ++ back))

theorem filter_cut {item : Item} (hnodup : (ids (front ++ item :: back)).Nodup) :
    (front ++ item :: back).filter (fun other => other.id ≠ item.id) = front ++ back := by
  rcases nodup_cut hnodup with ⟨-, hrest, hdisjoint⟩
  rw [ids_cons, List.nodup_cons] at hrest
  have hfront : ∀ other ∈ front, other.id ≠ item.id := fun other hother heq =>
    hdisjoint other.id (List.mem_map_of_mem hother) (by simp [heq])
  have hback : ∀ other ∈ back, other.id ≠ item.id := fun other hother heq =>
    hrest.1 (heq ▸ List.mem_map_of_mem hother)
  rw [List.filter_append, List.filter_cons_of_neg (by simp),
    List.filter_eq_self.mpr (by simpa using hfront), List.filter_eq_self.mpr
      (by simpa using hback)]

theorem removal (hnodup : (ids items).Nodup) (id : EntryId) :
    Removal items id (remove items id) := by
  unfold remove
  split
  · next hfind => exact .missing (Keyed.find?_eq_none_iff.mp hfind)
  · next item hfind =>
    rcases Keyed.mem_of_find? hfind with ⟨hmem, rfl⟩
    rcases List.append_of_mem hmem with ⟨front, back, rfl⟩
    split
    · next hplayed => exact .barred front item back rfl rfl hplayed
    · next hplayed =>
      rw [filter_cut hnodup]
      exact .removed front item back rfl rfl (by simpa using hplayed)

end Playlist
end Jukebox
