import Jukebox.Proofs.Queue.Playlist

/-!
# Linked items

How the items of a playlist are linked to each other. A piece of a chain is determined by its
items and by what it hangs on at both ends, so a chain can be cut anywhere. Adding and removing
then come down to changing one link at the end of the first piece and one at the start of the
second.
-/

namespace Jukebox
namespace Queue

open Playlist

/-- The entries of a piece of a chain that hangs between two identifiers. -/
def chain (previous : Option EntryId) : List Item → Option EntryId → List QueueEntry
  | [], _ => []
  | item :: rest, next =>
    ⟨item.id, item.track, item.played, previous, (firstId? rest).or next⟩ ::
      chain (some item.id) rest next

def link (items : List Item) : List QueueEntry :=
  chain none items none

variable {items front back : List Item} {previous next : Option EntryId} {id : EntryId}

@[simp]
theorem firstId?_append : firstId? (front ++ back) = (firstId? front).or (firstId? back) := by
  simp [firstId?, Option.map_or]

@[simp]
theorem lastId?_append : lastId? (front ++ back) = (lastId? back).or (lastId? front) := by
  simp [lastId?, Option.map_or]

@[simp]
theorem lastId?_cons (item : Item) :
    lastId? (item :: back) = (lastId? back).or (some item.id) := by
  rw [← List.singleton_append, lastId?_append]
  rfl

@[simp]
theorem firstId?_cons (item : Item) : firstId? (item :: back) = some item.id :=
  rfl

theorem chain_append :
    chain previous (front ++ back) next =
      chain previous front ((firstId? back).or next) ++
        chain ((lastId? front).or previous) back next := by
  induction front generalizing previous with
  | nil => rfl
  | cons first rest ih =>
      simp only [List.cons_append, chain, ih, firstId?_append, lastId?_cons, Option.or_assoc,
        Option.some_or]

@[simp]
theorem map_item_chain : (chain previous items next).map QueueEntry.item = items := by
  induction items generalizing previous with
  | nil => rfl
  | cons first rest ih => simp [chain, ih, QueueEntry.item]

@[simp]
theorem map_id_chain : (chain previous items next).map QueueEntry.id = ids items := by
  induction items generalizing previous with
  | nil => rfl
  | cons first rest ih => simp [chain, ih]

@[simp]
theorem length_chain : (chain previous items next).length = items.length := by
  rw [← List.length_map (f := QueueEntry.item), map_item_chain]

/-!
## Changing links
-/

@[simp]
theorem modify_none (change : QueueEntry → QueueEntry) (entries : List QueueEntry) :
    modify none change entries = entries := by
  simp [modify]

theorem modify_append (change : QueueEntry → QueueEntry) (xs ys : List QueueEntry) :
    modify next change (xs ++ ys) = modify next change xs ++ modify next change ys := by
  simp [modify]

theorem modify_some (change : QueueEntry → QueueEntry) (entries : List QueueEntry) :
    modify (some id) change entries = Keyed.update QueueEntry.id id change entries := by
  simp [modify, Keyed.update]

theorem modify_chain_of_notMem {target : Option EntryId} {change : QueueEntry → QueueEntry}
    (h : ∀ id, target = some id → id ∉ ids items) :
    modify target change (chain previous items next) = chain previous items next := by
  cases target with
  | none => simp
  | some id =>
      rw [modify_some, Keyed.update_of_notMem]
      simpa using h id rfl

theorem modify_last (hnodup : (ids items).Nodup) (new : Option EntryId) :
    modify (lastId? items) (setNext new) (chain previous items next) =
      chain previous items new := by
  rcases List.eq_nil_or_concat items with rfl | ⟨before, last, rfl⟩
  · rfl
  · rw [List.concat_eq_append] at hnodup ⊢
    have hbefore : last.id ∉ ids before := fun hmem =>
      (nodup_cut hnodup).2.2 last.id hmem (by simp)
    rw [chain_append, modify_append, modify_chain_of_notMem, chain_append]
    · simp [chain, lastId?, modify, setNext, firstId?]
    · intro id hid
      simp only [lastId?_append, lastId?_cons] at hid
      cases hid
      exact hbefore

theorem modify_first (hnodup : (ids items).Nodup) (new : Option EntryId) :
    modify (firstId? items) (setPrevious new) (chain previous items next) =
      chain new items next := by
  cases items with
  | nil => rfl
  | cons first rest =>
      rw [ids_cons, List.nodup_cons] at hnodup
      have hrest : modify (some first.id) (setPrevious new) (chain (some first.id) rest next) =
          chain (some first.id) rest next :=
        modify_chain_of_notMem fun id hid => Option.some.inj hid ▸ hnodup.1
      simp only [firstId?_cons, chain]
      rw [← List.singleton_append, modify_append, hrest]
      simp [modify, setPrevious]

theorem modify_perm {xs ys : List QueueEntry} (h : xs.Perm ys) (target : Option EntryId)
    (change : QueueEntry → QueueEntry) :
    (modify target change xs).Perm (modify target change ys) :=
  h.map _

/-!
## Adding and removing
-/

theorem link_append :
    link (front ++ back) = chain none front (firstId? back) ++ chain
      (lastId? front) back none := by
  simp [link, chain_append]

theorem link_cut (item : Item) :
    link (front ++ item :: back) =
      chain none front (some item.id) ++
        ⟨item.id, item.track, item.played, lastId? front, firstId? back⟩ ::
          chain (some item.id) back none := by
  simp [link_append, chain]

/-- Two pieces get other links where they meet. -/
theorem relink_cut {entries : List QueueEntry} {before after : Option EntryId}
    (hentries : entries.Perm (chain none front after ++ chain before back none))
    (hfront : (ids front).Nodup) (hback : (ids back).Nodup)
    (hdisjoint : ∀ id ∈ ids front, id ∉ ids back) (following preceding : Option EntryId) :
    (modify (firstId? back) (setPrevious preceding)
      (modify (lastId? front) (setNext following) entries)).Perm
      (chain none front following ++ chain preceding back none) := by
  have hlast : modify (lastId? front) (setNext following)
      (chain none front after ++ chain before back none) =
      chain none front following ++ chain before back none := by
    rw [modify_append, modify_last hfront, modify_chain_of_notMem]
    exact fun id hid => hdisjoint id (lastId?_mem hid)
  have hfirst : modify (firstId? back) (setPrevious preceding)
      (chain none front following ++ chain before back none) =
      chain none front following ++ chain preceding back none := by
    rw [modify_append, modify_first hback, modify_chain_of_notMem]
    exact fun id hid hmem => hdisjoint id hmem (firstId?_mem hid)
  have hlinks := modify_perm (modify_perm hentries (lastId? front) (setNext following))
    (firstId? back) (setPrevious preceding)
  rwa [hlast, hfirst] at hlinks

theorem link_insert {entries : List QueueEntry}
    (hentries : entries.Perm (link (front ++ back)))
    (hnodup : (ids (front ++ back)).Nodup) (item : Item) :
    (⟨item.id, item.track, item.played, lastId? front, firstId? back⟩ ::
      modify (firstId? back) (setPrevious (some item.id))
        (modify (lastId? front) (setNext (some item.id)) entries)).Perm
      (link (front ++ item :: back)) := by
  rcases nodup_cut hnodup with ⟨hfront, hback, hdisjoint⟩
  rw [link_append] at hentries
  have hlinks := relink_cut hentries hfront hback hdisjoint (some item.id) (some item.id)
  rw [link_cut]
  exact (hlinks.cons _).trans List.perm_middle.symm

theorem filter_chain_of_notMem (h : id ∉ ids items) :
    (chain previous items next).filter (fun other => other.id ≠ id) =
      chain previous items next := by
  apply List.filter_eq_self.mpr
  intro entry hentry
  have hmem : entry.id ∈ (chain previous items next).map QueueEntry.id :=
    List.mem_map_of_mem hentry
  rw [map_id_chain] at hmem
  exact decide_eq_true fun heq => h (heq ▸ hmem)

theorem link_remove {entries : List QueueEntry} {item : Item}
    (hentries : entries.Perm (link (front ++ item :: back)))
    (hnodup : (ids (front ++ item :: back)).Nodup) :
    (modify (firstId? back) (setPrevious (lastId? front))
      (modify (lastId? front) (setNext (firstId? back))
        (entries.filter fun other => other.id ≠ item.id))).Perm (link (front ++ back)) := by
  rcases nodup_cut hnodup with ⟨hfront, hrest, hdisjoint⟩
  rw [ids_cons, List.nodup_cons] at hrest
  have hitem : item.id ∉ ids front := fun hmem => hdisjoint _ hmem (by simp)
  have hfilter : (link (front ++ item :: back)).filter (fun other => other.id ≠ item.id) =
      chain none front (some item.id) ++ chain (some item.id) back none := by
    rw [link_cut, List.filter_append, List.filter_cons, filter_chain_of_notMem hitem,
      filter_chain_of_notMem hrest.1]
    simp
  have hleft := hentries.filter fun other => other.id ≠ item.id
  rw [hfilter] at hleft
  rw [link_append]
  refine relink_cut hleft hfront hrest.2 ?_ (firstId? back) (lastId? front)
  exact fun id hid hmem => hdisjoint id hid (by simp [hmem])

theorem link_play {entries : List QueueEntry} {item : Item}
    (hentries : entries.Perm (link (front ++ item :: back)))
    (hnodup : (ids (front ++ item :: back)).Nodup) :
    (modify (some item.id) (fun entry => { entry with played := true }) entries).Perm
      (link (front ++ item.play :: back)) := by
  rcases nodup_cut hnodup with ⟨hfront, hrest, hdisjoint⟩
  rw [ids_cons, List.nodup_cons] at hrest
  refine (modify_perm hentries _ _).trans ?_
  rw [link_cut, link_cut, modify_append, ← List.singleton_append (l := chain _ back none),
    modify_append, modify_chain_of_notMem, modify_chain_of_notMem]
  · simp [modify, Item.play]
  · exact fun id hid => Option.some.inj hid ▸ hrest.1
  · exact fun id hid hmem => hdisjoint id hmem (by simp [← Option.some.inj hid])

end Queue
end Jukebox
