import Jukebox.Proofs.Queue.Refinement

/-!
# Queues are rebuilt from rows of entries only

Stored entries make up a queue exactly if they can be put in a row: neighbours name each other,
played entries come first, and the pointer names the first unplayed one. A walk from the head
finds this row, so there is only one, and the order in which the entries came plays no part.
All other entries are refused, those with a repeated identifier before any link is looked at.
-/

namespace Jukebox
namespace Queue

open Playlist

/-!
## Rows of entries
-/

/-- Whether entries stand in queue order, and a pointer belongs to them. -/
structure Arranged (row : List QueueEntry) (pointer : Option EntryId) : Prop where
  first : ∀ entry, row[0]? = some entry → entry.previous = none
  previous : ∀ i entry, row[i + 1]? = some entry → entry.previous = row[i]?.map QueueEntry.id
  next : ∀ i entry, row[i]? = some entry → entry.next = row[i + 1]?.map QueueEntry.id
  playedFirst : row.Pairwise fun earlier later => later.played = true → earlier.played = true
  pointer : pointer = (row.find? fun entry => !entry.played).map QueueEntry.id

/-- What becomes of stored entries and a stored pointer. -/
structure Rebuilding (entries : List QueueEntry) (pointer : Option EntryId) : Prop where
  accepted_iff : (∃ q, ofEntries entries pointer = .ok q) ↔
    (entries.map QueueEntry.id).Nodup ∧ ∃ row, row.Perm entries ∧ Arranged row pointer
  listed : ∀ {q : Queue} {row : List QueueEntry}, ofEntries entries pointer = .ok q →
    (row.Perm entries ∧ Arranged row pointer ↔ row = q.list .all)
  unordered : ∀ {others : List QueueEntry}, entries.Perm others →
    (entries.map QueueEntry.id).Nodup → ofEntries others pointer = ofEntries entries pointer
  duplicate_iff : (∃ id, ofEntries entries pointer = .error (.duplicateEntry id)) ↔
    ¬(entries.map QueueEntry.id).Nodup
  repeated : ∀ {id : EntryId}, ofEntries entries pointer = .error (.duplicateEntry id) →
    2 ≤ (entries.map QueueEntry.id).count id
  corrupt : ∀ {error : QueueError}, (entries.map QueueEntry.id).Nodup →
    ofEntries entries pointer = .error error → ∃ reason, error = .corrupt reason

variable {entries others row : List QueueEntry} {pointer : Option EntryId} {items : List Item}
  {q : Queue}

theorem getElem?_chain (previous : Option EntryId) (items : List Item) (i : Nat) :
    (chain previous items none)[i]? = items[i]?.map fun item =>
      ⟨item.id, item.track, item.played, if i = 0 then previous else items[i - 1]?.map Item.id,
        items[i + 1]?.map Item.id⟩ := by
  induction items generalizing previous i with
  | nil => simp [chain]
  | cons item rest ih =>
      cases i with
      | zero => simp [chain, firstId?, List.head?_eq_getElem?]
      | succ i =>
          rw [chain, List.getElem?_cons_succ, ih]
          cases i with
          | zero => simp
          | succ i => simp

theorem find?_link (items : List Item) :
    ((link items).find? fun entry => !entry.played).map QueueEntry.id = nextId? items := by
  have hplayed : (fun entry : QueueEntry => !entry.played) =
      (fun item : Item => !item.played) ∘ QueueEntry.item := rfl
  have hid : QueueEntry.id = Item.id ∘ QueueEntry.item := rfl
  rw [nextId?, Playlist.next?, hid, ← Option.map_map, hplayed, ← List.find?_map, link,
    map_item_chain]

theorem pairwise_played_iff :
    (row.Pairwise fun earlier later => later.played = true → earlier.played = true) ↔
      PlayedFirst (row.map QueueEntry.item) := by
  rw [PlayedFirst, List.pairwise_map]
  rfl

theorem arranged_link (hplayed : PlayedFirst items) :
    Arranged (link items) (nextId? items) := by
  constructor
  · intro entry hentry
    rw [link, getElem?_chain, Option.map_eq_some_iff] at hentry
    rcases hentry with ⟨item, -, rfl⟩
    rfl
  · intro i entry hentry
    rw [link, getElem?_chain, Option.map_eq_some_iff] at hentry
    rcases hentry with ⟨item, -, rfl⟩
    rw [link, getElem?_chain, Option.map_map]
    rfl
  · intro i entry hentry
    rw [link, getElem?_chain, Option.map_eq_some_iff] at hentry
    rcases hentry with ⟨item, -, rfl⟩
    rw [link, getElem?_chain, Option.map_map]
    rfl
  · rw [pairwise_played_iff, link, map_item_chain]
    exact hplayed
  · exact (find?_link items).symm

theorem Arranged.eq_link (h : Arranged row pointer) :
    row = link (row.map QueueEntry.item) := by
  apply List.ext_getElem?
  intro i
  have hid : ∀ j : Nat, (row.map QueueEntry.item)[j]?.map Item.id =
      row[j]?.map QueueEntry.id := by
    intro j
    rw [List.getElem?_map, Option.map_map]
    rfl
  rw [link, getElem?_chain, hid, hid, List.getElem?_map]
  cases hentry : row[i]? with
  | none => rfl
  | some entry =>
      have hprevious : entry.previous = if i = 0 then none
          else row[i - 1]?.map QueueEntry.id := by
        cases i with
        | zero => exact h.first entry hentry
        | succ i =>
            rw [if_neg (Nat.succ_ne_zero i)]
            exact h.previous i entry hentry
      rw [← hprevious, ← h.next i entry hentry]
      rfl

theorem Arranged.playlist (h : Arranged row pointer) :
    PlayedFirst (row.map QueueEntry.item) ∧ pointer = nextId? (row.map QueueEntry.item) := by
  constructor
  · exact pairwise_played_iff.mp h.playedFirst
  · rw [h.pointer, ← find?_link, ← h.eq_link]

theorem ids_map_item (row : List QueueEntry) :
    ids (row.map QueueEntry.item) = row.map QueueEntry.id := by
  rw [ids, List.map_map]
  rfl

/-!
## What is accepted
-/

theorem ofEntries_eq_ok (h : ofEntries entries pointer = .ok q) :
    (entries.map QueueEntry.id).Nodup ∧ q.entries.Perm entries ∧ q.pointer = pointer := by
  unfold ofEntries at h
  split at h
  · cases h
  · next hrepeat =>
    split at h
    · cases h
    · cases hvalid : validate ⟨sort entries, (heads entries).head?, pointer⟩ with
      | error reason => simp [hvalid, Except.map] at h
      | ok value =>
          simp only [hvalid, Except.map, Except.ok.injEq] at h
          subst h
          exact ⟨(firstRepeat?_eq_none hrepeat).1, sort_perm entries, rfl⟩

theorem Holds.arranged (h : q.Holds items) : Arranged (link items) q.pointer := by
  rw [h.pointer]
  exact arranged_link h.playedFirst

theorem Holds.list_all (h : q.Holds items) : q.list .all = link items := by
  rw [← h.toList_eq, list]
  exact List.filter_eq_self.mpr fun _ _ => rfl

theorem Arranged.ofEntries_eq (h : Arranged row pointer) (hperm : row.Perm entries)
    (hnodup : (entries.map QueueEntry.id).Nodup) :
    ∃ q, ofEntries entries pointer = .ok q ∧ q.list .all = row := by
  have hrow := h.eq_link
  rcases h.playlist with ⟨hplayed, hpointer⟩
  have hids : (ids (row.map QueueEntry.item)).Nodup := by
    rw [ids_map_item, (hperm.map QueueEntry.id).nodup_iff]
    exact hnodup
  rcases ofEntries_of_perm (hrow ▸ hperm.symm) hids hplayed with ⟨q, hq, hholds⟩
  rw [← hpointer] at hq
  exact ⟨q, hq, hholds.list_all.trans hrow.symm⟩

theorem accepted_iff : (∃ q, ofEntries entries pointer = .ok q) ↔
    (entries.map QueueEntry.id).Nodup ∧ ∃ row, row.Perm entries ∧ Arranged row pointer := by
  constructor
  · rintro ⟨q, hq⟩
    rcases exists_holds_of_ofEntries hq with ⟨items, hholds⟩
    rcases ofEntries_eq_ok hq with ⟨hnodup, hperm, rfl⟩
    exact ⟨hnodup, link items, hholds.links.symm.trans hperm, hholds.arranged⟩
  · rintro ⟨hnodup, row, hperm, harranged⟩
    rcases harranged.ofEntries_eq hperm hnodup with ⟨q, hq, -⟩
    exact ⟨q, hq⟩

theorem listed_iff (h : ofEntries entries pointer = .ok q) :
    row.Perm entries ∧ Arranged row pointer ↔ row = q.list .all := by
  rcases ofEntries_eq_ok h with ⟨hnodup, hperm, hpointer⟩
  constructor
  · rintro ⟨hrow, harranged⟩
    rcases harranged.ofEntries_eq hrow hnodup with ⟨found, hfound, hlist⟩
    rw [h] at hfound
    cases hfound
    exact hlist.symm
  · rintro rfl
    rcases exists_holds_of_ofEntries h with ⟨items, hholds⟩
    rw [hholds.list_all, ← hpointer]
    exact ⟨hholds.links.symm.trans hperm, hholds.arranged⟩

/-!
## What is refused
-/

theorem firstRepeat?_eq_none_iff :
    firstRepeat? [] entries = none ↔ (entries.map QueueEntry.id).Nodup := by
  constructor
  · intro h
    exact (firstRepeat?_eq_none h).1
  · intro h
    exact firstRepeat?_of_nodup h (fun _ _ => List.not_mem_nil)

theorem count_of_firstRepeat? {seen : List EntryId} {id : EntryId}
    (h : firstRepeat? seen entries = some id) :
    2 ≤ (seen ++ entries.map QueueEntry.id).count id := by
  induction entries generalizing seen with
  | nil => cases h
  | cons entry rest ih =>
      rw [firstRepeat?] at h
      split at h
      · next hseen =>
        cases h
        have hbefore := List.count_pos_iff.mpr hseen
        rw [List.count_append, List.map_cons, List.count_cons_self]
        omega
      · have hrest := ih h
        have hperm : (entry.id :: seen ++ rest.map QueueEntry.id).Perm
            (seen ++ (entry :: rest).map QueueEntry.id) := List.perm_middle.symm
        rw [hperm.count_eq] at hrest
        exact hrest

theorem heads_perm (h : entries.Perm others) : (heads entries).Perm (heads others) :=
  (h.filter _).map _

theorem head?_heads_of_perm (h : entries.Perm others) (hsingle : ¬1 < (heads entries).length) :
    (heads others).head? = (heads entries).head? := by
  have hperm := heads_perm h
  rcases hfound : heads entries with - | ⟨id, - | ⟨other, rest⟩⟩
  · rw [hfound, List.nil_perm] at hperm
    rw [hperm]
  · rw [hfound, List.singleton_perm] at hperm
    rw [hperm]
  · rw [hfound] at hsingle
    exact absurd (by simp) hsingle

theorem ofEntries_perm (h : entries.Perm others) (hnodup : (entries.map QueueEntry.id).Nodup) :
    ofEntries others pointer = ofEntries entries pointer := by
  have hothers : (others.map QueueEntry.id).Nodup := (h.map QueueEntry.id).nodup_iff.mp hnodup
  have hheads := (heads_perm h).length_eq
  rw [ofEntries, ofEntries, firstRepeat?_eq_none_iff.mpr hnodup,
    firstRepeat?_eq_none_iff.mpr hothers, ← hheads, ← sort_eq_of_perm hnodup h]
  by_cases hsingle : 1 < (heads entries).length
  · simp only [if_pos hsingle]
  · simp only [if_neg hsingle, head?_heads_of_perm h hsingle]

/-- Apart from repeated identifiers, only the links and the pointer are complained about. -/
theorem corrupt_of_nodup {error : QueueError} (hnodup : (entries.map QueueEntry.id).Nodup)
    (h : ofEntries entries pointer = .error error) : ∃ reason, error = .corrupt reason := by
  rw [ofEntries, firstRepeat?_eq_none_iff.mpr hnodup] at h
  simp only at h
  split at h
  · cases h
    exact ⟨_, rfl⟩
  · cases hcheck : check ⟨sort entries, (heads entries).head?, pointer⟩ with
    | ok value => simp [validate, hcheck, Except.map, Except.mapError] at h
    | error reason =>
        simp only [validate, hcheck, Except.map, Except.mapError, Except.error.injEq] at h
        exact ⟨reason, h.symm⟩

theorem firstRepeat?_of_duplicate {id : EntryId}
    (h : ofEntries entries pointer = .error (.duplicateEntry id)) :
    firstRepeat? [] entries = some id := by
  cases hrepeat : firstRepeat? [] entries with
  | none =>
      rcases corrupt_of_nodup (firstRepeat?_eq_none_iff.mp hrepeat) h with ⟨reason, hreason⟩
      cases hreason
  | some found =>
      rw [ofEntries, hrepeat] at h
      cases h
      rfl

theorem duplicate_iff : (∃ id, ofEntries entries pointer = .error (.duplicateEntry id)) ↔
    ¬(entries.map QueueEntry.id).Nodup := by
  constructor
  · rintro ⟨id, h⟩ hnodup
    have hrepeat := firstRepeat?_of_duplicate h
    rw [firstRepeat?_eq_none_iff.mpr hnodup] at hrepeat
    cases hrepeat
  · intro hnodup
    cases hrepeat : firstRepeat? [] entries with
    | none => exact absurd (firstRepeat?_eq_none_iff.mp hrepeat) hnodup
    | some id =>
        rw [ofEntries, hrepeat]
        exact ⟨id, rfl⟩

theorem rebuilding (entries : List QueueEntry) (pointer : Option EntryId) :
    Rebuilding entries pointer where
  accepted_iff := accepted_iff
  listed := listed_iff
  unordered := ofEntries_perm
  duplicate_iff := duplicate_iff
  repeated := fun h => count_of_firstRepeat? (firstRepeat?_of_duplicate h)
  corrupt := corrupt_of_nodup

/-!
## Queues that were changed
-/

theorem Holds.ofEntries_eq (h : q.Holds items) (hperm : entries.Perm (q.list .all)) :
    ofEntries entries q.pointer = .ok q := by
  rw [h.list_all] at hperm
  rcases ofEntries_of_perm hperm h.nodup h.playedFirst with ⟨found, hfound, hholds⟩
  rw [h.pointer, hfound, hholds.unique h]

/-- Stored entries are accepted exactly if they stand in a row, and whatever a queue went
through, it comes back from its entries and its pointer. -/
theorem rebuilt_exactly : (∀ entries pointer, Rebuilding entries pointer) ∧
    ∀ {start : Queue}, start.IsStart → ∀ (changes : List Change) (entries : List QueueEntry),
      entries.Perm ((changes.foldl Queue.change start).list .all) →
      ofEntries entries (changes.foldl Queue.change start).pointer =
        .ok (changes.foldl Queue.change start) := by
  constructor
  · exact rebuilding
  · intro start hstart changes entries hperm
    rcases exists_holds_of_isStart hstart with ⟨items, hholds⟩
    exact (hholds.changes_hold changes).ofEntries_eq hperm

def pairPlayed : List Change :=
  [.insert none ⟨"a"⟩ ⟨"s"⟩, .insert (some ⟨"a"⟩) ⟨"b"⟩ ⟨"t"⟩, .take]

/-- The changed queue comes back from its entries, which are stored backwards; without the
first of them there is no row. -/
theorem rebuilt_exactly_pairPlayed :
    IsStart empty ∧ storedPair.Perm ((pairPlayed.foldl Queue.change empty).list .all) ∧
      ofEntries storedPair (some ⟨"b"⟩) = .ok (pairPlayed.foldl Queue.change empty) ∧
      ¬∃ row, row.Perm (storedPair.take 1) ∧ Arranged row (some ⟨"b"⟩) := by
  have hperm : storedPair.Perm ((pairPlayed.foldl Queue.change empty).list .all) := by
    decide +kernel
  refine ⟨Or.inl rfl, hperm, ?_, ?_⟩
  · exact rebuilt_exactly.2 (Or.inl rfl) pairPlayed storedPair hperm
  · intro hrow
    have hnodup : ((storedPair.take 1).map QueueEntry.id).Nodup := List.nodup_singleton _
    rcases (rebuilt_exactly.1 _ _).accepted_iff.mpr ⟨hnodup, hrow⟩ with ⟨q, hq⟩
    have hrefused : ofEntries (storedPair.take 1) (some ⟨"b"⟩) =
        .error (.corrupt (.unreachable 1)) := by
      decide +kernel
    rw [hrefused] at hq
    cases hq

end Queue
end Jukebox
