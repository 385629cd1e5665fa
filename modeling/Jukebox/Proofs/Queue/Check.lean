import Jukebox.Proofs.Queue.Holds

/-!
# The check of a queue

The check walks from the head and accepts exactly the queues that hold a playlist. On the way
it keeps the identifiers it has seen and the first unplayed one; both are determined by the
part of the playlist that lies behind.
-/

namespace Jukebox
namespace Queue

open Playlist

variable {q : Queue} {items front back : List Item} {item : Item} {id : EntryId}
  {entries : List QueueEntry} {pointer : Option EntryId}

def Progress.through (items : List Item) : Progress :=
  ⟨(ids items).reverse, nextId? items⟩

theorem Progress.through_head? : (Progress.through items).seen.head? = lastId? items := by
  simp [Progress.through, lastId?, ids]

/-!
## What holds a playlist passes
-/

theorem Progress.visit_through (hplayed : PlayedFirst (front ++ item :: back))
    (next : Option EntryId) :
    (Progress.through front).visit ⟨item.id, item.track, item.played, lastId? front, next⟩ =
      .ok (Progress.through (front ++ [item])) := by
  rw [Progress.visit, Progress.through_head?]
  have hlate : ¬(item.played && (Progress.through front).firstUnplayed.isSome) := by
    intro hlate
    simp only [Progress.through, nextId?, Option.isSome_map, Bool.and_eq_true] at hlate
    rcases Option.isSome_iff_exists.mp hlate.2 with ⟨other, hother⟩
    have hbefore := hplayed.played_before List.mem_cons_self hlate.1 (mem_of_next? hother).1
    simp [(mem_of_next? hother).2] at hbefore
  have hfirst : (if item.played then (Progress.through front).firstUnplayed
        else (Progress.through front).firstUnplayed.or (some item.id)) =
      nextId? (front ++ [item]) := by
    rw [nextId?, next?_append]
    cases hitem : item.played <;> simp [Progress.through, nextId?, Playlist.next?, hitem]
  rw [if_neg (by simp), if_neg hlate, hfirst]
  simp [Progress.through]

theorem Holds.checkFrom_eq (h : q.Holds (front ++ back)) {steps : Nat}
    (hsteps : back.length ≤ steps) :
    checkFrom q.entries steps (Progress.through front) (firstId? back) =
      .ok (Progress.through (front ++ back)) := by
  induction back generalizing front steps with
  | nil => cases steps <;> simp [checkFrom, firstId?]
  | cons item rest ih =>
      cases steps with
      | zero => simp at hsteps
      | succ steps =>
          have hfront : item.id ∉ (Progress.through front).seen := by
            simpa [Progress.through] using fun hmem =>
              (nodup_cut h.nodup).2.2 item.id hmem (by simp)
          have hfind : find? q.entries item.id = _ := h.get?_cut
          rw [firstId?_cons, checkFrom, if_neg hfront, hfind]
          simp only [Progress.visit_through h.playedFirst, Except.bind]
          have hmoved : q.Holds ((front ++ [item]) ++ rest) := by simpa using h
          rw [ih hmoved (Nat.le_of_succ_le_succ hsteps)]
          simp

theorem Holds.check_eq (h : q.Holds items) : q.check = .ok () := by
  have hwalk : checkFrom q.entries (q.entries.length + 1) ⟨[], none⟩ q.head =
      .ok (Progress.through items) := by
    have hstart : q.Holds ([] ++ items) := h
    rw [h.head, h.length_eq]
    exact hstart.checkFrom_eq (Nat.le_succ _)
  have hlength : (Progress.through items).seen.length = q.entries.length := by
    simp [Progress.through, h.length_eq]
  rw [check, hwalk]
  simp only [Except.bind, hlength, h.pointer, ne_eq, not_true_eq_false, if_false]
  simp [Progress.through]

theorem Holds.validate_eq (h : q.Holds items) : q.validate = .ok () := by
  rw [validate, h.check_eq]
  rfl

/-!
## What passes holds a playlist
-/

theorem Progress.visit_eq_ok {p p' : Progress} {entry : QueueEntry}
    (h : p.visit entry = .ok p') :
    entry.previous = p.seen.head? ∧ (entry.played = true → p.firstUnplayed = none) ∧
      p' = ⟨entry.id :: p.seen,
        if entry.played then p.firstUnplayed else p.firstUnplayed.or (some entry.id)⟩ := by
  unfold Progress.visit at h
  split at h
  · cases h
  · next hprevious =>
    split at h
    · cases h
    · next hlate =>
      refine ⟨by simpa using hprevious, ?_, (Except.ok.inj h).symm⟩
      simpa using hlate

/-- What a walk over some items, from one progress to another, has found out about them. -/
structure Walked (entries : List QueueEntry) (p : Progress) (items : List Item)
    (p' : Progress) : Prop where
  seen : p'.seen = (ids items).reverse ++ p.seen
  linked : ∀ entry ∈ chain p.seen.head? items none, entry ∈ entries
  nodup : (ids items).Nodup
  fresh : ∀ id ∈ ids items, id ∉ p.seen
  playedFirst : PlayedFirst items
  unplayed : p.firstUnplayed.isSome → ∀ item ∈ items, item.played = false
  firstUnplayed : p'.firstUnplayed = p.firstUnplayed.or (nextId? items)

theorem walked_nil (p : Progress) : Walked entries p [] p where
  seen := rfl
  linked := by simp [chain]
  nodup := List.nodup_nil
  fresh := by simp
  playedFirst := List.Pairwise.nil
  unplayed := by simp
  firstUnplayed := by simp [nextId?, Playlist.next?]

theorem Walked.cons {p p₁ p' : Progress} {entry : QueueEntry} {rest : List Item}
    (h : Walked entries p₁ rest p') (hvisit : p.visit entry = .ok p₁) (hmem : entry ∈ entries)
    (hnew : entry.id ∉ p.seen) (hnext : entry.next = firstId? rest) :
    Walked entries p (entry.item :: rest) p' := by
  rcases Progress.visit_eq_ok hvisit with ⟨hprevious, hlate, rfl⟩
  have hunplayed : entry.played = false → ∀ item ∈ rest, item.played = false := by
    intro hentry
    exact h.unplayed (by simp [hentry])
  constructor
  · simp [h.seen, QueueEntry.item]
  · intro other hother
    simp only [chain, Option.or_none, List.mem_cons] at hother
    rcases hother with rfl | hother
    · rw [← hprevious, ← hnext]
      exact hmem
    · exact h.linked other hother
  · rw [ids_cons, List.nodup_cons]
    exact ⟨fun hrest => h.fresh _ hrest List.mem_cons_self, h.nodup⟩
  · intro other hother
    rcases List.mem_cons.mp hother with rfl | hrest
    · exact hnew
    · exact fun hseen => h.fresh other hrest (List.mem_cons_of_mem _ hseen)
  · rw [PlayedFirst, List.pairwise_cons]
    refine ⟨?_, h.playedFirst⟩
    intro other hother hplayed
    by_contra hentry
    have hnot := hunplayed (by simpa [QueueEntry.item] using hentry) other hother
    simp [hnot] at hplayed
  · intro hsome other hother
    have hentry : entry.played = false := by
      cases hentry : entry.played with
      | false => rfl
      | true => simp [hlate hentry] at hsome
    rcases List.mem_cons.mp hother with rfl | hrest
    · exact hentry
    · exact hunplayed hentry other hrest
  · rw [h.firstUnplayed]
    cases hentry : entry.played <;> simp [nextId?, Playlist.next?, QueueEntry.item, hentry]

theorem exists_walked_of_checkFrom {steps : Nat} {p p' : Progress} {current : Option EntryId}
    (h : checkFrom entries steps p current = .ok p') :
    ∃ items, current = firstId? items ∧ Walked entries p items p' := by
  induction steps generalizing p current with
  | zero =>
      cases current with
      | none =>
          cases h
          exact ⟨[], rfl, walked_nil _⟩
      | some id => cases h
  | succ steps ih =>
      cases current with
      | none =>
          cases h
          exact ⟨[], rfl, walked_nil _⟩
      | some id =>
          rw [checkFrom] at h
          split at h
          · cases h
          · next hnew =>
            cases hfind : find? entries id with
            | none => simp [hfind] at h
            | some entry =>
                rcases Keyed.mem_of_find? hfind with ⟨hmem, rfl⟩
                simp only [hfind] at h
                cases hvisit : p.visit entry with
                | error reason => simp [hvisit, Except.bind] at h
                | ok p₁ =>
                    simp only [hvisit, Except.bind] at h
                    rcases ih h with ⟨rest, hnext, hwalked⟩
                    exact ⟨entry.item :: rest, rfl, hwalked.cons hvisit hmem hnew hnext⟩

theorem exists_holds_of_check (hsorted : Sorted q.entries) (h : q.check = .ok ()) :
    ∃ items, q.Holds items := by
  unfold check at h
  cases hwalk : checkFrom q.entries (q.entries.length + 1) ⟨[], none⟩ q.head with
  | error reason => simp [hwalk, Except.bind] at h
  | ok p =>
      simp only [hwalk, Except.bind] at h
      split at h
      · cases h
      · next hlength =>
        split at h
        · cases h
        · next hpointer =>
          rcases exists_walked_of_checkFrom hwalk with ⟨items, hhead, hwalked⟩
          have hcount : q.entries.length ≤ (link items).length := by
            rw [← not_not.mp hlength]
            simp [hwalked.seen, link]
          have hlinked : (link items).Nodup :=
            List.Nodup.of_map QueueEntry.id (by simpa [link] using hwalked.nodup)
          have hlinks : (link items).Perm q.entries :=
            (List.subperm_of_subset hlinked hwalked.linked).perm_of_length_le hcount
          exact ⟨items,
            { sorted := hsorted
              links := hlinks.symm
              head := hhead
              pointer := by
                rw [not_not.mp hpointer]
                simpa using hwalked.firstUnplayed
              nodup := hwalked.nodup
              playedFirst := hwalked.playedFirst }⟩

/-!
## Rebuilding
-/

theorem firstRepeat?_eq_none {seen : List EntryId} (h : firstRepeat? seen entries = none) :
    (entries.map QueueEntry.id).Nodup ∧ ∀ id ∈ entries.map QueueEntry.id, id ∉ seen := by
  induction entries generalizing seen with
  | nil => simp
  | cons entry rest ih =>
      rw [firstRepeat?] at h
      split at h
      · cases h
      · next hnew =>
        rcases ih h with ⟨hnodup, hfresh⟩
        constructor
        · rw [List.map_cons, List.nodup_cons]
          exact ⟨fun hrest => hfresh _ hrest List.mem_cons_self, hnodup⟩
        · intro id hid
          rcases List.mem_cons.mp hid with rfl | hrest
          · exact hnew
          · exact fun hseen => hfresh id hrest (List.mem_cons_of_mem _ hseen)

theorem firstRepeat?_of_nodup {seen : List EntryId}
    (hnodup : (entries.map QueueEntry.id).Nodup)
    (hfresh : ∀ id ∈ entries.map QueueEntry.id, id ∉ seen) :
    firstRepeat? seen entries = none := by
  induction entries generalizing seen with
  | nil => rfl
  | cons entry rest ih =>
      rw [List.map_cons, List.nodup_cons] at hnodup
      rw [firstRepeat?, if_neg (hfresh _ (by simp)), ih hnodup.2]
      intro id hid hseen
      rcases List.mem_cons.mp hseen with rfl | hseen
      · exact hnodup.1 hid
      · exact hfresh id (List.mem_cons_of_mem _ hid) hseen

/-- Whatever stored entries are accepted, they make up a queue that holds a playlist. -/
theorem exists_holds_of_ofEntries (h : ofEntries entries pointer = .ok q) :
    ∃ items, q.Holds items := by
  unfold ofEntries at h
  split at h
  · cases h
  · next hrepeat =>
    split at h
    · cases h
    · have hsorted : Sorted (sort entries) := sorted_sort (firstRepeat?_eq_none hrepeat).1
      cases hcheck : check ⟨sort entries, (heads entries).head?, pointer⟩ with
      | error reason =>
          simp [validate, hcheck, Except.map, Except.mapError] at h
      | ok value =>
          simp only [validate, hcheck, Except.map, Except.mapError, Except.ok.injEq] at h
          rw [← h]
          exact exists_holds_of_check hsorted hcheck

theorem heads_chain (items : List Item) {previous : Option EntryId}
    (hprevious : previous.isSome) (next : Option EntryId) :
    heads (chain previous items next) = [] := by
  induction items generalizing previous with
  | nil => rfl
  | cons item rest ih =>
      rw [heads, chain,
        List.filter_cons_of_neg (by simpa [Option.isSome_iff_ne_none] using hprevious)]
      exact ih rfl

theorem heads_link : heads (link items) = (firstId? items).toList := by
  cases items with
  | nil => rfl
  | cons item rest =>
      have hrest : heads (chain (some item.id) rest none) = [] := heads_chain rest rfl none
      simp only [heads] at hrest
      simp [heads, link, chain, hrest]

theorem heads_of_perm (hlinks : entries.Perm (link items)) :
    heads entries = (firstId? items).toList := by
  have hperm : (heads entries).Perm (heads (link items)) := (hlinks.filter _).map _
  rw [heads_link] at hperm
  cases hfirst : firstId? items with
  | none => simpa [hfirst] using hperm
  | some id => simpa [hfirst] using hperm

/-- The entries of a playlist, in any order, are accepted and give its queue. -/
theorem ofEntries_of_perm (hlinks : entries.Perm (link items)) (hnodup : (ids items).Nodup)
    (hplayed : PlayedFirst items) :
    ∃ q, ofEntries entries (nextId? items) = .ok q ∧ q.Holds items := by
  have hids : (entries.map QueueEntry.id).Nodup := by
    rw [(hlinks.map QueueEntry.id).nodup_iff]
    simpa [link] using hnodup
  have hheads := heads_of_perm hlinks
  have hholds : Holds ⟨sort entries, firstId? items, nextId? items⟩ items :=
    { sorted := sorted_sort hids
      links := (sort_perm entries).trans hlinks
      head := rfl
      pointer := rfl
      nodup := hnodup
      playedFirst := hplayed }
  refine ⟨_, ?_, hholds⟩
  rw [ofEntries, firstRepeat?_of_nodup hids (by simp)]
  have hcount : ¬1 < (heads entries).length := by
    rw [hheads]
    cases firstId? items <;> simp
  have hhead : (heads entries).head? = firstId? items := by
    rw [hheads]
    cases firstId? items <;> rfl
  simp only [if_neg hcount, hhead, hholds.validate_eq]
  rfl

end Queue
end Jukebox
