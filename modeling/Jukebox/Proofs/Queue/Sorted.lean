import Mathlib.Data.String.Basic
import Jukebox.Proofs.Keyed
import Jukebox.Queue.Stored

/-!
# Entries in the order of their identifiers

Queues keep their entries sorted, so two queues with the same entries are equal. Putting an
entry in its place keeps the order, and so does everything that leaves the identifiers alone.
-/

namespace Jukebox

namespace Id

variable {kind : IdKind} {a b c : Id kind}

theorem not_lt_self (a : Id kind) : ¬a < a :=
  lt_irrefl a.text

theorem lt_of_lt_of_lt (hab : a < b) (hbc : b < c) : a < c := by
  have htext : a.text < c.text := lt_trans (b := b.text) hab hbc
  exact htext

theorem lt_of_not_lt (h : ¬a < b) (hne : a ≠ b) : b < a := by
  rcases lt_trichotomy a.text b.text with hlt | heq | hgt
  · exact absurd hlt h
  · exact absurd (by cases a; cases b; simp_all) hne
  · exact hgt

end Id

namespace Queue

variable {entries others : List QueueEntry} {entry : QueueEntry}

def Sorted (entries : List QueueEntry) : Prop :=
  (entries.map QueueEntry.id).Pairwise fun a b => a < b

theorem Sorted.nodup (h : Sorted entries) : (entries.map QueueEntry.id).Nodup := by
  apply List.Pairwise.imp _ h
  intro a b hlt heq
  exact Id.not_lt_self b (heq ▸ hlt)

theorem Sorted.eq_of_perm (hentries : Sorted entries) (hothers : Sorted others)
    (h : entries.Perm others) : entries = others := by
  have hanti : ∀ a b : QueueEntry, a ∈ entries → b ∈ others → a.id < b.id → b.id < a.id →
      a = b :=
    fun a b _ _ hab hba => absurd (Id.lt_of_lt_of_lt hab hba) (Id.not_lt_self a.id)
  exact List.Perm.eq_of_pairwise hanti (List.pairwise_map.mp hentries)
    (List.pairwise_map.mp hothers) h

def KeepsId (change : QueueEntry → QueueEntry) : Prop :=
  ∀ entry, (change entry).id = entry.id

theorem keepsId_setNext (next : Option EntryId) : KeepsId (setNext next) :=
  fun _ => rfl

theorem keepsId_setPrevious (previous : Option EntryId) : KeepsId (setPrevious previous) :=
  fun _ => rfl

theorem keepsId_play : KeepsId fun entry => { entry with played := true } :=
  fun _ => rfl

theorem map_id_modify {change : QueueEntry → QueueEntry} (hchange : KeepsId change)
    (target : Option EntryId) (entries : List QueueEntry) :
    (modify target change entries).map QueueEntry.id = entries.map QueueEntry.id := by
  simp only [modify, List.map_map]
  apply List.map_congr_left
  intro entry _
  simp only [Function.comp_apply]
  split
  · exact hchange entry
  · rfl

theorem Sorted.modify (h : Sorted entries) {change : QueueEntry → QueueEntry}
    (hchange : KeepsId change) (target : Option EntryId) :
    Sorted (modify target change entries) := by
  rw [Sorted, map_id_modify hchange]
  exact h

theorem Sorted.filter (h : Sorted entries) (p : QueueEntry → Bool) :
    Sorted (entries.filter p) := by
  refine h.sublist ?_
  exact List.filter_sublist.map QueueEntry.id

/-!
## Placing and sorting
-/

theorem place_perm (entry : QueueEntry) (entries : List QueueEntry) :
    (place entry entries).Perm (entry :: entries) := by
  induction entries with
  | nil => exact List.Perm.refl _
  | cons other rest ih =>
      rw [place]
      split
      · exact (ih.cons other).trans (List.Perm.swap entry other rest)
      · exact List.Perm.refl _

theorem Sorted.place (h : Sorted entries) (hentry : entry.id ∉ entries.map QueueEntry.id) :
    Sorted (place entry entries) := by
  induction entries with
  | nil => simp [Sorted, Queue.place]
  | cons other rest ih =>
      rw [Sorted, List.map_cons, List.pairwise_cons] at h
      rw [List.map_cons, List.mem_cons, not_or] at hentry
      rw [Queue.place]
      split
      · next hlt =>
        rw [Sorted, List.map_cons, List.pairwise_cons]
        refine ⟨?_, ih h.2 hentry.2⟩
        intro id hid
        rcases List.mem_cons.mp (((place_perm entry rest).map QueueEntry.id).mem_iff.mp hid)
          with
          rfl | hrest
        · exact hlt
        · exact h.1 id hrest
      · next hle =>
        have hlt : entry.id < other.id := Id.lt_of_not_lt hle (Ne.symm hentry.1)
        rw [Sorted, List.map_cons, List.pairwise_cons]
        refine ⟨?_, List.pairwise_cons.mpr h⟩
        intro id hid
        rcases List.mem_cons.mp hid with rfl | hrest
        · exact hlt
        · exact Id.lt_of_lt_of_lt hlt (h.1 id hrest)

theorem sort_perm (entries : List QueueEntry) : (sort entries).Perm entries := by
  induction entries with
  | nil => exact List.Perm.refl _
  | cons entry rest ih => exact (place_perm entry (sort rest)).trans (ih.cons entry)

theorem sorted_sort (hnodup : (entries.map QueueEntry.id).Nodup) : Sorted (sort entries) := by
  induction entries with
  | nil => exact List.Pairwise.nil
  | cons entry rest ih =>
      rw [List.map_cons, List.nodup_cons] at hnodup
      refine (ih hnodup.2).place ?_
      rw [((sort_perm rest).map QueueEntry.id).mem_iff]
      exact hnodup.1

/-- Sorting forgets in which order the entries came. -/
theorem sort_eq_of_perm (hnodup : (entries.map QueueEntry.id).Nodup)
    (h : entries.Perm others) : sort entries = sort others := by
  have hothers : (others.map QueueEntry.id).Nodup := (h.map QueueEntry.id).nodup_iff.mp hnodup
  exact (sorted_sort hnodup).eq_of_perm (sorted_sort hothers)
    ((sort_perm entries).trans (h.trans (sort_perm others).symm))

end Queue
end Jukebox
