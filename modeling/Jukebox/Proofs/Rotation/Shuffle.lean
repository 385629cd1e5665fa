import Jukebox.Proofs.Rotation.Turns
import Jukebox.Rotation.Shuffle
import Mathlib.Data.List.Perm.Basic
import Mathlib.Data.List.Perm.Lattice

/-!
# Shuffled rounds deal every index

Once an order was drawn, every index either is in the order of the current round or was
promised a slot in the next one, and never both. A new order holds every index once. A search
for the next turn asks as many times as there are indices, so it draws at most one new order.
-/

namespace Jukebox
namespace Shuffle

open Rotation

/-!
## Drawing an order
-/

theorem place_perm (perm : List Nat) (newcomer : Nat × Nat) :
    (place perm newcomer).Perm (newcomer.1 :: perm) :=
  List.perm_insertIdx _ _ (Nat.min_le_right _ _)

theorem foldl_place_perm (perm : List Nat) (newcomers : List (Nat × Nat)) :
    (newcomers.foldl place perm).Perm (perm ++ newcomers.map Prod.fst) := by
  induction newcomers generalizing perm with
  | nil => simp
  | cons newcomer rest ih =>
      refine (ih (place perm newcomer)).trans ?_
      refine ((place_perm perm newcomer).append_right _).trans ?_
      simpa using List.perm_middle.symm

theorem drawn_perm {s : Shuffle} {perm : List Nat}
    (h : (perm ++ s.deferred.map Prod.fst).Perm (List.range s.size)) : s.drawn.Perm perm := by
  have hnodup : (perm ++ s.deferred.map Prod.fst).Nodup := h.nodup_iff.mpr List.nodup_range
  have hdisjoint := (List.nodup_append.mp hnodup).2.2
  refine (List.perm_ext_iff_of_nodup (List.nodup_range.filter _) ?_).mpr ?_
  · exact (List.nodup_append.mp hnodup).1
  · intro index
    have hmem := h.mem_iff (a := index)
    simp only [List.mem_filter, ← hmem, List.mem_append, List.any_eq_false,
      Bool.not_eq_true', beq_iff_eq, List.mem_map]
    constructor
    · rintro ⟨hperm | ⟨newcomer, hin, heq⟩, hnot⟩
      · exact hperm
      · exact absurd heq (hnot newcomer hin)
    · intro hperm
      refine ⟨Or.inl hperm, ?_⟩
      intro newcomer hin heq
      exact hdisjoint index hperm index (heq ▸ List.mem_map_of_mem hin) rfl

/-- A new order holds what was drawn and what was deferred, whichever indices these are. -/
theorem reshuffle_perm (s : Shuffle) :
    s.reshuffle.perm.Perm (s.drawn ++ s.deferred.map Prod.fst) := by
  have hshuffled := Random.Generator.shuffle_perm (.ofSeed (s.seed + s.epoch)) s.drawn
  exact (foldl_place_perm _ _).trans (hshuffled.append_right _)

variable {s : Shuffle}

theorem length_reshuffle_pos (hsize : 0 < s.size) : 0 < s.reshuffle.perm.length := by
  have hmem : 0 ∈ s.drawn ++ s.deferred.map Prod.fst := by
    by_cases hdeferred : 0 ∈ s.deferred.map Prod.fst
    · exact List.mem_append_right _ hdeferred
    · apply List.mem_append_left
      refine List.mem_filter.mpr ⟨List.mem_range.mpr hsize, ?_⟩
      simp only [Bool.not_eq_true', List.any_eq_false, beq_iff_eq]
      intro newcomer hnewcomer hzero
      exact hdeferred (List.mem_map.mpr ⟨newcomer, hnewcomer, hzero⟩)
  rw [s.reshuffle_perm.length_eq]
  exact List.length_pos_of_mem hmem

theorem epoch_reshuffle (hroom : s.epoch + 1 < wordLimit) : s.reshuffle.epoch = s.epoch + 1 :=
  wrap_of_lt hroom

/-!
## One turn
-/

def ready (s : Shuffle) : Shuffle :=
  if s.Due then s.reshuffle else s

theorem size_ready (s : Shuffle) : s.ready.size = s.size := by
  unfold ready
  split <;> rfl

theorem cursor_ready_lt (hsize : 0 < s.size) : s.ready.cursor < s.ready.perm.length := by
  unfold ready
  split
  · exact length_reshuffle_pos hsize
  · rename_i hdue
    rw [Due, not_or] at hdue
    exact Nat.lt_of_not_le hdue.2

def taken (s : Shuffle) : Shuffle :=
  s.ready.moved (s.ready.cursor + 1)

theorem size_taken (s : Shuffle) : s.taken.size = s.size :=
  s.size_ready

theorem next?_eq (hsize : 0 < s.size) (hcursor : s.ready.cursor < s.ready.perm.length) :
    s.next? = some (s.ready.perm[s.ready.cursor], s.taken) := by
  have htake : s.ready.take? = some (s.ready.perm[s.ready.cursor], s.taken) := by
    simp [take?, hcursor, taken]
  rw [← htake, next?, if_neg (by omega)]
  unfold ready
  split <;> rfl

theorem exists_next (s : Shuffle) : ∃ index s', s.next? = some (index, s') := by
  rcases Nat.eq_zero_or_pos s.size with hzero | hsize
  · exact ⟨0, s, by rw [next?, if_pos hzero]⟩
  · exact ⟨_, _, next?_eq hsize (cursor_ready_lt hsize)⟩

/-- Whether the count of orders lasts for the next turn. -/
def Lasts (s : Shuffle) : Prop :=
  s.Due → s.epoch + 1 < wordLimit

theorem Lasts.epoch_ready_pos (h : s.Lasts) : 0 < s.ready.epoch := by
  unfold ready
  split
  · rw [epoch_reshuffle (h ‹_›)]
    exact Nat.succ_pos _
  · rename_i hdue
    simp only [Due, not_or] at hdue
    omega

theorem size_add (hroom : s.size + 1 < wordLimit) : s.add.size = s.size + 1 := by
  rw [← wrap_of_lt hroom, add]
  split
  · rfl
  · split <;> rfl

theorem epoch_add (s : Shuffle) : s.add.epoch = s.epoch := by
  rw [add]
  split
  · rfl
  · split <;> rfl

/-!
## Well-formed states
-/

/-- Nothing was drawn yet, or every index is either in the order or promised a slot. -/
def WellFormed (s : Shuffle) : Prop :=
  s.epoch = 0 ∧ s.perm = [] ∧ s.cursor = 0 ∧ s.deferred = [] ∨
    0 < s.epoch ∧ (s.perm ++ s.deferred.map Prod.fst).Perm (List.range s.size) ∧
      s.cursor ≤ s.perm.length

theorem wellFormed_empty (seed : Nat) : WellFormed (empty seed) :=
  Or.inl ⟨rfl, rfl, rfl, rfl⟩

namespace WellFormed

theorem deal (h : s.WellFormed) : s.reshuffle.perm.Perm (List.range s.size) := by
  refine s.reshuffle_perm.trans ?_
  rcases h with ⟨-, -, -, hdeferred⟩ | ⟨-, hperm, -⟩
  · simp [drawn, hdeferred]
  · exact ((drawn_perm hperm).append_right _).trans hperm

theorem length_deal (h : s.WellFormed) : s.reshuffle.perm.length = s.size := by
  rw [h.deal.length_eq, List.length_range]

theorem reshuffle (h : s.WellFormed) (hroom : s.epoch + 1 < wordLimit) :
    s.reshuffle.WellFormed := by
  refine Or.inr ⟨?_, by simpa [Shuffle.reshuffle] using h.deal, Nat.zero_le _⟩
  rw [epoch_reshuffle hroom]
  exact Nat.succ_pos _

theorem cursor_le (h : s.WellFormed) : s.cursor ≤ s.perm.length := by
  rcases h with ⟨-, -, hzero, -⟩ | ⟨-, -, hle⟩
  · omega
  · exact hle

theorem length_le (h : s.WellFormed) : s.perm.length ≤ s.size := by
  rcases h with ⟨-, hnil, -⟩ | ⟨-, hperm, -⟩
  · simp [hnil]
  · have hlength := hperm.length_eq
    simp only [List.length_append, List.length_range] at hlength
    omega

theorem length_lt (h : s.WellFormed) : s.perm.length < wordLimit :=
  Nat.lt_of_le_of_lt h.length_le s.size_lt

theorem lt_of_mem (h : s.WellFormed) {index : Nat}
    (hmem : index ∈ s.perm ∨ index ∈ s.deferred.map Prod.fst) : index < s.size := by
  rcases h with ⟨-, hnil, -, hdeferred⟩ | ⟨-, hperm, -⟩
  · simp [hnil, hdeferred] at hmem
  · exact List.mem_range.mp (hperm.mem_iff.mp (List.mem_append.mpr hmem))

theorem ready (h : s.WellFormed) (hroom : s.Lasts) : s.ready.WellFormed := by
  unfold Shuffle.ready
  split
  · exact h.reshuffle (hroom ‹_›)
  · exact h

theorem taken (h : s.WellFormed) (hsize : 0 < s.size) (hroom : s.Lasts) :
    s.taken.WellFormed := by
  have hcursor := cursor_ready_lt hsize
  have hepoch := hroom.epoch_ready_pos
  rcases h.ready hroom with ⟨hzero, -⟩ | ⟨-, hperm, -⟩
  · omega
  · exact Or.inr ⟨hepoch, hperm, Nat.le_trans (wrap_le _) hcursor⟩

theorem add (h : s.WellFormed) (hroom : s.size + 1 < wordLimit) : s.add.WellFormed := by
  rcases h with ⟨hepoch, hrest⟩ | ⟨hepoch, hperm, hcursor⟩
  · rw [Shuffle.add, if_pos hepoch]
    exact Or.inl ⟨hepoch, hrest⟩
  · have hslot := halfwaySlot_le s.cursor s.perm.length
    have hgrown : (s.size :: (s.perm ++ s.deferred.map Prod.fst)).Perm
        (List.range (wrap (s.size + 1))) := by
      rw [wrap_of_lt hroom, List.range_succ]
      exact (hperm.cons _).trans (List.perm_append_singleton _ _).symm
    rw [Shuffle.add, if_neg (by omega)]
    split
    · refine Or.inr ⟨hepoch, ?_, ?_⟩
      · exact ((List.perm_insertIdx _ _ hslot).append_right _).trans hgrown
      · simp only [seat, List.length_insertIdx, hslot, if_true]
        omega
    · refine Or.inr ⟨hepoch, ?_, hcursor⟩
      simp only [defer, List.map_append, List.map_cons, List.map_nil, ← List.append_assoc]
      exact (List.perm_append_singleton _ _).trans hgrown

end WellFormed

/-!
## Indices below a number
-/

/-- Whether a shuffle hands out no index beyond a number, now and later. -/
structure KeepsTo (n : Nat) (s : Shuffle) : Prop where
  size : s.size ≤ n
  perm : ∀ index ∈ s.perm, index < n
  deferred : ∀ newcomer ∈ s.deferred, newcomer.1 < n

namespace KeepsTo

variable {n : Nat}

theorem empty (seed : Nat) : KeepsTo 0 (empty seed) where
  size := Nat.le_refl 0
  perm := by simp [Shuffle.empty]
  deferred := by simp [Shuffle.empty]

theorem ready (h : s.KeepsTo n) : s.ready.KeepsTo n := by
  unfold Shuffle.ready
  split
  · refine ⟨h.size, ?_, by simp [reshuffle]⟩
    intro index hindex
    rcases List.mem_append.mp (s.reshuffle_perm.mem_iff.mp hindex) with hdrawn | hdeferred
    · exact Nat.lt_of_lt_of_le (List.mem_range.mp (List.mem_filter.mp hdrawn).1) h.size
    · rcases List.mem_map.mp hdeferred with ⟨newcomer, hnewcomer, rfl⟩
      exact h.deferred newcomer hnewcomer
  · exact h

theorem steady : Steady KeepsTo where
  next := fun {n s} h hpos => by
    rcases Nat.eq_zero_or_pos s.size with hzero | hsize
    · exact ⟨0, s, if_pos hzero, hpos, h⟩
    · have hready := h.ready
      exact ⟨_, _, next?_eq hsize (cursor_ready_lt hsize), hready.perm _ (List.getElem_mem _),
        hready.size, hready.perm, hready.deferred⟩

theorem add (h : s.KeepsTo n) : s.add.KeepsTo (n + 1) := by
  have hsize : wrap (s.size + 1) ≤ n + 1 := Nat.le_trans (wrap_le _) (Nat.succ_le_succ h.size)
  have hnew : s.size < n + 1 := Nat.lt_succ_of_le h.size
  have hperm : ∀ index ∈ s.perm, index < n + 1 := fun index hindex =>
    Nat.lt_succ_of_lt (h.perm index hindex)
  have hdeferred : ∀ newcomer ∈ s.deferred, newcomer.1 < n + 1 := fun newcomer hnewcomer =>
    Nat.lt_succ_of_lt (h.deferred newcomer hnewcomer)
  rw [Shuffle.add]
  split
  · exact ⟨hsize, hperm, hdeferred⟩
  · split
    · refine ⟨hsize, ?_, hdeferred⟩
      intro index hindex
      rcases (List.mem_insertIdx (halfwaySlot_le _ _)).mp hindex with rfl | hold
      · exact hnew
      · exact hperm index hold
    · refine ⟨hsize, hperm, ?_⟩
      intro newcomer hnewcomer
      rcases List.mem_append.mp hnewcomer with hold | hlast
      · exact hdeferred newcomer hold
      · rw [List.mem_singleton.mp hlast]
        exact hnew

end KeepsTo

/-!
## Turns within a round

While the round lasts, turns follow its order. A round that has just been dealt lasts for all
indices.
-/

theorem moved_cursor (s : Shuffle) : s.moved s.cursor = s :=
  Shuffle.ext rfl (wrap_of_lt s.cursor_lt) rfl rfl rfl rfl

theorem turns_of_room (asks : Nat) (hepoch : 0 < s.epoch) (hsize : 0 < s.size)
    (hfits : s.perm.length < wordLimit) (hroom : s.cursor + asks ≤ s.perm.length) :
    upcoming asks s = (s.perm.drop s.cursor).take asks ∧
      advance asks s = s.moved (s.cursor + asks) := by
  induction asks generalizing s with
  | zero => exact ⟨rfl, s.moved_cursor.symm⟩
  | succ asks ih =>
      have hcursor : s.cursor < s.perm.length := by omega
      have hready : s.ready = s := if_neg (by simp only [Due]; omega)
      have htaken : s.taken = s.moved (s.cursor + 1) := by rw [taken, hready]
      have hmoved : (s.moved (s.cursor + 1)).cursor = s.cursor + 1 := cursor_moved (by omega)
      have hnext : Rotation.next? s = some (s.perm[s.cursor], s.taken) := by
        have hindex := next?_eq hsize (cursor_ready_lt hsize)
        simp only [hready] at hindex
        exact hindex
      have hrest : (s.moved (s.cursor + 1)).cursor + asks ≤ s.perm.length := by omega
      rcases ih (s := s.moved (s.cursor + 1)) hepoch hsize hfits hrest
        with ⟨hupcoming, hadvance⟩
      rw [hmoved] at hupcoming hadvance
      rw [upcoming, advance, hnext, htaken]
      refine ⟨?_, ?_⟩
      · simp only [hupcoming]
        rw [List.drop_eq_getElem_cons hcursor, List.take_succ_cons]
        rfl
      · simp only [hadvance]
        rw [Nat.add_comm asks 1, ← Nat.add_assoc]
        rfl

theorem next?_of_due (hsize : 0 < s.size) (hdue : s.Due) {first : Nat} {rest : List Nat}
    (hperm : s.reshuffle.perm = first :: rest) :
    Rotation.next? s = some (first, s.reshuffle.moved 1) := by
  have hcursor : s.reshuffle.cursor = 0 := rfl
  have hfirst : s.reshuffle.perm[0]? = some first := by
    rw [hperm]
    rfl
  show s.next? = _
  rw [next?, if_neg (by omega), if_pos hdue, take?, hcursor, hfirst]
  rfl

theorem turns_of_due (h : s.WellFormed) (hdue : s.Due) (hroom : s.epoch + 1 < wordLimit)
    {asks : Nat} (hasks : asks + 1 ≤ s.size) :
    upcoming (asks + 1) s = s.reshuffle.perm.take (asks + 1) ∧
      advance (asks + 1) s = s.reshuffle.moved (asks + 1) := by
  have hsize : 0 < s.size := by omega
  have hlength := h.length_deal
  cases hperm : s.reshuffle.perm with
  | nil =>
      rw [hperm, List.length_nil] at hlength
      omega
  | cons first rest =>
      have hfits : s.reshuffle.perm.length < wordLimit := hlength ▸ s.size_lt
      have hcursor : (s.reshuffle.moved 1).cursor = 1 := rfl
      have hepoch : 0 < (s.reshuffle.moved 1).epoch := by
        show 0 < s.reshuffle.epoch
        rw [epoch_reshuffle hroom]
        exact Nat.succ_pos _
      have hrest : 1 + asks ≤ s.reshuffle.perm.length := by omega
      have hafter : (s.reshuffle.moved 1).perm.drop 1 = rest := by
        show s.reshuffle.perm.drop 1 = rest
        rw [hperm]
        rfl
      rcases turns_of_room (s := s.reshuffle.moved 1) asks hepoch hsize hfits hrest with
        ⟨hupcoming, hadvance⟩
      rw [upcoming, advance, next?_of_due hsize hdue hperm]
      refine ⟨?_, ?_⟩
      · simp only [hupcoming, hcursor, hafter, List.take_succ_cons]
      · rw [Nat.add_comm asks 1]
        exact hadvance

theorem upcoming_of_due (h : s.WellFormed) (hdue : s.Due) (hroom : s.epoch + 1 < wordLimit)
    {asks : Nat} (hasks : asks ≤ s.size) : upcoming asks s = s.reshuffle.perm.take asks := by
  cases asks with
  | zero => rfl
  | succ asks => exact (turns_of_due h hdue hroom hasks).1

/-- The upcoming turns finish the round and go over into a new order. -/
theorem upcoming_eq (h : s.WellFormed) (hroom : s.epoch + 1 < wordLimit) :
    upcoming s.size s = s.perm.drop s.cursor ++
      s.reshuffle.perm.take (s.size - (s.perm.length - s.cursor)) := by
  by_cases hdue : s.Due
  · have hover : s.perm.length ≤ s.cursor := by
      rcases h with ⟨-, hnil, -, -⟩ | ⟨hepoch, -, -⟩
      · simp [hnil]
      · simp only [Due] at hdue
        omega
    rw [List.drop_eq_nil_of_le hover, List.nil_append, Nat.sub_eq_zero_of_le hover,
      Nat.sub_zero]
    exact upcoming_of_due h hdue hroom (Nat.le_refl _)
  · have hlength := h.length_le
    have hfits := h.length_lt
    rcases h with ⟨hzero, -⟩ | ⟨hepoch, hperm, hcursor⟩
    · exact absurd (Or.inl hzero) hdue
    · simp only [Due, not_or] at hdue
      have hround :=
        turns_of_room (s.perm.length - s.cursor) hepoch (by omega) hfits (by omega)
      have hcursor' : (s.moved s.perm.length).cursor = s.perm.length := cursor_moved hfits
      have hover : (s.moved s.perm.length).WellFormed :=
        Or.inr ⟨hepoch, hperm, Nat.le_of_eq hcursor'⟩
      have hnew := upcoming_of_due hover (Or.inr (Nat.le_of_eq hcursor'.symm)) hroom
        (Nat.sub_le s.size (s.perm.length - s.cursor))
      have hsplit : s.size = s.perm.length - s.cursor +
          (s.size - (s.perm.length - s.cursor)) := by
        omega
      have hend : s.cursor + (s.perm.length - s.cursor) = s.perm.length := by omega
      conv_lhs => rw [hsplit]
      rw [upcoming_add, hround.1, hround.2, hend, hnew, List.take_of_length_le (by simp)]
      rfl

theorem mem_upcoming (h : s.WellFormed) (hdue : s.Due) (hroom : s.epoch + 1 < wordLimit)
    {index : Nat} : index ∈ upcoming s.size s ↔ index < s.size := by
  rw [upcoming_of_due h hdue hroom (Nat.le_refl _),
    List.take_of_length_le (Nat.le_of_eq h.length_deal), h.deal.mem_iff, List.mem_range]

/-!
## The number of orders
-/

/-- Whether the count of orders lasts for a number of turns: for one more order, or because the
turns are left in this round. -/
def LastsFor (asks : Nat) (s : Shuffle) : Prop :=
  s.epoch + 1 < wordLimit ∨ 0 < s.epoch ∧ s.cursor + asks ≤ s.perm.length

namespace LastsFor

variable {asks : Nat}

theorem lasts (h : s.LastsFor (asks + 1)) : s.Lasts := by
  intro hdue
  refine h.resolve_right ?_
  rintro ⟨hepoch, hleft⟩
  rw [Due] at hdue
  omega

theorem taken (h : s.LastsFor (asks + 1)) (hs : s.WellFormed) (hasks : asks + 1 ≤ s.size) :
    s.taken.LastsFor asks := by
  have hwrap := wrap_le (s.ready.cursor + 1)
  by_cases hdue : s.Due
  · have hready : s.ready = s.reshuffle := if_pos hdue
    refine Or.inr ⟨h.lasts.epoch_ready_pos, ?_⟩
    show wrap (s.ready.cursor + 1) + asks ≤ s.ready.perm.length
    rw [hready, hs.length_deal]
    have hwrapped : wrap (s.reshuffle.cursor + 1) = 1 := rfl
    omega
  · have hready : s.ready = s := if_neg hdue
    rw [LastsFor, Shuffle.taken, hready]
    rw [hready] at hwrap
    refine h.imp id (And.imp_right ?_)
    intro hleft
    show wrap (s.cursor + 1) + asks ≤ s.perm.length
    omega

end LastsFor

theorem epoch_advance_le (h : s.WellFormed) (hroom : s.epoch + 1 < wordLimit) {asks : Nat}
    (hasks : asks ≤ s.size) : (advance asks s).epoch ≤ s.epoch + 1 := by
  induction asks generalizing s with
  | zero => exact Nat.le_succ _
  | succ asks ih =>
      have hsize : 0 < s.size := by omega
      by_cases hdue : s.Due
      · -- The new order has room for all turns that are left.
        rw [(turns_of_due h hdue hroom hasks).2]
        exact Nat.le_of_eq (epoch_reshuffle hroom)
      · have hnext : Rotation.next? s = _ := next?_eq hsize (cursor_ready_lt hsize)
        have hepoch : s.taken.epoch = s.epoch := by
          rw [taken, ready, if_neg hdue]
          rfl
        rw [advance, hnext, ← hepoch]
        refine ih (h.taken hsize fun _ => hroom) (hepoch ▸ hroom) ?_
        rw [size_taken]
        omega

end Shuffle
end Jukebox
