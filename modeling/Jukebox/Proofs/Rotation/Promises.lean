import Jukebox.Proofs.Rotation.Rounds

/-!
# What becomes of promised slots

A newcomer whose slot in the current round has passed is promised that slot in the next order.
Within a round the promised slots never go down, and they go up with the turns that are taken.
When the next order is drawn, the newcomers are placed one after the other, and each moves
those on that stand at its slot or behind it. So a promise is kept exactly if the same slot was
not promised again afterwards. It was if somebody else joined before the next turn.
-/

namespace Jukebox
namespace Shuffle

open Rotation

/-!
## Placing newcomers
-/

def shifted (slot : Nat) (newcomer : Nat × Nat) : Nat :=
  if newcomer.2 ≤ slot then slot + 1 else slot

/-- Where an index stands after all those that are placed later. -/
def settled (slot : Nat) (later : List (Nat × Nat)) : Nat :=
  later.foldl shifted slot

variable {perm : List Nat} {newcomer : Nat × Nat} {later : List (Nat × Nat)} {index slot : Nat}

theorem length_place (perm : List Nat) (newcomer : Nat × Nat) :
    (place perm newcomer).length = perm.length + 1 :=
  (place_perm perm newcomer).length_eq

theorem getElem?_place_self (hslot : newcomer.2 ≤ perm.length) :
    (place perm newcomer)[newcomer.2]? = some newcomer.1 := by
  rw [place, Nat.min_eq_left hslot, List.getElem?_insertIdx_self, if_pos hslot]

theorem getElem?_place (hslot : newcomer.2 ≤ perm.length) (hindex : perm[slot]? = some index) :
    (place perm newcomer)[shifted slot newcomer]? = some index := by
  rw [place, Nat.min_eq_left hslot, shifted]
  split
  · rename_i hle
    rw [List.getElem?_insertIdx_of_gt (Nat.lt_succ_of_le hle), Nat.succ_sub_one, hindex]
  · rename_i hlt
    rw [List.getElem?_insertIdx_of_lt (Nat.lt_of_not_le hlt), hindex]

theorem getElem?_foldl_place (hslots : ∀ newcomer ∈ later, newcomer.2 ≤ perm.length)
    (hindex : perm[slot]? = some index) :
    (later.foldl place perm)[settled slot later]? = some index := by
  induction later generalizing perm slot with
  | nil => exact hindex
  | cons newcomer rest ih =>
      have hfirst := hslots newcomer List.mem_cons_self
      refine ih ?_ (getElem?_place hfirst hindex)
      intro other hother
      rw [length_place]
      exact Nat.le_succ_of_le (hslots other (List.mem_cons_of_mem _ hother))

theorem le_shifted (slot : Nat) (newcomer : Nat × Nat) : slot ≤ shifted slot newcomer := by
  rw [shifted]
  split
  · exact Nat.le_succ slot
  · exact Nat.le_refl slot

theorem le_settled (slot : Nat) (later : List (Nat × Nat)) : slot ≤ settled slot later := by
  induction later generalizing slot with
  | nil => exact Nat.le_refl slot
  | cons newcomer rest ih => exact Nat.le_trans (le_shifted slot newcomer) (ih _)

/-- As long as slots do not go down, only a newcomer with the same slot moves an index on. -/
theorem settled_eq_self_iff (hlater : ∀ newcomer ∈ later, slot ≤ newcomer.2) :
    settled slot later = slot ↔ ∀ newcomer ∈ later, newcomer.2 ≠ slot := by
  induction later with
  | nil => simp [settled]
  | cons newcomer rest ih =>
      have hfirst := hlater newcomer List.mem_cons_self
      have hrest := ih fun other hother => hlater other (List.mem_cons_of_mem _ hother)
      have hstep : settled slot (newcomer :: rest) = settled (shifted slot newcomer) rest :=
        rfl
      by_cases heq : newcomer.2 = slot
      · have hmoved : slot < settled (shifted slot newcomer) rest := by
          rw [shifted, if_pos (Nat.le_of_eq heq)]
          exact le_settled (slot + 1) rest
        rw [hstep]
        exact ⟨fun hsame => absurd hsame (Nat.ne_of_gt hmoved),
          fun hnone => absurd heq (hnone newcomer List.mem_cons_self)⟩
      · have hkept : shifted slot newcomer = slot := if_neg (by omega)
        rw [hstep, hkept, hrest, List.forall_mem_cons]
        exact (and_iff_right heq).symm

/-!
## Late newcomers
-/

/-- Whether the slot of a newcomer in the current round has passed. -/
def Late (s : Shuffle) : Prop :=
  0 < s.epoch ∧ s.perm.length < s.cursor + (s.perm.length + 1) / 2

def nextSlot (s : Shuffle) : Nat :=
  s.cursor + (s.perm.length + 1) / 2 - (s.perm.length + 1)

variable {s s' after : Shuffle}

theorem epoch_taken_le (s : Shuffle) : s.taken.epoch ≤ s.epoch + 1 := by
  show s.ready.epoch ≤ _
  rw [ready]
  split
  · exact wrap_le _
  · exact Nat.le_succ _

/-- Whether sizes and numbers of orders stay far below the limit of words for some more
events. -/
structure Roomy (events : Nat) (s : Shuffle) : Prop where
  size : s.size + events < 2 ^ 63
  epoch : s.epoch + events < 2 ^ 63

namespace Roomy

variable {events : Nat}

theorem of_empty (seed : Nat) (h : events < 2 ^ 63) : (empty seed).Roomy events :=
  ⟨(Nat.zero_add _).symm ▸ h, (Nat.zero_add _).symm ▸ h⟩

theorem size_lt (h : s.Roomy (events + 1)) : s.size + 1 < wordLimit := by
  have hsize := h.size
  rw [wordLimit]
  omega

theorem lasts (h : s.Roomy (events + 1)) : s.Lasts := by
  have hepoch := h.epoch
  rw [Lasts, wordLimit]
  omega

theorem length_lt (h : s.Roomy events) (hs : s.WellFormed) : s.perm.length < 2 ^ 63 := by
  have hsize := h.size
  have hlength := hs.length_le
  omega

theorem mono {fewer : Nat} (h : s.Roomy events) (hle : fewer ≤ events) : s.Roomy fewer :=
  ⟨by have hsize := h.size; omega, by have hepoch := h.epoch; omega⟩

theorem add (h : s.Roomy (events + 1)) : s.add.Roomy events := by
  have hsize := h.size
  have hepoch := h.epoch
  refine ⟨?_, ?_⟩
  · rw [size_add h.size_lt]
    omega
  · rw [epoch_add]
    omega

theorem taken (h : s.Roomy (events + 1)) : s.taken.Roomy events := by
  have hsize := h.size
  have hepoch := h.epoch
  have hdrawn := s.epoch_taken_le
  refine ⟨?_, ?_⟩
  · rw [size_taken]
    omega
  · omega

end Roomy

theorem add_ahead (hepoch : 0 < s.epoch)
    (hahead : s.cursor ≤ halfwaySlot s.cursor s.perm.length) :
    s.add = s.seat (halfwaySlot s.cursor s.perm.length) (halfwaySlot_le _ _) := by
  rw [add, if_neg (Nat.ne_of_gt hepoch), if_pos hahead]

theorem Late.halfwaySlot_eq (hlate : s.Late) (hs : s.WellFormed)
    (hfits : s.perm.length < 2 ^ 63) : halfwaySlot s.cursor s.perm.length = s.nextSlot :=
  halfwaySlot_passed hfits hs.cursor_le hlate.2

theorem Late.nextSlot_lt (hlate : s.Late) (hs : s.WellFormed) : s.nextSlot < s.cursor := by
  have hcursor := hs.cursor_le
  have hpassed := hlate.2
  rw [nextSlot]
  omega

theorem Late.add_eq (hlate : s.Late) (hs : s.WellFormed) (hfits : s.perm.length < 2 ^ 63) :
    s.add = s.defer s.nextSlot (Nat.lt_trans (hlate.nextSlot_lt hs) s.cursor_lt) := by
  have hslot := hlate.halfwaySlot_eq hs hfits
  have hpassed : ¬s.cursor ≤ halfwaySlot s.cursor s.perm.length := by
    rw [hslot]
    exact Nat.not_le.mpr (hlate.nextSlot_lt hs)
  rw [add, if_neg (Nat.ne_of_gt hlate.1), if_neg hpassed]
  simp only [hslot]

theorem Late.size_pos (hlate : s.Late) (hs : s.WellFormed) : 0 < s.size := by
  have hpassed := hlate.2
  have hcursor := hs.cursor_le
  have hlength := hs.length_le
  omega

theorem taken_of_not_due (hdue : ¬s.Due) : s.taken = s.moved (s.cursor + 1) := by
  rw [taken, ready, if_neg hdue]

theorem epoch_taken (hroom : s.Lasts) :
    s.taken.epoch = if s.Due then s.epoch + 1 else s.epoch := by
  show s.ready.epoch = _
  rw [ready]
  split
  · exact epoch_reshuffle (hroom ‹_›)
  · rfl

theorem epoch_le_taken (hroom : s.Lasts) : s.epoch ≤ s.taken.epoch := by
  rw [epoch_taken hroom]
  split <;> omega

theorem next?_taken (hsize : 0 < s.size) : ∃ index, Rotation.next? s = some (index, s.taken) :=
  ⟨_, next?_eq hsize (cursor_ready_lt hsize)⟩

theorem epoch_le_of_play (hs : s.WellFormed) {events : List Event}
    (hroom : s.Roomy events.length) {indices : List Nat}
    (hplay : play? events s = some (indices, s')) : s.epoch ≤ s'.epoch := by
  induction events generalizing s indices with
  | nil =>
      cases hplay
      exact Nat.le_refl _
  | cons event rest ih =>
      cases event with
      | newcomer =>
          rw [← epoch_add]
          exact ih (hs.add hroom.size_lt) hroom.add hplay
      | turn =>
          rcases exists_of_play?_turn hplay with ⟨index, middle, others, hnext, hrest, -⟩
          rcases Nat.eq_zero_or_pos s.size with hzero | hsize
          · rw [next?_idle hzero] at hnext
            cases hnext
            exact ih hs (hroom.mono (Nat.le_succ _)) hrest
          · rcases next?_taken hsize with ⟨found, htaken⟩
            rw [htaken] at hnext
            cases hnext
            have hlater := ih (hs.taken hsize hroom.lasts) hroom.taken hrest
            exact Nat.le_trans (epoch_le_taken hroom.lasts) hlater

theorem Late.turn (hlate : s.Late) (hs : s.WellFormed) {events : List Event}
    (hroom : s.Roomy (events.length + 1)) {indices : List Nat}
    (hplay : play? (.turn :: events) s = some (indices, s')) (hepoch : s'.epoch = s.epoch) :
    ∃ others, play? events s.taken = some (others, s') ∧ s'.epoch = s.taken.epoch ∧
      s.taken.Late ∧ s.taken.deferred = s.deferred ∧ s.taken.nextSlot = s.nextSlot + 1 := by
  have hsize := hlate.size_pos hs
  rcases exists_of_play?_turn hplay with ⟨index, middle, others, hnext, hrest, -⟩
  rcases next?_taken hsize with ⟨found, htaken⟩
  rw [htaken] at hnext
  cases hnext
  have hdue : ¬s.Due := by
    intro hdue
    have hdrawn := epoch_taken hroom.lasts
    rw [if_pos hdue] at hdrawn
    have hle := epoch_le_of_play (hs.taken hsize hroom.lasts) hroom.taken hrest
    omega
  have hpassed := hlate.2
  have hcursor : s.cursor < s.perm.length := by
    rw [Due, not_or] at hdue
    omega
  have hmoved : (s.moved (s.cursor + 1)).cursor = s.cursor + 1 :=
    cursor_moved (Nat.lt_of_le_of_lt hcursor hs.length_lt)
  refine ⟨others, hrest, ?_⟩
  rw [taken_of_not_due hdue]
  refine ⟨hepoch, ⟨hlate.1, ?_⟩, rfl, ?_⟩
  · rw [hmoved, perm_moved]
    omega
  · rw [nextSlot, nextSlot, hmoved, perm_moved]
    omega

theorem Late.grown (hlate : s.Late) (hs : s.WellFormed) (hfits : s.perm.length < 2 ^ 63) :
    s.add.Late ∧ s.add.deferred = s.deferred ++ [(s.size, s.nextSlot)] ∧
      s.add.nextSlot = s.nextSlot := by
  rw [hlate.add_eq hs hfits]
  exact ⟨hlate, rfl, rfl⟩

/-- Until the next order is drawn, all newcomers are deferred, with slots that do not go
down. -/
theorem Late.play (hlate : s.Late) (hs : s.WellFormed) {events : List Event}
    (hroom : s.Roomy events.length) {indices : List Nat}
    (hplay : play? events s = some (indices, s')) (hepoch : s'.epoch = s.epoch) :
    ∃ later, s'.deferred = s.deferred ++ later ∧ ∀ other ∈ later, s.nextSlot ≤ other.2 := by
  induction events generalizing s indices with
  | nil =>
      cases hplay
      exact ⟨[], (List.append_nil _).symm, by simp⟩
  | cons event rest ih =>
      cases event with
      | newcomer =>
          rcases hlate.grown hs (hroom.length_lt hs) with ⟨hgrown, hdeferred, hslot⟩
          rcases ih hgrown (hs.add hroom.size_lt) hroom.add hplay
            (hepoch.trans s.epoch_add.symm) with
            ⟨later, hlater, hslots⟩
          refine ⟨(s.size, s.nextSlot) :: later, ?_, ?_⟩
          · rw [hlater, hdeferred, List.append_assoc, List.singleton_append]
          · rw [List.forall_mem_cons]
            exact ⟨Nat.le_refl _, hslot ▸ hslots⟩
      | turn =>
          rcases hlate.turn hs hroom hplay hepoch with
            ⟨others, hrest, hsame, hgone, hdeferred, hslot⟩
          have hturned := hs.taken (hlate.size_pos hs) hroom.lasts
          rcases ih hgone hturned hroom.taken hrest hsame with ⟨later, hlater, hslots⟩
          refine ⟨later, hlater.trans (by rw [hdeferred]), ?_⟩
          intro other hother
          have hle := hslots other hother
          omega

/-!
## Promises
-/

/-- Slots are promised in ascending order, and none goes further than the next one would. -/
structure Promising (s : Shuffle) : Prop where
  wellFormed : s.WellFormed
  ordered : s.deferred.Pairwise fun earlier later => earlier.2 ≤ later.2
  passed : ∀ newcomer ∈ s.deferred, s.Late ∧ newcomer.2 ≤ s.nextSlot

namespace Promising

theorem empty (seed : Nat) : Promising (empty seed) where
  wellFormed := wellFormed_empty seed
  ordered := .nil
  passed := by simp [Shuffle.empty]

theorem of_deferred_eq_nil (hs : s.WellFormed) (hnone : s.deferred = []) : s.Promising where
  wellFormed := hs
  ordered := by rw [hnone]; exact .nil
  passed := by simp [hnone]

theorem taken (h : s.Promising) (hsize : 0 < s.size) (hroom : s.Lasts) :
    s.taken.Promising := by
  have hs := h.wellFormed.taken hsize hroom
  by_cases hdue : s.Due
  · refine of_deferred_eq_nil hs ?_
    rw [Shuffle.taken, ready, if_pos hdue]
    rfl
  · have hcursor : s.cursor < s.perm.length := by
      rw [Due, not_or] at hdue
      omega
    have hmoved : (s.moved (s.cursor + 1)).cursor = s.cursor + 1 :=
      cursor_moved (Nat.lt_of_le_of_lt hcursor h.wellFormed.length_lt)
    rw [taken_of_not_due hdue] at hs ⊢
    refine ⟨hs, h.ordered, ?_⟩
    intro newcomer hmem
    rcases h.passed newcomer hmem with ⟨⟨hepoch, hpassed⟩, hslot⟩
    rw [nextSlot] at hslot
    refine ⟨⟨hepoch, ?_⟩, ?_⟩
    · rw [hmoved, perm_moved]
      omega
    · rw [nextSlot, hmoved, perm_moved]
      omega

theorem add (h : s.Promising) {events : Nat} (hroom : s.Roomy (events + 1)) :
    s.add.Promising := by
  have hs := h.wellFormed
  have hfits := hroom.length_lt hs
  have hgrown := hs.add hroom.size_lt
  by_cases hlate : s.Late
  · rcases hlate.grown hs hfits with ⟨hlater, hdeferred, hslot⟩
    have hslots : ∀ newcomer ∈ s.deferred, newcomer.2 ≤ s.nextSlot :=
      fun newcomer hmem => (h.passed newcomer hmem).2
    refine ⟨hgrown, ?_, ?_⟩
    · rw [hdeferred, List.pairwise_append]
      refine ⟨h.ordered, List.pairwise_singleton _ _, ?_⟩
      intro earlier hearlier last hlast
      rw [List.mem_singleton.mp hlast]
      exact hslots earlier hearlier
    · intro newcomer hmem
      rw [hdeferred, List.mem_append, List.mem_singleton] at hmem
      rw [hslot]
      rcases hmem with hold | rfl
      · exact ⟨hlater, hslots newcomer hold⟩
      · exact ⟨hlater, Nat.le_refl _⟩
  · -- Nobody was deferred so far, and the newcomer is not either.
    have hnone : s.deferred = [] := by
      apply List.eq_nil_iff_forall_not_mem.mpr
      intro newcomer hmem
      exact hlate (h.passed newcomer hmem).1
    refine of_deferred_eq_nil hgrown ?_
    by_cases hepoch : s.epoch = 0
    · rw [Shuffle.add, if_pos hepoch]
      exact hnone
    · have hdrawn := Nat.pos_of_ne_zero hepoch
      rw [Late, not_and, Nat.not_lt] at hlate
      have hslot := halfwaySlot_ahead hs.length_lt (hlate hdrawn)
      rw [add_ahead hdrawn (hslot ▸ Nat.le_add_right _ _)]
      exact hnone

theorem play (h : s.Promising) {events : List Event} {left : Nat}
    (hroom : s.Roomy (events.length + left)) {indices : List Nat}
    (hplay : play? events s = some (indices, s')) : s'.Promising ∧ s'.Roomy left := by
  induction events generalizing s indices with
  | nil =>
      cases hplay
      exact ⟨h, Nat.zero_add left ▸ hroom⟩
  | cons event rest ih =>
      rw [List.length_cons, Nat.add_right_comm] at hroom
      cases event with
      | newcomer => exact ih (h.add hroom) hroom.add hplay
      | turn =>
          rcases exists_of_play?_turn hplay with ⟨index, middle, others, hnext, hrest, -⟩
          rcases Nat.eq_zero_or_pos s.size with hzero | hsize
          · rw [next?_idle hzero] at hnext
            cases hnext
            exact ih h (hroom.mono (Nat.le_succ _)) hrest
          · rcases next?_taken hsize with ⟨found, htaken⟩
            rw [htaken] at hnext
            cases hnext
            exact ih (h.taken hsize hroom.lasts) hroom.taken hrest

end Promising

/-!
## The next order
-/

/-- What becomes of promised slots in an order. -/
structure Settled (deferred : List (Nat × Nat)) (perm : List Nat) : Prop where
  /-- Whoever is placed later, at an index or in front of it, moves it on. -/
  place : ∀ {earlier later : List (Nat × Nat)} {newcomer : Nat × Nat},
    deferred = earlier ++ newcomer :: later → perm[settled newcomer.2 later]? = some newcomer.1
  /-- A promise is kept exactly if its slot was not promised again. -/
  kept_iff : ∀ {earlier later : List (Nat × Nat)} {newcomer : Nat × Nat},
    deferred = earlier ++ newcomer :: later →
      (perm[newcomer.2]? = some newcomer.1 ↔ ∀ other ∈ later, other.2 ≠ newcomer.2)

theorem settled_nil (perm : List Nat) : Settled [] perm where
  place := fun hcut => by simp at hcut
  kept_iff := fun hcut => by simp at hcut

theorem Settled.all_kept_iff {deferred : List (Nat × Nat)} (h : Settled deferred perm) :
    (∀ newcomer ∈ deferred, perm[newcomer.2]? = some newcomer.1) ↔
      (deferred.map Prod.snd).Nodup := by
  have hlast : ∀ {earlier later : List (Nat × Nat)}, deferred = earlier ++ later →
      ((∀ newcomer ∈ later, perm[newcomer.2]? = some newcomer.1) ↔
        (later.map Prod.snd).Nodup) := by
    intro earlier later hcut
    induction later generalizing earlier with
    | nil => simp
    | cons newcomer rest ih =>
        have hmoved : deferred = (earlier ++ [newcomer]) ++ rest := by simpa using hcut
        have hrest := ih hmoved
        rw [List.forall_mem_cons, h.kept_iff hcut, hrest, List.map_cons, List.nodup_cons,
          List.mem_map]
        simp only [ne_eq, not_exists, not_and]
  exact hlast (List.nil_append deferred).symm

theorem Promising.slot_le_drawn (h : s.Promising) (g : Random.Generator)
    (hmem : newcomer ∈ s.deferred) : newcomer.2 ≤ (g.shuffle s.drawn).length := by
  rcases h.passed newcomer hmem with ⟨hlate, hslot⟩
  have hlt := hlate.nextSlot_lt h.wellFormed
  rcases h.wellFormed with ⟨hzero, -⟩ | ⟨-, hperm, hcursor⟩
  · exact absurd hlate.1 (by omega)
  · rw [(Random.Generator.shuffle_perm g s.drawn).length_eq, (drawn_perm hperm).length_eq]
    omega

theorem Promising.settled_reshuffle (h : s.Promising) :
    Settled s.deferred s.reshuffle.perm := by
  have hplace : ∀ {earlier later : List (Nat × Nat)} {newcomer : Nat × Nat},
      s.deferred = earlier ++ newcomer :: later →
        s.reshuffle.perm[settled newcomer.2 later]? = some newcomer.1 := by
    intro earlier later newcomer hcut
    have hslots := fun (other : Nat × Nat) (hother : other ∈ s.deferred) =>
      h.slot_le_drawn (.ofSeed (s.seed + s.epoch)) hother
    show s.nextOrder[_]? = _
    rw [nextOrder]
    generalize (Random.Generator.ofSeed (s.seed + s.epoch)).shuffle s.drawn = drawn at hslots ⊢
    have hlonger : drawn.length ≤ (earlier.foldl place drawn).length := by
      rw [(foldl_place_perm drawn earlier).length_eq, List.length_append]
      exact Nat.le_add_right _ _
    have hself := getElem?_place_self (Nat.le_trans (hslots newcomer (by simp [hcut])) hlonger)
    simp only [hcut, List.foldl_append, List.foldl_cons]
    refine getElem?_foldl_place ?_ hself
    intro other hother
    have hslot := hslots other (by simp [hcut, hother])
    rw [length_place]
    omega
  refine ⟨hplace, ?_⟩
  intro earlier later newcomer hcut
  have hordered := h.ordered
  rw [hcut, List.pairwise_append, List.pairwise_cons] at hordered
  rw [← settled_eq_self_iff hordered.2.1.1]
  have hsettled := hplace hcut
  constructor
  · -- An index stands in one place only.
    intro hkept
    have hnodup : s.reshuffle.perm.Nodup := h.wellFormed.deal.nodup_iff.mpr List.nodup_range
    have hplaced := (List.getElem?_eq_some_iff.mp hsettled).1
    exact (List.getElem?_inj hplaced hnodup).mp (hsettled.trans hkept.symm)
  · intro hsame
    rwa [hsame] at hsettled

theorem Promising.settled_next (h : s.Promising) (hdue : s.Due)
    (hnext : Rotation.next? s = some (index, after)) : Settled s.deferred after.perm := by
  rcases Nat.eq_zero_or_pos s.size with hzero | hsize
  · have hnone : s.deferred = [] := by
      apply List.eq_nil_iff_forall_not_mem.mpr
      intro newcomer hmem
      have hsize := (h.passed newcomer hmem).1.size_pos h.wellFormed
      omega
    rw [hnone]
    exact settled_nil _
  · rcases next?_taken hsize with ⟨found, htaken⟩
    rw [htaken] at hnext
    cases hnext
    rw [Shuffle.taken, ready, if_pos hdue]
    exact h.settled_reshuffle

/-- A late newcomer gets the promised slot exactly if nobody else joins before the next
turn. -/
theorem Promising.kept_iff_not_followed (h : s.Promising) (hlate : s.Late)
    {events : List Event} (hroom : s.Roomy (events.length + 1)) {indices : List Nat}
    (hplay : play? events s.add = some (indices, s')) (hepoch : s'.epoch = s.epoch)
    (hdue : s'.Due) (hnext : Rotation.next? s' = some (index, after)) :
    after.perm[s.nextSlot]? = some s.size ↔ events.head? ≠ some .newcomer := by
  have hs := h.wellFormed
  have hadd := hs.add hroom.size_lt
  have hleft : s.add.Roomy (events.length + 0) := hroom.add
  have hsettled := ((h.add hroom).play hleft hplay).1.settled_next hdue hnext
  rcases hlate.grown hs (hroom.length_lt hs) with ⟨hgrown, hdeferred, hslot⟩
  have hsame : s'.epoch = s.add.epoch := hepoch.trans s.epoch_add.symm
  cases events with
  | nil =>
      cases hplay
      rw [hsettled.kept_iff hdeferred]
      simp
  | cons event rest =>
      have hleft := hroom.add
      cases event with
      | newcomer =>
          rcases hgrown.grown hadd (hleft.length_lt hadd) with ⟨hagain, htwice, -⟩
          rcases hagain.play (hadd.add hleft.size_lt) hleft.add hplay
            (hsame.trans s.add.epoch_add.symm) with ⟨later, hlater, -⟩
          rw [htwice, hdeferred, hslot, List.append_assoc, List.append_assoc] at hlater
          rw [hsettled.kept_iff hlater]
          simp
      | turn =>
          rcases hgrown.turn hadd hleft hplay hsame with
            ⟨others, hrest, hkept, hgone, hwaiting, hmoved⟩
          have hturned := hadd.taken (hgrown.size_pos hadd) hleft.lasts
          rcases hgone.play hturned hleft.taken hrest hkept with ⟨later, hlater, hslots⟩
          rw [hwaiting, hdeferred, List.append_assoc] at hlater
          rw [hsettled.kept_iff hlater]
          refine iff_of_true ?_ (by simp)
          intro other hother
          have hle := hslots other hother
          simp only
          omega

/-- Whatever turns and newcomers there were: in the next order each deferred newcomer stands at
the slot it was promised, moved on by each later one that is placed there or in front of it.
All promises are kept exactly if no slot was promised twice. A newcomer whose slot has passed
is promised one, and gets it exactly if nobody else joins before the next turn.
-/
theorem promises_settled {seed : Nat} {before : List Event} {indices : List Nat}
    (hreached : play? before (empty seed) = some (indices, s))
    (hroom : before.length < 2 ^ 63) :
    (∀ {index : Nat} {after : Shuffle}, s.Due → Rotation.next? s = some (index, after) →
      Settled s.deferred after.perm ∧
        ((∀ newcomer ∈ s.deferred, after.perm[newcomer.2]? = some newcomer.1) ↔
          (s.deferred.map Prod.snd).Nodup)) ∧
    (s.Late → s.add.deferred = s.deferred ++ [(s.size, s.nextSlot)] ∧
      ∀ {events : List Event} {indices : List Nat} {s' after : Shuffle} {index : Nat},
        before.length + (events.length + 1) < 2 ^ 63 →
        play? events s.add = some (indices, s') → s'.epoch = s.epoch → s'.Due →
        Rotation.next? s' = some (index, after) →
          (after.perm[s.nextSlot]? = some s.size ↔ events.head? ≠ some .newcomer)) := by
  have hreach : ∀ left, before.length + left < 2 ^ 63 → s.Promising ∧ s.Roomy left := by
    intro left hleft
    exact (Promising.empty seed).play (.of_empty seed hleft) hreached
  rcases hreach 0 hroom with ⟨h, hleft⟩
  constructor
  · intro index after hdue hnext
    have hsettled := h.settled_next hdue hnext
    exact ⟨hsettled, hsettled.all_kept_iff⟩
  · intro hlate
    refine ⟨(hlate.grown h.wellFormed (hleft.length_lt h.wellFormed)).2.1, ?_⟩
    intro events indices s' after index hevents
    exact h.kept_iff_not_followed hlate (hreach _ hevents).2

def sameSlot : Shuffle :=
  ⟨[0], 1, 3, 0, 1, [(1, 0), (2, 0)], by decide⟩

def roundOver : Shuffle :=
  ⟨[0], 1, 1, 0, 1, [], by decide⟩

/-- After the only turn of a round two newcomers are promised the first slot of the next one.
The second of them gets it, and the first stands behind. -/
theorem promises_settled_sameSlot :
    (play? [.newcomer, .turn, .newcomer, .newcomer] (empty 0) = some ([0], sameSlot) ∧
      Rotation.next? sameSlot = some (2, ⟨[2, 1, 0], 1, 3, 0, 2, [], by decide⟩) ∧
      Settled [(1, 0), (2, 0)] [2, 1, 0] ∧
      ¬∀ newcomer ∈ [(1, 0), (2, 0)], [2, 1, 0][newcomer.2]? = some newcomer.1) ∧
    play? [.newcomer, .turn] (empty 0) = some ([0], roundOver) ∧
      [2, 1, 0][nextSlot roundOver]? ≠ some 1 := by
  have hplay : play? [.newcomer, .turn, .newcomer, .newcomer] (empty 0) =
      some ([0], sameSlot) := by
    decide +kernel
  have hnext : Rotation.next? sameSlot = some (2, ⟨[2, 1, 0], 1, 3, 0, 2, [], by decide⟩) := by
    decide +kernel
  have hfirst : play? [.newcomer, .turn] (empty 0) = some ([0], roundOver) := by decide +kernel
  have hrest : play? [.newcomer] roundOver.add = some ([], sameSlot) := by decide
  rcases (promises_settled hplay (by decide)).1 (by decide) hnext with ⟨hsettled, hkept⟩
  have hfollowed :=
    ((promises_settled hfirst (by decide)).2 ⟨by decide, by decide⟩).2 (by decide)
    hrest rfl (by decide) hnext
  refine ⟨⟨hplay, hnext, hsettled, ?_⟩, hfirst, ?_⟩
  · exact fun hall => absurd (hkept.mp hall) (by decide)
  · exact fun hfirst => hfollowed.mp hfirst rfl

end Shuffle
end Jukebox
