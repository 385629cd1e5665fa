import Jukebox.Proofs.Rotation.Promises
import Jukebox.Proofs.Rotation.RoundRobinFairness

/-!
# How long a newcomer waits

A newcomer is placed half a rotation behind the cursor. In a round robin everything moves up
there, and a shuffle in which the place is still ahead does the same. If the place has passed,
a shuffle finishes its round first and then takes up the next one, in which the newcomer has
its slot. Both ways count the same turns of others, because the slots of all who were deferred
before are not behind the slot of the newcomer.
-/

namespace Jukebox

open Rotation

/-- An index has its first turn after a number of turns of others. -/
def Rotation.ComesAfter {ρ : Type} [Rotation ρ] (index wait : Nat) (r : ρ) : Prop :=
  ∃ others, upcoming (wait + 1) r = others ++ [index] ∧ others.length = wait ∧ index ∉ others

theorem Rotation.take_through {α : Type} (front back : List α) (item : α) :
    (front ++ item :: back).take (front.length + 1) = front ++ [item] := by
  rw [List.take_length_add_append, List.take_succ_cons, List.take_zero]

/-!
## Round robin
-/

theorem RoundRobin.comesAfter_add {r : RoundRobin} (h : r.WellFormed)
    (hfits : r.order.length < 2 ^ 63) :
    ComesAfter r.order.length (newcomerWait r.cursor r.order.length) r.add := by
  have hroom : r.order.length < wordLimit := Nat.lt_trans hfits (by decide)
  rcases exists_add_coming h hroom with ⟨front, back, hcoming, hadded, hwait⟩
  rw [← newcomerWait_eq hfits h.cursor_le] at hwait
  have hlonger : front.length + 1 ≤ r.add.order.length := by
    rw [← length_coming, hadded, List.length_append, List.length_cons]
    omega
  rw [← hwait]
  refine ⟨front, ?_, rfl, ?_⟩
  · rw [upcoming_eq (h.add hroom) hlonger, ← coming, hadded, take_through]
  · intro hmem
    have hold : r.order.length ∈ r.coming := hcoming ▸ List.mem_append_left _ hmem
    exact Nat.lt_irrefl _ ((mem_coming h).mp hold)

/-!
## Shuffle
-/

namespace Shuffle

variable {s : Shuffle}

theorem upcoming_through (h : s.WellFormed) (hlasts : s.epoch + 1 < wordLimit)
    {index slot : Nat} (hslot : s.reshuffle.perm[slot]? = some index)
    (hroom : s.perm.length - s.cursor + slot < s.size) :
    upcoming (s.perm.length - s.cursor + slot + 1) s =
      s.perm.drop s.cursor ++ s.reshuffle.perm.take slot ++ [index] := by
  have hdue : (s.perm.drop s.cursor).length = s.perm.length - s.cursor := List.length_drop
  have hdealt : slot + 1 ≤ s.size - (s.perm.length - s.cursor) := by omega
  rw [← take_upcoming hroom, upcoming_eq h hlasts, ← Nat.add_succ, ← hdue,
    List.take_length_add_append, hdue, List.take_take, Nat.min_eq_left hdealt,
    List.take_add_one, hslot, List.append_assoc]
  rfl

theorem comesAfter_of_ahead (h : s.WellFormed) (hroom : s.Roomy 1) (hepoch : 0 < s.epoch)
    (hahead : s.cursor + (s.perm.length + 1) / 2 ≤ s.perm.length) :
    ComesAfter s.size ((s.perm.length + 1) / 2) s.add := by
  have hplace := halfwaySlot_ahead h.length_lt hahead
  have hadd := add_ahead hepoch (hplace ▸ Nat.le_add_right _ _)
  have hwell := h.add hroom.size_lt
  rcases exists_cuts s.perm (Nat.le_add_right _ _) hahead with
    ⟨front, middle, back, hperm, hfront, hmiddle⟩
  have hwait : middle.length = (s.perm.length + 1) / 2 := by
    rw [List.length_append] at hmiddle
    omega
  have hadded : s.add.perm = front ++ (middle ++ s.size :: back) := by
    rw [hadd]
    simp only [seat, hplace, ← hmiddle]
    conv_lhs => rw [hperm, ← List.append_assoc]
    rw [insertIdx_cut, List.append_assoc]
  have hcursor : s.add.cursor = front.length := by
    rw [hadd, hfront]
    rfl
  have hdue : s.add.perm.drop s.add.cursor = middle ++ s.size :: back := by
    rw [hadded, hcursor, List.drop_left]
  have hlonger : s.add.cursor + (middle.length + 1) ≤ s.add.perm.length := by
    rw [hadded, hcursor]
    simp only [List.length_append, List.length_cons]
    omega
  have hround := turns_of_room (middle.length + 1) (s.epoch_add ▸ hepoch)
    (size_add hroom.size_lt ▸ Nat.succ_pos s.size) hwell.length_lt hlonger
  rw [← hwait]
  refine ⟨middle, ?_, rfl, ?_⟩
  · rw [hround.1, hdue, take_through]
  · intro hmem
    have hold : s.size ∈ s.perm := by
      rw [hperm]
      exact List.mem_append_right _ (List.mem_append_left _ hmem)
    exact Nat.lt_irrefl _ (h.lt_of_mem (Or.inl hold))

theorem Promising.comesAfter_of_late (h : s.Promising) (hroom : s.Roomy 1) (hlate : s.Late) :
    ComesAfter s.size ((s.perm.length + 1) / 2 - 1) s.add := by
  have hs := h.wellFormed
  have hcursor := hs.cursor_le
  have hlength := hs.length_le
  have hpassed := hlate.2
  have hgrown := hlate.add_eq hs (hroom.length_lt hs)
  have hadd := hs.add hroom.size_lt
  have hlasts : s.add.epoch + 1 < wordLimit := by
    have hepoch := hroom.epoch
    rw [epoch_add, wordLimit]
    omega
  have hslot : s.add.reshuffle.perm[s.nextSlot]? = some s.size :=
    ((h.add hroom).settled_reshuffle.kept_iff (congrArg deferred hgrown)).mpr (by simp)
  have hperm : s.add.perm = s.perm := by
    rw [hgrown]
    rfl
  have hsame : s.add.cursor = s.cursor := by
    rw [hgrown]
    rfl
  have hwait : s.add.perm.length - s.add.cursor + s.nextSlot = (s.perm.length + 1) /
      2 - 1 := by
    rw [hperm, hsame, nextSlot]
    omega
  have hleft : s.add.perm.length - s.add.cursor + s.nextSlot < s.add.size := by
    rw [hwait, size_add hroom.size_lt]
    omega
  have hrounds := upcoming_through hadd hlasts hslot hleft
  rw [hwait] at hrounds
  refine ⟨_, hrounds, ?_, ?_⟩
  · have hdealt : s.nextSlot ≤ s.add.reshuffle.perm.length :=
      Nat.le_of_lt (List.getElem?_eq_some_iff.mp hslot).1
    rw [List.length_append, List.length_drop, List.length_take, Nat.min_eq_left hdealt, hwait]
  · rw [List.mem_append, not_or]
    constructor
    · intro hmem
      have hold : s.size ∈ s.perm := by
        rw [hperm] at hmem
        exact List.mem_of_mem_drop hmem
      exact Nat.lt_irrefl _ (hs.lt_of_mem (Or.inl hold))
    · -- In the next order an index stands in one place only.
      have hnodup : s.add.reshuffle.perm.Nodup := hadd.deal.nodup_iff.mpr List.nodup_range
      have hlast : s.size ∈ s.add.reshuffle.perm.drop s.nextSlot := by
        rw [List.mem_iff_getElem?]
        exact ⟨0, by rw [List.getElem?_drop, Nat.add_zero, hslot]⟩
      intro hmem
      exact List.disjoint_take_drop hnodup (Nat.le_refl _) hmem hlast

theorem Promising.comesAfter_add (h : s.Promising) (hroom : s.Roomy 1) (hepoch : 0 < s.epoch) :
    ComesAfter s.size (newcomerWait s.cursor s.perm.length) s.add := by
  have hs := h.wellFormed
  by_cases hlate : s.Late
  · rw [newcomerWait_passed (hroom.length_lt hs) hs.cursor_le hlate.2]
    exact h.comesAfter_of_late hroom hlate
  · rw [Late, not_and, Nat.not_lt] at hlate
    rw [newcomerWait_ahead hs.length_lt (hlate hepoch)]
    exact comesAfter_of_ahead hs hroom hepoch (hlate hepoch)

end Shuffle

/-!
## The wait
-/

/-- However turns and newcomers alternated: if nobody else joins, a newcomer has its first turn
after exactly half a rotation of others, or one less if its place is counted from the start.
For a shuffle that has drawn an order, the rotation is the current order.
-/
theorem newcomer_waits_half {events : List Event} (hroom : events.length + 1 < 2 ^ 63)
    {indices : List Nat} :
    (∀ {r : RoundRobin}, play? events RoundRobin.empty = some (indices, r) →
      ComesAfter r.order.length (newcomerWait r.cursor r.order.length) r.add) ∧
    (∀ {seed : Nat} {s : Shuffle}, play? events (Shuffle.empty seed) = some (indices, s) →
      0 < s.epoch → ComesAfter s.size (newcomerWait s.cursor s.perm.length) s.add) := by
  constructor
  · intro r hplay
    have hcount := newcomers_le_length events
    have hfits : 0 + newcomers events ≤ wordLimit := by
      rw [wordLimit]
      omega
    rcases RoundRobin.wellFormed_empty.play hfits with ⟨found, last, hfound, hlast, hsize⟩
    rw [hplay] at hfound
    cases hfound
    have hlength : r.order.length = 0 + newcomers events := hsize
    exact RoundRobin.comesAfter_add hlast (by omega)
  · intro seed s hplay hepoch
    have hreached := (Shuffle.Promising.empty seed).play (.of_empty seed hroom) hplay
    exact hreached.1.comesAfter_add hreached.2 hepoch

def lastOfThree : RoundRobin × Shuffle :=
  (⟨[0, 2, 1], 2, by decide⟩, ⟨[2, 1, 0], 2, 3, 0, 2, [], by decide⟩)

/-- Two of three members have had a turn, so the place of the next one is counted from the
start. -/
theorem newcomer_waits_half_lastOfThree :
    let events := [.newcomer, .turn, .newcomer, .newcomer, .turn, .turn]
    events.length + 1 < 2 ^ 63 ∧
      play? events RoundRobin.empty = some ([0, 0, 2], lastOfThree.1) ∧
      ComesAfter 3 1 lastOfThree.1.add ∧
      play? events (Shuffle.empty 0) = some ([0, 2, 1], lastOfThree.2) ∧
      ComesAfter 3 1 lastOfThree.2.add := by
  intro events
  have hroom : events.length + 1 < 2 ^ 63 := by decide
  have hrobin : play? events RoundRobin.empty = some ([0, 0, 2], lastOfThree.1) := by decide
  have hshuffle : play? events (Shuffle.empty 0) = some ([0, 2, 1], lastOfThree.2) := by
    decide +kernel
  exact ⟨hroom, hrobin, (newcomer_waits_half hroom).1 hrobin, hshuffle,
    (newcomer_waits_half hroom).2 hshuffle (by decide)⟩

end Jukebox
