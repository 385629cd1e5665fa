import Jukebox.Proofs.Rotation.Turns
import Jukebox.Rotation.RoundRobin
import Mathlib.Data.List.Perm.Basic
import Mathlib.Data.List.Rotate

/-!
# Round robin keeps its order

The order of a round robin holds every index once, and the cursor stands within it. So as many
turns as there are members reach each of them exactly once, wherever the cursor stands.
-/

namespace Jukebox
namespace RoundRobin

open Rotation

/-- Whether the cursor stands in the order, or at its start if it is empty. -/
def OnTrack (r : RoundRobin) : Prop :=
  r.cursor < r.order.length ∨ r.order = [] ∧ r.cursor = 0

/-- The order is one of all indices, and the cursor stands in it. -/
structure WellFormed (r : RoundRobin) : Prop where
  order : r.order.Perm (List.range r.order.length)
  cursor : r.OnTrack

theorem wellFormed_empty : WellFormed empty where
  order := .refl []
  cursor := Or.inr ⟨rfl, rfl⟩

variable {r : RoundRobin}

namespace WellFormed

theorem cursor_le (h : r.WellFormed) : r.cursor ≤ r.order.length := by
  rcases h.cursor with hlt | ⟨-, hzero⟩ <;> omega

theorem cursor_lt (h : r.WellFormed) (hsize : 0 < r.order.length) :
    r.cursor < r.order.length := by
  refine h.cursor.resolve_right ?_
  rintro ⟨hnil, -⟩
  simp [hnil] at hsize

theorem lt_of_mem (h : r.WellFormed) {index : Nat} (hmem : index ∈ r.order) :
    index < r.order.length :=
  List.mem_range.mp (h.order.mem_iff.mp hmem)

theorem exists_at_cursor (h : r.WellFormed) (hsize : 0 < r.order.length) :
    ∃ index, r.order[r.cursor]? = some index :=
  ⟨_, List.getElem?_eq_getElem (h.cursor_lt hsize)⟩

theorem length_le (h : r.WellFormed) : r.order.length ≤ wordLimit := by
  by_contra hlong
  have hmem : wordLimit ∈ r.order := by
    rw [h.order.mem_iff, List.mem_range]
    omega
  exact Nat.lt_irrefl _ (r.areWords_order _ hmem)

theorem wrap_succ_mod (h : r.WellFormed) (hsize : 0 < r.order.length) :
    wrap (r.cursor + 1) % r.order.length = (r.cursor + 1) % r.order.length := by
  have hcursor := h.cursor_lt hsize
  have hlength := h.length_le
  rcases Nat.lt_or_ge (r.cursor + 1) wordLimit with hlt | hge
  · rw [wrap_of_lt hlt]
  · have hlast : r.cursor + 1 = r.order.length := by omega
    have hfull : r.order.length = wordLimit := by omega
    rw [hlast, hfull, wrap, Nat.mod_self, Nat.zero_mod]

theorem cursor_turned (h : r.WellFormed) (hsize : 0 < r.order.length) (cursor : Nat) :
    (r.moved (cursor % r.order.length)).cursor = cursor % r.order.length :=
  cursor_moved (Nat.lt_of_lt_of_le (Nat.mod_lt _ hsize) h.length_le)

theorem moved (h : r.WellFormed) (hsize : 0 < r.order.length) (cursor : Nat) :
    WellFormed (r.moved (cursor % r.order.length)) where
  order := h.order
  cursor := by
    left
    rw [h.cursor_turned hsize]
    exact Nat.mod_lt _ hsize

theorem next?_eq (h : r.WellFormed) {index : Nat} (hindex : r.order[r.cursor]? = some index) :
    r.next? = some (index, r.moved ((r.cursor + 1) % r.order.length)) := by
  have hne : r.order ≠ [] := by
    intro hnil
    simp [hnil] at hindex
  rw [next?, if_neg hne, hindex, h.wrap_succ_mod (List.length_pos_of_ne_nil hne)]
  rfl

end WellFormed

/-!
## Newcomers
-/

theorem size_add (r : RoundRobin) : r.add.order.length = r.order.length + 1 := by
  simp [RoundRobin.add, List.length_insertIdx, halfwaySlot_le]

theorem OnTrack.add (h : r.OnTrack) : r.add.OnTrack := by
  left
  rw [size_add]
  have hwrap := wrap_le (r.cursor + 1)
  simp only [RoundRobin.add]
  -- A newcomer in front of the cursor moves it, but then it did not stand at the start.
  rcases h with hlt | ⟨-, hzero⟩ <;> split <;> omega

theorem WellFormed.add (h : r.WellFormed) (hroom : r.order.length < wordLimit) :
    r.add.WellFormed := by
  refine ⟨?_, h.cursor.add⟩
  rw [size_add, List.range_succ]
  simp only [RoundRobin.add, wrap_of_lt hroom]
  refine (List.perm_insertIdx _ _ (halfwaySlot_le _ _)).trans ?_
  exact (h.order.cons _).trans (List.perm_append_singleton _ _).symm

theorem steady : Steady fun n (r : RoundRobin) => r.WellFormed ∧ r.order.length = n where
  next := fun ⟨h, hlength⟩ hpos => by
    have hsize := hlength ▸ hpos
    rcases h.exists_at_cursor hsize with ⟨index, hindex⟩
    exact ⟨index, _, h.next?_eq hindex, hlength ▸ h.lt_of_mem (List.mem_of_getElem? hindex),
      h.moved hsize _, hlength⟩

/-!
## Indices below a number
-/

structure KeepsTo (n : Nat) (r : RoundRobin) : Prop where
  cursor : r.OnTrack
  size : r.order.length ≤ n
  order : ∀ index ∈ r.order, index < n

namespace KeepsTo

variable {n : Nat}

theorem empty : KeepsTo 0 empty where
  cursor := Or.inr ⟨rfl, rfl⟩
  size := Nat.le_refl 0
  order := by simp [RoundRobin.empty]

theorem steady : Steady KeepsTo where
  next := fun {n r} h hpos => by
    by_cases hnil : r.order = []
    · exact ⟨0, r, if_pos hnil, hpos, h⟩
    · have hcursor : r.cursor < r.order.length := h.cursor.resolve_right fun hidle =>
        hnil hidle.1
      have hnext : r.next? =
          some (r.order[r.cursor], r.moved (wrap (r.cursor + 1) % r.order.length)) := by
        rw [next?, if_neg hnil, List.getElem?_eq_getElem hcursor]
        rfl
      refine ⟨_, _, hnext, h.order _ (List.getElem_mem _), Or.inl ?_, h.size, h.order⟩
      exact Nat.lt_of_le_of_lt (wrap_le _) (Nat.mod_lt _ (List.length_pos_of_ne_nil hnil))

theorem add (h : r.KeepsTo n) : r.add.KeepsTo (n + 1) where
  cursor := h.cursor.add
  size := by
    rw [size_add]
    exact Nat.succ_le_succ h.size
  order := by
    intro index hindex
    rcases (List.mem_insertIdx (halfwaySlot_le _ _)).mp hindex with rfl | hold
    · exact Nat.lt_succ_of_le (Nat.le_trans (wrap_le _) h.size)
    · exact Nat.lt_succ_of_lt (h.order index hold)

end KeepsTo

/-!
## All members have a turn
-/

/-- The upcoming turns are the order, read on from the cursor. -/
theorem upcoming_eq (h : r.WellFormed) {asks : Nat} (hasks : asks ≤ r.order.length) :
    upcoming asks r = (r.order.rotate r.cursor).take asks := by
  induction asks generalizing r with
  | zero => rfl
  | succ asks ih =>
      have hsize : 0 < r.order.length := by omega
      rcases h.exists_at_cursor hsize with ⟨index, hindex⟩
      have hnext : Rotation.next? r = _ := h.next?_eq hindex
      have hhead := List.head?_rotate (h.cursor_lt hsize)
      rw [upcoming, hnext]
      simp only
      rw [ih (h.moved hsize _) (Nat.le_of_succ_le hasks), h.cursor_turned hsize]
      show index :: (r.order.rotate ((r.cursor + 1) % r.order.length)).take asks = _
      rw [List.rotate_mod, ← List.rotate_rotate]
      -- One turn takes the first index of the rest and puts it behind all others.
      cases hrotated : r.order.rotate r.cursor with
      | nil => simp [hrotated, hindex] at hhead
      | cons first rest =>
          have hlength : rest.length + 1 = r.order.length := by
            rw [← List.length_rotate r.order r.cursor, hrotated, List.length_cons]
          have hfirst : index = first := by
            rw [hrotated, List.head?_cons, hindex] at hhead
            exact (Option.some.inj hhead).symm
          rw [hfirst, List.rotate_cons_succ, List.rotate_zero, List.take_succ_cons,
            List.take_append_of_le_length (by omega)]

theorem mem_upcoming (h : r.WellFormed) {index : Nat} :
    index ∈ upcoming r.order.length r ↔ index < r.order.length := by
  rw [upcoming_eq h (Nat.le_refl _), List.take_of_length_le (by simp), List.mem_rotate,
    h.order.mem_iff, List.mem_range]

end RoundRobin
end Jukebox
