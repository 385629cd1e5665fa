import Jukebox.Proofs.Rotation.Lottery
import Jukebox.Proofs.Rotation.RoundRobin
import Jukebox.Proofs.Rotation.Shuffle
import Jukebox.Rotation.Rotator

/-!
# Rotators stay well-formed

A new rotator hands out no index that it does not have yet, whatever overflows, so every search
for the next turn ends within the room. More than that holds as long as its size and the number
of orders it drew fit 64 bits: the rotator stays well-formed, and counts its indices right. At
the end stands which indices a search asks for, in terms of what each kind stores.
-/

namespace Jukebox
namespace Rotator

open Rotation

/-- Whether the indices of a rotator agree with its size. Random turns keep no indices. -/
def WellFormed : Rotator → Prop
  | roundRobin r => r.WellFormed
  | shuffle s => s.WellFormed
  | random _ => True

def KeepsTo (n : Nat) : Rotator → Prop
  | roundRobin r => r.KeepsTo n
  | shuffle s => s.KeepsTo n
  | random l => l.size ≤ n

def orders : Rotator → Nat
  | shuffle s => s.epoch
  | _ => 0

def LastsFor (asks : Nat) : Rotator → Prop
  | shuffle s => s.LastsFor asks
  | _ => True

theorem wellFormed_new (kind : RotatorKind) (seed : Nat) : (new kind seed).WellFormed := by
  cases kind with
  | roundRobin => exact RoundRobin.wellFormed_empty
  | shuffle => exact Shuffle.wellFormed_empty seed
  | random => trivial

theorem keepsTo_new (kind : RotatorKind) (seed : Nat) : (new kind seed).KeepsTo 0 := by
  cases kind with
  | roundRobin => exact RoundRobin.KeepsTo.empty
  | shuffle => exact Shuffle.KeepsTo.empty seed
  | random => exact Nat.le_refl 0

@[simp]
theorem size_new (kind : RotatorKind) (seed : Nat) : (new kind seed).size = 0 := by
  cases kind <;> rfl

@[simp]
theorem orders_new (kind : RotatorKind) (seed : Nat) : (new kind seed).orders = 0 := by
  cases kind <;> rfl

/-!
## Turns
-/

theorem next?_roundRobin (r : RoundRobin) :
    Rotation.next? (roundRobin r) = (Rotation.next? r).map fun turn =>
      (turn.1, roundRobin turn.2) :=
  rfl

theorem next?_shuffle (s : Shuffle) :
    Rotation.next? (shuffle s) = (Rotation.next? s).map fun turn => (turn.1, shuffle turn.2) :=
  rfl

theorem next?_random (l : Lottery) :
    Rotation.next? (random l) = (Rotation.next? l).map fun turn => (turn.1, random turn.2) :=
  rfl

theorem keepsTo_steady : Steady KeepsTo where
  next := fun {n r} h hpos => by
    cases r with
    | roundRobin r =>
        rcases RoundRobin.KeepsTo.steady.next h hpos with ⟨index, r', hnext, hindex, hr'⟩
        exact ⟨index, roundRobin r', by rw [next?_roundRobin, hnext]; rfl, hindex, hr'⟩
    | shuffle s =>
        rcases Shuffle.KeepsTo.steady.next h hpos with ⟨index, s', hnext, hindex, hs'⟩
        exact ⟨index, shuffle s', by rw [next?_shuffle, hnext]; rfl, hindex, hs'⟩
    | random l =>
        rcases Lottery.exists_next h hpos with ⟨index, l', hnext, hindex, hsize⟩
        exact ⟨index, random l', by rw [next?_random, hnext]; rfl, hindex,
          Nat.le_trans (Nat.le_of_eq hsize) h⟩

variable {r after : Rotator} {index asks : Nat}

theorem LastsFor.of_orders (hroom : r.orders + 1 < wordLimit) (asks : Nat) :
    r.LastsFor asks := by
  cases r with
  | shuffle s => exact Or.inl hroom
  | _ => trivial

theorem LastsFor.one (h : r.LastsFor (asks + 1)) : r.LastsFor 1 := by
  cases r with
  | shuffle s => exact Or.imp_right (And.imp_right fun hleft => by omega) h
  | _ => trivial

theorem LastsFor.next (h : r.LastsFor (asks + 1)) (hr : r.WellFormed)
    (hasks : asks + 1 ≤ r.size) (hnext : Rotation.next? r = some (index, after)) :
    after.LastsFor asks ∧ after.WellFormed ∧ after.size = r.size := by
  have hsize : 0 < r.size := by omega
  cases r with
  | roundRobin r =>
      rcases RoundRobin.steady.next ⟨hr, rfl⟩ hsize with ⟨taken, r', hturn, -, hr', hlength⟩
      rw [next?_roundRobin, hturn] at hnext
      cases hnext
      exact ⟨trivial, hr', hlength⟩
  | shuffle s =>
      have hlasts : s.LastsFor (asks + 1) := h
      have hturn : Rotation.next? s = _ :=
        Shuffle.next?_eq hsize (Shuffle.cursor_ready_lt hsize)
      rw [next?_shuffle, hturn] at hnext
      cases hnext
      exact ⟨hlasts.taken hr hasks, Shuffle.WellFormed.taken hr hsize hlasts.lasts,
        s.size_taken⟩
  | random l =>
      rw [next?_random, Lottery.next?_eq hsize] at hnext
      cases hnext
      exact ⟨trivial, trivial, rfl⟩

theorem kind_advance (asks : Nat) (r : Rotator) : (advance asks r).kind = r.kind := by
  cases r with
  | roundRobin r => rw [advance_embed next?_roundRobin]; rfl
  | shuffle s => rw [advance_embed next?_shuffle]; rfl
  | random l => rw [advance_embed next?_random]; rfl

theorem WellFormed.advance (h : r.WellFormed) (hlasts : r.LastsFor asks)
    (hasks : asks ≤ r.size) :
    (advance asks r).WellFormed ∧ (advance asks r).size = r.size := by
  induction asks generalizing r with
  | zero => exact ⟨h, rfl⟩
  | succ asks ih =>
      rw [Rotation.advance]
      cases hnext : Rotation.next? r with
      | none => exact ⟨h, rfl⟩
      | some turn =>
          rcases hlasts.next h hasks hnext with ⟨hlasts', hr', hsize⟩
          rcases ih hr' hlasts' (by omega) with ⟨hwell, hkept⟩
          exact ⟨hwell, hkept.trans hsize⟩

theorem orders_advance_le (h : r.WellFormed) (hroom : r.orders + 1 < wordLimit)
    (hasks : asks ≤ r.size) : (advance asks r).orders ≤ r.orders + 1 := by
  cases r with
  | roundRobin r =>
      rw [advance_embed next?_roundRobin]
      exact Nat.zero_le _
  | shuffle s =>
      rw [advance_embed next?_shuffle]
      exact Shuffle.epoch_advance_le h hroom hasks
  | random l =>
      rw [advance_embed next?_random]
      exact Nat.zero_le _

/-!
## Newcomers
-/

theorem orders_add (r : Rotator) : r.add.orders = r.orders := by
  cases r with
  | shuffle s => exact s.epoch_add
  | _ => rfl

theorem kind_add (r : Rotator) : r.add.kind = r.kind := by
  cases r <;> rfl

theorem KeepsTo.add {n : Nat} (h : r.KeepsTo n) : r.add.KeepsTo (n + 1) := by
  cases r with
  | roundRobin r => exact RoundRobin.KeepsTo.add h
  | shuffle s => exact Shuffle.KeepsTo.add h
  | random l => exact Nat.le_trans (wrap_le _) (Nat.succ_le_succ h)

theorem size_add (hroom : r.size + 1 < wordLimit) : r.add.size = r.size + 1 := by
  cases r with
  | roundRobin r => exact r.size_add
  | shuffle s => exact Shuffle.size_add hroom
  | random l => exact wrap_of_lt hroom

theorem WellFormed.add (h : r.WellFormed) (hroom : r.size + 1 < wordLimit) :
    r.add.WellFormed := by
  cases r with
  | roundRobin r => exact RoundRobin.WellFormed.add h (Nat.lt_of_succ_lt hroom)
  | shuffle s => exact Shuffle.WellFormed.add h hroom
  | random l => trivial

/-!
## What a search asks

A search asks as many times as there are indices. Only a round robin and a new order are sure
to name every index in that many turns; the rest of a shuffled round is followed by the start
of the next one, and random turns repeat.
-/

def search : Rotator → List Nat
  | roundRobin r => r.order.rotate r.cursor
  | shuffle s =>
      s.perm.drop s.cursor ++ s.reshuffle.perm.take (s.size - (s.perm.length - s.cursor))
  | random l => (List.range l.size).map fun draws => (l.after draws).pick

/-- Whether a search starts on a whole round, in which every index has its turn. -/
def Whole : Rotator → Prop
  | roundRobin _ => True
  | shuffle s => s.Due
  | random _ => False

theorem upcoming_eq_search (h : r.WellFormed) (hroom : r.orders + 1 < wordLimit) :
    upcoming r.size r = r.search := by
  cases r with
  | roundRobin r =>
      rw [upcoming_embed next?_roundRobin, size,
        RoundRobin.upcoming_eq h (Nat.le_refl _), search]
      exact List.take_of_length_le (by rw [List.length_rotate])
  | shuffle s =>
      rw [upcoming_embed next?_shuffle]
      exact Shuffle.upcoming_eq h hroom
  | random l =>
      rw [upcoming_embed next?_random, size, search]
      rcases Nat.eq_zero_or_pos l.size with hzero | hsize
      · rw [hzero]
        rfl
      · exact Lottery.upcoming_eq hsize l.size

theorem mem_search (h : r.WellFormed) (hroom : r.orders + 1 < wordLimit) (hwhole : r.Whole) :
    index ∈ r.search ↔ index < r.size := by
  rw [← upcoming_eq_search h hroom]
  cases r with
  | roundRobin r =>
      rw [upcoming_embed next?_roundRobin]
      exact RoundRobin.mem_upcoming h
  | shuffle s =>
      rw [upcoming_embed next?_shuffle]
      exact Shuffle.mem_upcoming h hwhole hroom
  | random l => exact hwhole.elim

end Rotator
end Jukebox
