import Jukebox.Proofs.Rotation.Turns
import Mathlib.Algebra.Group.Nat.Defs
import Mathlib.Data.List.Basic

/-!
# Turns and newcomers in any order

While a rotation goes on, newcomers may join it at any moment. A list of events says in which
order turns are taken and newcomers join. A steady rotation answers all turns of such a list,
with indices that it has at that moment.
-/

namespace Jukebox
namespace Rotation

inductive Event
  | turn
  | newcomer
  deriving DecidableEq

variable {ρ : Type} [Rotation ρ]

/-- The indices that are handed out during some events, and the rotation after them. There is
no outcome if a turn has no answer. -/
def play? : List Event → ρ → Option (List Nat × ρ)
  | [], r => some ([], r)
  | .newcomer :: rest, r => play? rest (add r)
  | .turn :: rest, r =>
    match next? r with
    | none => none
    | some (index, r) => (play? rest r).map fun played => (index :: played.1, played.2)

def newcomers (events : List Event) : Nat :=
  events.count .newcomer

def idleTurns (events : List Event) : Nat :=
  (events.takeWhile (· = .turn)).length

@[simp]
theorem newcomers_newcomer (rest : List Event) :
    newcomers (.newcomer :: rest) = newcomers rest + 1 :=
  List.count_cons_self

@[simp]
theorem newcomers_turn (rest : List Event) : newcomers (.turn :: rest) = newcomers rest :=
  List.count_cons_of_ne (by decide)

theorem newcomers_le_length (events : List Event) : newcomers events ≤ events.length :=
  List.count_le_length

@[simp]
theorem play?_nil (r : ρ) : play? [] r = some ([], r) :=
  rfl

@[simp]
theorem play?_newcomer (rest : List Event) (r : ρ) :
    play? (.newcomer :: rest) r = play? rest (add r) :=
  rfl

theorem play?_turn {index : Nat} {r r' : ρ} (h : next? r = some (index, r'))
    (rest : List Event) :
    play? (.turn :: rest) r = (play? rest r').map fun played =>
      (index :: played.1, played.2) := by
  rw [play?, h]

theorem exists_of_play?_turn {rest : List Event} {r r' : ρ} {indices : List Nat}
    (h : play? (.turn :: rest) r = some (indices, r')) :
    ∃ index middle later, next? r = some (index, middle) ∧
    play? rest middle = some (later, r') ∧
      indices = index :: later := by
  cases hnext : next? r with
  | none =>
      rw [play?, hnext] at h
      cases h
  | some taken =>
      rcases taken with ⟨index, middle⟩
      rw [play?_turn hnext, Option.map_eq_some_iff] at h
      rcases h with ⟨⟨later, after⟩, hplay, heq⟩
      cases heq
      exact ⟨index, middle, later, rfl, hplay, rfl⟩

/-- A steady rotation, whose turns are idle while nobody is there, answers every turn as long
as it can take the newcomers. -/
theorem Steady.play {Keeps : Nat → ρ → Prop} (hsteady : Steady Keeps)
    (hidle : ∀ {r : ρ}, Keeps 0 r → next? r = some (0, r)) {limit : Nat}
    (hadd : ∀ {n : Nat} {r : ρ}, Keeps n r → n < limit → Keeps (n + 1) (add r))
    {n : Nat} {r : ρ} (hr : Keeps n r) {events : List Event}
    (hroom : n + newcomers events ≤ limit) :
    ∃ indices r', play? events r = some (indices, r') ∧ Keeps (n + newcomers events) r' := by
  induction events generalizing n r with
  | nil => exact ⟨[], r, rfl, hr⟩
  | cons event rest ih =>
      cases event with
      | newcomer =>
          rw [newcomers_newcomer, Nat.add_comm _ 1, ← Nat.add_assoc] at hroom ⊢
          exact ih (hadd hr (by omega)) hroom
      | turn =>
          rw [newcomers_turn] at hroom ⊢
          have hnext : ∃ index middle, next? r = some (index, middle) ∧ Keeps n middle := by
            rcases Nat.eq_zero_or_pos n with rfl | hpos
            · exact ⟨0, r, hidle hr, hr⟩
            · rcases hsteady.next hr hpos with ⟨index, middle, hnext, -, hmiddle⟩
              exact ⟨index, middle, hnext, hmiddle⟩
          rcases hnext with ⟨index, middle, hnext, hmiddle⟩
          rcases ih hmiddle hroom with ⟨indices, r', hplay, hr'⟩
          refine ⟨index :: indices, r', ?_, hr'⟩
          rw [play?_turn hnext, hplay, Option.map_some]

/-!
## The place of a newcomer

As long as the sum behind a place fits 64 bits, nothing is wrapped.
-/

theorem halfwaySlot_ahead {cursor n : Nat} (hfits : n < wordLimit)
    (h : cursor + (n + 1) / 2 ≤ n) : halfwaySlot cursor n = cursor + (n + 1) / 2 := by
  rw [halfwaySlot, wrap_of_lt (Nat.lt_of_le_of_lt h hfits)]
  exact Nat.mod_eq_of_lt (Nat.lt_succ_of_le h)

theorem halfwaySlot_passed {cursor n : Nat} (hfits : n < 2 ^ 63) (hcursor : cursor ≤ n)
    (h : n < cursor + (n + 1) / 2) :
    halfwaySlot cursor n = cursor + (n + 1) / 2 - (n + 1) := by
  have hsum : cursor + (n + 1) / 2 < wordLimit := by
    rw [wordLimit]
    omega
  rw [halfwaySlot, wrap_of_lt hsum, Nat.mod_eq_sub_mod h, Nat.mod_eq_of_lt]
  omega

theorem halfwaySlot_ne {cursor n : Nat} (hfits : n < wordLimit) (h : cursor < n) :
    halfwaySlot cursor n ≠ cursor := by
  rcases Nat.lt_or_ge (cursor + (n + 1) / 2) wordLimit with hsum | hsum
  · rw [halfwaySlot, wrap_of_lt hsum]
    rcases Nat.lt_or_ge (cursor + (n + 1) / 2) (n + 1) with hahead | hpassed
    · rw [Nat.mod_eq_of_lt hahead]
      omega
    · rw [Nat.mod_eq_sub_mod hpassed, Nat.mod_eq_of_lt (by omega)]
      omega
  · have hwrapped : wrap (cursor + (n + 1) / 2) = cursor + (n + 1) / 2 - wordLimit := by
      rw [wrap, Nat.mod_eq_sub_mod hsum, Nat.mod_eq_of_lt]
      omega
    rw [halfwaySlot, hwrapped, Nat.mod_eq_of_lt (by omega)]
    rw [wordLimit] at hfits hsum ⊢
    omega

/-- How many others have a turn before a newcomer: half a rotation, or one less if its place is
counted from the start. -/
def newcomerWait (cursor n : Nat) : Nat :=
  if cursor ≤ halfwaySlot cursor n then (n + 1) / 2 else (n + 1) / 2 - 1

theorem newcomerWait_ahead {cursor n : Nat} (hfits : n < wordLimit)
    (h : cursor + (n + 1) / 2 ≤ n) : newcomerWait cursor n = (n + 1) / 2 := by
  rw [newcomerWait, halfwaySlot_ahead hfits h, if_pos (Nat.le_add_right _ _)]

theorem newcomerWait_passed {cursor n : Nat} (hfits : n < 2 ^ 63) (hcursor : cursor ≤ n)
    (h : n < cursor + (n + 1) / 2) : newcomerWait cursor n = (n + 1) / 2 - 1 := by
  have hlt : halfwaySlot cursor n < cursor := by
    rw [halfwaySlot_passed hfits hcursor h]
    omega
  rw [newcomerWait, if_neg (Nat.not_le.mpr hlt)]

theorem newcomerWait_eq {cursor n : Nat} (hfits : n < 2 ^ 63) (hcursor : cursor ≤ n) :
    newcomerWait cursor n =
      if cursor ≤ halfwaySlot cursor n then halfwaySlot cursor n - cursor
      else n - cursor + halfwaySlot cursor n := by
  rw [newcomerWait]
  rcases Nat.lt_or_ge n (cursor + (n + 1) / 2) with hpassed | hahead
  · rw [halfwaySlot_passed hfits hcursor hpassed]
    split <;> omega
  · rw [halfwaySlot_ahead (Nat.lt_trans hfits (by decide)) hahead]
    split <;> omega

section Places

variable {α : Type}

theorem insertIdx_cut (front back : List α) (item : α) :
    (front ++ back).insertIdx front.length item = front ++ item :: back := by
  induction front with
  | nil => rfl
  | cons first rest ih => simp [ih]

theorem exists_cuts (items : List α) {first second : Nat} (hfirst : first ≤ second)
    (hsecond : second ≤ items.length) :
    ∃ front middle back, items = front ++ (middle ++ back) ∧ front.length = first ∧
      (front ++ middle).length = second := by
  refine ⟨items.take first, (items.drop first).take (second - first),
    (items.drop first).drop (second - first), ?_, ?_, ?_⟩
  · rw [List.take_append_drop, List.take_append_drop]
  · exact List.length_take_of_le (Nat.le_trans hfirst hsecond)
  · simp only [List.length_append, List.length_take, List.length_drop]
    omega

end Places

end Rotation
end Jukebox
