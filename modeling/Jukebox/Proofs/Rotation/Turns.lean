import Jukebox.Rotation.Basic

/-!
# The search for the next turn

A rotation is steady if it can always say whose turn it is, as long as somebody is there, and
names nobody else. The search for the next turn asks a steady rotation for its upcoming turns,
once per member. It finds nobody exactly if none of these turns belongs to a member who has
something to play.
-/

namespace Jukebox
namespace Rotation

variable {ρ : Type} [Rotation ρ]

def upcoming : Nat → ρ → List Nat
  | 0, _ => []
  | asks + 1, r =>
    match next? r with
    | some (index, r) => index :: upcoming asks r
    | none => []

def advance : Nat → ρ → ρ
  | 0, r => r
  | asks + 1, r =>
    match next? r with
    | some (_, r) => advance asks r
    | none => r

/-- A property that makes a rotation answer with an index below a number, and that every turn
keeps. -/
structure Steady (Keeps : Nat → ρ → Prop) : Prop where
  next : ∀ {n : Nat} {r : ρ}, Keeps n r → 0 < n →
    ∃ index r', next? r = some (index, r') ∧ index < n ∧ Keeps n r'

inductive Search (candidates : List Bool) (asks : Nat) (r : ρ) : Option (Turn × ρ) → Prop
  | nobody (hnone : ∀ index ∈ upcoming asks r, candidates[index]? = some false) :
      Search candidates asks r (some (.nobody, advance asks r))
  | taken (asked index : Nat) (hasked : asked < asks)
      (hcandidate : candidates[index]? = some true) (hindex : index ∈ upcoming asks r) :
      Search candidates asks r (some (.taken index, advance (asked + 1) r))

variable {Keeps : Nat → ρ → Prop} {n : Nat} {r : ρ}

theorem Steady.advance (hsteady : Steady Keeps) (hr : Keeps n r) (asks : Nat)
    (hasks : asks = 0 ∨ 0 < n) : Keeps n (advance asks r) := by
  induction asks generalizing r with
  | zero => exact hr
  | succ asks ih =>
      have hpos : 0 < n := hasks.resolve_left (Nat.succ_ne_zero _)
      rcases hsteady.next hr hpos with ⟨index, r', hnext, -, hr'⟩
      simpa [Rotation.advance, hnext] using ih hr' (Or.inr hpos)

theorem Steady.turnWithin (hsteady : Steady Keeps) {candidates : List Bool}
    (hr : Keeps candidates.length r) {asks : Nat} (hasks : asks ≤ candidates.length) :
    Search candidates asks r (turnWithin candidates asks r) := by
  induction asks generalizing r with
  | zero => exact .nobody (by simp [upcoming])
  | succ asks ih =>
      rcases hsteady.next hr (by omega) with ⟨index, r', hnext, hindex, hr'⟩
      have hcandidate : candidates[index]? = some candidates[index] :=
        List.getElem?_eq_getElem hindex
      simp only [Rotation.turnWithin, hnext, hcandidate]
      cases hflag : candidates[index] with
      | true =>
          have htaken : Rotation.advance (0 + 1) r = r' := by simp [Rotation.advance, hnext]
          rw [← htaken]
          exact .taken 0 index (Nat.succ_pos _) (hcandidate.trans (by rw [hflag]))
            (by simp [upcoming, hnext])
      | false =>
          have hrest := ih hr' (by omega)
          generalize turnWithin candidates asks r' = outcome at hrest
          cases hrest with
          | nobody hnone =>
              have hadvance : Rotation.advance asks r' = Rotation.advance (asks + 1) r := by
                simp [Rotation.advance, hnext]
              rw [hadvance]
              refine .nobody ?_
              simpa [upcoming, hnext, hcandidate, hflag] using hnone
          | taken asked other hasked hother hmem =>
              have hadvance :
                  Rotation.advance (asked + 1) r' = Rotation.advance (asked + 1 + 1) r := by
                simp [Rotation.advance, hnext]
              rw [hadvance]
              exact .taken (asked + 1) other (by omega) hother
                (by simp [upcoming, hnext, hmem])

theorem Steady.nextTurn (hsteady : Steady Keeps) {candidates : List Bool}
    (hr : Keeps candidates.length r) :
    Search candidates candidates.length r (nextTurn candidates r) :=
  hsteady.turnWithin hr (Nat.le_refl _)

theorem upcoming_add (first rest : Nat) (r : ρ) :
    upcoming (first + rest) r = upcoming first r ++ upcoming rest (advance first r) := by
  induction first generalizing r with
  | zero => simp [upcoming, Rotation.advance]
  | succ first ih =>
      rw [Nat.succ_add, upcoming, upcoming, Rotation.advance]
      cases hnext : next? r with
      | none => cases rest <;> simp [upcoming, hnext]
      | some turn => simp [ih]

theorem take_upcoming {asks more : Nat} (h : asks ≤ more) (r : ρ) :
    (upcoming more r).take asks = upcoming asks r := by
  induction asks generalizing more r with
  | zero => rfl
  | succ asks ih =>
      obtain ⟨more, rfl⟩ := Nat.exists_eq_succ_of_ne_zero (Nat.ne_zero_of_lt h)
      rw [upcoming, upcoming]
      cases hnext : next? r with
      | none => rfl
      | some turn => simp [ih (Nat.le_of_succ_le_succ h)]

/-!
## Rotations within others
-/

section Embedding

variable {σ : Type} [Rotation σ] {embed : ρ → σ}

theorem upcoming_embed
    (hnext : ∀ r, next? (embed r) = (next? r).map fun turn => (turn.1, embed turn.2))
    (asks : Nat) (r : ρ) : upcoming asks (embed r) = upcoming asks r := by
  induction asks generalizing r with
  | zero => rfl
  | succ asks ih =>
      rw [upcoming, upcoming, hnext]
      cases next? r with
      | none => rfl
      | some turn => simp [ih]

theorem advance_embed
    (hnext : ∀ r, next? (embed r) = (next? r).map fun turn => (turn.1, embed turn.2))
    (asks : Nat) (r : ρ) : advance asks (embed r) = embed (advance asks r) := by
  induction asks generalizing r with
  | zero => rfl
  | succ asks ih =>
      rw [advance, advance, hnext]
      cases next? r with
      | none => rfl
      | some turn => simp [ih]

end Embedding

end Rotation
end Jukebox
