import Jukebox.Number.Word

/-!
# Taking turns

A rotation decides whose turn is next in a space of indices that only ever grows. This module
holds what all rotations share: the interface, the place of a newcomer, and the search for the
next member who has something to play.
-/

namespace Jukebox

/--
A way to take turns. `next?` gives the index whose turn it is; an empty rotation gives 0, and a
state whose position lies past its own list has no answer.
-/
class Rotation (ρ : Type) where
  next? : ρ → Option (Nat × ρ)
  /-- Makes room for one more index. -/
  add : ρ → ρ
  /-- How many indices there are. -/
  size : ρ → Nat

namespace Rotation

/-- The place of a newcomer: halfway between the cursor and the end of a rotation of `n`
turns. -/
def halfwaySlot (cursor n : Nat) : Nat :=
  wrap (cursor + (n + 1) / 2) % (n + 1)

theorem halfwaySlot_le (cursor n : Nat) : halfwaySlot cursor n ≤ n :=
  Nat.le_of_lt_succ (Nat.mod_lt _ (Nat.succ_pos n))

theorem halfwaySlot_lt_wordLimit (cursor n : Nat) : halfwaySlot cursor n < wordLimit :=
  Nat.lt_of_le_of_lt (Nat.mod_le _ _) (wrap_lt _)

/-- How the search for the next turn ends. -/
inductive Turn
  /-- The member at this place in join order plays next. -/
  | taken (index : Nat)
  /-- Every member who was asked had nothing to play. -/
  | nobody
  /-- The rotation named an index that belongs to no member. -/
  | outOfRange (index : Nat)
  deriving DecidableEq

variable {ρ : Type} [Rotation ρ]

/-- Asks the rotation up to a number of times. -/
def turnWithin (candidates : List Bool) : Nat → ρ → Option (Turn × ρ)
  | 0, r => some (.nobody, r)
  | asks + 1, r =>
    match next? r with
    | none => none
    | some (index, r) =>
      match candidates[index]? with
      | none => some (.outOfRange index, r)
      | some true => some (.taken index, r)
      | some false => turnWithin candidates asks r

/-- Finds the next member who has something to play. `candidates` says for each member, in join
order, whether there is anything. The rotation is asked at most once per member, and a member
who has nothing loses the turn.
-/
def nextTurn (candidates : List Bool) (r : ρ) : Option (Turn × ρ) :=
  turnWithin candidates candidates.length r

end Rotation
end Jukebox
