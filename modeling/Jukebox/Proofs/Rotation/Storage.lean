import Jukebox.Proofs.Rotation.Encoding
import Jukebox.Proofs.Rotation.Play

/-!
# Rotators go on where they were stored

A rotator may be written as a text and read again at any moment, before or after any turn and
any newcomer. What is read is the rotator that was written, so every index that follows is the
one that would have followed anyway. This holds of every state, also where its numbers
contradict each other or overflow.
-/

namespace Jukebox
namespace Rotation

variable {ρ : Type} [Rotation ρ]

theorem play?_cons (event : Event) (rest : List Event) (r : ρ) :
    play? (event :: rest) r = (play? [event] r).bind fun first =>
      (play? rest first.2).map fun later => (first.1 ++ later.1, later.2) := by
  cases event with
  | newcomer =>
      rw [play?_newcomer, play?_newcomer, play?_nil, Option.bind_some]
      cases play? rest (add r) <;> rfl
  | turn =>
      cases hnext : next? r with
      | none => simp only [play?, hnext, Option.bind_none]
      | some taken => rw [play?_turn hnext, play?_turn hnext]; rfl

end Rotation

namespace Rotator

open Rotation

/-!
## Stored runs
-/

/-- What happens to a rotator: an event, or that it is written as a text and read again. -/
inductive Moment
  | passed (event : Event)
  | stored
  deriving DecidableEq

def Moment.event? : Moment → Option Event
  | .passed event => some event
  | .stored => none

def events (moments : List Moment) : List Event :=
  moments.filterMap Moment.event?

def reread? (r : Rotator) : Option Rotator :=
  (decode r.encode).toOption

/-- The indices that are handed out during some moments, and the rotator after them. There is
no outcome if a turn has no answer, or if a text cannot be read. -/
def playStored? : List Moment → Rotator → Option (List Nat × Rotator)
  | [], r => some ([], r)
  | .passed event :: rest, r =>
    (play? [event] r).bind fun first =>
      (playStored? rest first.2).map fun later => (first.1 ++ later.1, later.2)
  | .stored :: rest, r => r.reread?.bind fun found => playStored? rest found

variable {r : Rotator} {moments : List Moment}

@[simp]
theorem events_passed (event : Event) (rest : List Moment) :
    events (.passed event :: rest) = event :: events rest :=
  rfl

@[simp]
theorem events_stored (rest : List Moment) : events (.stored :: rest) = events rest :=
  rfl

theorem reread?_eq (r : Rotator) : r.reread? = some r := by
  rw [reread?, decode_encode]
  rfl

theorem playStored?_eq : playStored? moments r = play? (events moments) r := by
  induction moments generalizing r with
  | nil => rfl
  | cons moment rest ih =>
      cases moment with
      | stored => rw [playStored?, reread?_eq, Option.bind_some, events_stored, ih]
      | passed event =>
          rw [playStored?, events_passed, play?_cons event (events rest)]
          cases hfirst : play? [event] r with
          | none => rfl
          | some first => rw [Option.bind_some, Option.bind_some, ih]

/-- Storing a rotator loses nothing of it, and a run goes the same way wherever it is
stored. -/
theorem goes_on_where_stored (r : Rotator) :
    decode r.encode = .ok r ∧
    ∀ moments : List Moment, playStored? moments r = play? (events moments) r :=
  ⟨decode_encode r, fun _ => playStored?_eq⟩

/-- A shuffle that has drawn as many orders as it can count. Its order names nobody that it
has, and its next order is longer than it is. -/
def crooked : Rotator :=
  .shuffle ⟨[7, 7], 1, 5, 9, 2 ^ 64 - 1, [(2, 40), (6, 0)], by decide⟩

/-- The count of orders starts over, so the newcomer is part of a draw that begins the round
anew. -/
example : (play? [.turn, .turn, .newcomer, .turn, .turn] crooked).map Prod.fst = some
    [7, 6, 2, 1] := by
  decide +kernel

end Rotator
end Jukebox
