import Jukebox.Text.Blank
import Jukebox.Text.Lowercase

/-!
# Kinds of rotation

A room picks one of three ways to take turns. Each kind has a key, under which it is stored,
and a title for people. Reading a kind from what a person typed is forgiving: letter case,
blank ends and the choice between hyphens, spaces and underscores do not matter.
-/

namespace Jukebox

inductive RotatorKind
  /-- Members take turns in a fixed order. -/
  | roundRobin
  /-- Every member plays once per round, in a new random order each round. -/
  | shuffle
  /-- Every turn goes to a random member. -/
  | random
  deriving DecidableEq

namespace RotatorKind

/-- The word a kind is stored under. -/
def key : RotatorKind → String
  | roundRobin => "round_robin"
  | shuffle => "shuffle"
  | random => "random"

/-- How a kind is shown to people. -/
def title : RotatorKind → String
  | roundRobin => "Round Robin"
  | shuffle => "Shuffle"
  | random => "Random"

/-- The kind with exactly this key. -/
def ofKey? (text : String) : Option RotatorKind :=
  if text = "round_robin" then some roundRobin
  else if text = "shuffle" then some shuffle
  else if text = "random" then some random
  else none

@[simp]
theorem ofKey?_key (kind : RotatorKind) : ofKey? kind.key = some kind := by
  cases kind <;> decide

/-- What a typed kind is compared by. -/
def fold (text : String) : List Char :=
  (Text.lower (Text.trim text.toList)).map fun c => if c = '-' ∨ c = ' ' then '_' else c

/-- The kind that a person means. -/
def ofText? (text : String) : Option RotatorKind :=
  let folded := String.ofList (fold text)
  if folded = "roundrobin" then some roundRobin else ofKey? folded

end RotatorKind
end Jukebox
