import Jukebox.Random.Generator
import Jukebox.Rotation.Basic

/-!
# Random turns

Every turn goes to a random member, and repeats are allowed. Each draw has a generator of its
own, seeded by the number of the draw, so that nothing but this number has to be stored.
-/

namespace Jukebox

@[ext]
structure Lottery where
  /-- How many indices there are. -/
  size : Nat
  seed : Nat
  /-- How many turns have been drawn so far. -/
  draws : Nat
  words : AreWords [size, seed, draws] := by decide
  deriving DecidableEq

namespace Lottery

/-- No turns yet; the seed is taken modulo `2 ^ 64`. -/
def empty (seed : Nat) : Lottery where
  size := 0
  seed := wrap seed
  draws := 0
  words := by simp [AreWords, wrap_lt, zero_lt_wordLimit]

theorem size_lt (l : Lottery) : l.size < wordLimit :=
  l.words _ (by simp)

theorem seed_lt (l : Lottery) : l.seed < wordLimit :=
  l.words _ (by simp)

theorem draws_lt (l : Lottery) : l.draws < wordLimit :=
  l.words _ (by simp)

/-- The index that the next draw gives. -/
def pick (l : Lottery) : Nat :=
  Random.Generator.number ((Random.Generator.ofSeed (l.seed + l.draws)).below .double l.size)

/-- The state after a number of draws. -/
def after (l : Lottery) (draws : Nat) : Lottery where
  size := l.size
  seed := l.seed
  draws := wrap (l.draws + draws)
  words := by simp [AreWords, wrap_lt, l.size_lt, l.seed_lt]

def next? (l : Lottery) : Option (Nat × Lottery) :=
  if l.size = 0 then some (0, l) else some (l.pick, l.after 1)

def add (l : Lottery) : Lottery where
  size := wrap (l.size + 1)
  seed := l.seed
  draws := l.draws
  words := by simp [AreWords, wrap_lt, l.seed_lt, l.draws_lt]

instance : Rotation Lottery where
  next? := next?
  add := add
  size := Lottery.size

end Lottery
end Jukebox
