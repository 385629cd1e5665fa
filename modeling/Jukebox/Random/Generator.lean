import Jukebox.Number.Word
import Jukebox.Random.ChaCha

/-!
# A seeded generator

A generator is fully determined by its seed, so a choice that was made once can be made again.
It hands out the words of one ChaCha block after another. From them come numbers below a bound,
all equally likely, and shuffled arrays.
-/

namespace Jukebox
namespace Random

structure Generator where
  key : Key
  /-- The counter of the block after those already taken. -/
  counter : UInt64
  /-- Words of the last block that were not handed out yet. -/
  pending : List UInt32

namespace Generator

/-!
## Seeding

A linear congruential step gives each word of the key; its output is permuted so that the high
bits of the state decide how far the word is rotated.
-/

/-- The word that a seeding state yields. -/
def seedWord (state : UInt64) : UInt32 :=
  let folded := (((state >>> 18) ^^^ state) >>> 27).toUInt32
  let turn := (state >>> 59).toUInt32
  rotateLeft folded (32 - turn)

def seedStep (state : UInt64) : UInt64 :=
  state * 6364136223846793005 + 11634580027462260723

/-- The key of a seed: the words of its next eight seeding states. -/
def seedKey (seed : UInt64) : Key :=
  Vector.ofFn fun i => seedWord (Nat.repeat seedStep (i.val + 1) seed)

/-- The generator of a seed, which is taken modulo `2 ^ 64`. -/
def ofSeed (seed : Nat) : Generator :=
  ⟨seedKey seed.toUInt64, 0, []⟩

/-!
## Drawing
-/

def word (g : Generator) : UInt32 × Generator :=
  match g.pending with
  | w :: rest => (w, { g with pending := rest })
  | [] =>
    let words := block g.key g.counter
    (words[0], { g with counter := g.counter + 1, pending := words.toList.tail })

/-- How many bits a draw has. -/
inductive Width
  | single
  | double
  deriving DecidableEq

def Width.bits : Width → Nat
  | single => 32
  | double => 64

/-- One more than the greatest number of a draw. -/
def Width.limit : Width → Nat
  | single => 0x100000000
  | double => wordLimit

/-- A number of the given width; of two words the first is the low half. -/
def draw (g : Generator) : Width → Nat × Generator
  | .single =>
    let (low, g) := g.word
    (low.toNat, g)
  | .double =>
    let (low, g) := g.word
    let (high, g) := g.word
    (low.toNat + Width.single.limit * high.toNat, g)

/-- The largest low half that is accepted: the bound, shifted until its top bit is set, less
one. -/
def acceptZone (width : Width) (bound : Nat) : Nat :=
  bound <<< (width.bits - 1 - Nat.log2 bound) - 1

/-- A number below the bound. A draw times the bound has the answer in its high half; draws
whose low half lies outside the zone would make some answers likelier and are thrown away. The
stream of words returns to its start before `tries` runs out.
-/
def belowWithin (width : Width) (bound : Nat) : Nat → Generator → Nat × Generator
  | 0, g => (0, g)
  | tries + 1, g =>
    let (value, g) := g.draw width
    let product := value * bound
    if product % width.limit ≤ acceptZone width bound then (product / width.limit, g)
    else belowWithin width bound tries g

def below (g : Generator) (width : Width) (bound : Nat) : Nat × Generator :=
  belowWithin width bound wordLimit g

/-- The number of a draw, for a generator that is not drawn from again. -/
def number (drawn : Nat × Generator) : Nat :=
  drawn.1

/-- Exchanges each element, from the last to the second, with one that does not lie behind
it. -/
def shuffleFrom {α : Type} : Nat → Array α → Generator → Array α × Generator
  | 0, xs, g => (xs, g)
  | i + 1, xs, g =>
    let (j, g) := g.below .single (i + 2)
    shuffleFrom i (xs.swapIfInBounds (i + 1) j) g

/-- A random order of the elements. -/
def shuffle {α : Type} (g : Generator) (xs : List α) : List α :=
  (shuffleFrom (xs.length - 1) xs.toArray g).1.toList

/-- All words of the stream of a seed, for choices that are not to be made again. -/
def wordsOf (seed : Nat) : Nat → Nat :=
  let key := seedKey seed.toUInt64
  fun i =>
    let words := block key (i / 16).toUInt64
    (words.toList.getD (i % 16) 0).toNat

end Generator
end Random
end Jukebox
