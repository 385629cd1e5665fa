import Jukebox.Random.Draws
import Jukebox.Rotation.Basic

/-!
# Shuffled rounds

Every member plays once per round, and each round has a new random order. The order of a round
depends on the seed and the number of the round only, so a stored rotation goes on as it would
have.
-/

namespace Jukebox

/-- The numbers of some newcomers with their slots, in a row. -/
def slotNumbers (newcomers : List (Nat × Nat)) : List Nat :=
  newcomers.flatMap fun newcomer => [newcomer.1, newcomer.2]

@[ext]
structure Shuffle where
  /-- The order of the current round. -/
  perm : List Nat
  /-- The place in the order whose turn is next. -/
  cursor : Nat
  /-- How many indices there are. -/
  size : Nat
  seed : Nat
  /-- How many orders have been drawn so far. -/
  epoch : Nat
  /-- Newcomers whose slot in the current round has passed, with their slot in the next one. -/
  deferred : List (Nat × Nat)
  words : AreWords ([cursor, size, seed, epoch] ++ perm ++ slotNumbers deferred) := by decide
  deriving DecidableEq

namespace Shuffle

/-!
## Numbers
-/

theorem areWords_iff {perm : List Nat} {cursor size seed epoch : Nat}
    {deferred : List (Nat × Nat)} :
    AreWords ([cursor, size, seed, epoch] ++ perm ++ slotNumbers deferred) ↔
      cursor < wordLimit ∧ size < wordLimit ∧ seed < wordLimit ∧ epoch < wordLimit ∧
        AreWords perm ∧ AreWords (slotNumbers deferred) := by
  simp only [AreWords, List.cons_append, List.nil_append, List.forall_mem_cons,
    List.forall_mem_append]

section Words

variable (s : Shuffle)

theorem cursor_lt : s.cursor < wordLimit :=
  (areWords_iff.mp s.words).1

theorem size_lt : s.size < wordLimit :=
  (areWords_iff.mp s.words).2.1

theorem seed_lt : s.seed < wordLimit :=
  (areWords_iff.mp s.words).2.2.1

theorem epoch_lt : s.epoch < wordLimit :=
  (areWords_iff.mp s.words).2.2.2.1

theorem areWords_perm : AreWords s.perm :=
  (areWords_iff.mp s.words).2.2.2.2.1

theorem areWords_deferred : AreWords (slotNumbers s.deferred) :=
  (areWords_iff.mp s.words).2.2.2.2.2

end Words

/-- No turns yet; the seed is taken modulo `2 ^ 64`. -/
def empty (seed : Nat) : Shuffle where
  perm := []
  cursor := 0
  size := 0
  seed := wrap seed
  epoch := 0
  deferred := []
  words := areWords_iff.mpr ⟨zero_lt_wordLimit, zero_lt_wordLimit, wrap_lt seed,
    zero_lt_wordLimit, by simp [AreWords], by simp [AreWords, slotNumbers]⟩

/-!
## Drawing an order
-/

/-- Puts a deferred newcomer at the slot it was promised, or at the end if the order is
shorter. -/
def place (perm : List Nat) (newcomer : Nat × Nat) : List Nat :=
  perm.insertIdx (min newcomer.2 perm.length) newcomer.1

theorem areWords_foldl_place {perm : List Nat} (hperm : AreWords perm)
    {newcomers : List (Nat × Nat)} (hnewcomers : AreWords (slotNumbers newcomers)) :
    AreWords (newcomers.foldl place perm) := by
  induction newcomers generalizing perm with
  | nil => exact hperm
  | cons newcomer rest ih =>
      simp only [AreWords, slotNumbers, List.flatMap_cons, List.forall_mem_append,
        List.forall_mem_cons] at hnewcomers
      refine ih ?_ hnewcomers.2
      intro index hindex
      rcases (List.mem_insertIdx (Nat.min_le_right _ _)).mp hindex with rfl | hold
      · exact hnewcomers.1.1
      · exact hperm index hold

/-- The indices that take part in a draw: all but the deferred ones. -/
def drawn (s : Shuffle) : List Nat :=
  (List.range s.size).filter fun index => !s.deferred.any fun newcomer => newcomer.1 == index

/-- The order of the next round. -/
def nextOrder (s : Shuffle) : List Nat :=
  s.deferred.foldl place ((Random.Generator.ofSeed (s.seed + s.epoch)).shuffle s.drawn)

theorem areWords_nextOrder (s : Shuffle) : AreWords s.nextOrder := by
  refine areWords_foldl_place ?_ s.areWords_deferred
  intro index hindex
  have hdrawn : index ∈ s.drawn := (Random.Generator.shuffle_perm _ _).mem_iff.mp hindex
  exact Nat.lt_trans (List.mem_range.mp (List.mem_filter.mp hdrawn).1) s.size_lt

/-- Draws the order of the next round. -/
def reshuffle (s : Shuffle) : Shuffle where
  perm := s.nextOrder
  cursor := 0
  size := s.size
  seed := s.seed
  epoch := wrap (s.epoch + 1)
  deferred := []
  words := areWords_iff.mpr ⟨zero_lt_wordLimit, s.size_lt, s.seed_lt, wrap_lt _,
    s.areWords_nextOrder, by simp [AreWords, slotNumbers]⟩

/-!
## Turns
-/

/-- Whether a new order is due: none was drawn yet, or the round is over. -/
def Due (s : Shuffle) : Prop :=
  s.epoch = 0 ∨ s.perm.length ≤ s.cursor

instance (s : Shuffle) : Decidable s.Due :=
  inferInstanceAs (Decidable (_ ∨ _))

/-- The same round at another position. -/
def moved (s : Shuffle) (cursor : Nat) : Shuffle where
  perm := s.perm
  cursor := wrap cursor
  size := s.size
  seed := s.seed
  epoch := s.epoch
  deferred := s.deferred
  words := areWords_iff.mpr ⟨wrap_lt _, s.size_lt, s.seed_lt, s.epoch_lt, s.areWords_perm,
    s.areWords_deferred⟩

theorem cursor_moved {s : Shuffle} {cursor : Nat} (h : cursor < wordLimit) :
    (s.moved cursor).cursor = cursor :=
  wrap_of_lt h

theorem perm_moved (s : Shuffle) (cursor : Nat) : (s.moved cursor).perm = s.perm :=
  rfl

/-- Hands out the index at the cursor of the current order. -/
def take? (s : Shuffle) : Option (Nat × Shuffle) :=
  (s.perm[s.cursor]?).map fun index => (index, s.moved (s.cursor + 1))

def next? (s : Shuffle) : Option (Nat × Shuffle) :=
  if s.size = 0 then some (0, s)
  else if s.Due then s.reshuffle.take?
  else s.take?

/-!
## Newcomers
-/

/-- The same round with one more index, which has no place yet. -/
def grown (s : Shuffle) : Shuffle where
  perm := s.perm
  cursor := s.cursor
  size := wrap (s.size + 1)
  seed := s.seed
  epoch := s.epoch
  deferred := s.deferred
  words := areWords_iff.mpr ⟨s.cursor_lt, wrap_lt _, s.seed_lt, s.epoch_lt, s.areWords_perm,
    s.areWords_deferred⟩

/-- A newcomer whose slot in the current round is still ahead takes it at once. -/
def seat (s : Shuffle) (slot : Nat) (hslot : slot ≤ s.perm.length) : Shuffle where
  perm := s.perm.insertIdx slot s.size
  cursor := s.cursor
  size := wrap (s.size + 1)
  seed := s.seed
  epoch := s.epoch
  deferred := s.deferred
  words := by
    refine areWords_iff.mpr ⟨s.cursor_lt, wrap_lt _, s.seed_lt, s.epoch_lt, ?_,
      s.areWords_deferred⟩
    intro index hindex
    rcases (List.mem_insertIdx hslot).mp hindex with rfl | hold
    · exact s.size_lt
    · exact s.areWords_perm index hold

/-- A newcomer whose slot has passed is promised it for the next round. -/
def defer (s : Shuffle) (slot : Nat) (hslot : slot < wordLimit) : Shuffle where
  perm := s.perm
  cursor := s.cursor
  size := wrap (s.size + 1)
  seed := s.seed
  epoch := s.epoch
  deferred := s.deferred ++ [(s.size, slot)]
  words := by
    refine areWords_iff.mpr ⟨s.cursor_lt, wrap_lt _, s.seed_lt, s.epoch_lt,
      s.areWords_perm, ?_⟩
    simp only [AreWords, slotNumbers, List.flatMap_append, List.forall_mem_append]
    exact ⟨s.areWords_deferred, by simp [s.size_lt, hslot]⟩

/-- Adds an index. The first draw covers everyone who came before it. Later on, a slot that is
still ahead is taken at once, and one that has passed is promised for the next round.
-/
def add (s : Shuffle) : Shuffle :=
  if s.epoch = 0 then s.grown
  else if s.cursor ≤ Rotation.halfwaySlot s.cursor s.perm.length then
    s.seat (Rotation.halfwaySlot s.cursor s.perm.length) (Rotation.halfwaySlot_le _ _)
  else
    s.defer (Rotation.halfwaySlot s.cursor s.perm.length)
      (Rotation.halfwaySlot_lt_wordLimit _ _)

instance : Rotation Shuffle where
  next? := next?
  add := add
  size := Shuffle.size

end Shuffle
end Jukebox
