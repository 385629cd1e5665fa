import Jukebox.Random.Generator

/-!
# What draws are good for

Whatever words a generator hands out, a number drawn below a bound lies below it, and a
shuffled list holds what it held before.
-/

namespace Jukebox
namespace Random
namespace Generator

/-!
## Numbers below a bound
-/

theorem draw_lt (g : Generator) (width : Width) : (g.draw width).1 < width.limit := by
  cases width with
  | single => exact g.word.1.toNat_lt
  | double =>
      have hlow : g.word.1.toNat < 0x100000000 := g.word.1.toNat_lt
      have hhigh : g.word.2.word.1.toNat < 0x100000000 := g.word.2.word.1.toNat_lt
      simp only [draw, Width.limit, wordLimit]
      omega

theorem belowWithin_lt (width : Width) {bound : Nat} (hbound : 0 < bound) (tries : Nat)
    (g : Generator) : (belowWithin width bound tries g).1 < bound := by
  induction tries generalizing g with
  | zero => exact hbound
  | succ tries ih =>
      simp only [belowWithin]
      split
      · have hdraw : (g.draw width).1 * bound < width.limit * bound :=
          Nat.mul_lt_mul_of_pos_right (draw_lt g width) hbound
        exact Nat.div_lt_of_lt_mul hdraw
      · exact ih _

theorem below_lt (g : Generator) (width : Width) {bound : Nat} (hbound : 0 < bound) :
    (g.below width bound).1 < bound := by
  unfold below
  exact belowWithin_lt width hbound wordLimit g

/-- Holds by definition; stated for any draw, since unfolding `below` would run the
generator. -/
theorem number_lt {drawn : Nat × Generator} {bound : Nat} (h : drawn.1 < bound) :
    number drawn < bound :=
  h

/-!
## Shuffled lists
-/

variable {α : Type}

theorem swapIfInBounds_perm (xs : Array α) (i j : Nat) : (xs.swapIfInBounds i j).Perm xs := by
  rw [Array.swapIfInBounds_def]
  split
  · split
    · exact Array.swap_perm _ _
    · exact .refl xs
  · exact .refl xs

theorem shuffleFrom_perm (i : Nat) (xs : Array α) (g : Generator) :
    (shuffleFrom i xs g).1.Perm xs := by
  induction i generalizing xs g with
  | zero => exact .refl xs
  | succ i ih =>
      simp only [shuffleFrom]
      -- Left to be found by unification, the generator would be run.
      generalize g.below .single (i + 2) = drawn
      exact (ih _ drawn.2).trans (swapIfInBounds_perm xs (i + 1) drawn.1)

theorem shuffle_perm (g : Generator) (xs : List α) : (g.shuffle xs).Perm xs := by
  simpa [shuffle] using (shuffleFrom_perm (xs.length - 1) xs.toArray g).toList

end Generator
end Random
end Jukebox
