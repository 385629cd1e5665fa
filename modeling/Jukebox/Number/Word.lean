/-!
# Words

Seeds, counters and stored numbers are words of 64 bits. A sum or a product that does not fit
is taken modulo `2 ^ 64`.
-/

namespace Jukebox

/-- One more than the greatest word. -/
def wordLimit : Nat :=
  0x10000000000000000

/-- The word that an overflowing sum or product leaves. -/
def wrap (n : Nat) : Nat :=
  n % wordLimit

theorem wrap_lt (n : Nat) : wrap n < wordLimit :=
  Nat.mod_lt _ (Nat.two_pow_pos 64)

theorem wrap_of_lt {n : Nat} (h : n < wordLimit) : wrap n = n :=
  Nat.mod_eq_of_lt h

theorem wrap_le (n : Nat) : wrap n ≤ n :=
  Nat.mod_le _ _

theorem zero_lt_wordLimit : 0 < wordLimit :=
  Nat.two_pow_pos 64

/-- Whether all numbers of a list are words. -/
def AreWords (numbers : List Nat) : Prop :=
  ∀ n ∈ numbers, n < wordLimit

instance (numbers : List Nat) : Decidable (AreWords numbers) :=
  inferInstanceAs (Decidable (∀ n ∈ numbers, n < wordLimit))

end Jukebox
