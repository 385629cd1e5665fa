import Jukebox.Proofs.Number.Shortest

/-!
# Decimals keep away from midpoints

A decimal that is read in double precision is off by a small part of itself. This can only
matter next to a midpoint between two numbers of single precision. On a grid whose steps are at
least as large as the way to the midpoint, a decimal is a midpoint or stays away from it, but
for three close calls.

Decimals `d * 10 ^ e` are compared to midpoints `c * 2 ^ unit` as the fractions `c / d` to the
step of the grid. A fraction that is close to the step keeps all others away whose numerators
are not large. Some convergent of the step is close enough on every grid, which is checked one
grid after another.
-/

namespace Jukebox
namespace Number

/-- The share of itself by which a number may be off. -/
def tolerance : ℚ :=
  9 / 2 ^ 55

/-- Midpoints are counted in ways from a number to the midpoint below it. -/
def midpointLimit : Nat :=
  2 ^ 25 + 2

/-!
## Fractions near a step

The step of a grid is `num / den` of the unit.
-/

section Anchor

variable {num den p q c d : Nat}

theorem mul_le_of_near (hden : 0 < den) (hlimit : c ≤ midpointLimit)
    (hnear : |(d * num : ℚ) - c * den| ≤ tolerance * (d * num)) :
    (d * num : ℚ) ≤ (midpointLimit + 1) * den := by
  have hpos : (0 : ℚ) < den := Nat.cast_pos.mpr hden
  have hc : (c : ℚ) ≤ midpointLimit := by exact_mod_cast hlimit
  have hle := (le_abs_self _).trans hnear
  have hvalue : (midpointLimit : ℚ) = 2 ^ 25 + 2 := by norm_num [midpointLimit]
  rw [hvalue] at hc ⊢
  rw [tolerance] at hle
  nlinarith

/-- Two different fractions are not both close to a step. -/
theorem tolerance_lt_of_anchor (hnum : 0 < num) (hden : 0 < den)
    (hanchor : (midpointLimit + 1) * (tolerance * (q * num) + |(q * num : ℚ) - p * den|) < num)
    (hlimit : c ≤ midpointLimit) (hne : c * q ≠ p * d) :
    tolerance * (d * num) < |(d * num : ℚ) - c * den| := by
  by_contra hnear
  rw [not_lt] at hnear
  have hpos : (0 : ℚ) < num ∧ (0 : ℚ) < den := ⟨Nat.cast_pos.mpr hnum, Nat.cast_pos.mpr hden⟩
  have hd := mul_le_of_near hden hlimit hnear
  have hone : (1 : ℚ) ≤ |(c * q : ℚ) - p * d| := by
    have hsub : (c * q - p * d : Int) ≠ 0 := by
      rw [sub_ne_zero]
      exact_mod_cast hne
    exact_mod_cast Int.one_le_abs hsub
  have hcross : den * |(c * q : ℚ) - p * d| ≤
      d * (tolerance * (q * num) + |(q * num : ℚ) - p * den|) := by
    calc den * |(c * q : ℚ) - p * d| = |q * -(d * num - c * den) + d *
      ((q * num : ℚ) - p * den)| := by
          rw [← Nat.abs_cast den, ← abs_mul, Nat.abs_cast]
          congr 1
          ring
      _ ≤ q * |(d * num : ℚ) - c * den| + d * |(q * num : ℚ) - p * den| := by
          refine (abs_add_le _ _).trans_eq ?_
          rw [abs_mul, abs_mul, abs_neg, Nat.abs_cast, Nat.abs_cast]
      _ ≤ q * (tolerance * (d * num)) + d * |(q * num : ℚ) - p * den| := by gcongr
      _ = d * (tolerance * (q * num) + |(q * num : ℚ) - p * den|) := by ring
  have hlt : (den * num : ℚ) < den * num := by
    calc (den * num : ℚ) ≤ den * |(c * q : ℚ) - p * d| * num := by
          gcongr
          exact le_mul_of_one_le_right hpos.2.le hone
      _ ≤ d * (tolerance * (q * num) + |(q * num : ℚ) - p * den|) * num := by gcongr
      _ = d * num * (tolerance * (q * num) + |(q * num : ℚ) - p * den|) := by ring
      _ ≤ (midpointLimit + 1) * den * (tolerance * (q * num) + |(q * num : ℚ) - p * den|) := by
          have : 0 ≤ tolerance := by norm_num [tolerance]
          gcongr
      _ = den * ((midpointLimit + 1) *
        (tolerance * (q * num) + |(q * num : ℚ) - p * den|)) := by
          ring
      _ < den * num := by
          have := hpos.2
          gcongr
  exact lt_irrefl _ hlt

theorem mul_abs_sub_of_eq (num den : Nat) (heq : c * q = p * d) :
    q * |(d * num : ℚ) - c * den| = d * |(q * num : ℚ) - p * den| := by
  have heq : (c * q : ℚ) = p * d := by exact_mod_cast heq
  calc q * |(d * num : ℚ) - c * den| = |q * ((d * num : ℚ) - c * den)| := by
        rw [abs_mul, Nat.abs_cast]
    _ = |d * ((q * num : ℚ) - p * den)| := by
        congr 1
        linear_combination -den * heq
    _ = d * |(q * num : ℚ) - p * den| := by rw [abs_mul, Nat.abs_cast]

end Anchor

/-!
## The grids
-/

/-- The close calls: the midpoints in question, as a unit and its multiple. -/
def closeCalls : List (Int × Nat) :=
  [(-108, 22841339), (-107, 22841339), (-50, 28874659)]

def distance (a b : Nat) : Nat :=
  a - b + (b - a)

theorem distance_eq (a b : Nat) : (distance a b : ℚ) = |(a : ℚ) - b| := by
  rw [distance]
  rcases Nat.le_total a b with h | h
  · have hle : (a : ℚ) ≤ b := by exact_mod_cast h
    rw [Nat.sub_eq_zero_of_le h, zero_add, Nat.cast_sub h, abs_of_nonpos (by linarith),
      neg_sub]
  · have hle : (b : ℚ) ≤ a := by exact_mod_cast h
    rw [Nat.sub_eq_zero_of_le h, add_zero, Nat.cast_sub h, abs_of_nonneg (by linarith)]

/-- Whether a fraction keeps others away from a step. -/
def isAnchor (num den p q : Nat) : Bool :=
  Nat.blt 0 q &&
    Nat.blt ((midpointLimit + 1) * (9 * (q * num) + 2 ^ 55 * distance (q * num) (p * den)))
      (2 ^ 55 * num)

/-- Whether a fraction stays away from a step itself, or is no reason to worry. -/
def isSettled (e unit : Int) (num den p q : Nat) : Bool :=
  distance (q * num) (p * den) = 0 && e.natAbs ≤ 22 ||
    9 * (q * num) < 2 ^ 55 * distance (q * num) (p * den) ||
    closeCalls.contains (unit, p) && p.Coprime q && midpointLimit < 2 * p

/-- Whether a convergent of a step settles its grid. Euclid's algorithm runs on the last two
numbers, and the four before them are the last two convergents. -/
def settles (e unit : Int) (num den : Nat) : Nat → Nat → Nat → Nat → Nat → Nat → Nat → Bool
  | 0, _, _, _, _, _, _ => false
  | steps + 1, p₀, q₀, p, q, a, b =>
    isAnchor num den (a / b * p + p₀) (a / b * q + q₀) &&
        isSettled e unit num den (a / b * p + p₀) (a / b * q + q₀) ||
      settles e unit num den steps p q (a / b * p + p₀) (a / b * q + q₀) b (a % b)

theorem exists_of_settles {e unit : Int} {num den steps p₀ q₀ p q a b : Nat}
    (h : settles e unit num den steps p₀ q₀ p q a b) :
    ∃ p q, isAnchor num den p q ∧ isSettled e unit num den p q := by
  induction steps generalizing p₀ q₀ p q a b with
  | zero => cases h
  | succ steps ih =>
      rw [settles, Bool.or_eq_true, Bool.and_eq_true] at h
      exact h.elim (fun h => ⟨_, _, h⟩) ih

def isChecked (e unit : Int) : Bool :=
  let (num, den) := gridStep e unit
  103 < unit || num < den || (midpointLimit + 1) * den < num ||
    settles e unit num den 24 0 1 1 0 num den

/-- About the largest unit that a power of ten is a multiple of. -/
def coarsest (e : Int) : Int :=
  if 0 ≤ e then Nat.log2 (10 ^ e.toNat) else -Nat.log2 (10 ^ (-e).toNat)

theorem all_isChecked : (List.range 85).all fun i => (List.range 27).all fun (k : Nat) =>
    isChecked (i - 46) (coarsest (i - 46) - k) := by
  decide +kernel

theorem coarsest_bounds (e : Int) :
    (2 : ℚ) ^ (coarsest e - 1) < 10 ^ e ∧ (10 : ℚ) ^ e < 2 ^ (coarsest e + 1) := by
  have hlog (n : Nat) : (2 : ℚ) ^ (Nat.log2 (10 ^ n) : Int) ≤ 10 ^ (n : Int) ∧
      (10 : ℚ) ^ (n : Int) < 2 ^ (Nat.log2 (10 ^ n) + 1 : Int) := by
    simpa using mem_log2 (n := 10 ^ n) (Nat.pow_pos (by decide))
  by_cases he : 0 ≤ e
  · obtain ⟨n, rfl⟩ := Int.eq_ofNat_of_zero_le he
    rw [coarsest, if_pos he, Int.toNat_natCast]
    exact ⟨(zpow_lt_zpow_right₀ one_lt_two (by omega)).trans_le (hlog n).1, (hlog n).2⟩
  · obtain ⟨n, hn⟩ := Int.eq_ofNat_of_zero_le (by omega : 0 ≤ -e)
    obtain rfl : e = -n := by omega
    rw [coarsest, if_neg he, neg_neg, Int.toNat_natCast, zpow_neg]
    constructor
    · rw [← neg_add', zpow_neg]
      gcongr
      exact (hlog n).2
    · calc ((10 : ℚ) ^ (n : Int))⁻¹ ≤ (2 ^ (Nat.log2 (10 ^ n) : Int))⁻¹ := by
            gcongr
            exact (hlog n).1
        _ < 2 ^ (-(Nat.log2 (10 ^ n) : Int) + 1) := by
            rw [← zpow_neg]
            exact zpow_lt_zpow_right₀ one_lt_two (by omega)

theorem isChecked_of_le {e unit : Int} (hlow : -46 ≤ e) (hhigh : e ≤ 38)
    (hcoarse : (2 : ℚ) ^ unit ≤ 10 ^ e)
    (hfine : (10 : ℚ) ^ e ≤ (midpointLimit + 1) * 2 ^ unit) : isChecked e unit := by
  have hle : unit < coarsest e + 1 :=
    (zpow_lt_zpow_iff_right₀ one_lt_two).mp (hcoarse.trans_lt (coarsest_bounds e).2)
  have hlt : coarsest e - 1 < unit + 26 := by
    refine (zpow_lt_zpow_iff_right₀ (one_lt_two (α := ℚ))).mp
      ((coarsest_bounds e).1.trans_le ?_)
    calc (10 : ℚ) ^ e ≤ (midpointLimit + 1) * 2 ^ unit := hfine
      _ ≤ 2 ^ 26 * 2 ^ unit := by
          gcongr
          norm_num [midpointLimit]
      _ = 2 ^ (unit + 26) := by
          rw [zpow_add₀ two_ne_zero, mul_comm]
          rfl
  have hi := List.all_eq_true.mp all_isChecked (e + 46).toNat (List.mem_range.mpr (by omega))
  have hk := List.all_eq_true.mp hi (coarsest e - unit).toNat
  rw [show ((e + 46).toNat : Int) - 46 = e by omega,
    show coarsest e - ((coarsest e - unit).toNat : Int) = unit by omega] at hk
  exact hk (List.mem_range.mpr (by omega))

section Checked

variable {e unit : Int} {num den p q c d : Nat}

theorem anchor_of_isAnchor (h : isAnchor num den p q) : 0 < q ∧
    (midpointLimit + 1) * (tolerance * (q * num) + |(q * num : ℚ) - p * den|) < num := by
  rw [isAnchor, Bool.and_eq_true, Nat.blt_eq, Nat.blt_eq] at h
  have hlt : ((_ : Nat) : ℚ) < (_ : Nat) := Nat.cast_lt.mpr h.2
  push_cast [distance_eq] at hlt
  refine ⟨h.1, ?_⟩
  rw [tolerance]
  linarith

theorem exact_or_closeCall_of_isSettled (hq : 0 < q) (hd : 0 < d) (hc : 0 < c)
    (hlimit : c ≤ midpointLimit) (h : isSettled e unit num den p q) (heq : c * q = p * d)
    (hnear : |(d * num : ℚ) - c * den| ≤ tolerance * (d * num)) :
    (d * num : ℚ) = c * den ∧ e.natAbs ≤ 22 ∨ (unit, c) ∈ closeCalls := by
  have hpos : (0 : ℚ) < q ∧ (0 : ℚ) < d := ⟨Nat.cast_pos.mpr hq, Nat.cast_pos.mpr hd⟩
  have hsame := mul_abs_sub_of_eq num den heq
  rw [isSettled, Bool.or_eq_true, Bool.or_eq_true] at h
  rcases h with (h | h) | h
  · rw [Bool.and_eq_true, decide_eq_true_eq, decide_eq_true_eq] at h
    have hzero : |(q * num : ℚ) - p * den| = 0 := by
      have := distance_eq (q * num) (p * den)
      rw [h.1] at this
      exact_mod_cast this.symm
    rw [hzero, mul_zero, mul_eq_zero, or_iff_right hpos.1.ne', abs_eq_zero, sub_eq_zero]
      at hsame
    exact .inl ⟨hsame, h.2⟩
  · rw [decide_eq_true_eq] at h
    have hlt : ((_ : Nat) : ℚ) < (_ : Nat) := Nat.cast_lt.mpr h
    push_cast [distance_eq] at hlt
    have hfar : q * (tolerance * (d * num)) < q * |(d * num : ℚ) - c * den| := by
      rw [hsame, tolerance]
      nlinarith [mul_lt_mul_of_pos_left hlt hpos.2]
    exact absurd hnear (not_le.mpr (lt_of_mul_lt_mul_left hfar hpos.1.le))
  · rw [Bool.and_eq_true, Bool.and_eq_true, decide_eq_true_eq, decide_eq_true_eq] at h
    -- The numerator is a multiple of `p`, and twice `p` is too large.
    obtain ⟨k, rfl⟩ := h.1.2.dvd_of_dvd_mul_right ⟨d, heq⟩
    have hk : k = 1 := by
      have hk : k < 2 := lt_of_mul_lt_mul_left (by omega : p * k < p * 2) (Nat.zero_le p)
      have hpos := Nat.pos_of_mul_pos_left hc
      omega
    rw [hk, mul_one]
    exact .inr (List.contains_iff_mem.mp h.1.1)

theorem exact_or_closeCall_of_isChecked (hstep : gridStep e unit = (num, den)) (hnum : 0 < num)
    (hden : 0 < den) (hunit : unit ≤ 103) (hcoarse : den ≤ num)
    (hfine : num ≤ (midpointLimit + 1) * den) (hc : 0 < c) (hlimit : c ≤ midpointLimit)
    (hd : 0 < d) (h : isChecked e unit)
    (hnear : |(d * num : ℚ) - c * den| ≤ tolerance * (d * num)) :
    (d * num : ℚ) = c * den ∧ e.natAbs ≤ 22 ∨ (unit, c) ∈ closeCalls := by
  simp only [isChecked, hstep, Bool.or_eq_true, decide_eq_true_eq, not_lt.mpr hunit,
    not_lt.mpr hcoarse, not_lt.mpr hfine, false_or] at h
  obtain ⟨p, q, hanchor, hsettled⟩ := exists_of_settles h
  obtain ⟨hq, hanchor⟩ := anchor_of_isAnchor hanchor
  by_cases heq : c * q = p * d
  · exact exact_or_closeCall_of_isSettled hq hd hc hlimit hsettled heq hnear
  · exact absurd hnear (not_le.mpr (tolerance_lt_of_anchor hnum hden hanchor hlimit heq))

end Checked

/-- A decimal near a midpoint is that midpoint, unless it is a close call. -/
theorem exact_or_closeCall {e unit : Int} {c d : Nat} (hlow : -46 ≤ e) (hhigh : e ≤ 38)
    (hunit : unit ≤ 103) (hcoarse : (2 : ℚ) ^ unit ≤ 10 ^ e)
    (hc : 0 < c) (hlimit : c ≤ midpointLimit) (hd : 0 < d)
    (hnear : |(d * 10 ^ e : ℚ) - c * 2 ^ unit| ≤ tolerance * (d * 10 ^ e)) :
    (d * 10 ^ e : ℚ) = c * 2 ^ unit ∧ e.natAbs ≤ 22 ∨ (unit, c) ∈ closeCalls := by
  obtain ⟨hnum, hden⟩ := gridStep_pos e unit
  have heq := gridStep_eq e unit
  obtain ⟨num, den, hstep⟩ : ∃ num den, gridStep e unit = (num, den) := ⟨_, _, rfl⟩
  rw [hstep] at hnum hden heq
  have hpos : (0 : ℚ) < num ∧ (0 : ℚ) < den := ⟨Nat.cast_pos.mpr hnum, Nat.cast_pos.mpr hden⟩
  have hunitPos : (0 : ℚ) < 2 ^ unit := by positivity
  -- Counted in parts of the unit, the decimal is `d * num` and the midpoint `c * den`.
  have hten : (10 : ℚ) ^ e * (den / 2 ^ unit) = num := by
    rw [div_eq_div_iff hpos.2.ne' hunitPos.ne'] at heq
    rw [mul_div_assoc', ← heq, mul_div_cancel_right₀ _ hunitPos.ne']
  have hscale : (0 : ℚ) < den / 2 ^ unit := div_pos hpos.2 hunitPos
  have hdecimal : (d * 10 ^ e : ℚ) * (den / 2 ^ unit) = d * num := by
    rw [mul_assoc, hten]
  have hmidpoint : (c * 2 ^ unit : ℚ) * (den / 2 ^ unit) = c * den := by
    field_simp
  have hscaled : |(d * num : ℚ) - c * den| ≤ tolerance * (d * num) := by
    rw [← hdecimal, ← hmidpoint, ← sub_mul, abs_mul, abs_of_pos hscale, ← mul_assoc]
    gcongr
  have hle : (den : ℚ) ≤ num := by
    rw [← hten, mul_div_assoc', le_div_iff₀ hunitPos, mul_comm]
    gcongr
  have hfine : (num : ℚ) ≤ (midpointLimit + 1) * den :=
    (le_mul_of_one_le_left hpos.1.le (Nat.one_le_cast.mpr hd)).trans
      (mul_le_of_near hden hlimit hscaled)
  have hchecked : isChecked e unit := by
    refine isChecked_of_le hlow hhigh hcoarse (le_of_mul_le_mul_right ?_ hscale)
    rwa [hten, mul_assoc, mul_div_cancel₀ _ hunitPos.ne']
  refine (exact_or_closeCall_of_isChecked hstep hnum hden hunit (by exact_mod_cast hle)
    (by exact_mod_cast hfine) hc hlimit hd hchecked hscaled).imp_left fun h => ⟨?_, h.2⟩
  exact mul_right_cancel₀ hscale.ne' (by rw [hdecimal, hmidpoint, h.1])

end Number
end Jukebox
