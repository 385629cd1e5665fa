import Jukebox.Number.Shortest
import Mathlib.Algebra.Order.Field.Power
import Mathlib.Data.Rat.Cast.Order
import Mathlib.Tactic.FieldSimp
import Mathlib.Tactic.GCongr
import Mathlib.Tactic.LinearCombination
import Mathlib.Tactic.Linarith
import Mathlib.Tactic.NormNum
import Mathlib.Tactic.Positivity
import Mathlib.Tactic.Ring

/-!
# What rounding gives

The value of a magnitude is a rational number, and so is a quotient. A quotient in the range of
a format is rounded with an error of at most half a place, and exactly if the format has it. A
quotient between the midpoints next to a magnitude is rounded to that magnitude.
-/

namespace Jukebox
namespace Number

/-!
## Quotients
-/

theorem two_zpow_eq (e : Int) : (2 : ℚ) ^ e = 2 ^ e.toNat / 2 ^ (-e).toNat := by
  rcases Int.le_total 0 e with h | h
  · obtain ⟨n, rfl⟩ := Int.eq_ofNat_of_zero_le h
    simp
  · obtain ⟨n, hn⟩ := Int.eq_ofNat_of_zero_le (Int.neg_nonneg.mpr h)
    obtain rfl : e = -n := by omega
    simp

theorem two_zpow_sub_two (e : Int) : (2 : ℚ) ^ (e - 2) = 2 ^ e / 4 := by
  rw [zpow_sub₀ two_ne_zero]
  norm_num

namespace Magnitude

variable (m : Magnitude)

def value : ℚ :=
  m.significand * 2 ^ m.exponent

theorem ratio_den_pos : 0 < m.ratio.2 := by
  simp [ratio, Nat.shiftLeft_eq]

theorem value_eq_ratio : m.value = m.ratio.1 / m.ratio.2 := by
  rw [value, two_zpow_eq]
  simp [ratio, Nat.shiftLeft_eq, mul_div_assoc]

end Magnitude

variable {num den : Nat}

theorem descale_den_pos (hden : 0 < den) (e : Int) : 0 < (descale num den e).2 := by
  simp [descale, Nat.shiftLeft_eq, hden]

theorem descale_eq (num den : Nat) (e : Int) :
    ((descale num den e).1 : ℚ) / (descale num den e).2 = num / den / 2 ^ e := by
  rw [two_zpow_eq]
  simp only [descale, Nat.shiftLeft_eq]
  push_cast
  field_simp

/-!
## The nearest number
-/

/-- Whether a number lies between two others, which it may be equal to if the interval is
closed. -/
def Between (closed : Prop) (low high x : ℚ) : Prop :=
  (low < x ∧ x < high) ∨ closed ∧ low ≤ x ∧ x ≤ high

namespace Between

variable {closed : Prop} {low high x : ℚ}

theorem low_le (h : Between closed low high x) : low ≤ x :=
  h.elim (fun h => h.1.le) fun h => h.2.1

theorem le_high (h : Between closed low high x) : x ≤ high :=
  h.elim (fun h => h.2.le) fun h => h.2.2

theorem mono {low' high' : ℚ} (h : Between closed low high x) (hlow : low' ≤ low)
    (hhigh : high ≤ high') : Between closed low' high' x :=
  h.imp (fun h => ⟨hlow.trans_lt h.1, h.2.trans_le hhigh⟩)
    fun h => ⟨h.1, hlow.trans h.2.1, h.2.2.trans hhigh⟩

theorem mul_iff {k : ℚ} (hk : 0 < k) :
    Between closed (low * k) (high * k) (x * k) ↔ Between closed low high x := by
  simp only [Between, mul_lt_mul_iff_left₀ hk, mul_le_mul_iff_left₀ hk]

end Between

/-- Whether a natural number is the nearest one, and the even one of two that are. -/
def Rounds (x : ℚ) (n : Nat) : Prop :=
  Between (n % 2 = 0) (n - 1 / 2) (n + 1 / 2) x

theorem Rounds.eq {x : ℚ} {n k : Nat} (hn : Rounds x n) (hk : Rounds x k) : n = k := by
  have hle : (n : ℚ) ≤ k + 1 ∧ (k : ℚ) ≤ n + 1 := by
    constructor <;> linarith [hn.low_le, hn.le_high, hk.low_le, hk.le_high]
  have hle : n ≤ k + 1 ∧ k ≤ n + 1 := by exact_mod_cast hle
  -- Next to each other, they meet in a half, and only one of them is even.
  rcases Nat.lt_trichotomy n k with h | h | h
  · obtain rfl : k = n + 1 := by omega
    rcases hn with hn | hn <;> rcases hk with hk | hk <;> push_cast at hk <;>
      first | omega | linarith
  · exact h
  · obtain rfl : n = k + 1 := by omega
    rcases hn with hn | hn <;> rcases hk with hk | hk <;> push_cast at hn <;>
      first | omega | linarith

theorem div_eq_add_mod (hden : 0 < den) :
    (num : ℚ) / den = (num / den : Nat) + ((num % den : Nat) : ℚ) / den := by
  have hpos : (0 : ℚ) < den := by exact_mod_cast hden
  have hnum : (num : ℚ) = den * (num / den : Nat) + (num % den : Nat) := by
    exact_mod_cast (Nat.div_add_mod num den).symm
  rw [div_eq_iff hpos.ne', add_mul, div_mul_cancel₀ _ hpos.ne', mul_comm, ← hnum]

theorem rounds_nearest (num : Nat) (hden : 0 < den) :
    Rounds (num / den) (nearest num den) := by
  have hpos : (0 : ℚ) < den := by exact_mod_cast hden
  have hrest : (0 : ℚ) ≤ ((num % den : Nat) : ℚ) / den := by positivity
  have hbelow : 2 * (num % den) < den ↔ ((num % den : Nat) : ℚ) / den < 1 / 2 := by
    rw [div_lt_div_iff₀ hpos two_pos, one_mul, mul_comm]
    exact_mod_cast Iff.rfl
  have habove : den < 2 * (num % den) ↔ 1 / 2 < ((num % den : Nat) : ℚ) / den := by
    rw [div_lt_div_iff₀ two_pos hpos, one_mul, mul_comm]
    exact_mod_cast Iff.rfl
  have hone : ((num % den : Nat) : ℚ) / den < 1 := by
    rw [div_lt_one hpos]
    exact_mod_cast Nat.mod_lt num hden
  rw [div_eq_add_mod hden, nearest]
  simp only [hbelow, habove]
  generalize ((num % den : Nat) : ℚ) / den = rest at *
  generalize num / den = quotient
  split_ifs with hlow hhigh heven
  · exact .inl ⟨by linarith, by linarith⟩
  · exact .inl (by push_cast; constructor <;> linarith)
  · exact .inr ⟨heven, by linarith, by linarith⟩
  · exact .inr ⟨by omega, by push_cast; linarith, by push_cast; linarith⟩

theorem nearest_cases (num den : Nat) :
    nearest num den = num / den ∨ nearest num den = num / den + 1 := by
  rw [nearest]
  split_ifs <;> simp

theorem nearest_eq {n : Nat} (hden : 0 < den) (h : Rounds (num / den) n) :
    nearest num den = n :=
  (rounds_nearest num hden).eq h

/-!
## The exponent
-/

theorem mem_log2 {n : Nat} (h : 0 < n) :
    (2 : ℚ) ^ (n.log2 : Int) ≤ n ∧ (n : ℚ) < 2 ^ (n.log2 + 1 : Int) :=
  ⟨by exact_mod_cast Nat.log2_self_le h.ne', by exact_mod_cast Nat.lt_log2_self⟩

theorem div_mem_logs (hnum : 0 < num) (hden : 0 < den) :
    (2 : ℚ) ^ ((num.log2 : Int) - den.log2 - 1) ≤ num / den ∧
      (num / den : ℚ) < 2 ^ ((num.log2 : Int) - den.log2 + 1) := by
  have hpos : (0 : ℚ) < den := by exact_mod_cast hden
  constructor
  · rw [le_div_iff₀ hpos]
    calc (2 : ℚ) ^ ((num.log2 : Int) - den.log2 - 1) * den
        ≤ 2 ^ ((num.log2 : Int) - den.log2 - 1) * 2 ^ (den.log2 + 1 : Int) := by
          gcongr
          exact (mem_log2 hden).2.le
      _ = 2 ^ (num.log2 : Int) := by
          rw [← zpow_add₀ two_ne_zero]
          congr 1
          ring
      _ ≤ num := (mem_log2 hnum).1
  · rw [div_lt_iff₀ hpos]
    calc (num : ℚ) < 2 ^ (num.log2 + 1 : Int) := (mem_log2 hnum).2
      _ = 2 ^ ((num.log2 : Int) - den.log2 + 1) * 2 ^ (den.log2 : Int) := by
          rw [← zpow_add₀ two_ne_zero]
          congr 1
          ring
      _ ≤ 2 ^ ((num.log2 : Int) - den.log2 + 1) * den := by
          gcongr
          exact (mem_log2 hden).1

theorem descale_lt_iff (num : Nat) (hden : 0 < den) (e : Int) (p : Nat) :
    (descale num den e).1 < (descale num den e).2 <<< p ↔ (num / den : ℚ) < 2 ^ (e + p) := by
  have hpos : (0 : ℚ) < (descale num den e).2 := by exact_mod_cast descale_den_pos hden e
  rw [zpow_add₀ two_ne_zero, zpow_natCast, mul_comm, ← div_lt_iff₀ (by positivity),
    ← descale_eq, div_lt_iff₀ hpos, Nat.shiftLeft_eq, mul_comm]
  exact_mod_cast Iff.rfl

namespace Format

variable (f : Format)

/-- The exponent at which a quotient has as many digits as the format, unless it is too low. -/
theorem exponentOf_spec (hnum : 0 < num) (hden : 0 < den) : ∃ e : Int,
    f.exponentOf num den = max f.least e ∧
      (2 : ℚ) ^ (e + f.precision - 1) ≤ num / den ∧
      (num / den : ℚ) < 2 ^ (e + f.precision) := by
  rcases div_mem_logs hnum hden with ⟨hlow, hhigh⟩
  have hguess := descale_lt_iff num hden (num.log2 - den.log2 - f.precision) f.precision
  rw [sub_add_cancel] at hguess
  rw [exponentOf]
  by_cases h : (num / den : ℚ) < 2 ^ ((num.log2 : Int) - den.log2)
  · refine ⟨num.log2 - den.log2 - f.precision, ?_, ?_, ?_⟩
    · simp only [if_pos (hguess.mpr h)]
    · rwa [sub_add_cancel]
    · rwa [sub_add_cancel]
  · refine ⟨num.log2 - den.log2 - f.precision + 1, ?_, ?_, ?_⟩
    · simp only [if_neg (mt hguess.mp h)]
    · rw [add_right_comm, sub_add_cancel, add_sub_cancel_right]
      exact not_lt.mp h
    · rwa [add_right_comm, sub_add_cancel]

variable {f} {e : Int}

theorem exponentOf_eq (hnum : 0 < num) (hden : 0 < den) (he : f.least ≤ e)
    (hlow : e = f.least ∨ (2 : ℚ) ^ (e + f.precision - 1) ≤ num / den)
    (hhigh : (num / den : ℚ) < 2 ^ (e + f.precision)) : f.exponentOf num den = e := by
  rcases f.exponentOf_spec hnum hden with ⟨e', heq, hlow', hhigh'⟩
  have hle : e' ≤ e := by
    have := (zpow_lt_zpow_iff_right₀ one_lt_two).mp (hlow'.trans_lt hhigh)
    omega
  rw [heq]
  rcases hlow with rfl | hlow
  · omega
  · have := (zpow_lt_zpow_iff_right₀ one_lt_two).mp (hlow.trans_lt hhigh')
    omega

/-!
## Rounding
-/

theorem round?_eq_of_lt {s : Nat} (hnum : 0 < num) (hden : 0 < den)
    (hexponent : f.exponentOf num den = e) (hs : Rounds (num / den / 2 ^ e) s)
    (hlt : s < 2 ^ f.precision) (hle : e ≤ f.greatest) : f.round? num den = some ⟨s, e⟩ := by
  have hnearest : nearest (descale num den e).1 (descale num den e).2 = s :=
    nearest_eq (descale_den_pos hden e) (by rwa [descale_eq])
  simp [round?, hnum.ne', hexponent, hnearest, Nat.shiftLeft_eq, hlt, hle]

theorem round?_eq_of_carry (hnum : 0 < num) (hden : 0 < den)
    (hexponent : f.exponentOf num den = e) (hs : Rounds (num / den / 2 ^ e) (2 ^ f.precision))
    (hle : e + 1 ≤ f.greatest) :
    f.round? num den = some ⟨2 ^ (f.precision - 1), e + 1⟩ := by
  have hnearest : nearest (descale num den e).1 (descale num den e).2 = 2 ^ f.precision :=
    nearest_eq (descale_den_pos hden e) (by rwa [descale_eq])
  simp [round?, hnum.ne', hexponent, hnearest, Nat.shiftLeft_eq, hle]

/-- What rounding keeps of a number that is neither too large nor too small for the format. -/
structure Approximates (f : Format) (x : ℚ) (m : Magnitude) : Prop where
  error : |m.value - x| ≤ x / 2 ^ f.precision
  exact : ∀ (s : Nat) (e : Int), s < 2 ^ f.precision → x = s * 2 ^ e → m.value = x

theorem approximates_of_rounds {x : ℚ} {m : Magnitude} {s : Nat}
    (hlow : (2 : ℚ) ^ (e + f.precision - 1) ≤ x) (hs : Rounds (x / 2 ^ e) s)
    (hvalue : m.value = s * 2 ^ e) : f.Approximates x m := by
  have hunit : (0 : ℚ) < 2 ^ e := by positivity
  have hx : x = x / 2 ^ e * 2 ^ e := by field_simp
  refine ⟨?_, fun k e' hk hexact => ?_⟩
  · have hnear : |(s : ℚ) - x / 2 ^ e| ≤ 1 / 2 := by
      rw [abs_le]
      constructor <;> linarith [hs.low_le, hs.le_high]
    have hhalf : 1 / 2 * (2 : ℚ) ^ e = 2 ^ (e + f.precision - 1) / 2 ^ f.precision := by
      rw [zpow_sub_one₀ two_ne_zero, zpow_add₀ two_ne_zero, zpow_natCast]
      field_simp
    calc |m.value - x| = |(s : ℚ) - x / 2 ^ e| * 2 ^ e := by
          rw [hvalue, hx, ← sub_mul, abs_mul, abs_of_pos hunit, ← hx]
      _ ≤ 1 / 2 * 2 ^ e := by gcongr
      _ ≤ x / 2 ^ f.precision := by
          rw [hhalf]
          gcongr
  -- A number of the format stands at a whole place, which is its own nearest number.
  · have hle : e ≤ e' := by
      have hk : (k : ℚ) < 2 ^ (f.precision : Int) := by
        exact_mod_cast hk
      have hlt : (2 : ℚ) ^ (e + f.precision - 1) < 2 ^ (f.precision + e') := by
        calc (2 : ℚ) ^ (e + f.precision - 1) ≤ k * 2 ^ e' := by rwa [← hexact]
          _ < 2 ^ (f.precision : Int) * 2 ^ e' := by gcongr
          _ = 2 ^ (f.precision + e') := (zpow_add₀ two_ne_zero _ _).symm
      have := (zpow_lt_zpow_iff_right₀ one_lt_two).mp hlt
      omega
    obtain ⟨n, hn⟩ := Int.eq_ofNat_of_zero_le (Int.sub_nonneg.mpr hle)
    have hwhole : x / 2 ^ e = (k * 2 ^ n : Nat) := by
      rw [hexact, mul_div_assoc, ← zpow_sub₀ two_ne_zero, hn, Nat.cast_mul, Nat.cast_pow]
      rfl
    have hself : Rounds (x / 2 ^ e) (k * 2 ^ n) := by
      rw [hwhole]
      exact .inl ⟨by linarith, by linarith⟩
    rw [hvalue, hs.eq hself, ← hwhole, ← hx]

theorem exists_round? (hp : 0 < f.precision) (hden : 0 < den)
    (hlow : (2 : ℚ) ^ (f.least + f.precision - 1) ≤ num / den)
    (hhigh : (num / den : ℚ) < 2 ^ (f.greatest + f.precision - 1)) :
    ∃ m, f.round? num den = some m ∧ f.Approximates (num / den) m := by
  have hnum : 0 < num := by
    have hpos : (0 : ℚ) < num / den := lt_of_lt_of_le (by positivity) hlow
    rcases Nat.eq_zero_or_pos num with rfl | h
    · simp at hpos
    · exact h
  rcases f.exponentOf_spec hnum hden with ⟨e, hexponent, hlow', hhigh'⟩
  have hleast : f.least ≤ e := by
    have := (zpow_lt_zpow_iff_right₀ one_lt_two).mp (hlow.trans_lt hhigh')
    omega
  have hgreatest : e < f.greatest := by
    have := (zpow_lt_zpow_iff_right₀ one_lt_two).mp (hlow'.trans_lt hhigh)
    omega
  rw [max_eq_right hleast] at hexponent
  obtain ⟨s, hs⟩ : ∃ s, Rounds ((num : ℚ) / den / 2 ^ e) s :=
    ⟨_, descale_eq num den e ▸ rounds_nearest _ (descale_den_pos hden e)⟩
  rcases Nat.lt_or_ge s (2 ^ f.precision) with hlt | hge
  · exact ⟨_, round?_eq_of_lt hnum hden hexponent hs hlt hgreatest.le,
      approximates_of_rounds hlow' hs rfl⟩
  · have hs' : s = 2 ^ f.precision := by
      have hquotient : (num : ℚ) / den / 2 ^ e < 2 ^ f.precision := by
        rwa [div_lt_iff₀ (by positivity), ← zpow_natCast, ← zpow_add₀ two_ne_zero, add_comm]
      have hlt : (s : ℚ) < (2 ^ f.precision + 1 : Nat) := by
        push_cast
        linarith [hs.low_le]
      exact le_antisymm (Nat.lt_succ_iff.mp (by exact_mod_cast hlt)) hge
    rw [hs'] at hs
    refine ⟨_, round?_eq_of_carry hnum hden hexponent hs (by omega),
      approximates_of_rounds hlow' hs ?_⟩
    obtain ⟨p, hp⟩ := Nat.exists_eq_succ_of_ne_zero hp.ne'
    rw [Magnitude.value, hp, zpow_add_one₀ two_ne_zero, Nat.succ_eq_add_one]
    push_cast
    ring

/-!
## Magnitudes of a format
-/

/-- The magnitudes of a format. Only next to zero a significand may be short. -/
structure Holds (f : Format) (m : Magnitude) : Prop where
  fits : m.significand < 2 ^ f.precision
  least : f.least ≤ m.exponent
  greatest : m.exponent ≤ f.greatest
  filled : m.exponent = f.least ∨ 2 ^ (f.precision - 1) ≤ m.significand

def Within (f : Format) (m : Magnitude) (x : ℚ) : Prop :=
  Between (f.interval m).closed ((f.interval m).low * 2 ^ (m.exponent - 2))
    ((f.interval m).high * 2 ^ (m.exponent - 2)) x

variable {m : Magnitude}

theorem le_interval_low (f : Format) (m : Magnitude) :
    4 * m.significand ≤ (f.interval m).low + 2 := by
  simp only [interval]
  split <;> omega

theorem Within.rounds {x : ℚ} (h : f.Within m x) :
    Rounds (x / 2 ^ m.exponent) m.significand := by
  have hlow : (4 * m.significand : ℚ) ≤ (f.interval m).low + 2 := by
    exact_mod_cast le_interval_low f m
  have hclosed : ((f.interval m).closed = true) = (m.significand % 2 = 0) := by
    simp [interval]
  rw [Rounds, ← Between.mul_iff (by positivity : (0 : ℚ) < 2 ^ m.exponent),
    div_mul_cancel₀ _ (by positivity)]
  rw [Within, two_zpow_sub_two, hclosed] at h
  refine h.mono ?_ ?_
  · have : (0 : ℚ) < 2 ^ m.exponent := by positivity
    nlinarith
  · rw [interval]
    push_cast
    linarith

theorem Holds.significand_eq (h : f.Holds m) {x : ℚ}
    (hx : Rounds (x / 2 ^ m.exponent) m.significand)
    (hleast : m.exponent ≠ f.least) (hbelow : x < 2 ^ (f.precision - 1) * 2 ^ m.exponent) :
    m.significand = 2 ^ (f.precision - 1) := by
  have hlt : (m.significand : ℚ) < (2 ^ (f.precision - 1) + 1 : Nat) := by
    rw [← div_lt_iff₀ (by positivity)] at hbelow
    push_cast
    linarith [hx.low_le]
  exact le_antisymm (Nat.lt_succ_iff.mp (by exact_mod_cast hlt)) (h.filled.resolve_left hleast)

theorem interval_low_eq (hsignificand : m.significand = 2 ^ (f.precision - 1))
    (hleast : f.least < m.exponent) :
    ((f.interval m).low : ℚ) = 4 * 2 ^ (f.precision - 1) - 1 := by
  have hpow := Nat.two_pow_pos (f.precision - 1)
  simp only [interval, Nat.shiftLeft_eq, one_mul, hsignificand, hleast, and_self, if_true]
  rw [Nat.cast_sub (by omega)]
  push_cast
  rfl

theorem two_pow_precision (hp : 0 < f.precision) :
    2 ^ f.precision = 2 * 2 ^ (f.precision - 1) := by
  rw [← Nat.pow_succ', Nat.succ_eq_add_one, Nat.sub_add_cancel hp]

theorem two_zpow_precision (hp : 0 < f.precision) (e : Int) :
    (2 : ℚ) ^ (e + f.precision - 1) = 2 ^ (f.precision - 1) * 2 ^ e := by
  rw [show e + f.precision - 1 = ((f.precision - 1 : Nat) : Int) + e by omega,
    zpow_add₀ two_ne_zero, zpow_natCast]

theorem Within.rounds_carry (hp : 0 < f.precision) {x : ℚ} (h : f.Within m x)
    (hsignificand : m.significand = 2 ^ (f.precision - 1)) (hleast : f.least < m.exponent)
    (hbelow : x < 2 ^ (f.precision - 1) * 2 ^ m.exponent) :
    Rounds (x / 2 ^ (m.exponent - 1)) (2 ^ f.precision) := by
  have hlow := h.low_le
  rw [two_zpow_sub_two, interval_low_eq hsignificand hleast] at hlow
  rw [two_pow_precision hp, zpow_sub_one₀ two_ne_zero]
  refine .inr ⟨Nat.mul_mod_right _ _, ?_, ?_⟩
  · rw [le_div_iff₀ (by positivity)]
    push_cast
    linarith
  · rw [div_le_iff₀ (by positivity)]
    push_cast
    linarith [(by positivity : (0 : ℚ) < 2 ^ m.exponent)]

theorem Within.num_pos (hpos : 0 < m.significand) (h : f.Within m (num / den)) : 0 < num := by
  rcases Nat.eq_zero_or_pos num with rfl | hnum
  · have hlow := h.rounds.low_le
    have hone : (1 : ℚ) ≤ m.significand := by exact_mod_cast hpos
    norm_num at hlow
    linarith
  · exact hnum

/-- Between its midpoints everything is rounded to a magnitude. -/
theorem Holds.round?_eq (h : f.Holds m) (hp : 0 < f.precision) (hpos : 0 < m.significand)
    (hden : 0 < den) (hx : f.Within m (num / den)) : f.round? num den = some m := by
  have hnum := hx.num_pos hpos
  have hrounds := hx.rounds
  have hhigh : (num / den : ℚ) < 2 ^ (m.exponent + f.precision) := by
    have hfits : (m.significand : ℚ) + 1 ≤ 2 ^ f.precision := by
      exact_mod_cast h.fits
    rw [zpow_add₀ two_ne_zero, zpow_natCast, mul_comm, ← div_lt_iff₀ (by positivity)]
    linarith [hrounds.le_high]
  by_cases hlow : m.exponent = f.least ∨ (2 : ℚ) ^ (m.exponent + f.precision - 1) ≤ num / den
  · exact round?_eq_of_lt hnum hden (exponentOf_eq hnum hden h.least hlow hhigh) hrounds h.fits
      h.greatest
  -- Below its power of two the number is rounded in places of the next lower exponent, and
  -- carried.
  · rcases not_or.mp hlow with ⟨hleast, hbelow⟩
    rw [two_zpow_precision hp, not_le] at hbelow
    have hsignificand := h.significand_eq hrounds hleast hbelow
    have hleast : f.least < m.exponent := by
      have := h.least
      omega
    have hcarry := hx.rounds_carry hp hsignificand hleast hbelow
    have hexponent : f.exponentOf num den = m.exponent - 1 := by
      refine exponentOf_eq hnum hden (by omega) (.inr ?_) ?_
      · have hle := hcarry.low_le
        have hone : (1 : ℚ) ≤ 2 ^ (f.precision - 1) := one_le_pow₀ one_le_two
        rw [two_pow_precision hp] at hle
        push_cast at hle
        rw [two_zpow_precision hp, ← le_div_iff₀ (by positivity)]
        linarith
      · rwa [sub_add_eq_add_sub, two_zpow_precision hp]
    rw [round?_eq_of_carry hnum hden hexponent hcarry (by have := h.greatest; omega),
      sub_add_cancel, ← hsignificand]

end Format
end Number
end Jukebox
