import Jukebox.Proofs.Number.Rounding
import Mathlib.Data.Nat.Cast.Order.Field

/-!
# What the shortest decimal keeps
-/

namespace Jukebox
namespace Number

def Decimal.value (d : Decimal) : ℚ :=
  d.digits * 10 ^ d.exponent

/-!
## Grids
-/

theorem powerOfTen_den_pos (e : Int) : 0 < (powerOfTen e).2 :=
  Nat.pow_pos (by decide)

theorem ten_zpow_eq (e : Int) : (10 : ℚ) ^ e = (powerOfTen e).1 / (powerOfTen e).2 := by
  rcases Int.le_total 0 e with h | h
  · obtain ⟨n, rfl⟩ := Int.eq_ofNat_of_zero_le h
    simp [powerOfTen]
  · obtain ⟨n, hn⟩ := Int.eq_ofNat_of_zero_le (Int.neg_nonneg.mpr h)
    obtain rfl : e = -n := by omega
    simp [powerOfTen]

/-- One step of a decimal grid in units of a power of two, as numerator and denominator. -/
def gridStep (exponent unit : Int) : Nat × Nat :=
  ((powerOfTen exponent).1 * (Magnitude.mk 1 unit).ratio.2,
    (powerOfTen exponent).2 * (Magnitude.mk 1 unit).ratio.1)

theorem gridStep_pos (e unit : Int) : 0 < (gridStep e unit).1 ∧ 0 < (gridStep e unit).2 := by
  have hnum : 0 < (powerOfTen e).1 := Nat.pow_pos (by decide)
  have hratio : 0 < (Magnitude.mk 1 unit).ratio.1 := by
    simp [Magnitude.ratio, Nat.shiftLeft_eq]
  exact ⟨Nat.mul_pos hnum (Magnitude.ratio_den_pos _),
    Nat.mul_pos (powerOfTen_den_pos e) hratio⟩

theorem gridStep_eq (e unit : Int) :
    ((gridStep e unit).1 : ℚ) / (gridStep e unit).2 = 10 ^ e / 2 ^ unit := by
  have hunit := (Magnitude.mk 1 unit).value_eq_ratio
  rw [Magnitude.value, Nat.cast_one, one_mul] at hunit
  rw [hunit, ten_zpow_eq, gridStep]
  push_cast
  rw [div_div_div_eq]

namespace Format

variable {f : Format} {m : Magnitude} {e : Int}

theorem contains_iff (i : Interval) {num den : Nat} (hden : 0 < den) :
    i.contains num den ↔ Between i.closed i.low i.high (num / den) := by
  have hpos : (0 : ℚ) < den := by exact_mod_cast hden
  rw [Interval.contains, Between, div_lt_iff₀ hpos, lt_div_iff₀ hpos, div_le_iff₀ hpos,
    le_div_iff₀ hpos]
  norm_cast
  cases i.closed
  · simp
  · simp
    omega

def hits (f : Format) (m : Magnitude) (e : Int) (digits : Nat) : Bool :=
  digits != 0 &&
    (f.interval m).contains (digits * (gridStep e (m.exponent - 2)).1)
    (gridStep e (m.exponent - 2)).2

def below (m : Magnitude) (e : Int) : Nat :=
  4 * m.significand * (gridStep e (m.exponent - 2)).2 / (gridStep e (m.exponent - 2)).1

theorem onGrid?_eq (f : Format) (m : Magnitude) (e : Int) :
    f.onGrid? m e =
      match f.hits m e (below m e), f.hits m e (below m e + 1) with
      | true, true => some ⟨nearest (4 * m.significand * (gridStep e (m.exponent - 2)).2)
          (gridStep e (m.exponent - 2)).1, e⟩
      | true, false => some ⟨below m e, e⟩
      | false, true => some ⟨below m e + 1, e⟩
      | false, false => none :=
  rfl

theorem hits_iff {digits : Nat} :
    f.hits m e digits ↔ 0 < digits ∧ f.Within m (digits * 10 ^ e) := by
  have hunit : (0 : ℚ) < 2 ^ (m.exponent - 2) := by positivity
  have hstep : ((digits * (gridStep e (m.exponent - 2)).1 : Nat) : ℚ) /
      (gridStep e (m.exponent - 2)).2 * 2 ^ (m.exponent - 2) = digits * 10 ^ e := by
    rw [Nat.cast_mul, mul_div_assoc, gridStep_eq, mul_assoc, div_mul_cancel₀ _ hunit.ne']
  rw [hits, Bool.and_eq_true, contains_iff _ (gridStep_pos _ _).2,
    ← Between.mul_iff hunit, hstep, Within, bne_iff_ne, Nat.pos_iff_ne_zero]

theorem value_div_eq (m : Magnitude) (e : Int) : m.value / 10 ^ e =
    ((4 * m.significand * (gridStep e (m.exponent - 2)).2 : Nat) : ℚ) /
      (gridStep e (m.exponent - 2)).1 := by
  calc m.value / 10 ^ e = 4 * m.significand / (10 ^ e / 2 ^ (m.exponent - 2)) := by
        rw [Magnitude.value, two_zpow_sub_two]
        field_simp
    _ = _ := by
        rw [← gridStep_eq, div_div_eq_mul_div]
        push_cast
        rfl

theorem below_bounds (m : Magnitude) (e : Int) :
    below m e * 10 ^ e ≤ m.value ∧ m.value < (below m e + 1 : Nat) * 10 ^ e := by
  have hpos := (gridStep_pos e (m.exponent - 2)).1
  have hstep : (0 : ℚ) < (gridStep e (m.exponent - 2)).1 := by exact_mod_cast hpos
  rw [← le_div_iff₀ (by positivity), ← div_lt_iff₀ (by positivity), value_div_eq, below]
  constructor
  · exact Nat.cast_div_le
  · rw [div_lt_iff₀ hstep]
    exact_mod_cast Nat.lt_mul_of_div_lt (Nat.lt_succ_self _) hpos

/-- How far the interval reaches down from the magnitude. It reaches up at least as far. -/
def reach (f : Format) (m : Magnitude) : ℚ :=
  m.value - (f.interval m).low * 2 ^ (m.exponent - 2)

theorem onGrid?_some {d : Decimal} (h : f.onGrid? m e = some d) :
    d.exponent = e ∧ 0 < d.digits ∧ f.Within m d.value := by
  have hhit : d.exponent = e ∧ f.hits m e d.digits := by
    rw [onGrid?_eq] at h
    split at h
    · obtain rfl := Option.some.inj h
      refine ⟨rfl, ?_⟩
      rcases nearest_cases (4 * m.significand * (gridStep e (m.exponent - 2)).2)
        (gridStep e (m.exponent - 2)).1 with hnearest | hnearest <;> rw [hnearest]
          <;> assumption
    · obtain rfl := Option.some.inj h
      exact ⟨rfl, ‹_›⟩
    · obtain rfl := Option.some.inj h
      exact ⟨rfl, ‹_›⟩
    · exact absurd h (by simp)
  have hin := hits_iff.mp hhit.2
  rw [Decimal.value, hhit.1]
  exact ⟨rfl, hin⟩

theorem add_reach_le (f : Format) (m : Magnitude) :
    m.value + f.reach m ≤ (f.interval m).high * 2 ^ (m.exponent - 2) := by
  have hlow : (4 * m.significand : ℚ) ≤ (f.interval m).low + 2 := by
    exact_mod_cast le_interval_low f m
  have hhigh : ((f.interval m).high : ℚ) = 4 * m.significand + 2 := by
    simp [interval]
  have hunit : (0 : ℚ) < 2 ^ m.exponent := by positivity
  rw [reach, Magnitude.value, two_zpow_sub_two, hhigh]
  nlinarith

theorem within_of_abs_lt {x : ℚ} (h : |x - m.value| < f.reach m) : f.Within m x := by
  rw [abs_lt] at h
  have hhigh := add_reach_le f m
  exact .inl ⟨by rw [reach] at h; linarith, by linarith⟩

theorem onGrid?_of_fine (h : 10 ^ e < f.reach m) :
    ∃ d, f.onGrid? m e = some d ∧ |d.value - m.value| ≤ 10 ^ e / 2 := by
  have hstep : (0 : ℚ) < 10 ^ e := by positivity
  rcases below_bounds m e with ⟨hle, hlt⟩
  have hlow : m.value - f.reach m = (f.interval m).low * 2 ^ (m.exponent - 2) := by
    rw [reach, sub_sub_cancel]
  have hbelow : f.hits m e (below m e) := by
    refine hits_iff.mpr ⟨?_, within_of_abs_lt ?_⟩
    · have hnonneg : (0 : ℚ) ≤ (f.interval m).low * 2 ^ (m.exponent - 2) := by positivity
      rcases Nat.eq_zero_or_pos (below m e) with hzero | hpos
      · rw [hzero] at hlt
        push_cast at hlt
        linarith
      · exact hpos
    · push_cast at hlt
      rw [abs_lt]
      constructor <;> linarith
  have habove : f.hits m e (below m e + 1) := by
    refine hits_iff.mpr ⟨Nat.succ_pos _, within_of_abs_lt ?_⟩
    push_cast at hlt ⊢
    rw [abs_lt]
    constructor <;> linarith
  have hnearest := rounds_nearest (4 * m.significand * (gridStep e (m.exponent - 2)).2)
    (gridStep_pos e (m.exponent - 2)).1
  rw [← value_div_eq] at hnearest
  refine ⟨_, by rw [onGrid?_eq, hbelow, habove], ?_⟩
  rw [Decimal.value, abs_le]
  have hle := hnearest.low_le
  have hge := hnearest.le_high
  rw [le_div_iff₀ hstep] at hle
  rw [div_le_iff₀ hstep] at hge
  constructor <;> linarith

/-!
## The first grid that hits
-/

theorem onGrid?_shortestFrom {tries : Nat} {start : Int}
    (h : ∃ finer < tries, (f.onGrid? m (start - finer)).isSome) :
    f.onGrid? m (f.shortestFrom m tries start).exponent = some (f.shortestFrom m tries start) ∧
      ∀ e, (f.shortestFrom m tries start).exponent < e → e ≤ start → f.onGrid? m e = none := by
  induction tries generalizing start with
  | zero => exact absurd h (by simp)
  | succ tries ih =>
      rw [shortestFrom]
      cases hfirst : f.onGrid? m start with
      | some d =>
          have hexponent := (onGrid?_some hfirst).1
          refine ⟨hexponent ▸ hfirst, fun e hlt hle => ?_⟩
          exact absurd (hexponent ▸ hlt) (not_lt.mpr hle)
      | none =>
          rcases h with ⟨finer, hlt, hsome⟩
          cases finer with
          | zero =>
              rw [Nat.cast_zero, sub_zero, hfirst] at hsome
              exact absurd hsome (by simp)
          | succ finer =>
              rcases ih ⟨finer, by omega, by
                rwa [show start - 1 - (finer : Int) = start - (finer + 1 : Nat) by omega]⟩ with
                ⟨heq, hcoarser⟩
              refine ⟨heq, fun e hlt hle => ?_⟩
              rcases eq_or_ne e start with rfl | hne
              · exact hfirst
              · exact hcoarser e hlt (by omega)

end Format

/-!
## Single precision
-/

/-- What the shortest decimal of a magnitude keeps of it. -/
structure Shortens (m : Magnitude) (d : Decimal) : Prop where
  exponent_ge : -46 ≤ d.exponent
  exponent_le : d.exponent ≤ 38
  digits_pos : 0 < d.digits
  digits_lt : d.digits < 10 ^ 9
  within : single.Within m d.value
  close : 10 ^ d.exponent < single.reach m → |d.value - m.value| ≤ 10 ^ d.exponent / 2

variable {m : Magnitude}

theorem quarter_le_reach (hpos : 0 < m.significand) :
    (2 : ℚ) ^ (m.exponent - 2) ≤ single.reach m := by
  have hlow : ((single.interval m).low : ℚ) + 1 ≤ 4 * m.significand := by
    have : (single.interval m).low + 1 ≤ 4 * m.significand := by
      simp only [Format.interval]
      split <;> omega
    exact_mod_cast this
  have hunit : (0 : ℚ) < 2 ^ m.exponent := by positivity
  rw [Format.reach, Magnitude.value, two_zpow_sub_two]
  nlinarith

theorem lt_of_within (h : single.Holds m) {x : ℚ} (hx : single.Within m x) :
    x < 2 ^ 26 * 2 ^ (m.exponent - 2) := by
  have hhigh : (single.interval m).high < 2 ^ 26 := by
    have hfits := h.fits
    simp only [Format.interval, single] at hfits ⊢
    omega
  have hhigh : ((single.interval m).high : ℚ) < 2 ^ 26 := by exact_mod_cast hhigh
  calc x ≤ (single.interval m).high * 2 ^ (m.exponent - 2) := hx.le_high
    _ < 2 ^ 26 * 2 ^ (m.exponent - 2) := by gcongr

theorem onGrid?_shortestSingle (h : single.Holds m) (hpos : 0 < m.significand) :
    single.onGrid? m (shortestSingle m).exponent = some (shortestSingle m) ∧
      ∀ e, (shortestSingle m).exponent < e → e ≤ 39 → single.onGrid? m e = none := by
  refine Format.onGrid?_shortestFrom ⟨85, by decide, ?_⟩
  have hfine : (10 : ℚ) ^ (39 - (85 : Nat) : Int) < single.reach m := by
    calc (10 : ℚ) ^ (39 - (85 : Nat) : Int) < 2 ^ (single.least - 2) := by norm_num [single]
      _ ≤ 2 ^ (m.exponent - 2) := zpow_le_zpow_right₀ one_le_two (sub_le_sub_right h.least 2)
      _ ≤ single.reach m := quarter_le_reach hpos
  obtain ⟨d, hd, -⟩ := Format.onGrid?_of_fine hfine
  rw [hd]
  rfl

theorem shortens_shortestSingle (h : single.Holds m) (hpos : 0 < m.significand) :
    Shortens m (shortestSingle m) := by
  have hquarter := quarter_le_reach hpos
  obtain ⟨heq, hcoarser⟩ := onGrid?_shortestSingle h hpos
  generalize shortestSingle m = d at *
  obtain ⟨-, hdigits, hwithin⟩ := Format.onGrid?_some heq
  have hone : (1 : ℚ) ≤ d.digits := by exact_mod_cast hdigits
  have hvalue := lt_of_within h hwithin
  have hexponent : d.exponent ≤ 38 := by
    have hlt : (10 : ℚ) ^ d.exponent < 10 ^ (39 : Int) := by
      calc (10 : ℚ) ^ d.exponent ≤ d.digits * 10 ^ d.exponent :=
            le_mul_of_one_le_left (by positivity) hone
        _ < 2 ^ 26 * 2 ^ (m.exponent - 2) := hvalue
        _ ≤ 2 ^ 26 * 2 ^ (single.greatest - 2) := by
            gcongr
            · exact one_le_two
            · exact h.greatest
        _ < 10 ^ (39 : Int) := by norm_num [single]
    have := (zpow_lt_zpow_iff_right₀ (by norm_num)).mp hlt
    omega
  -- The next coarser grid misses the interval, so its step is at least half of it.
  have hcoarse : single.reach m ≤ 10 ^ (d.exponent + 1) := by
    by_contra hlt
    obtain ⟨d', hd', -⟩ := Format.onGrid?_of_fine (not_le.mp hlt)
    rw [hcoarser _ (by omega) (by omega)] at hd'
    exact absurd hd' (by simp)
  refine ⟨?_, hexponent, hdigits, ?_, hwithin, fun hfine => ?_⟩
  · have hlt : (10 : ℚ) ^ (-46 : Int) < 10 ^ (d.exponent + 1) := by
      calc (10 : ℚ) ^ (-46 : Int) < 2 ^ (single.least - 2) := by norm_num [single]
        _ ≤ 2 ^ (m.exponent - 2) := zpow_le_zpow_right₀ one_le_two (sub_le_sub_right h.least 2)
        _ ≤ 10 ^ (d.exponent + 1) := hquarter.trans hcoarse
    have := (zpow_lt_zpow_iff_right₀ (by norm_num)).mp hlt
    omega
  · have hstep : (0 : ℚ) < 10 ^ d.exponent := by positivity
    have hlt : (d.digits : ℚ) < (10 ^ 9 : Nat) := by
      rw [zpow_add_one₀ (by norm_num)] at hcoarse
      rw [Decimal.value] at hvalue
      push_cast
      nlinarith
    exact_mod_cast hlt
  · obtain ⟨d', hd', hclose⟩ := Format.onGrid?_of_fine hfine
    rw [heq] at hd'
    obtain rfl := Option.some.inj hd'
    exact hclose

end Number
end Jukebox
