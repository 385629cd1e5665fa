import Jukebox.Proofs.Json.Numeral
import Jukebox.Proofs.Number.Reading

/-!
# Finite numbers are read back

Every finite number of single precision is read back from the numeral it is written as. The
numeral lies between the midpoints next to the number, and reading it in double precision only
moves it across one of them in the close calls, which are evaluated.
-/

namespace Jukebox
namespace Single

open Number

def isFinite (s : Single) : Bool :=
  s.magnitude?.isSome

/-!
## The ends of an interval
-/

variable {m : Magnitude}

/-- The midpoints next to a magnitude, counted in ways from the magnitude to the lower one. -/
structure Ends (m : Magnitude) (unit : Int) (low high : Nat) : Prop where
  unit_le : unit ≤ 103
  reach_eq : single.reach m = 2 ^ unit
  low_eq : ((single.interval m).low * 2 ^ (m.exponent - 2) : ℚ) = low * 2 ^ unit
  high_eq : ((single.interval m).high * 2 ^ (m.exponent - 2) : ℚ) = high * 2 ^ unit
  low_pos : 0 < low
  low_lt : low < high
  high_le : high ≤ midpointLimit

def closeMagnitudes : List Magnitude :=
  closeCalls.flatMap fun (unit, c) => [⟨c / 2, unit + 1⟩, ⟨c / 2 + 1, unit + 1⟩]

theorem interval_high_eq (m : Magnitude) :
    ((single.interval m).high : ℚ) = 4 * m.significand + 2 := by
  simp [Format.interval]

/-- Above a power of two the way down is a quarter of a place. -/
theorem ends_power (h : single.Holds m) (hpower : m.significand = 2 ^ 23)
    (hleast : single.least < m.exponent) :
    Ends m (m.exponent - 2) (2 ^ 25 - 1) (2 ^ 25 + 2) := by
  have hgreatest := h.greatest
  have hlow : ((single.interval m).low : ℚ) = 4 * 2 ^ 23 - 1 :=
    Format.interval_low_eq (f := single) hpower hleast
  simp only [single] at hleast hgreatest
  refine ⟨by omega, ?_, ?_, ?_, by decide, by decide, by decide⟩
  · rw [Format.reach, hlow, Magnitude.value, hpower, two_zpow_sub_two]
    push_cast
    ring
  · rw [hlow]
    norm_num
  · rw [interval_high_eq, hpower]
    norm_num

theorem ends_half (h : single.Holds m) (hpos : 0 < m.significand)
    (hpower : ¬(m.significand = 2 ^ 23 ∧ single.least < m.exponent)) :
    Ends m (m.exponent - 1) (2 * m.significand - 1) (2 * m.significand + 1) := by
  have hfits := h.fits
  have hleast := h.least
  have hgreatest := h.greatest
  have hlow : ((single.interval m).low : ℚ) = 4 * m.significand - 2 := by
    have hlow : (single.interval m).low = 4 * m.significand - 2 := if_neg hpower
    rw [hlow, Nat.cast_sub (by omega)]
    push_cast
    rfl
  have hcast : ((2 * m.significand - 1 : Nat) : ℚ) = 2 * m.significand - 1 := by
    rw [Nat.cast_sub (by omega)]
    push_cast
    rfl
  simp only [single] at hfits hleast hgreatest
  refine ⟨by omega, ?_, ?_, ?_, by omega, by omega, ?_⟩
  · rw [Format.reach, hlow, Magnitude.value, two_zpow_sub_two, zpow_sub_one₀ two_ne_zero]
    ring
  · rw [hlow, hcast, two_zpow_sub_two, zpow_sub_one₀ two_ne_zero]
    ring
  · rw [interval_high_eq, two_zpow_sub_two, zpow_sub_one₀ two_ne_zero]
    push_cast
    ring
  · rw [midpointLimit]
    omega

theorem exists_ends (h : single.Holds m) (hpos : 0 < m.significand) :
    ∃ unit low high, Ends m unit low high ∧
      ((unit, low) ∈ closeCalls ∨ (unit, high) ∈ closeCalls → m ∈ closeMagnitudes) := by
  by_cases hpower : m.significand = 2 ^ 23 ∧ single.least < m.exponent
  · refine ⟨_, _, _, ends_power h hpower.1 hpower.2, fun hclose => ?_⟩
    simp [closeCalls] at hclose
  · refine ⟨_, _, _, ends_half h hpos hpower, fun hclose => ?_⟩
    obtain ⟨significand, exponent⟩ := m
    simp only [closeCalls, List.mem_cons, Prod.mk.injEq, List.not_mem_nil, or_false] at hclose
    simp only [closeMagnitudes, closeCalls, List.flatMap_cons, List.flatMap_nil,
      List.mem_append, List.mem_cons, Magnitude.mk.injEq, List.not_mem_nil, or_false]
    omega

theorem readsBack_close : ∀ m ∈ closeMagnitudes, ∀ negative,
    ofNumeral? (numeralOf negative m) = some (finite negative m) := by
  decide +kernel

/-!
## Magnitudes
-/

variable {d : Decimal} {x : Magnitude} {unit : Int} {low high c : Nat}

/-- Reading keeps a decimal on its side of a midpoint that is no close call. -/
theorem exact_or_far (hd : Shortens m d) (hx : ReadAs d.value (d.exponent.natAbs ≤ 22) x)
    (hunit : unit ≤ 103) (hcoarse : (2 : ℚ) ^ unit ≤ 10 ^ d.exponent)
    (hc : 0 < c) (hlimit : c ≤ midpointLimit) (hclose : (unit, c) ∉ closeCalls) :
    d.value = c * 2 ^ unit ∧ x.value = d.value ∨
      |x.value - d.value| < |d.value - c * 2 ^ unit| := by
  by_cases hnear : |d.value - c * 2 ^ unit| ≤ tolerance * d.value
  · obtain ⟨heq, hsmall⟩ := (exact_or_closeCall hd.exponent_ge hd.exponent_le hunit hcoarse
      hc hlimit hd.digits_pos hnear).resolve_right hclose
    exact .inl ⟨heq, hx.exact hsmall c unit (hlimit.trans_lt (by decide)) heq⟩
  · exact .inr (hx.near.trans_lt (not_le.mp hnear))

theorem within_of_fine (h : single.Holds m) (hpos : 0 < m.significand) (hd : Shortens m d)
    (hx : |x.value - d.value| ≤ tolerance * d.value)
    (hfine : 10 ^ d.exponent < single.reach m) : single.Within m x.value := by
  have hquarter := quarter_le_reach hpos
  have hlt := lt_of_within h hd.within
  have hclose := hd.close hfine
  have hsmall : tolerance * d.value < single.reach m / 2 := by
    have : (0 : ℚ) < 2 ^ (m.exponent - 2) := by positivity
    rw [tolerance]
    linarith
  refine Format.within_of_abs_lt ?_
  calc |x.value - m.value| ≤ |x.value - d.value| + |d.value - m.value| := abs_sub_le _ _ _
    _ < single.reach m := by linarith

theorem lt_iff_of_exact_or_far {a v b : ℚ} (h : v = b ∧ a = v ∨ |a - v| < |v - b|) :
    (b < a ↔ b < v) ∧ (a < b ↔ v < b) := by
  rcases h with ⟨rfl, rfl⟩ | h
  · exact ⟨.rfl, .rfl⟩
  rcases le_total b v with hle | hle
  · rw [abs_of_nonneg (sub_nonneg.mpr hle), abs_lt] at h
    exact ⟨iff_of_true (by linarith) (by linarith), iff_of_false (by linarith) (by linarith)⟩
  · rw [abs_of_nonpos (sub_nonpos.mpr hle), abs_lt] at h
    exact ⟨iff_of_false (by linarith) (by linarith), iff_of_true (by linarith) (by linarith)⟩

theorem within_of_ends (hends : Ends m unit low high) (hd : Shortens m d)
    (hx : ReadAs d.value (d.exponent.natAbs ≤ 22) x)
    (hcoarse : single.reach m ≤ 10 ^ d.exponent) (hlow : (unit, low) ∉ closeCalls)
    (hhigh : (unit, high) ∉ closeCalls) : single.Within m x.value := by
  rw [hends.reach_eq] at hcoarse
  have hlow := exact_or_far hd hx hends.unit_le hcoarse hends.low_pos
    (hends.low_lt.le.trans hends.high_le) hlow
  have hhigh := exact_or_far hd hx hends.unit_le hcoarse
    (hends.low_pos.trans hends.low_lt) hends.high_le hhigh
  have hwithin := hd.within
  have hbelow := lt_iff_of_exact_or_far hlow
  have habove := lt_iff_of_exact_or_far hhigh
  rw [Format.Within, hends.low_eq, hends.high_eq] at hwithin ⊢
  rcases hwithin with ⟨hlt, hgt⟩ | ⟨hclosed, hle, hge⟩
  · exact .inl ⟨hbelow.1.mpr hlt, habove.2.mpr hgt⟩
  · exact .inr ⟨hclosed, not_lt.mp (mt hbelow.2.mp (not_lt.mpr hle)),
      not_lt.mp (mt habove.1.mp (not_lt.mpr hge))⟩

theorem isExactWhole_layOut (negative : Bool) (digits : List Char)
    (hlength : 0 < digits.length) (point : Int) :
    isExactWhole (layOut {} negative digits point) = false := by
  have hfalse : ∀ n : Numeral, n.fraction ≠ [] ∨ n.exponent.isSome →
      isExactWhole n = false := by
    intro n hn
    rcases hn with hn | hn
    · simp [isExactWhole, hn]
    · obtain ⟨e, he⟩ := Option.isSome_iff_exists.mp hn
      simp [isExactWhole, he]
  refine hfalse _ ?_
  rw [layOut]
  split_ifs with hwhole hpoint hzeros
  · simp
  · left
    have := hpoint
    simp
    omega
  · left
    cases digits <;> simp_all
  · exact .inr rfl

theorem negative_layOut (layout : Layout) (negative : Bool) (digits : List Char)
    (point : Int) : (layOut layout negative digits point).negative = negative := by
  rw [layOut]
  split_ifs <;> rfl

theorem ofNumeral?_zero : ∀ negative,
    ofNumeral? (numeralOf negative ⟨0, single.least⟩) = some
      (finite negative ⟨0, single.least⟩) := by
  decide +kernel

theorem ofNumeral?_numeralOf (h : single.Holds m) (negative : Bool) :
    ofNumeral? (numeralOf negative m) = some (finite negative m) := by
  rcases Nat.eq_zero_or_pos m.significand with hzero | hpos
  · obtain ⟨significand, exponent⟩ := m
    obtain rfl : significand = 0 := hzero
    obtain rfl : exponent = single.least := h.filled.resolve_right (by simp [single])
    exact ofNumeral?_zero negative
  obtain ⟨unit, low, high, hends, hclose⟩ := exists_ends h hpos
  by_cases hcall : (unit, low) ∈ closeCalls ∨ (unit, high) ∈ closeCalls
  · exact readsBack_close m (hclose hcall) negative
  rw [not_or] at hcall
  have hd := shortens_shortestSingle h hpos
  obtain ⟨digits, exponent, htaken, hscientific⟩ := scientific_layOut hd negative
  obtain ⟨x, hx, hreadAs⟩ := exists_doubleOfNumeral? htaken hscientific
  have hwithin : single.Within m x.value := by
    rcases lt_or_ge ((10 : ℚ) ^ (shortestSingle m).exponent) (single.reach m)
      with hfine | hcoarse
    · exact within_of_fine h hpos hd hreadAs.near hfine
    · exact within_of_ends hends hd hreadAs hcoarse hcall.1 hcall.2
  rw [x.value_eq_ratio] at hwithin
  have hround := h.round?_eq (by decide) hpos x.ratio_den_pos hwithin
  have hexact := isExactWhole_layOut negative (Nat.toDigits 10 (shortestSingle m).digits)
    Nat.length_toDigits_pos
    ((Nat.toDigits 10 (shortestSingle m).digits).length + (shortestSingle m).exponent)
  simp only [numeralOf, if_neg hpos.ne']
  rw [ofNumeral?, if_neg (by rw [hexact]; decide), hx, Option.map_some, round, hround,
    negative_layOut]

theorem isWhole_layOut (negative : Bool) {n : Nat} (hn : 0 < n) (point : Int) :
    Numeral.isWhole (layOut {} negative (Nat.toDigits 10 n) point).whole := by
  obtain ⟨c, rest, hdigits, hc⟩ := Numeral.exists_toDigits hn
  rw [layOut, hdigits]
  split_ifs with hwhole hpoint hzeros
  · exact Numeral.isWhole_cons hc _
  · obtain ⟨places, hplaces⟩ := Nat.exists_eq_succ_of_ne_zero (by omega : point.toNat ≠ 0)
    rw [hplaces]
    exact Numeral.isWhole_cons hc _
  · rfl
  · exact Numeral.isWhole_cons hc _

theorem isPlain_numeralOf (h : single.Holds m) (negative : Bool) :
    (numeralOf negative m).isPlain := by
  refine Numeral.isPlain_iff.mpr ⟨isDigital_numeralOf negative m, ?_⟩
  rw [numeralOf]
  split_ifs with hzero
  · rfl
  · exact isWhole_layOut negative
      (shortens_shortestSingle h (Nat.pos_of_ne_zero hzero)).digits_pos _

/-!
## Bits
-/

theorem bits_eq (s : Single) :
    s.bits.toNat = (if s.isNegative then 0x80000000 else 0) + s.exponentField * 0x800000 +
      s.fractionField := by
  have hbits := s.bits.toNat_lt
  simp only [isNegative, exponentField, fractionField, decide_eq_true_eq]
  split_ifs <;> omega

theorem withSign_eq {s : Single} {rest : Nat}
    (h : rest = s.exponentField * 0x800000 + s.fractionField) :
    withSign s.isNegative rest = s := by
  have hrest : (if s.isNegative then 0x80000000 + rest else rest) = s.bits.toNat := by
    rw [bits_eq, h]
    split_ifs <;> omega
  simp only [withSign, hrest, UInt32.ofNat_toNat]

theorem finite_magnitude {s : Single} (h : s.magnitude? = some m) :
    single.Holds m ∧ finite s.isNegative m = s := by
  have hfraction : s.fractionField < 0x800000 := Nat.mod_lt _ (by decide)
  rw [magnitude?] at h
  split_ifs at h with hshort hlong
  · obtain rfl := Option.some.inj h
    refine ⟨⟨hfraction.trans (by decide), le_rfl, by simp [single], .inl rfl⟩, withSign_eq ?_⟩
    simp [hshort]
  · obtain rfl := Option.some.inj h
    refine ⟨⟨?_, ?_, ?_, .inr (Nat.le_add_right _ _)⟩, withSign_eq ?_⟩
    all_goals simp only [single]
    all_goals omega

theorem exists_numeral {s : Single} (h : s.isFinite) : ∃ numeral : Numeral,
    numeral.isPlain ∧ s.toJson = .number numeral ∧ ofNumeral? numeral = some s := by
  obtain ⟨m, hm⟩ := Option.isSome_iff_exists.mp h
  obtain ⟨hholds, hbits⟩ := finite_magnitude hm
  refine ⟨numeralOf s.isNegative m, isPlain_numeralOf hholds _, ?_, ?_⟩
  · simp [toJson, toNumeral?, hm, Json.orNull]
  · rw [ofNumeral?_numeralOf hholds, hbits]

theorem toJson_eq_null {s : Single} (h : ¬s.isFinite) : s.toJson = .null := by
  rw [isFinite, Bool.not_eq_true, Option.isSome_eq_false_iff, Option.isNone_iff_eq_none] at h
  rw [toJson, toNumeral?, h]
  rfl

end Single
end Jukebox
