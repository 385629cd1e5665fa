import Jukebox.Number.Single
import Jukebox.Proofs.Number.Gaps

/-!
# Decimals in double precision

Reading takes up the digits of a decimal as a whole number and applies the power of ten in
double precision. What comes out is within the tolerance, and exact if the decimal is a number
of double precision and the power of ten is one too.
-/

namespace Jukebox
namespace Single

open Number

/-!
## Digits
-/

theorem le_ofDigitChars (n : Nat) (digits : List Char) : n ≤ Nat.ofDigitChars 10 digits n := by
  rw [Nat.ofDigitChars_eq_ofDigitChars_zero]
  exact Nat.le_add_right_of_le (Nat.le_mul_of_pos_left n (Nat.pow_pos (by decide)))

theorem takeDigits_eq {n : Nat} {digits : List Char}
    (h : Nat.ofDigitChars 10 digits n < wordLimit) :
    takeDigits n digits = (Nat.ofDigitChars 10 digits n, []) := by
  induction digits generalizing n with
  | nil => rfl
  | cons c rest ih =>
      rw [Nat.ofDigitChars_cons, mul_comm] at h ⊢
      rw [takeDigits, digitValue, if_pos ((le_ofDigitChars _ rest).trans_lt h)]
      exact ih h

theorem scientific_eq {n : Numeral} {digits : Nat} {exponent : Int}
    (hdigits : Nat.ofDigitChars 10 (n.whole ++ n.fraction) 0 = digits)
    (hword : digits < wordLimit)
    (hexponent : n.exponent.getD 0 - n.fraction.length = exponent) :
    scientific n = (digits, exponent) := by
  rw [← hdigits, Nat.ofDigitChars_append] at hword
  rw [← hdigits, ← hexponent, Nat.ofDigitChars_append]
  simp only [scientific, takeDigits_eq ((le_ofDigitChars _ _).trans_lt hword),
    takeDigits_eq hword, List.length_nil, Nat.sub_zero, Prod.mk.injEq, true_and]
  omega

/-- A decimal as it is taken up: a whole number and a power of ten of double precision. -/
structure TakenUp (d : Decimal) (digits : Nat) (exponent : Int) : Prop where
  value : (digits * 10 ^ exponent : ℚ) = d.value
  digits_pos : 0 < digits
  digits_lt : digits < 2 ^ 53
  exponent_ge : -46 ≤ exponent
  exponent_le : exponent ≤ 38
  exact : d.exponent.natAbs ≤ 22 → exponent.natAbs ≤ 22

variable {m : Magnitude} {d : Decimal}

theorem takenUp_self (h : Shortens m d) : TakenUp d d.digits d.exponent where
  value := rfl
  digits_pos := h.digits_pos
  digits_lt := h.digits_lt.trans (by decide)
  exponent_ge := h.exponent_ge
  exponent_le := h.exponent_le
  exact := id

theorem takenUp_filled {zeros : Nat} (hpos : 0 < d.digits) (hexponent : d.exponent = zeros)
    (hlt : 10 * (10 ^ zeros * d.digits) < 2 ^ 53) :
    TakenUp d (10 * (10 ^ zeros * d.digits)) (-1) where
  value := by
    rw [Decimal.value, hexponent, zpow_natCast, zpow_neg_one]
    push_cast
    field_simp
  digits_pos := by positivity
  digits_lt := hlt
  exponent_ge := by decide
  exponent_le := by decide
  exact _ := by decide

theorem scientific_layOut (h : Shortens m d) (negative : Bool) :
    ∃ digits exponent, TakenUp d digits exponent ∧
      scientific (layOut {} negative (Nat.toDigits 10 d.digits)
        ((Nat.toDigits 10 d.digits).length + d.exponent)) = (digits, exponent) := by
  have hlength : 0 < (Nat.toDigits 10 d.digits).length := Nat.length_toDigits_pos
  have hdigits : Nat.ofDigitChars 10 (Nat.toDigits 10 d.digits) 0 = d.digits :=
    Nat.ofDigitChars_ten_toDigits
  have hword : d.digits < wordLimit := h.digits_lt.trans (by decide)
  have hbound : d.digits < 10 ^ (Nat.toDigits 10 d.digits).length :=
    (Nat.length_toDigits_le_iff (by decide) hlength).mp le_rfl
  generalize Nat.toDigits 10 d.digits = digits at *
  rw [layOut]
  split_ifs with hwhole hpoint hzeros
  · have hlimit : digits.length + d.exponent ≤ 13 := hwhole.2
    obtain ⟨zeros, hexponent⟩ := Int.eq_ofNat_of_zero_le (by omega : 0 ≤ d.exponent)
    have hlt : 10 * (10 ^ zeros * d.digits) < 10 ^ 14 := by
      calc 10 * (10 ^ zeros * d.digits) < 10 * (10 ^ zeros * 10 ^ digits.length) := by gcongr
        _ = 10 ^ (digits.length + zeros + 1) := by ring
        _ ≤ 10 ^ 14 := Nat.pow_le_pow_right (by decide) (by omega)
    refine ⟨_, _, takenUp_filled h.digits_pos hexponent (hlt.trans (by decide)),
      scientific_eq ?_ (hlt.trans (by decide)) (by simp)⟩
    rw [show ((digits.length + d.exponent - digits.length).toNat) = zeros by omega]
    simp [Nat.ofDigitChars_append, Nat.ofDigitChars_cons, hdigits]
  · refine ⟨_, _, takenUp_self h, scientific_eq ?_ hword ?_⟩
    · rw [List.take_append_drop, hdigits]
    · simp
      omega
  · refine ⟨_, _, takenUp_self h, scientific_eq ?_ hword ?_⟩
    · simp [Nat.ofDigitChars_append, Nat.ofDigitChars_cons, hdigits]
    · simp only [Option.getD_none, List.length_append, List.length_replicate]
      omega
  · refine ⟨_, _, takenUp_self h, scientific_eq ?_ hword ?_⟩
    · rw [List.take_append_drop, hdigits]
    · simp
      omega

/-!
## Powers of ten

All numbers that come up while a decimal is read are far from the limits of double precision.
-/

/-- Whether a number is neither too large nor too small to be rounded without a thought. -/
def Moderate (x : ℚ) : Prop :=
  (2 : ℚ) ^ (-250 : Int) ≤ x ∧ x ≤ 2 ^ (250 : Int)

theorem exists_round?_double (num : Nat) {den : Nat} (hden : 0 < den)
    (h : Moderate (num / den)) :
    ∃ m, double.round? num den = some m ∧ double.Approximates (num / den) m := by
  refine Format.exists_round? (by decide) hden (le_trans ?_ h.1) (lt_of_le_of_lt h.2 ?_)
  · exact zpow_le_zpow_right₀ one_le_two (by decide)
  · exact zpow_lt_zpow_right₀ one_lt_two (by decide)

theorem exists_mul? {a b : Magnitude} (h : Moderate (a.value * b.value)) :
    ∃ m, double.mul? a b = some m ∧ double.Approximates (a.value * b.value) m := by
  rw [a.value_eq_ratio, b.value_eq_ratio, div_mul_div_comm] at h ⊢
  exact_mod_cast exists_round?_double _ (Nat.mul_pos a.ratio_den_pos b.ratio_den_pos)
    (by exact_mod_cast h)

theorem exists_div? {a b : Magnitude} (hb : 0 < b.value) (h : Moderate (a.value / b.value)) :
    ∃ m, double.div? a b = some m ∧ double.Approximates (a.value / b.value) m := by
  have hnum : 0 < b.ratio.1 := by
    rw [b.value_eq_ratio] at hb
    refine Nat.pos_of_ne_zero fun hzero => ?_
    rw [hzero] at hb
    simp at hb
  rw [a.value_eq_ratio, b.value_eq_ratio, div_div_div_eq] at h ⊢
  exact_mod_cast exists_round?_double _ (Nat.mul_pos a.ratio_den_pos hnum)
    (by exact_mod_cast h)

theorem ten_pow_mem {places : Nat} (h : places ≤ 46) :
    (1 : ℚ) ≤ 10 ^ places ∧ (10 : ℚ) ^ places ≤ 10 ^ 46 :=
  ⟨one_le_pow₀ (by norm_num), pow_le_pow_right₀ (by norm_num) h⟩

theorem approximates_tenToThe {places : Nat} (h : places ≤ 46) :
    double.Approximates (10 ^ places) (tenToThe places) := by
  have hmoderate : Moderate ((Nat.pow 10 places : Nat) / (1 : Nat)) := by
    obtain ⟨hlow, hhigh⟩ := ten_pow_mem h
    simp only [Nat.pow_eq, Nat.cast_pow, Nat.cast_one, div_one, Nat.cast_ofNat]
    constructor
    · exact le_trans (by norm_num) hlow
    · exact hhigh.trans (by norm_num)
  obtain ⟨m, hm, happrox⟩ := exists_round?_double _ one_pos hmoderate
  rw [tenToThe, hm, Option.getD_some]
  simpa using happrox

theorem tenToThe_eq {places : Nat} (h : places ≤ 22) :
    (tenToThe places).value = 10 ^ places := by
  refine (approximates_tenToThe (by omega)).exact (5 ^ places) places ?_ ?_
  · exact lt_of_le_of_lt (Nat.pow_le_pow_right (by decide) h) (by decide)
  · rw [zpow_natCast, Nat.cast_pow, ← mul_pow]
    norm_num

/-- A number as it is read: within the tolerance, and without any error from small powers of
ten. -/
structure ReadAs (v : ℚ) (small : Prop) (x : Magnitude) : Prop where
  near : |x.value - v| ≤ tolerance * v
  exact : small → ∀ (s : Nat) (e : Int), s < 2 ^ 53 → v = s * 2 ^ e → x.value = v

theorem ReadAs.imp {v : ℚ} {small small' : Prop} {x : Magnitude} (h : ReadAs v small x)
    (himp : small' → small) : ReadAs v small' x :=
  ⟨h.near, fun hsmall => h.exact (himp hsmall)⟩

theorem significand_ne_zero {a : Magnitude} (ha : 1 ≤ a.value) : a.significand ≠ 0 := by
  intro hzero
  rw [Magnitude.value, hzero] at ha
  norm_num at ha

theorem readAs_of_approximates {v y : ℚ} {small : Prop} {x : Magnitude}
    (hclose : |y - v| ≤ v / 2 ^ 53 ∨ |y - v| ≤ y / 2 ^ 53) (hsmall : small → y = v)
    (hv : 0 ≤ v) (hx : double.Approximates y x) : ReadAs v small x := by
  refine ⟨?_, fun h s e hs heq => ?_⟩
  · have herror := hx.error
    simp only [double] at herror
    rw [abs_le] at herror ⊢
    rw [tolerance]
    rcases hclose with hclose | hclose <;> rw [abs_le] at hclose <;> constructor <;> linarith
  · have hy := hsmall h
    rw [← hy] at heq ⊢
    exact hx.exact s e hs heq

theorem exists_multiplied {a : Magnitude} {places : Nat} (hone : 1 ≤ a.value)
    (hlimit : a.value < 2 ^ 53) (hplaces : places ≤ 46) :
    ∃ x, multiplyByTens a places = some x ∧
    ReadAs (a.value * 10 ^ places) (places ≤ 22) x := by
  have hpower := ten_pow_mem hplaces
  have hclose : |a.value * (tenToThe places).value - a.value * 10 ^ places| ≤
      a.value * 10 ^ places / 2 ^ 53 := by
    rw [← mul_sub, abs_mul, abs_of_nonneg (by linarith), mul_div_assoc]
    exact mul_le_mul_of_nonneg_left (approximates_tenToThe hplaces).error (by linarith)
  have hproduct : 1 ≤ a.value * 10 ^ places ∧ a.value * 10 ^ places ≤ 2 ^ 53 * 10 ^ 46 :=
    ⟨one_le_mul_of_one_le_of_one_le hone hpower.1,
      mul_le_mul hlimit.le hpower.2 (by positivity) (by positivity)⟩
  have hmoderate : Moderate (a.value * (tenToThe places).value) := by
    have hbounds := abs_le.mp hclose
    constructor
    · refine le_trans (b := 1 / 2) (by norm_num) ?_
      linarith
    · refine le_trans (b := 2 ^ 54 * 10 ^ 46) ?_ (by norm_num)
      linarith
  obtain ⟨x, hx, happrox⟩ := exists_mul? hmoderate
  refine ⟨x, ?_, readAs_of_approximates (.inl hclose) (fun h => by rw [tenToThe_eq h])
    (by linarith) happrox⟩
  rw [multiplyByTens, if_neg (significand_ne_zero hone), if_pos (by omega), hx]

theorem abs_div_sub_div {a t v : ℚ} (ha : 0 < a) (ht : 0 < t) (hv : 0 < v) :
    |a / t - a / v| = a / t * (|t - v| / v) := by
  have heq : a / t - a / v = a / t * ((v - t) / v) := by
    field_simp
  rw [heq, abs_mul, abs_of_pos (div_pos ha ht), abs_div, abs_of_pos hv, abs_sub_comm]

theorem exists_divided {a : Magnitude} {places : Nat} (hone : 1 ≤ a.value)
    (hlimit : a.value < 2 ^ 53) (hplaces : places ≤ 46) :
    ∃ x, divideByTens a places = some x ∧ ReadAs (a.value / 10 ^ places) (places ≤ 22) x := by
  have hpower := ten_pow_mem hplaces
  have hten := abs_le.mp (approximates_tenToThe hplaces).error
  have hpos : 0 < (tenToThe places).value := by
    simp only [double] at hten
    linarith
  have hclose : |a.value / (tenToThe places).value - a.value / 10 ^ places| ≤
      a.value / (tenToThe places).value / 2 ^ 53 := by
    have herror := (approximates_tenToThe hplaces).error
    rw [abs_div_sub_div (by linarith) hpos (by positivity), div_eq_mul_one_div _ (2 ^ 53)]
    refine mul_le_mul_of_nonneg_left ?_ (by positivity)
    rw [div_le_iff₀ (by positivity), one_div_mul_eq_div]
    exact herror
  have hmoderate : Moderate (a.value / (tenToThe places).value) := by
    simp only [double] at hten
    constructor
    · refine le_trans (b := 1 / (2 * 10 ^ 46)) (by norm_num) ?_
      gcongr
      linarith
    · refine le_trans (b := 2 ^ 53 / (1 / 2)) ?_ (by norm_num)
      gcongr
      linarith
  obtain ⟨x, hx, happrox⟩ := exists_div? hpos hmoderate
  refine ⟨x, ?_, readAs_of_approximates (.inr hclose) (fun h => by rw [tenToThe_eq h])
    (by positivity) happrox⟩
  rw [divideByTens, if_pos (.inl (by omega)), min_eq_left (by omega), hx]

theorem exists_doubleOfNumeral? {n : Numeral} {d : Decimal} {digits : Nat} {exponent : Int}
    (htaken : TakenUp d digits exponent) (hread : scientific n = (digits, exponent)) :
    ∃ x, doubleOfNumeral? n = some x ∧ ReadAs d.value (d.exponent.natAbs ≤ 22) x := by
  have hone : (1 : ℚ) ≤ digits := by exact_mod_cast htaken.digits_pos
  have hlimit : (digits : ℚ) < 2 ^ 53 := by exact_mod_cast htaken.digits_lt
  obtain ⟨a, ha, happrox⟩ := exists_round?_double digits one_pos (by
    rw [Nat.cast_one, div_one]
    exact ⟨le_trans (by norm_num) hone, hlimit.le.trans (by norm_num)⟩)
  rw [Nat.cast_one, div_one] at happrox
  have hvalue : a.value = digits := happrox.exact digits 0 htaken.digits_lt (by simp)
  rw [← hvalue] at hone hlimit
  simp only [doubleOfNumeral?, hread, ha, Option.bind_some]
  have hge := htaken.exponent_ge
  have hle := htaken.exponent_le
  have hten := htaken.value
  rcases le_or_gt 0 exponent with hsign | hsign
  · obtain ⟨places, rfl⟩ := Int.eq_ofNat_of_zero_le hsign
    obtain ⟨x, hx, hreadAs⟩ := exists_multiplied hone hlimit (by omega : places ≤ 46)
    have hvalue : a.value * 10 ^ places = d.value := by
      rw [hvalue, ← hten]
      rfl
    exact ⟨x, by rw [if_pos hsign, ← hx]; rfl, hvalue ▸ hreadAs.imp htaken.exact⟩
  · obtain ⟨places, hplaces⟩ := Int.eq_ofNat_of_zero_le (by omega : 0 ≤ -exponent)
    obtain rfl : exponent = -places := by omega
    obtain ⟨x, hx, hreadAs⟩ := exists_divided hone hlimit (by omega : places ≤ 46)
    have hvalue : a.value / 10 ^ places = d.value := by
      rw [hvalue, ← hten, zpow_neg, zpow_natCast, div_eq_mul_inv]
    have hexact := htaken.exact
    rw [Int.natAbs_neg, Int.natAbs_natCast] at hexact
    refine ⟨x, ?_, hvalue ▸ hreadAs.imp hexact⟩
    rw [if_neg (not_le.mpr hsign), Int.natAbs_neg, Int.natAbs_natCast, hx]

end Single
end Jukebox
