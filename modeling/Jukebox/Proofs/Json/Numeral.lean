import Jukebox.Json.Numeral
import Jukebox.Number.Single
import Mathlib.Data.List.Basic

/-!
# Numerals are read as they are written

A numeral is plain if its digits are digits and its whole part has no needless zero in front.
Reading the characters of a plain numeral gives it back. Natural numbers have plain numerals,
and so has every finite number of single precision.
-/

namespace Jukebox
namespace Numeral

def IsDigital (n : Numeral) : Prop :=
  (∀ c ∈ n.whole, c.isDigit) ∧ ∀ c ∈ n.fraction, c.isDigit

/-- Whether a numeral can be written so that it is read again. -/
def isPlain (n : Numeral) : Bool :=
  n.whole.all Char.isDigit && n.fraction.all Char.isDigit && isWhole n.whole

theorem isPlain_iff {n : Numeral} : n.isPlain ↔ n.IsDigital ∧ isWhole n.whole := by
  simp [isPlain, IsDigital, List.all_eq_true]

/-!
## Reading the parts
-/

def EndsDigits (rest : List Char) : Prop :=
  ∀ c ∈ rest.head?, ¬c.isDigit

variable {digits rest : List Char}

theorem takeWhile_digits (hdigits : ∀ c ∈ digits, c.isDigit) (hrest : EndsDigits rest) :
    (digits ++ rest).takeWhile Char.isDigit = digits := by
  rw [List.takeWhile_append_of_pos hdigits]
  cases rest with
  | nil => simp
  | cons c rest => simp [hrest c rfl]

theorem dropWhile_digits (hdigits : ∀ c ∈ digits, c.isDigit) (hrest : EndsDigits rest) :
    (digits ++ rest).dropWhile Char.isDigit = rest := by
  rw [List.dropWhile_append_of_pos hdigits]
  cases rest with
  | nil => simp
  | cons c rest => simp [hrest c rfl]

theorem isDigit_of_mem_toDigits {n : Nat} {c : Char} (h : c ∈ Nat.toDigits 10 n) : c.isDigit :=
  Nat.isDigit_of_mem_toDigits (by decide) (by decide) h

def exponentPart : Option Int → List Char
  | some e => exponentChars e
  | none => []

theorem endsDigits_exponentPart (e : Option Int) : EndsDigits (exponentPart e) := by
  cases e <;> simp [EndsDigits, exponentPart, exponentChars]

theorem exponentOfChars?_chars (e : Int) :
    exponentOfChars? ((if e < 0 then '-' else '+') :: Nat.toDigits 10 e.natAbs) = some e := by
  have hall : (Nat.toDigits 10 e.natAbs).all Char.isDigit := by
    simpa [List.all_eq_true] using fun c hc => isDigit_of_mem_toDigits hc
  have hsome : (Nat.toDigits 10 e.natAbs).isEmpty = false := by
    simp [Nat.toDigits_ne_nil]
  by_cases hsign : e < 0
  · simp only [exponentOfChars?, if_pos hsign, hall, hsome, Nat.ofDigitChars_ten_toDigits]
    exact congrArg some (by omega : -(e.natAbs : Int) = e)
  · simp only [exponentOfChars?, if_neg hsign, hall, hsome, Nat.ofDigitChars_ten_toDigits]
    exact congrArg some (by omega : (e.natAbs : Int) = e)

theorem exponentPart?_exponentPart (e : Option Int) :
    exponentPart? (exponentPart e) = some e := by
  cases e with
  | none => rfl
  | some e => simp [exponentPart, exponentChars, exponentPart?, exponentOfChars?_chars]

/-!
## Reading a whole numeral
-/

def behind (n : Numeral) : List Char :=
  (if n.fraction.isEmpty then [] else '.' :: n.fraction) ++ exponentPart n.exponent

theorem chars_eq (n : Numeral) :
    n.chars = (if n.negative then ['-'] else []) ++ (n.whole ++ n.behind) := by
  cases he : n.exponent <;> simp [chars, behind, exponentPart, he]

theorem endsDigits_behind (n : Numeral) : EndsDigits n.behind := by
  unfold behind
  split
  · simpa using endsDigits_exponentPart n.exponent
  · simp [EndsDigits]

theorem unsigned?_chars {n : Numeral} (h : n.IsDigital) :
    unsigned? n.negative (n.whole ++ n.behind) = if isWhole n.whole then some n else none := by
  have hends := n.endsDigits_behind
  rw [unsigned?]
  simp only [takeWhile_digits h.1 hends, dropWhile_digits h.1 hends]
  cases hwhole : isWhole n.whole with
  | false => simp
  | true =>
      simp only [Bool.not_true, Bool.false_eq_true, if_false, if_true]
      cases hfraction : n.fraction.isEmpty with
      | true =>
          have hbehind : n.behind = exponentPart n.exponent := by simp [behind, hfraction]
          have hnumeral : n = ⟨n.negative, n.whole, [], n.exponent⟩ := by
            rw [← List.isEmpty_iff.mp hfraction]
          have hpoint : ∀ rest, exponentPart n.exponent ≠ '.' :: rest := by
            intro rest
            cases n.exponent <;> simp [exponentPart, exponentChars]
          rw [hbehind]
          split
          · exact absurd ‹_› (hpoint _)
          · rw [exponentPart?_exponentPart]
            simpa using hnumeral.symm
      | false =>
          have hbehind : n.behind = '.' :: (n.fraction ++ exponentPart n.exponent) := by
            simp [behind, hfraction]
          have hends := endsDigits_exponentPart n.exponent
          rw [hbehind]
          simp [takeWhile_digits h.2 hends, dropWhile_digits h.2 hends, hfraction,
            exponentPart?_exponentPart]

theorem ofChars?_chars_eq {n : Numeral} (h : n.IsDigital) :
    ofChars? n.chars = if isWhole n.whole then some n else none := by
  rw [chars_eq, ← unsigned?_chars h]
  cases hnegative : n.negative with
  | true => simp [ofChars?]
  | false =>
      have hminus : ∀ rest, n.whole ++ n.behind ≠ '-' :: rest := by
        intro rest heq
        cases hwhole : n.whole with
        | nil =>
            rw [hwhole, List.nil_append, behind] at heq
            cases hfraction : n.fraction <;> cases he : n.exponent <;>
              simp [hfraction, he, exponentPart, exponentChars] at heq
        | cons c whole =>
            rw [hwhole, List.cons_append] at heq
            have hdigit := h.1 c (by simp [hwhole])
            rw [(List.cons.inj heq).1] at hdigit
            exact absurd hdigit (by decide)
      simp only [Bool.false_eq_true, if_false, List.nil_append, ofChars?]

theorem ofChars?_chars {n : Numeral} (h : n.isPlain) : ofChars? n.chars = some n := by
  rw [ofChars?_chars_eq (isPlain_iff.mp h).1, if_pos (isPlain_iff.mp h).2]

/-!
## Natural numbers
-/

theorem isWhole_cons {c : Char} (hc : c ≠ '0') (rest : List Char) : isWhole (c :: rest) := by
  unfold isWhole
  split
  · simp_all
  · rfl
  · simp_all

theorem digitChar_ne_zero : ∀ d < 10, 0 < d → d.digitChar ≠ '0' := by
  decide

theorem exists_toDigits {n : Nat} (hn : 0 < n) :
    ∃ c rest, Nat.toDigits 10 n = c :: rest ∧ c ≠ '0' := by
  induction n using Nat.strongRecOn with
  | ind n ih =>
      rw [Nat.toDigits_eq_if (by decide)]
      split
      · exact ⟨n.digitChar, [], rfl, digitChar_ne_zero n ‹_› hn⟩
      · rcases ih (n / 10) (by omega) (by omega) with ⟨c, rest, hdigits, hc⟩
        exact ⟨c, rest ++ [(n % 10).digitChar], by rw [hdigits]; rfl, hc⟩

theorem isWhole_toDigits (n : Nat) : isWhole (Nat.toDigits 10 n) := by
  rcases Nat.eq_zero_or_pos n with rfl | hn
  · rw [Nat.toDigits_zero]
    rfl
  · rcases exists_toDigits hn with ⟨c, rest, hdigits, hc⟩
    rw [hdigits]
    exact isWhole_cons hc rest

theorem isPlain_ofNat (n : Nat) : (ofNat n).isPlain := by
  refine isPlain_iff.mpr ⟨⟨?_, by simp [ofNat]⟩, isWhole_toDigits n⟩
  intro c hc
  exact isDigit_of_mem_toDigits hc

end Numeral

/-!
## Numbers of single precision
-/

namespace Single

open Numeral

theorem isDigital_layOut (layout : Layout) (negative : Bool) {digits : List Char} (point : Int)
    (hdigits : ∀ c ∈ digits, c.isDigit) : (layOut layout negative digits point).IsDigital := by
  have hzeros : ∀ (count : Nat) (c : Char), c ∈ List.replicate count '0' → c.isDigit := by
    intro count c hc
    rw [List.eq_of_mem_replicate hc]
    rfl
  unfold layOut
  split
  · refine ⟨?_, by simp⟩
    intro c hc
    exact (List.mem_append.mp hc).elim (hdigits c) (hzeros _ c)
  split
  · exact ⟨fun c hc => hdigits c (List.mem_of_mem_take hc),
      fun c hc => hdigits c (List.mem_of_mem_drop hc)⟩
  split
  · refine ⟨by simp, ?_⟩
    intro c hc
    exact (List.mem_append.mp hc).elim (hzeros _ c) (hdigits c)
  · exact ⟨fun c hc => hdigits c (List.mem_of_mem_take hc),
      fun c hc => hdigits c (List.mem_of_mem_drop hc)⟩

theorem isDigital_numeralOf (negative : Bool) (m : Number.Magnitude) :
    (numeralOf negative m).IsDigital := by
  rw [numeralOf]
  split
  · simp [IsDigital]
  · exact isDigital_layOut _ _ _ fun c hc => isDigit_of_mem_toDigits hc

theorem ofNumeral?_ofNat {n : Nat} (hn : n < wordLimit) : (ofNumeral? (.ofNat n)).isSome := by
  have hexact : isExactWhole (.ofNat n) := by
    have hsmall : n < wordLimit := hn
    simp [isExactWhole, ofNat, Nat.ofDigitChars_ten_toDigits, hsmall]
  simp [ofNumeral?, hexact]

end Single
end Jukebox
