import Jukebox.Proofs.Text.Pieces
import Jukebox.Store.Pattern
import Jukebox.Store.Operation

/-!
# Pieces of names

A normalized name is put together from what each character between the blank ends contributes:
at most one small letter, digit or hyphen, whatever its neighbours are. So a piece of a name is
normalized to a piece of the normalized name. None of these characters is a sign of a pattern,
so a pattern made from a normalized query stands for the query itself.
-/

namespace Jukebox

open Text

def plainChar (c : Char) : List Char :=
  if c = 'Σ' then [] else if c = 'İ' then ['i'] else ([lowerChar c].map hyphenate).filter
    isNameChar

/-- Only a sigma depends on its neighbours, and no sigma is a character of a normalized
name. -/
theorem filter_lowerAfter (before cs : List Char) :
    ((lowerAfter before cs).map hyphenate).filter isNameChar = cs.flatMap plainChar := by
  induction cs generalizing before with
  | nil => rfl
  | cons c rest ih =>
      rw [lowerAfter, List.map_append, List.filter_append, ih, List.flatMap_cons]
      congr 1
      unfold plainChar
      split
      · unfold sigma
        split <;> decide
      · split
        · decide
        · rfl

theorem normalizedChars_eq (name : List Char) :
    normalizedChars name = (trim name).flatMap plainChar :=
  filter_lowerAfter [] (trim name)

theorem isInfix_normalizedChars {piece name : List Char} (h : piece <:+: name) :
    normalizedChars piece <:+: normalizedChars name := by
  rcases trim_infix_trim h with ⟨front, back, hcut⟩
  rw [normalizedChars_eq, normalizedChars_eq, ← hcut, List.flatMap_append, List.flatMap_append]
  exact List.infix_append _ _ _

theorem plainChar_of_lt {c : Char} (hc : c.toNat < 128) :
    plainChar c = [hyphenate c.toLower].filter isNameChar := by
  have hsigma : c ≠ 'Σ' := by
    rintro rfl
    exact absurd hc (by decide)
  have hdotted : c ≠ 'İ' := by
    rintro rfl
    exact absurd hc (by decide)
  rw [plainChar, if_neg hsigma, if_neg hdotted, lowerChar_of_lt hc, List.map_singleton]

theorem plainChar_toLower (c : Char) : plainChar c.toLower = plainChar c := by
  rcases Nat.lt_or_ge c.toNat 128 with hc | hc
  · rw [plainChar_of_lt hc, plainChar_of_lt (toNat_toLower_lt hc), toLower_toLower]
  · rw [toLower_of_le hc]

theorem normalizedChars_map_toLower (name : List Char) :
    normalizedChars (name.map Char.toLower) = normalizedChars name := by
  rw [normalizedChars_eq, normalizedChars_eq, trim_map isBlank_toLower, List.flatMap_map]
  exact List.flatMap_congr fun c _ => plainChar_toLower c

/-!
## Characters of normalized names
-/

theorem isNameChar_iff {c : Char} :
    isNameChar c = true ↔ ('a' ≤ c ∧ c ≤ 'z') ∨ ('0' ≤ c ∧ c ≤ '9') ∨ c = '-' := by
  have hdigit : c.isDigit = true ↔ '0' ≤ c ∧ c ≤ '9' := by
    rw [Char.isDigit, Bool.and_eq_true, decide_eq_true_eq, decide_eq_true_eq]
    exact Iff.rfl
  simp only [isNameChar, Bool.or_eq_true, Bool.and_eq_true, decide_eq_true_eq,
    beq_iff_eq, hdigit, or_assoc]

theorem toNat_lt_of_isNameChar {c : Char} (h : isNameChar c = true) : c.toNat < 128 := by
  rcases isNameChar_iff.mp h with ⟨-, hle⟩ | ⟨-, hle⟩ | rfl
  · exact Nat.lt_of_le_of_lt hle (by decide)
  · exact Nat.lt_of_le_of_lt hle (by decide)
  · decide

theorem of_isNameChar {P : Char → Prop} (hall : ∀ n < 128, isNameChar (Char.ofNat n) = true →
    P (Char.ofNat n)) {c : Char} (h : isNameChar c = true) : P c :=
  of_ascii (P := fun c => isNameChar c = true → P c) hall (toNat_lt_of_isNameChar h) h

theorem plainChar_of_isNameChar {c : Char} (h : isNameChar c = true) : plainChar c = [c] := by
  have hsame : hyphenate c.toLower = c :=
    of_isNameChar (P := fun c => hyphenate c.toLower = c) (by decide +kernel) h
  rw [plainChar_of_lt (toNat_lt_of_isNameChar h), hsame, List.filter_cons_of_pos h,
    List.filter_nil]

theorem isBlank_of_isNameChar {c : Char} (h : isNameChar c = true) : isBlank c = false :=
  of_isNameChar (P := fun c => isBlank c = false) (by decide +kernel) h

theorem literal_of_isNameChar {c : Char} (h : isNameChar c = true) :
    c ≠ '%' ∧ c ≠ '_' ∧ c.toLower = c :=
  of_isNameChar (P := fun c => c ≠ '%' ∧ c ≠ '_' ∧ c.toLower = c) (by decide +kernel) h

def Plain (text : List Char) : Prop :=
  ∀ c ∈ text, ('a' ≤ c ∧ c ≤ 'z') ∨ ('0' ≤ c ∧ c ≤ '9') ∨ c = '-'

theorem Plain.isNameChar {text : List Char} (h : Plain text) {c : Char} (hc : c ∈ text) :
    isNameChar c = true :=
  isNameChar_iff.mpr (h c hc)

theorem plain_normalizedChars (name : List Char) : Plain (normalizedChars name) := by
  intro c hc
  exact isNameChar_iff.mp (List.mem_filter.mp hc).2

theorem normalizedChars_of_plain {name : List Char} (h : Plain name) :
    normalizedChars name = name := by
  have hsame := List.flatMap_congr fun c hc => plainChar_of_isNameChar (h.isNameChar hc)
  rw [normalizedChars_eq, trim_of_no_blank fun c hc => isBlank_of_isNameChar (h.isNameChar hc),
    hsame, List.flatMap_singleton']

/-!
## Normalized names
-/

theorem toList_normalizeName (name : String) :
    (normalizeName name).toList = normalizedChars name.toList :=
  String.toList_ofList

theorem plain_normalizeName (name : String) : Plain (normalizeName name).toList := by
  rw [toList_normalizeName]
  exact plain_normalizedChars name.toList

theorem normalizeName_of_plain {name : String} (h : Plain name.toList) :
    normalizeName name = name := by
  apply String.toList_injective
  rw [toList_normalizeName, normalizedChars_of_plain h]

/-- How names are brought into a form for searches. -/
structure Normalizes (normalize : String → String) : Prop where
  plain : ∀ name, Plain (normalize name).toList
  unchanged : ∀ name, Plain name.toList → normalize name = name
  idempotent : ∀ name, normalize (normalize name) = normalize name
  caseless : ∀ name other, name.toList.map Char.toLower = other.toList.map Char.toLower →
    normalize name = normalize other
  pieces : ∀ piece name, piece.toList <:+: name.toList →
    (normalize piece).toList <:+: (normalize name).toList

theorem normalizes_normalizeName : Normalizes normalizeName where
  plain := plain_normalizeName
  unchanged := fun _ => normalizeName_of_plain
  idempotent := fun name => normalizeName_of_plain (plain_normalizeName name)
  caseless := by
    intro name other h
    apply String.toList_injective
    rw [toList_normalizeName, toList_normalizeName, ← normalizedChars_map_toLower, h,
      normalizedChars_map_toLower]
  pieces := by
    intro piece name h
    rw [toList_normalizeName, toList_normalizeName]
    exact isInfix_normalizedChars h

example : normalizeName " Some_Guy's  ROOM\n" = "some-guys--room" := by decide

/-!
## Patterns of normalized names
-/

section Patterns

open Store

variable {accepts : List Char → Bool} {piece text : List Char}

theorem anySuffix_iff : anySuffix accepts text = true ↔ ∃ back, accepts back = true ∧
    back <:+ text := by
  induction text with
  | nil => simp [anySuffix]
  | cons c rest ih => simp [anySuffix, ih, List.suffix_cons_iff, and_or_left, exists_or]

theorem like_append_iff (hpiece : Plain piece) (htext : Plain text) :
    like (piece ++ ['%']) text = true ↔ piece <+: text := by
  induction piece generalizing text with
  | nil =>
      -- The last percent sign stands for all that is left.
      have hend : ∃ back, like [] back = true ∧ back <:+ text := ⟨[], rfl, List.nil_suffix⟩
      rw [List.nil_append, like_percent, anySuffix_iff]
      exact ⟨fun _ => List.nil_prefix, fun _ => hend⟩
  | cons sign piece ih =>
      rcases literal_of_isNameChar (hpiece.isNameChar List.mem_cons_self)
        with ⟨hany, hone, hsign⟩
      have hpiece : Plain piece := fun c hc => hpiece c (List.mem_cons_of_mem sign hc)
      cases text with
      | nil => simp [like, hany]
      | cons c rest =>
          have hc : c.toLower = c :=
            (literal_of_isNameChar (htext.isNameChar List.mem_cons_self)).2.2
          have hrest : Plain rest := fun d hd => htext d (List.mem_cons_of_mem c hd)
          simp [like, hany, hone, hsign, hc, ih hpiece hrest, List.cons_prefix_cons]

theorem like_containing (hpiece : Plain piece) (htext : Plain text) :
    like (containing piece) text = occursIn piece text := by
  rw [Bool.eq_iff_iff, occursIn_iff, containing, like_percent, anySuffix_iff,
    List.infix_iff_prefix_suffix]
  apply exists_congr
  intro back
  rw [and_congr_left_iff]
  intro hback
  exact like_append_iff hpiece fun c hc => htext c (hback.mem hc)

theorem like_normalizeName (query name : String) :
    like (containing (normalizeName query).toList) (normalizeName name).toList =
      nameMatches (normalizeName query) (normalizeName name) :=
  like_containing (plain_normalizeName query) (plain_normalizeName name)

end Patterns

end Jukebox
