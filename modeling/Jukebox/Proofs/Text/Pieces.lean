import Mathlib.Data.List.DropRight
import Mathlib.Data.List.Infix
import Jukebox.RoomName

/-!
# Pieces of texts

What trimming and lower-casing make of a contiguous piece of a text. The ends that are trimmed
off a piece are blank, so the rest of it lies within the rest of the text. Character by
character, letters that differ in ASCII case only have the same small letter.
-/

namespace Jukebox

theorem occursIn_iff {α : Type} [BEq α] [LawfulBEq α] {piece text : List α} :
    occursIn piece text = true ↔ piece <:+: text := by
  induction text with
  | nil => rw [occursIn, List.isEmpty_iff, List.infix_nil]
  | cons c rest ih =>
      rw [occursIn, Bool.or_eq_true, List.isPrefixOf_iff_prefix, ih, List.infix_cons_iff]

namespace Text

variable {cs piece text : List Char}

/-!
## Trimming
-/

structure Tight (cs : List Char) : Prop where
  head : ∀ c ∈ cs.head?, isBlank c = false
  last : ∀ c ∈ cs.getLast?, isBlank c = false

theorem dropWhile_append_of_head (front : List Char)
    (h : ∀ c ∈ piece.head?, isBlank c = false) :
    (front ++ piece).dropWhile isBlank = front.dropWhile isBlank ++ piece := by
  induction front with
  | nil =>
      cases piece with
      | nil => rfl
      | cons c rest => rw [List.nil_append, List.dropWhile_cons, h c rfl]; rfl
  | cons c rest ih =>
      rw [List.cons_append, List.dropWhile_cons, List.dropWhile_cons]
      split
      · exact ih
      · rfl

theorem isInfix_trim (cs : List Char) : trim cs <:+: cs :=
  (List.rdropWhile_prefix isBlank (cs.dropWhile isBlank)).isInfix.trans
    (List.dropWhile_suffix isBlank).isInfix

theorem tight_trim (cs : List Char) : Tight (trim cs) where
  head := by
    intro c hc
    have hprefix : trim cs <+: cs.dropWhile isBlank := List.rdropWhile_prefix isBlank _
    have hhead := List.head?_dropWhile_not isBlank cs
    rcases List.head?_eq_some_iff.mp hc with ⟨rest, hrest⟩
    rcases hprefix with ⟨back, hback⟩
    rw [← hback, hrest] at hhead
    exact hhead
  last := by
    intro c hc
    have hhead := List.head?_dropWhile_not isBlank (cs.dropWhile isBlank).reverse
    rw [trim, List.getLast?_reverse] at hc
    rw [hc] at hhead
    exact hhead

/-- A tight piece is not touched when the text is trimmed. -/
theorem Tight.infix_trim (h : Tight piece) (hpiece : piece <:+: text) :
    piece <:+: trim text := by
  rcases hpiece with ⟨front, back, rfl⟩
  cases piece with
  | nil => exact List.nil_infix
  | cons first rest =>
      have hhead : ∀ c ∈ (first :: rest ++ back).head?, isBlank c = false := by
        intro c hc
        exact h.head c hc
      have hlast : ∀ c ∈ ((first :: rest).reverse ++ (front.dropWhile isBlank).reverse).head?,
          isBlank c = false := by
        intro c hc
        rw [List.head?_append_of_ne_nil _ (by simp), List.head?_reverse] at hc
        exact h.last c hc
      -- Dropping blanks stops at the piece, from the front and, in the reversed text, from the
      -- back.
      rw [trim, List.append_assoc, dropWhile_append_of_head front hhead, List.reverse_append,
        List.reverse_append, List.append_assoc, dropWhile_append_of_head _ hlast,
        List.reverse_append, List.reverse_append, List.reverse_reverse, List.reverse_reverse]
      exact List.infix_append _ _ _

theorem trim_infix_trim (h : piece <:+: text) : trim piece <:+: trim text :=
  (tight_trim piece).infix_trim ((isInfix_trim piece).trans h)

theorem trim_of_no_blank (h : ∀ c ∈ cs, isBlank c = false) : trim cs = cs := by
  have hhead : ∀ {others : List Char}, (∀ c ∈ others, isBlank c = false) →
      others.dropWhile isBlank = others := by
    intro others hothers
    have hdrop := dropWhile_append_of_head [] fun c hc =>
      hothers c (List.mem_of_mem_head? hc)
    exact hdrop
  rw [trim, hhead h, hhead fun c hc => h c (List.mem_reverse.mp hc), List.reverse_reverse]

theorem trim_map {f : Char → Char} (hf : ∀ c, isBlank (f c) = isBlank c) (cs : List Char) :
    trim (cs.map f) = (trim cs).map f := by
  have hblank : isBlank ∘ f = isBlank := funext hf
  rw [trim, List.dropWhile_map, hblank, ← List.map_reverse, List.dropWhile_map, hblank,
    ← List.map_reverse, trim]

/-!
## ASCII letters
-/

theorem of_ascii {P : Char → Prop} (h : ∀ n < 128, P (Char.ofNat n)) {c : Char}
    (hc : c.toNat < 128) : P c := by
  rw [← Char.ofNat_toNat c]
  exact h c.toNat hc

theorem toLower_of_le {c : Char} (hc : 128 ≤ c.toNat) : c.toLower = c := by
  have hlarge : ¬(c.val ≥ 'A'.val ∧ c.val ≤ 'Z'.val) := by
    rintro ⟨-, hle⟩
    have hle : c.toNat ≤ 'Z'.toNat := hle
    exact absurd (Nat.le_trans hc hle) (by decide)
  exact dif_neg hlarge

theorem toNat_toLower_lt {c : Char} (hc : c.toNat < 128) : c.toLower.toNat < 128 :=
  of_ascii (P := fun c => c.toLower.toNat < 128) (by decide +kernel) hc

theorem toLower_toLower (c : Char) : c.toLower.toLower = c.toLower := by
  rcases Nat.lt_or_ge c.toNat 128 with hc | hc
  · exact of_ascii (P := fun c => c.toLower.toLower = c.toLower) (by decide +kernel) hc
  · rw [toLower_of_le hc, toLower_of_le hc]

def asciiCapitals : LowerRun :=
  ⟨0x41, 0x5A, 1, 32⟩

theorem lowerRuns_eq :
    ∃ others, lowerRuns = asciiCapitals :: others ∧ ∀ run ∈ others, 128 ≤ run.first :=
  ⟨_, rfl, by decide +kernel⟩

theorem lowerChar_of_lt {c : Char} (hc : c.toNat < 128) : lowerChar c = c.toLower := by
  rcases lowerRuns_eq with ⟨others, hruns, hfar⟩
  have hnone : others.find? (fun run => run.contains c.toNat) = none := by
    rw [List.find?_eq_none]
    intro run hrun
    have hfirst : ¬run.first ≤ c.toNat :=
      Nat.not_le_of_lt (Nat.lt_of_lt_of_le hc (hfar run hrun))
    simp [LowerRun.contains, hfirst]
  have hsmall : if asciiCapitals.contains c.toNat then c.toLower = Char.ofNat (c.toNat + 32)
      else c.toLower = c :=
    of_ascii (P := fun c => if asciiCapitals.contains c.toNat then c.toLower =
      Char.ofNat (c.toNat + 32)
      else c.toLower = c) (by decide +kernel) hc
  rw [lowerChar, hruns, List.find?_cons, hnone]
  cases hcapital : asciiCapitals.contains c.toNat with
  | true =>
      rw [hcapital, if_pos rfl] at hsmall
      exact hsmall.symm
  | false =>
      rw [hcapital, if_neg Bool.false_ne_true] at hsmall
      exact hsmall.symm

theorem isBlank_toLower (c : Char) : isBlank c.toLower = isBlank c := by
  rcases Nat.lt_or_ge c.toNat 128 with hc | hc
  · exact of_ascii (P := fun c => isBlank c.toLower = isBlank c) (by decide +kernel) hc
  · rw [toLower_of_le hc]

end Text
end Jukebox
