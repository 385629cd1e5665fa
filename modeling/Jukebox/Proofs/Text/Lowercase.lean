import Jukebox.Proofs.Text.Pieces

/-!
# Lower-casing pieces

Lower-casing looks beyond a character in one case only: a capital sigma becomes the final form
of the letter where it ends a word. So a piece of a text may have other small letters on its
own than it has within the text. This happens exactly if a sigma stands at an end of the piece,
but for marks that are passed over, and the piece is torn there from a letter that decides
about the sigma.
-/

namespace Jukebox
namespace Text

variable {c : Char} {cs piece front back before after before' after' : List Char}

/-!
## Looking for cased characters
-/

def Ignorable (cs : List Char) : Prop :=
  ∀ c ∈ cs, isCaseIgnorable c = true

theorem ignorable_reverse : Ignorable cs.reverse ↔ Ignorable cs := by
  simp only [Ignorable, List.mem_reverse]

theorem meetsCased_eq (cs : List Char) :
    meetsCased cs = (cs.dropWhile isCaseIgnorable).head?.any isCased := by
  unfold meetsCased
  cases cs.dropWhile isCaseIgnorable with
  | nil => rfl
  | cons c rest => rfl

theorem meetsCased_append_of_ignorable (h : Ignorable front) (back : List Char) :
    meetsCased (front ++ back) = meetsCased back := by
  rw [meetsCased_eq, meetsCased_eq, List.dropWhile_append_of_pos h]

theorem meetsCased_append_of_not_ignorable (h : ¬Ignorable front) (back : List Char) :
    meetsCased (front ++ back) = meetsCased front := by
  cases hdrop : front.dropWhile isCaseIgnorable with
  | nil => exact absurd (List.dropWhile_eq_nil_iff.mp hdrop) h
  | cons c rest =>
      rw [meetsCased_eq, meetsCased_eq, List.dropWhile_append, hdrop]
      rfl

theorem meetsCased_of_ignorable (h : Ignorable cs) : meetsCased cs = false := by
  rw [meetsCased_eq, List.dropWhile_eq_nil_iff.mpr h]
  rfl

theorem meetsCased_cons (hc : isCaseIgnorable c = false) (rest : List Char) :
    meetsCased (c :: rest) = isCased c := by
  rw [meetsCased_eq, List.dropWhile_cons_of_neg (Bool.eq_false_iff.mp hc)]
  rfl

theorem isCaseIgnorable_letters : isCaseIgnorable 'Σ' = false ∧
    isCaseIgnorable 'a' = false := by
  decide +kernel

theorem isCaseIgnorable_sigma : isCaseIgnorable 'Σ' = false :=
  isCaseIgnorable_letters.1

theorem meetsCased_a : meetsCased ['a'] = true := by
  rw [meetsCased_cons isCaseIgnorable_letters.2]
  decide

/-!
## Lower-casing within a text
-/

/-- The small form of a character within a text; `before` holds what precedes it, the nearest
first. -/
def smallForm (before after : List Char) (c : Char) : List Char :=
  if c = 'Σ' then [sigma before after] else if c = 'İ' then ['i', '\u0307'] else [lowerChar c]

theorem lowerAfter_cons (before rest : List Char) (c : Char) :
    lowerAfter before (c :: rest) = smallForm before rest c ++ lowerAfter (c :: before) rest :=
  rfl

theorem smallForm_sigma (before after : List Char) :
    smallForm before after 'Σ' = [sigma before after] :=
  if_pos rfl

theorem smallForm_of_ne (hc : c ≠ 'Σ') (before after : List Char) :
    smallForm before after c = if c = 'İ' then ['i', '\u0307'] else [lowerChar c] :=
  if_neg hc

theorem length_smallForm :
    (smallForm before after c).length = (smallForm before' after' c).length := by
  by_cases hc : c = 'Σ'
  · rw [hc]
    rfl
  · rw [smallForm_of_ne hc, smallForm_of_ne hc]

theorem smallForm_eq_iff : smallForm before after c = smallForm before' after' c ↔
    (c = 'Σ' → sigma before after = sigma before' after') := by
  by_cases hc : c = 'Σ'
  · rw [hc, smallForm_sigma, smallForm_sigma, List.singleton_inj]
    exact ⟨fun h _ => h, fun h => h rfl⟩
  · rw [smallForm_of_ne hc, smallForm_of_ne hc]
    exact iff_of_true rfl fun h => absurd h hc

def lowerWithin (before after : List Char) : List Char → List Char
  | [] => []
  | c :: rest => smallForm before (rest ++ after) c ++ lowerWithin (c :: before) after rest

theorem lowerWithin_cons (before after : List Char) (c : Char) (rest : List Char) :
    lowerWithin before after (c :: rest) =
      smallForm before (rest ++ after) c ++ lowerWithin (c :: before) after rest :=
  rfl

theorem lowerWithin_nil (before cs : List Char) :
    lowerWithin before [] cs = lowerAfter before cs := by
  induction cs generalizing before with
  | nil => rfl
  | cons c rest ih => rw [lowerWithin_cons, lowerAfter_cons, ih, List.append_nil]

theorem lowerWithin_append (before after front back : List Char) :
    lowerWithin before after (front ++ back) =
      lowerWithin before (back ++ after) front ++ lowerWithin
        (front.reverse ++ before) after back := by
  induction front generalizing before with
  | nil => rfl
  | cons c rest ih =>
      rw [List.cons_append, lowerWithin_cons, lowerWithin_cons, ih, List.append_assoc,
        List.append_assoc, List.reverse_cons, List.append_assoc, List.singleton_append]

theorem lower_eq (cs : List Char) : lower cs = lowerWithin [] [] cs :=
  (lowerWithin_nil [] cs).symm

theorem length_lowerWithin :
    (lowerWithin before after cs).length = (lowerWithin before' after' cs).length := by
  induction cs generalizing before before' with
  | nil => rfl
  | cons c rest ih =>
      rw [lowerWithin_cons, lowerWithin_cons, List.length_append, List.length_append,
        length_smallForm, ih]

/-- Only the sigmas of a piece can tell one place from another. -/
theorem lowerWithin_eq_iff : lowerWithin before after cs = lowerWithin before' after' cs ↔
    ∀ front back, cs = front ++ 'Σ' :: back →
      sigma (front.reverse ++ before) (back ++ after) =
        sigma (front.reverse ++ before') (back ++ after') := by
  induction cs generalizing before before' with
  | nil => exact iff_of_true rfl fun front back hcut => absurd hcut (by simp)
  | cons c rest ih =>
      -- A character has forms of the same length everywhere, so it can be compared apart from
      -- the rest.
      have hcons : lowerWithin before after (c :: rest) =
          lowerWithin before' after' (c :: rest) ↔
          smallForm before (rest ++ after) c = smallForm before' (rest ++ after') c ∧
            lowerWithin (c :: before) after rest = lowerWithin (c :: before') after' rest := by
        rw [lowerWithin_cons, lowerWithin_cons]
        exact ⟨fun h => List.append_inj h length_smallForm, fun h => by rw [h.1, h.2]⟩
      rw [hcons, smallForm_eq_iff, ih]
      constructor
      · rintro ⟨hfirst, hrest⟩ front back hcut
        rcases List.cons_eq_append_iff.mp hcut with ⟨rfl, hhere⟩ | ⟨front, rfl, hthere⟩
        · rcases List.cons.inj hhere with ⟨rfl, rfl⟩
          exact hfirst rfl
        · rw [List.reverse_cons, List.append_assoc, List.append_assoc]
          exact hrest front back hthere
      · intro h
        constructor
        · rintro rfl
          exact h [] rest rfl
        · rintro front back rfl
          have hsigma := h (c :: front) back rfl
          rw [List.reverse_cons, List.append_assoc, List.append_assoc] at hsigma
          exact hsigma

/-!
## Torn pieces
-/

/-- Whether a sigma of a piece has one form on its own and another one within the text. Marks
beside the sigma are passed over, so it is what stands right outside of the piece that
matters. -/
inductive Torn (front piece back : List Char) : Prop
  /-- The piece opens with a sigma that ends a word of the text. -/
  | front {marks rest : List Char} (hpiece : piece = marks ++ 'Σ' :: rest)
      (hmarks : Ignorable marks) (hbefore : meetsCased front.reverse = true)
      (hafter : meetsCased (rest ++ back) = false)
  /-- The piece closes with a sigma, and the word goes on in the text. -/
  | back {rest marks : List Char} (hpiece : piece = rest ++ 'Σ' :: marks)
      (hmarks : Ignorable marks) (hbefore : meetsCased rest.reverse = true)
      (hafter : meetsCased back = true)

theorem sigma_eq (before after : List Char) :
    sigma before after = if meetsCased before && !meetsCased after then 'ς' else 'σ' :=
  rfl

theorem sigma_eq_iff : sigma before after = sigma before' after' ↔
    (meetsCased before && !meetsCased after) = (meetsCased before' && !meetsCased after') := by
  rw [sigma_eq, sigma_eq]
  cases meetsCased before && !meetsCased after <;>
    cases meetsCased before' && !meetsCased after' <;> decide

theorem sigma_append_eq_iff {rest : List Char} :
    sigma (rest.reverse ++ before) (back ++ after) = sigma rest.reverse back ↔
      ¬(Ignorable rest ∧ meetsCased before = true ∧ meetsCased (back ++ after) = false) ∧
        ¬(Ignorable back ∧ meetsCased rest.reverse = true ∧ meetsCased after = true) := by
  rw [sigma_eq_iff]
  by_cases hrest : Ignorable rest
  · have hreverse := ignorable_reverse.mpr hrest
    simp [hrest, meetsCased_append_of_ignorable hreverse, meetsCased_of_ignorable hreverse]
  · have hreverse := mt ignorable_reverse.mp hrest
    rw [meetsCased_append_of_not_ignorable hreverse]
    by_cases hback : Ignorable back
    · simp [hrest, hback, meetsCased_append_of_ignorable hback, meetsCased_of_ignorable hback]
    · simp [hrest, hback, meetsCased_append_of_not_ignorable hback]

theorem not_torn_iff : ¬Torn front piece back ↔ ∀ rest more, piece = rest ++ 'Σ' :: more →
    sigma (rest.reverse ++ front.reverse) (more ++ back) = sigma rest.reverse more := by
  constructor
  · intro htorn rest more hpiece
    rw [sigma_append_eq_iff]
    constructor
    · rintro ⟨hmarks, hbefore, hafter⟩
      exact htorn (.front hpiece hmarks hbefore hafter)
    · rintro ⟨hmarks, hbefore, hafter⟩
      exact htorn (.back hpiece hmarks hbefore hafter)
  · intro hsigmas htorn
    cases htorn with
    | @front marks rest hpiece hmarks hbefore hafter =>
        exact (sigma_append_eq_iff.mp (hsigmas marks rest hpiece)).1 ⟨hmarks, hbefore, hafter⟩
    | @back rest marks hpiece hmarks hbefore hafter =>
        exact (sigma_append_eq_iff.mp (hsigmas rest marks hpiece)).2 ⟨hmarks, hbefore, hafter⟩

theorem lowerWithin_eq_lower_iff :
    lowerWithin front.reverse back piece = lower piece ↔ ¬Torn front piece back := by
  rw [lower_eq, lowerWithin_eq_iff, not_torn_iff]
  simp only [List.append_nil]

/-!
## Places in a text
-/

theorem lower_append (front piece back : List Char) :
    lower (front ++ piece ++ back) = lowerWithin [] (piece ++ back) front ++
      lowerWithin front.reverse back piece ++ lowerWithin (piece.reverse ++ front.reverse)
        [] back := by
  rw [lower_eq, lowerWithin_append, lowerWithin_append, List.append_nil, List.append_nil,
    List.append_nil, List.reverse_append]

def StandsAt (position : Nat) (piece text : List Char) : Prop :=
  piece <+: text.drop position

theorem isInfix_of_standsAt {position : Nat} {text : List Char}
    (h : StandsAt position piece text) : piece <:+: text :=
  h.isInfix.trans (List.drop_suffix position text).isInfix

theorem standsAt_lower_iff :
    StandsAt (lower front).length (lower piece) (lower (front ++ piece ++ back)) ↔
      ¬Torn front piece back := by
  have hposition : (lower front).length = (lowerWithin [] (piece ++ back) front).length := by
    rw [lower_eq]
    exact length_lowerWithin
  have hlength : (lowerWithin front.reverse back piece).length = (lower piece).length := by
    rw [lower_eq]
    exact length_lowerWithin
  rw [← lowerWithin_eq_lower_iff, StandsAt, hposition, lower_append, List.append_assoc,
    List.drop_left]
  constructor
  · intro hprefix
    rw [List.prefix_iff_eq_take, ← hlength, List.take_left] at hprefix
    exact hprefix.symm
  · intro hsame
    rw [hsame]
    exact List.prefix_append _ _

end Text
end Jukebox
