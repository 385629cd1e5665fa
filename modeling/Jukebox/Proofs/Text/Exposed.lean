import Jukebox.Proofs.Text.Lowercase

/-!
# Pieces with exposed sigmas

A piece is looked for in small letters, without the blanks at its ends. Trimming does not
interfere with lower-casing: no blank is passed over in a search for a letter, and none is a
letter itself. What can go wrong is that some text tears the piece, and this can be seen from
the piece alone. A sigma at one of its ends is exposed if its form depends on what stands
beyond that end.
-/

namespace Jukebox
namespace Text

variable {c : Char} {cs piece front back before after before' after' : List Char}

/-!
## Blanks around a piece
-/

def Blank (cs : List Char) : Prop :=
  ∀ c ∈ cs, isBlank c = true

/-- The code points of the blank characters, as closed intervals. -/
def blankIntervals : List (Nat × Nat) :=
  [(0x9, 0xD), (0x20, 0x20), (0x85, 0x85), (0xA0, 0xA0), (0x1680, 0x1680), (0x2000, 0x200A),
    (0x2028, 0x2029), (0x202F, 0x202F), (0x205F, 0x205F), (0x3000, 0x3000)]

theorem isBlank_eq (c : Char) : isBlank c = inIntervals blankIntervals c.toNat := by
  rw [Bool.eq_iff_iff]
  simp only [isBlank, inIntervals, blankIntervals, List.any_cons, List.any_nil,
    Bool.or_eq_true, Bool.and_eq_true, decide_eq_true_eq, beq_iff_eq, Bool.or_false]
  omega

/-- Whether no code point lies in intervals of both tables. -/
def apart (intervals others : List (Nat × Nat)) : Bool :=
  intervals.all fun interval => others.all fun other =>
    Nat.blt interval.2 other.1 || Nat.blt other.2 interval.1

theorem inIntervals_of_apart {intervals others : List (Nat × Nat)} {n : Nat}
    (h : apart intervals others = true) (hn : inIntervals intervals n = true) :
    inIntervals others n = false := by
  rw [inIntervals, List.any_eq_true] at hn
  rcases hn with ⟨interval, hinterval, hwithin⟩
  rw [inIntervals, List.any_eq_false]
  intro other hother
  have hapart := List.all_eq_true.mp (List.all_eq_true.mp h interval hinterval) other hother
  simp only [Bool.or_eq_true, Bool.and_eq_true, decide_eq_true_eq, Nat.blt_eq]
    at hapart hwithin ⊢
  omega

theorem apart_blankIntervals : apart blankIntervals caseIgnorableIntervals = true ∧
    apart blankIntervals casedIntervals = true ∧
      apart blankIntervals (lowerRuns.map fun run => (run.first, run.last)) = true := by
  decide +kernel

theorem lowerChar_of_isBlank (hc : isBlank c = true) : lowerChar c = c := by
  rw [isBlank_eq] at hc
  have hnone : (lowerRuns.find? fun run => run.contains c.toNat) = none := by
    rw [List.find?_eq_none]
    intro run hrun hcontains
    have houtside := List.any_eq_false.mp (inIntervals_of_apart apart_blankIntervals.2.2 hc) _
      (List.mem_map_of_mem hrun)
    rw [LowerRun.contains, Bool.and_eq_true] at hcontains
    exact houtside hcontains.1
  rw [lowerChar, hnone]

theorem smallForm_of_isBlank (hc : isBlank c = true) (before after : List Char) :
    smallForm before after c = [c] := by
  have hsigma : c ≠ 'Σ' := by
    rintro rfl
    exact absurd hc (by decide)
  have hdotted : c ≠ 'İ' := by
    rintro rfl
    exact absurd hc (by decide)
  rw [smallForm_of_ne hsigma, if_neg hdotted, lowerChar_of_isBlank hc]

theorem meetsCased_of_blank (h : Blank cs) : meetsCased cs = false := by
  cases cs with
  | nil => rfl
  | cons c rest =>
      have hc := h c List.mem_cons_self
      rw [isBlank_eq] at hc
      rw [meetsCased_cons (inIntervals_of_apart apart_blankIntervals.1 hc)]
      exact inIntervals_of_apart apart_blankIntervals.2.1 hc

theorem lowerWithin_of_blank (h : Blank cs) (before after : List Char) :
    lowerWithin before after cs = cs := by
  induction cs generalizing before with
  | nil => rfl
  | cons c rest ih =>
      rw [lowerWithin_cons, smallForm_of_isBlank (h c List.mem_cons_self),
        ih fun d hd => h d (List.mem_cons_of_mem c hd), List.singleton_append]

theorem not_torn_of_blank (hfront : Blank front) (hback : Blank back) :
    ¬Torn front piece back := by
  intro htorn
  cases htorn with
  | front hpiece hmarks hbefore hafter =>
      have hnone := meetsCased_of_blank fun c hc => hfront c (List.mem_reverse.mp hc)
      exact Bool.false_ne_true (hnone.symm.trans hbefore)
  | back hpiece hmarks hbefore hafter =>
      exact Bool.false_ne_true ((meetsCased_of_blank hback).symm.trans hafter)

theorem exists_trim_cut (cs : List Char) :
    ∃ lead trail, Blank lead ∧ Blank trail ∧ lead ++ trim cs ++ trail = cs := by
  refine ⟨cs.takeWhile isBlank, (cs.dropWhile isBlank).rtakeWhile isBlank, ?_, ?_, ?_⟩
  · intro c hc
    exact List.mem_takeWhile_imp hc
  · intro c hc
    exact List.mem_rtakeWhile_imp hc
  · rw [List.append_assoc]
    have hback : trim cs ++ (cs.dropWhile isBlank).rtakeWhile isBlank = cs.dropWhile isBlank :=
      List.rdropWhile_append_rtakeWhile
    rw [hback, List.takeWhile_append_dropWhile]

theorem trim_eq_nil_iff : trim cs = [] ↔ Blank cs := by
  constructor
  · intro hnil
    rcases exists_trim_cut cs with ⟨lead, trail, hlead, htrail, hcut⟩
    rw [hnil, List.append_nil] at hcut
    rw [← hcut]
    intro c hc
    exact (List.mem_append.mp hc).elim (hlead c) (htrail c)
  · intro hblank
    rw [trim, List.dropWhile_eq_nil_iff.mpr hblank]
    rfl

theorem smallForm_ne_nil : smallForm before after c ≠ [] := by
  by_cases hc : c = 'Σ'
  · rw [hc, smallForm_sigma]
    exact List.cons_ne_nil _ _
  · rw [smallForm_of_ne hc]
    split <;> exact List.cons_ne_nil _ _

theorem lower_eq_nil_iff : lower cs = [] ↔ cs = [] := by
  cases cs with
  | nil => exact iff_of_true rfl rfl
  | cons c rest =>
      rw [lower_eq, lowerWithin_cons]
      exact iff_of_false (List.append_ne_nil_of_left_ne_nil smallForm_ne_nil _)
        (List.cons_ne_nil c rest)

theorem lower_trim_cut (cs : List Char) : ∃ lead trail, Blank lead ∧ Blank trail ∧
    lower cs = lead ++ lower (trim cs) ++ trail := by
  rcases exists_trim_cut cs with ⟨lead, trail, hlead, htrail, hcut⟩
  refine ⟨lead, trail, hlead, htrail, ?_⟩
  rw [← hcut, lower_append, lowerWithin_of_blank hlead, lowerWithin_of_blank htrail,
    lowerWithin_eq_lower_iff.mpr (not_torn_of_blank hlead htrail), hcut]

/-!
## Exposed sigmas
-/

/-- Whether a piece has a sigma whose form depends on the text around the piece. -/
inductive Exposed (piece : List Char) : Prop
  /-- Only marks stand in front of the sigma and no letter is met behind it, so a letter in
  front of the piece makes it final. -/
  | front {marks rest : List Char} (hpiece : piece = marks ++ 'Σ' :: rest)
      (hmarks : Ignorable marks) (hrest : meetsCased rest = false)
  /-- A letter is met in front of the sigma and only marks stand behind it, so a letter behind
  the piece keeps it from being final. -/
  | back {rest marks : List Char} (hpiece : piece = rest ++ 'Σ' :: marks)
      (hmarks : Ignorable marks) (hrest : meetsCased rest.reverse = true)

theorem Torn.exposed (h : Torn front piece back) : Exposed piece := by
  cases h with
  | @front marks rest hpiece hmarks hbefore hafter =>
      refine .front hpiece hmarks ?_
      by_cases hrest : Ignorable rest
      · exact meetsCased_of_ignorable hrest
      · rw [meetsCased_append_of_not_ignorable hrest] at hafter
        exact hafter
  | back hpiece hmarks hbefore hafter => exact .back hpiece hmarks hbefore

/-- A search for a cased character never gets beyond a sigma. -/
theorem meetsCased_append_sigma (front back back' : List Char) :
    meetsCased (front ++ 'Σ' :: back) = meetsCased (front ++ 'Σ' :: back') := by
  by_cases hfront : Ignorable front
  · rw [meetsCased_append_of_ignorable hfront, meetsCased_append_of_ignorable hfront,
      meetsCased_cons isCaseIgnorable_sigma, meetsCased_cons isCaseIgnorable_sigma]
  · rw [meetsCased_append_of_not_ignorable hfront, meetsCased_append_of_not_ignorable hfront]

theorem lowerWithin_before_sigma (before after after' cs : List Char) :
    lowerWithin before ('Σ' :: after) cs = lowerWithin before ('Σ' :: after') cs := by
  rw [lowerWithin_eq_iff]
  intro front back hcut
  rw [sigma_eq_iff, meetsCased_append_sigma back after after']

theorem lowerWithin_behind_sigma (before before' after cs : List Char) :
    lowerWithin ('Σ' :: before) after cs = lowerWithin ('Σ' :: before') after cs := by
  rw [lowerWithin_eq_iff]
  intro front back hcut
  rw [sigma_eq_iff, meetsCased_append_sigma front.reverse before before']

theorem lowerWithin_of_ignorable (h : Ignorable cs) :
    lowerWithin before after cs = lowerWithin before' after' cs := by
  rw [lowerWithin_eq_iff]
  rintro front back rfl
  have hsigma := h 'Σ' (List.mem_append_right front List.mem_cons_self)
  exact absurd (isCaseIgnorable_sigma.symm.trans hsigma) Bool.false_ne_true

theorem lowerWithin_sigma (before after front back : List Char) :
    lowerWithin before after (front ++ 'Σ' :: back) =
      lowerWithin before ('Σ' :: (back ++ after)) front ++
        sigma (front.reverse ++ before) (back ++ after) ::
          lowerWithin ('Σ' :: (front.reverse ++ before)) after back := by
  rw [lowerWithin_append, lowerWithin_cons, smallForm_sigma, List.cons_append,
    List.singleton_append]

/-- Where a single sigma changes, its own form becomes rarer. -/
theorem count_lowerWithin_lt {s : Char}
    (hfront : lowerWithin before ('Σ' :: (back ++ after)) front =
      lowerWithin [] ('Σ' :: back) front)
    (hback : lowerWithin ('Σ' :: (front.reverse ++ before)) after back =
      lowerWithin ('Σ' :: front.reverse) [] back)
    (hown : sigma front.reverse back = s)
      (hwithin : sigma (front.reverse ++ before) (back ++ after) ≠ s) :
    (lowerWithin before after (front ++ 'Σ' :: back)).count s <
      (lower (front ++ 'Σ' :: back)).count s := by
  rw [lower_eq, lowerWithin_sigma, lowerWithin_sigma, List.append_nil, List.append_nil,
    hfront, hback, hown, List.count_append, List.count_append, List.count_cons_self,
    List.count_cons_of_ne hwithin]
  omega

theorem count_lower_trim {s : Char} (hs : isBlank s = false) (cs : List Char) :
    (lower (trim cs)).count s = (lower cs).count s := by
  rcases lower_trim_cut cs with ⟨lead, trail, hlead, htrail, hcut⟩
  have hnone : ∀ {blanks : List Char}, Blank blanks → blanks.count s = 0 := by
    intro blanks hblanks
    rw [List.count_eq_zero]
    intro hmem
    exact Bool.false_ne_true (hs.symm.trans (hblanks s hmem))
  rw [hcut, List.count_append, List.count_append, hnone hlead, hnone htrail]
  omega

theorem not_isInfix_lower_trim {s : Char} (hs : isBlank s = false)
    (hfront : s ∉ lowerWithin [] (piece ++ back) front)
    (hback : s ∉ lowerWithin (piece.reverse ++ front.reverse) [] back)
    (hcount : (lowerWithin front.reverse back piece).count s < (lower piece).count s) :
    ¬lower (trim piece) <:+: lower (front ++ piece ++ back) := by
  intro hinfix
  have hle := hinfix.sublist.count_le s
  rw [count_lower_trim hs, lower_append, List.count_append, List.count_append,
    List.count_eq_zero.mpr hfront, List.count_eq_zero.mpr hback] at hle
  omega

theorem lowerWithin_singleton_a (before after : List Char) :
    lowerWithin before after ['a'] = ['a'] := by
  rw [lowerWithin_cons, smallForm_of_ne (by decide), if_neg (by decide),
    lowerChar_of_lt (by decide)]
  rfl

/-- A piece with an exposed sigma is torn by a single letter, and then its small letters are
nowhere in the small form of the text. -/
theorem Exposed.exists_text (h : Exposed piece) :
    ∃ front back, ¬lower (trim piece) <:+: lower (front ++ piece ++ back) := by
  cases h with
  | @front marks rest hpiece hmarks hrest =>
      -- With a letter in front of the piece the sigma ends a word, so there is one small sigma
      -- less.
      have hreverse := ignorable_reverse.mpr hmarks
      refine ⟨['a'], [], not_isInfix_lower_trim (s := 'σ') (by decide) ?_ ?_ ?_⟩
      · rw [lowerWithin_singleton_a]
        decide
      · exact List.not_mem_nil
      · subst hpiece
        apply count_lowerWithin_lt
        · exact lowerWithin_of_ignorable hmarks
        · exact lowerWithin_behind_sigma _ _ _ _
        · rw [sigma_eq, meetsCased_of_ignorable hreverse]
          rfl
        · rw [List.append_nil, sigma_eq, meetsCased_append_of_ignorable hreverse,
            List.reverse_singleton, meetsCased_a, hrest]
          decide
  | @back rest marks hpiece hmarks hrest =>
      -- With a letter behind the piece the word goes on, so there is one final sigma less.
      refine ⟨[], ['a'], not_isInfix_lower_trim (s := 'ς') (by decide) ?_ ?_ ?_⟩
      · exact List.not_mem_nil
      · rw [lowerWithin_singleton_a]
        decide
      · subst hpiece
        apply count_lowerWithin_lt
        · exact lowerWithin_before_sigma _ _ _ _
        · exact lowerWithin_of_ignorable hmarks
        · rw [sigma_eq, hrest, meetsCased_of_ignorable hmarks]
          rfl
        · rw [List.reverse_nil, List.append_nil, sigma_eq, hrest,
            meetsCased_append_of_ignorable hmarks, meetsCased_a]
          decide

end Text
end Jukebox
