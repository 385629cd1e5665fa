import Jukebox.Json.Printer
import Jukebox.Json.Scanner
import Jukebox.Proofs.Json.Numeral

/-!
# Tokens are scanned as they are written

A scanner that has read whole tokens either stands between two tokens, or at the end of a bare
word that any other character ends. The characters of a value lead from one such state to
another and leave exactly the tokens of the value behind.
-/

namespace Jukebox
namespace Json
namespace Scanner

/-- Whether a scanner has read exactly these tokens, the latest first. -/
inductive Reads : List Token → Scanner → Prop
  | between (tokens : List Token) : Reads tokens ⟨tokens, .between⟩
  | bare (tokens : List Token) {token : Token} {seen : List Char}
      (hword : bareToken? seen.reverse = some token) :
      Reads (token :: tokens) ⟨tokens, .bare seen⟩

variable {s : Scanner} {tokens : List Token}

theorem Reads.finish (h : Reads tokens s) : s.finish = some tokens.reverse := by
  cases h with
  | between => rfl
  | bare tokens hword => simp [Scanner.finish, hword]

theorem Reads.step (h : Reads tokens s) {c : Char} (hc : isBare c = false) :
    s.step c = startToken tokens c := by
  cases h with
  | between => rfl
  | bare tokens hword => simp [Scanner.step, hc, hword]

/-- Whether characters lead to a state in which exactly these tokens were read. -/
def Leads (s : Scanner) (cs : List Char) (tokens : List Token) : Prop :=
  ∃ s', cs.foldlM Scanner.step s = some s' ∧ Reads tokens s'

theorem Leads.append {front back : List Char} {others : List Token}
    (hfront : Leads s front tokens)
    (hback : ∀ s', Reads tokens s' → Leads s' back others) :
    Leads s (front ++ back) others := by
  rcases hfront with ⟨s', hfold, hreads⟩
  rcases hback s' hreads with ⟨s'', hfold', hreads'⟩
  exact ⟨s'', by simp [List.foldlM_append, hfold, hfold'], hreads'⟩

/-!
## Bare words
-/

theorem foldlM_bare {word : List Char} (hword : ∀ c ∈ word, isBare c) (seen : List Char) :
    word.foldlM Scanner.step ⟨tokens, .bare seen⟩ = some
      ⟨tokens, .bare (word.reverse ++ seen)⟩ := by
  induction word generalizing seen with
  | nil => rfl
  | cons c rest ih =>
      have hc := hword c List.mem_cons_self
      have hstep : Scanner.step ⟨tokens, .bare seen⟩ c = some ⟨tokens, .bare (c :: seen)⟩ := by
        simp [Scanner.step, hc]
      rw [List.foldlM_cons, hstep]
      simp [ih (fun c hc => hword c (List.mem_cons_of_mem _ hc))]

theorem startToken_bare {c : Char} (hc : isBare c) :
    startToken tokens c = some ⟨tokens, .bare [c]⟩ := by
  have hspace : isSpace c = false := by
    apply Bool.eq_false_iff.mpr
    intro hspace
    simp only [isSpace, Bool.or_eq_true, beq_iff_eq] at hspace
    rcases hspace with ((rfl | rfl) | rfl) | rfl <;> exact absurd hc (by decide)
  have hquote : c ≠ '"' := by
    rintro rfl
    exact absurd hc (by decide)
  simp [startToken, hspace, hquote, hc]

theorem leads_bare {word : List Char} {token : Token} (hsome : word ≠ [])
    (hword : ∀ c ∈ word, isBare c) (htoken : bareToken? word = some token) :
    Leads ⟨tokens, .between⟩ word (token :: tokens) := by
  cases word with
  | nil => exact absurd rfl hsome
  | cons c rest =>
      have hstep : Scanner.step ⟨tokens, .between⟩ c = some ⟨tokens, .bare [c]⟩ :=
        startToken_bare (hword c List.mem_cons_self)
      refine ⟨⟨tokens, .bare (rest.reverse ++ [c])⟩, ?_, .bare tokens (by simpa using htoken)⟩
      rw [List.foldlM_cons, hstep]
      exact foldlM_bare (fun c hc => hword c (List.mem_cons_of_mem _ hc)) [c]

theorem isBare_of_isDigit {c : Char} (hc : c.isDigit) : isBare c := by
  simp [isBare, Char.isAlphanum, hc]

theorem isBare_of_mem_numeral {n : Numeral} (h : n.IsDigital) {c : Char} (hc : c ∈ n.chars) :
    isBare c := by
  rw [Numeral.chars_eq] at hc
  simp only [List.mem_append] at hc
  rcases hc with hsign | hwhole | hbehind
  · split at hsign
    · rw [List.mem_singleton.mp hsign]
      decide
    · simp at hsign
  · exact isBare_of_isDigit (h.1 c hwhole)
  · simp only [Numeral.behind, List.mem_append] at hbehind
    rcases hbehind with hpoint | hexponent
    · split at hpoint
      · simp at hpoint
      · rcases List.mem_cons.mp hpoint with rfl | hfraction
        · decide
        · exact isBare_of_isDigit (h.2 c hfraction)
    · cases he : n.exponent with
      | none => simp [he, Numeral.exponentPart] at hexponent
      | some e =>
          simp only [he, Numeral.exponentPart, Numeral.exponentChars, List.mem_cons]
            at hexponent
          rcases hexponent with rfl | hsign | hdigit
          · decide
          · subst hsign
            split <;> decide
          · exact isBare_of_isDigit (Numeral.isDigit_of_mem_toDigits hdigit)

theorem bareToken?_numeral {n : Numeral} (h : n.isPlain) :
    bareToken? n.chars = some (.number n) := by
  have hread := Numeral.ofChars?_chars h
  -- None of the three names is a numeral.
  have hname : ∀ name, Numeral.ofChars? name = none → n.chars ≠ name := by
    rintro name hnone rfl
    rw [hnone] at hread
    cases hread
  rw [bareToken?, if_neg (hname _ (by decide)), if_neg (hname _ (by decide)),
    if_neg (hname _ (by decide)), hread]
  rfl

theorem leads_numeral {n : Numeral} (h : n.isPlain) :
    Leads ⟨tokens, .between⟩ n.chars (.number n :: tokens) := by
  refine leads_bare ?_ ?_ (bareToken?_numeral h)
  · intro hnil
    have hread := Numeral.ofChars?_chars h
    rw [hnil] at hread
    exact absurd hread (by simp [Numeral.ofChars?, Numeral.unsigned?, Numeral.isWhole])
  · intro c hc
    exact isBare_of_mem_numeral (Numeral.isPlain_iff.mp h).1 hc

/-!
## Punctuation and string literals
-/

theorem Reads.punctuation (h : Reads tokens s) (c : Char) {token : Token}
    (hc : punctuation? c = some token) {rest : List Char} {others : List Token}
    (hrest : Leads ⟨token :: tokens, .between⟩ rest others) : Leads s (c :: rest) others := by
  have hmember : c ∈ ['[', ']', '{', '}', ',', ':'] := by
    simp only [punctuation?] at hc
    grind
  have hplain : isBare c = false ∧ isSpace c = false ∧ c ≠ '"' := by
    simp only [List.mem_cons, List.not_mem_nil, or_false] at hmember
    rcases hmember with rfl | rfl | rfl | rfl | rfl | rfl <;> decide
  have hstep : s.step c = some ⟨token :: tokens, .between⟩ := by
    simp [h.step hplain.1, startToken, hplain, hc]
  rcases hrest with ⟨s', hfold, hreads⟩
  exact ⟨s', by rw [List.foldlM_cons, hstep]; exact hfold, hreads⟩

theorem hexValue?_hexDigit : ∀ d < 16, hexValue? (hexDigit d) = some d := by
  decide

theorem foldlM_unit {c : Char} (hc : c.toNat < 0x20) (done : List Piece) :
    ['\\', 'u', '0', '0', hexDigit (c.toNat / 16), hexDigit (c.toNat % 16)].foldlM Scanner.step
      ⟨tokens, .text done⟩ = some ⟨tokens, .text (.char c :: done)⟩ := by
  have hhigh := hexValue?_hexDigit (c.toNat / 16) (by omega)
  have hlow := hexValue?_hexDigit (c.toNat % 16) (by omega)
  have hzero : hexValue? '0' = some 0 := rfl
  have hunit : Piece.ofUnit (c.toNat / 16 * 16 + c.toNat % 16) = .char c := by
    rw [Nat.div_add_mod', Piece.ofUnit, if_neg (by omega), Char.ofNat_toNat]
  simp [Scanner.step, hhigh, hlow, hzero, hunit]

theorem foldlM_escape (c : Char) (done : List Piece) :
    (escape c).foldlM Scanner.step ⟨tokens, .text done⟩ = some
    ⟨tokens, .text (.char c :: done)⟩ := by
  unfold escape
  split
  · subst_vars; rfl
  split
  · subst_vars; rfl
  split
  · subst_vars; rfl
  split
  · subst_vars; rfl
  split
  · subst_vars; rfl
  split
  · subst_vars; rfl
  split
  · subst_vars; rfl
  split
  · exact foldlM_unit ‹_› done
  · simp_all [Scanner.step]

theorem foldlM_text (cs : List Char) (done : List Piece) :
    (cs.flatMap escape).foldlM Scanner.step ⟨tokens, .text done⟩ =
      some ⟨tokens, .text ((cs.map Piece.char).reverse ++ done)⟩ := by
  induction cs generalizing done with
  | nil => rfl
  | cons c rest ih => simp [List.foldlM_append, foldlM_escape, ih]

theorem joinPieces_char (cs : List Char) : joinPieces (cs.map .char) = some cs := by
  induction cs with
  | nil => rfl
  | cons c rest ih => simp [joinPieces, ih]

theorem Reads.quote (h : Reads tokens s) (text : String) {rest : List Char}
    {others : List Token}
    (hrest : Leads ⟨.string (some text) :: tokens, .between⟩ rest others) :
    Leads s (Json.quote text ++ rest) others := by
  have hstart : s.step '"' = some ⟨tokens, .text []⟩ := h.step (by decide)
  have hpieces : joinPieces (text.toList.map Piece.char) = some text.toList :=
    joinPieces_char _
  have hquote : (Json.quote text).foldlM Scanner.step s =
      some ⟨.string (some text) :: tokens, .between⟩ := by
    rw [Json.quote, List.foldlM_cons, hstart]
    simp [List.foldlM_append, foldlM_text, Scanner.step, hpieces]
  rcases hrest with ⟨s', hfold, hreads⟩
  exact ⟨s', by simp [List.foldlM_append, hquote, hfold], hreads⟩

theorem Reads.stop (h : Reads tokens s) : Leads s [] tokens :=
  ⟨s, rfl, h⟩

end Scanner

/-!
## Values
-/

open Scanner

variable {s : Scanner} {tokens : List Token}

def spell (tokens : List Token) : List Char :=
  tokens.flatMap Token.chars

theorem spell_cons (token : Token) (tokens : List Token) :
    spell (token :: tokens) = token.chars ++ spell tokens :=
  List.flatMap_cons

theorem spell_append (front back : List Token) :
    spell (front ++ back) = spell front ++ spell back :=
  List.flatMap_append

theorem Scanner.Reads.key (h : Reads tokens s) {key : Option String} (hkey : key.isSome)
    {rest : List Char} {others : List Token}
    (hrest : Leads ⟨.string key :: tokens, .between⟩ rest others) :
    Leads s ((Token.string key).chars ++ rest) others := by
  cases key with
  | none => cases hkey
  | some text => exact h.quote text hrest

mutual

theorem leads_value (value : Json) (h : value.isClean Numeral.isPlain) (before : List Token) :
    Leads ⟨before, .between⟩ (spell value.tokens) (value.tokens.reverse ++ before) := by
  have hstart : Reads before ⟨before, .between⟩ := .between before
  match value, h with
  | .null, _ => exact leads_bare nofun (List.all_eq_true.mp rfl) rfl
  | .bool true, _ => exact leads_bare nofun (List.all_eq_true.mp rfl) rfl
  | .bool false, _ => exact leads_bare nofun (List.all_eq_true.mp rfl) rfl
  | .number numeral, h =>
      have hplain : numeral.isPlain := by simpa [isClean] using h
      have hnumeral : Leads ⟨before, .between⟩ numeral.chars (.number numeral :: before) :=
        leads_numeral hplain
      simpa [tokens, spell, Token.chars] using hnumeral
  | .string literal, h =>
      have hliteral := hstart.key (by simpa [isClean] using h) (Reads.between _).stop
      simpa [tokens, spell] using hliteral
  | .array [], _ =>
      exact hstart.punctuation _ rfl
        ((Reads.between _).punctuation _ rfl (Reads.between _).stop)
  | .array (item :: rest), h =>
      have hclean : item.isClean Numeral.isPlain ∧ itemsClean Numeral.isPlain rest := by
        simpa [isClean, itemsClean] using h
      have hitem := leads_value item hclean.1 (.beginArray :: before)
      have hrest := hitem.append fun s' hreads => leads_items rest hclean.2 hreads
      simpa [tokens, spell_cons, spell_append, Token.chars] using hstart.punctuation
        _ rfl hrest
  | .object [], _ =>
      exact hstart.punctuation _ rfl
        ((Reads.between _).punctuation _ rfl (Reads.between _).stop)
  | .object ((key, value) :: rest), h =>
      have hclean : (key.isSome ∧ value.isClean Numeral.isPlain) ∧
          membersClean Numeral.isPlain rest := by
        simpa [isClean, membersClean] using h
      have hvalue :=
        leads_value value hclean.1.2 (.colon :: .string key :: .beginObject :: before)
      have hrest := hvalue.append fun s' hreads => leads_members rest hclean.2 hreads
      have hcolon := (Reads.between (.string key :: .beginObject :: before)).punctuation
        ':' rfl hrest
      have hkey := (Reads.between (.beginObject :: before)).key hclean.1.1 hcolon
      simpa [tokens, spell_cons, spell_append, Token.chars] using hstart.punctuation _ rfl hkey

theorem leads_items (items : List Json) (h : itemsClean Numeral.isPlain items)
    {before : List Token} {s : Scanner} (hreads : Reads before s) :
    Leads s (spell (itemsTokens items)) ((itemsTokens items).reverse ++ before) := by
  match items, h with
  | [], _ => exact hreads.punctuation _ rfl (Reads.between _).stop
  | item :: rest, h =>
      have hclean : item.isClean Numeral.isPlain ∧ itemsClean Numeral.isPlain rest := by
        simpa [itemsClean] using h
      have hitem := leads_value item hclean.1 (.comma :: before)
      have hrest := hitem.append fun s' hreads => leads_items rest hclean.2 hreads
      simpa [itemsTokens, spell_cons, spell_append, Token.chars] using hreads.punctuation
        _ rfl hrest

theorem leads_members (members : List (Option String × Json))
    (h : membersClean Numeral.isPlain members) {before : List Token} {s : Scanner}
    (hreads : Reads before s) :
    Leads s (spell (membersTokens members)) ((membersTokens members).reverse ++ before) := by
  match members, h with
  | [], _ => exact hreads.punctuation _ rfl (Reads.between _).stop
  | (key, value) :: rest, h =>
      have hclean : (key.isSome ∧ value.isClean Numeral.isPlain) ∧
          membersClean Numeral.isPlain rest := by
        simpa [membersClean] using h
      have hvalue := leads_value value hclean.1.2 (.colon :: .string key :: .comma :: before)
      have hrest := hvalue.append fun s' hreads => leads_members rest hclean.2 hreads
      have hcolon := (Reads.between (.string key :: .comma :: before)).punctuation
        ':' rfl hrest
      have hkey := (Reads.between (.comma :: before)).key hclean.1.1 hcolon
      simpa [membersTokens, spell_cons, spell_append, Token.chars] using
        hreads.punctuation _ rfl hkey

end

theorem scan_spell {value : Json} (h : value.isClean Numeral.isPlain) :
    scan (spell value.tokens) = some value.tokens := by
  rcases leads_value value h [] with ⟨s, hfold, hreads⟩
  have hfinish := hreads.finish
  simp only [scan, Scanner.start, hfold]
  simpa using hfinish

end Json
end Jukebox
