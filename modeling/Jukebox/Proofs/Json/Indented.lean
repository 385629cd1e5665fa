import Jukebox.Proofs.Json.Parser

/-!
# Indented values are parsed as they are written

The indented layout puts blanks between the tokens of a value and nothing else. The scanner
passes over them, so a text in either layout denotes the value that it was written for.
-/

namespace Jukebox
namespace Json

open Scanner

variable {s : Scanner} {tokens others : List Token} {rest : List Char}

/-!
## Blanks
-/

theorem foldlM_spaces (count : Nat) :
    (List.replicate count ' ').foldlM Scanner.step ⟨tokens, .between⟩ = some
    ⟨tokens, .between⟩ := by
  induction count with
  | zero => rfl
  | succ count ih =>
      rw [List.replicate_succ, List.foldlM_cons]
      exact ih

/-- A new line ends a bare word, and nothing is read on the way to the next token. -/
theorem Scanner.Reads.newline (h : Reads tokens s) (level : Nat)
    (hrest : Leads ⟨tokens, .between⟩ rest others) :
    Leads s (newline level ++ rest) others := by
  have hstep : s.step '\n' = some ⟨tokens, .between⟩ := h.step (by decide)
  have hfold : (Json.newline level).foldlM Scanner.step s = some ⟨tokens, .between⟩ := by
    rw [Json.newline, List.foldlM_cons, hstep]
    exact foldlM_spaces (2 * level)
  rcases hrest with ⟨s', hlast, hreads⟩
  refine ⟨s', ?_, hreads⟩
  rw [List.foldlM_append, hfold]
  exact hlast

theorem Scanner.Reads.colon (h : Reads tokens s)
    (hrest : Leads ⟨.colon :: tokens, .between⟩ rest others) :
    Leads s (':' :: ' ' :: rest) others := by
  apply h.punctuation ':' rfl
  rcases hrest with ⟨s', hlast, hreads⟩
  exact ⟨s', hlast, hreads⟩

/-!
## Values
-/

mutual

theorem leads_indented (value : Json) (h : value.isClean Numeral.isPlain) (level : Nat)
    (before : List Token) :
    Leads ⟨before, .between⟩ (indentedChars level value) (value.tokens.reverse ++ before) := by
  have hstart : Reads before ⟨before, .between⟩ := .between before
  match value, h with
  | .null, h | .bool _, h | .number _, h | .string _, h =>
      have hscalar := leads_value _ h before
      simpa [tokens, spell, indentedChars, Token.chars] using hscalar
  | .array [], _ =>
      exact hstart.punctuation _ rfl
        ((Reads.between _).punctuation _ rfl (Reads.between _).stop)
  | .array (item :: rest), h =>
      have hclean : item.isClean Numeral.isPlain ∧ itemsClean Numeral.isPlain rest := by
        simpa [isClean, itemsClean] using h
      have hitem := leads_indented item hclean.1 (level + 1) (.beginArray :: before)
      have hrest := hitem.append fun s' hreads =>
        leads_indentedItems rest hclean.2 level hreads
      have hline := (Reads.between (.beginArray :: before)).newline (level + 1) hrest
      simpa [tokens, indentedChars] using hstart.punctuation '[' rfl hline
  | .object [], _ =>
      exact hstart.punctuation _ rfl
        ((Reads.between _).punctuation _ rfl (Reads.between _).stop)
  | .object ((key, value) :: rest), h =>
      have hclean : (key.isSome ∧ value.isClean Numeral.isPlain) ∧
          membersClean Numeral.isPlain rest := by
        simpa [isClean, membersClean] using h
      have hvalue := leads_indented value hclean.1.2 (level + 1)
        (.colon :: .string key :: .beginObject :: before)
      have hrest := hvalue.append fun s' hreads =>
        leads_indentedMembers rest hclean.2 level hreads
      have hcolon := (Reads.between (.string key :: .beginObject :: before)).colon hrest
      have hkey := (Reads.between (.beginObject :: before)).key hclean.1.1 hcolon
      have hline := (Reads.between (.beginObject :: before)).newline (level + 1) hkey
      simpa [tokens, indentedChars] using hstart.punctuation '{' rfl hline

theorem leads_indentedItems (items : List Json) (h : itemsClean Numeral.isPlain items)
    (level : Nat) {before : List Token} {s : Scanner} (hreads : Reads before s) :
    Leads s (indentedItems level items) ((itemsTokens items).reverse ++ before) := by
  match items, h with
  | [], _ =>
      exact hreads.newline level ((Reads.between _).punctuation _ rfl (Reads.between _).stop)
  | item :: rest, h =>
      have hclean : item.isClean Numeral.isPlain ∧ itemsClean Numeral.isPlain rest := by
        simpa [itemsClean] using h
      have hitem := leads_indented item hclean.1 (level + 1) (.comma :: before)
      have hrest := hitem.append fun s' hreads =>
        leads_indentedItems rest hclean.2 level hreads
      have hline := (Reads.between (.comma :: before)).newline (level + 1) hrest
      simpa [itemsTokens, indentedItems] using hreads.punctuation ',' rfl hline

theorem leads_indentedMembers (members : List (Option String × Json))
    (h : membersClean Numeral.isPlain members) (level : Nat) {before : List Token}
    {s : Scanner} (hreads : Reads before s) :
    Leads s (indentedMembers level members) ((membersTokens members).reverse ++ before) := by
  match members, h with
  | [], _ =>
      exact hreads.newline level ((Reads.between _).punctuation _ rfl (Reads.between _).stop)
  | (key, value) :: rest, h =>
      have hclean : (key.isSome ∧ value.isClean Numeral.isPlain) ∧
          membersClean Numeral.isPlain rest := by
        simpa [membersClean] using h
      have hvalue := leads_indented value hclean.1.2 (level + 1)
        (.colon :: .string key :: .comma :: before)
      have hrest := hvalue.append fun s' hreads =>
        leads_indentedMembers rest hclean.2 level hreads
      have hcolon := (Reads.between (.string key :: .comma :: before)).colon hrest
      have hkey := (Reads.between (.comma :: before)).key hclean.1.1 hcolon
      have hline := (Reads.between (.comma :: before)).newline (level + 1) hkey
      simpa [membersTokens, indentedMembers] using hreads.punctuation ',' rfl hline

end

theorem parse_indented {value : Json} (h : value.isClean Numeral.isPlain) :
    parse value.indented = some value := by
  rcases leads_indented value h 0 [] with ⟨s, hfold, hreads⟩
  have hscan : scan (indentedChars 0 value) = some value.tokens := by
    rw [scan, Scanner.start, hfold, Option.bind_some, hreads.finish, List.append_nil,
      List.reverse_reverse]
  rw [parse, indented, String.toList_ofList, hscan]
  exact ofTokens?_tokens value

end Json
end Jukebox
