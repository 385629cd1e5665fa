import Jukebox.Json.Parser
import Jukebox.Proofs.Json.Scanner

/-!
# Values are parsed as they are written

The tokens of a value lead the parser from where it expects a value to where it has this one,
with the same stack around it. With the scanner's part this makes the compact text of every
clean value denote the value.
-/

namespace Jukebox
namespace Json

open Parse

theorem foldlM_firstItem (value : Json) (rest : List Token) (stack : List Frame) :
    (value.tokens ++ rest).foldlM step (.firstItem stack) =
      (value.tokens ++ rest).foldlM step (.expectValue (.array [] :: stack)) := by
  match value with
  | .null | .bool _ | .number _ | .string _ => rfl
  | .array [] | .array (_ :: _) | .object [] | .object (_ :: _) => rfl

mutual

theorem foldlM_value (value : Json) (stack : List Frame) :
    value.tokens.foldlM step (.expectValue stack) = some (.after value stack) := by
  match value with
  | .null | .bool _ | .number _ | .string _ => rfl
  | .array [] | .object [] => rfl
  | .array (item :: rest) =>
      rw [tokens, List.foldlM_cons]
      show (item.tokens ++ itemsTokens rest).foldlM step (.firstItem stack) = _
      rw [foldlM_firstItem, List.foldlM_append, foldlM_value item]
      exact foldlM_items rest item [] stack
  | .object ((key, value) :: rest) =>
      rw [tokens, List.foldlM_cons]
      show (value.tokens ++ membersTokens rest).foldlM step
        (.expectValue (.object [] key :: stack)) = _
      rw [List.foldlM_append, foldlM_value value]
      exact foldlM_members rest key value [] stack

/-- Further items follow those that were read before, of which the latest is not yet in the
frame. -/
theorem foldlM_items (rest : List Json) (item : Json) (items : List Json)
    (stack : List Frame) :
    (itemsTokens rest).foldlM step (.after item (.array items :: stack)) =
      some (.after (.array ((item :: items).reverse ++ rest)) stack) := by
  match rest with
  | [] =>
      rw [List.append_nil]
      rfl
  | next :: rest =>
      rw [itemsTokens, List.foldlM_cons]
      show (next.tokens ++ itemsTokens rest).foldlM step
        (.expectValue (.array (item :: items) :: stack)) = _
      rw [List.foldlM_append, foldlM_value next]
      simpa using foldlM_items rest next (item :: items) stack

theorem foldlM_members (rest : List (Option String × Json)) (key : Option String)
    (value : Json) (members : List (Option String × Json)) (stack : List Frame) :
    (membersTokens rest).foldlM step (.after value (.object members key :: stack)) =
      some (.after (.object (((key, value) :: members).reverse ++ rest)) stack) := by
  match rest with
  | [] =>
      rw [List.append_nil]
      rfl
  | (next, nextValue) :: rest =>
      rw [membersTokens, List.foldlM_cons]
      show (nextValue.tokens ++ membersTokens rest).foldlM step
        (.expectValue (.object ((key, value) :: members) next :: stack)) = _
      rw [List.foldlM_append, foldlM_value nextValue]
      simpa using foldlM_members rest next nextValue ((key, value) :: members) stack

end

theorem ofTokens?_tokens (value : Json) : ofTokens? value.tokens = some value := by
  rw [ofTokens?, foldlM_value]
  rfl

theorem parse_compact {value : Json} (h : value.isClean Numeral.isPlain) :
    parse value.compact = some value := by
  have hscan : scan value.compactChars = some value.tokens := scan_spell h
  rw [parse, compact, String.toList_ofList, hscan]
  exact ofTokens?_tokens value

end Json
end Jukebox
