import Jukebox.Json.Token

/-!
# Writing values

Two layouts: the compact one writes the tokens of a value without any space, the indented one
puts every item and member on a line of its own.
-/

namespace Jukebox
namespace Json

def compactChars (value : Json) : List Char :=
  value.tokens.flatMap Token.chars

/-- The text of a value, without any space. -/
def compact (value : Json) : String :=
  String.ofList value.compactChars

/-!
## The indented layout

Each level of nesting is indented by two spaces. Empty arrays and objects stay on one line.
-/

/-- A new line that starts at a level. -/
def newline (level : Nat) : List Char :=
  '\n' :: List.replicate (2 * level) ' '

mutual

def indentedChars (level : Nat) : Json → List Char
  | .array (item :: rest) =>
    '[' :: (newline (level + 1) ++ indentedChars (level + 1) item ++ indentedItems level rest)
  | .object ((key, value) :: rest) =>
    '{' :: (newline (level + 1) ++ (Token.string key).chars ++ ':' :: ' ' ::
      indentedChars (level + 1) value ++ indentedMembers level rest)
  | .array [] => ['[', ']']
  | .object [] => ['{', '}']
  | .null => Token.null.chars
  | .bool value => (Token.bool value).chars
  | .number numeral => numeral.chars
  | .string literal => (Token.string literal).chars

def indentedItems (level : Nat) : List Json → List Char
  | [] => newline level ++ [']']
  | item :: rest =>
    ',' :: (newline (level + 1) ++ indentedChars (level + 1) item ++ indentedItems level rest)

def indentedMembers (level : Nat) : List (Option String × Json) → List Char
  | [] => newline level ++ ['}']
  | (key, value) :: rest =>
    ',' :: (newline (level + 1) ++ (Token.string key).chars ++ ':' :: ' ' ::
      indentedChars (level + 1) value ++ indentedMembers level rest)

end

/-- The text of a value, with every item and member on its own line. -/
def indented (value : Json) : String :=
  String.ofList (indentedChars 0 value)

end Json
end Jukebox
