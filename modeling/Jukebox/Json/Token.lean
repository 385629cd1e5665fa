import Jukebox.Json.Basic

/-!
# Tokens

A JSON text is a row of tokens: brackets, braces, commas, colons and scalars. This module says
how each token is written, and which tokens make up a value.
-/

namespace Jukebox
namespace Json

inductive Token
  | beginArray
  | endArray
  | beginObject
  | endObject
  | comma
  | colon
  | null
  | bool (value : Bool)
  | number (numeral : Numeral)
  | string (literal : Option String)
  deriving DecidableEq

/-!
## Written form

In a string literal, quotes, backslashes and control characters are escaped; five of the
controls have short escapes. All other characters stand for themselves.
-/

/-- A hexadecimal digit, in small letters. -/
def hexDigit (n : Nat) : Char :=
  Nat.digitChar n

/-- How a character is written inside a string literal. -/
def escape (c : Char) : List Char :=
  if c = '"' then ['\\', '"']
  else if c = '\\' then ['\\', '\\']
  else if c = '\x08' then ['\\', 'b']
  else if c = '\t' then ['\\', 't']
  else if c = '\n' then ['\\', 'n']
  else if c = '\x0c' then ['\\', 'f']
  else if c = '\r' then ['\\', 'r']
  else if c.toNat < 0x20 then
    ['\\', 'u', '0', '0', hexDigit (c.toNat / 16), hexDigit (c.toNat % 16)]
  else [c]

/-- The literal of a text. -/
def quote (s : String) : List Char :=
  '"' :: (s.toList.flatMap escape ++ ['"'])

/-- The written form of a token. A literal that denotes no text is written as half a pair. -/
def Token.chars : Token → List Char
  | beginArray => ['[']
  | endArray => [']']
  | beginObject => ['{']
  | endObject => ['}']
  | comma => [',']
  | colon => [':']
  | null => ['n', 'u', 'l', 'l']
  | bool true => ['t', 'r', 'u', 'e']
  | bool false => ['f', 'a', 'l', 's', 'e']
  | number numeral => numeral.chars
  | string (some s) => quote s
  | string none => ['"', '\\', 'u', 'd', '8', '0', '0', '"']

/-!
## The tokens of a value
-/

mutual

def tokens : Json → List Token
  | .null => [.null]
  | .bool value => [.bool value]
  | .number numeral => [.number numeral]
  | .string literal => [.string literal]
  | .array [] => [.beginArray, .endArray]
  | .array (item :: rest) => .beginArray :: (item.tokens ++ itemsTokens rest)
  | .object [] => [.beginObject, .endObject]
  | .object ((key, value) :: rest) =>
    .beginObject :: .string key :: .colon :: (value.tokens ++ membersTokens rest)

/-- The tokens of the items that follow a first one, up to the closing bracket. -/
def itemsTokens : List Json → List Token
  | [] => [.endArray]
  | item :: rest => .comma :: (item.tokens ++ itemsTokens rest)

/-- The tokens of the members that follow a first one, up to the closing brace. -/
def membersTokens : List (Option String × Json) → List Token
  | [] => [.endObject]
  | (key, value) :: rest =>
    .comma :: .string key :: .colon :: (value.tokens ++ membersTokens rest)

end

end Json
end Jukebox
