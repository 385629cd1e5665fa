import Jukebox.Json.Numeral

/-!
# JSON values

Values as a text spells them: an object keeps its members in order, repeated keys included, and
a numeral keeps its digits. A string literal whose escapes hold half a surrogate pair is no
text; such a literal may stand where a reader skips over it, so it has a value of its own.
-/

namespace Jukebox

inductive Json
  | null
  | bool (value : Bool)
  | number (numeral : Numeral)
  /-- A string literal, or `none` when it denotes no text. -/
  | string (literal : Option String)
  | array (items : List Json)
  | object (members : List (Option String × Json))

namespace Json

/-- The string value of a text. -/
def text (s : String) : Json :=
  .string (some s)

def nat (n : Nat) : Json :=
  .number (.ofNat n)

/-- An object with the given fields. -/
def record (fields : List (String × Json)) : Json :=
  .object (fields.map fun field => (some field.1, field.2))

/-- The value, or `null` where there is none. -/
def orNull : Option Json → Json
  | some value => value
  | none => .null

mutual

/-- How deep arrays and objects are nested; a scalar has depth 0. -/
def depth : Json → Nat
  | .array items => 1 + itemsDepth items
  | .object members => 1 + membersDepth members
  | _ => 0

def itemsDepth : List Json → Nat
  | [] => 0
  | item :: rest => max item.depth (itemsDepth rest)

def membersDepth : List (Option String × Json) → Nat
  | [] => 0
  | (_, value) :: rest => max value.depth (membersDepth rest)

end

mutual

/-- Whether all string literals, keys included, denote texts and all numerals pass a test. -/
def isClean (numeralOk : Numeral → Bool) : Json → Bool
  | .number numeral => numeralOk numeral
  | .string literal => literal.isSome
  | .array items => itemsClean numeralOk items
  | .object members => membersClean numeralOk members
  | _ => true

def itemsClean (numeralOk : Numeral → Bool) : List Json → Bool
  | [] => true
  | item :: rest => item.isClean numeralOk && itemsClean numeralOk rest

def membersClean (numeralOk : Numeral → Bool) : List (Option String × Json) → Bool
  | [] => true
  | (key, value) :: rest =>
    key.isSome && value.isClean numeralOk && membersClean numeralOk rest

end

end Json
end Jukebox
