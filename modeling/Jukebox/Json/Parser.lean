import Jukebox.Json.Scanner

/-!
# From tokens to values

The parser keeps a stack of the arrays and objects it is inside of, and reads one token at a
time. A text is read when all its tokens are, with a complete value and an empty stack.
-/

namespace Jukebox
namespace Json

/-- An array or object that has begun. What it holds so far comes latest first. -/
inductive Frame
  | array (items : List Json)
  /-- An object that waits for the value of its latest key. -/
  | object (members : List (Option String × Json)) (key : Option String)

/-- What the parser has to read next, with the stack around it. -/
inductive Parse
  | expectValue (stack : List Frame)
  /-- The first item of an array, or its end. -/
  | firstItem (stack : List Frame)
  /-- The first key of an object, or its end. -/
  | firstKey (stack : List Frame)
  | expectKey (members : List (Option String × Json)) (stack : List Frame)
  | expectColon (members : List (Option String × Json)) (key : Option String)
      (stack : List Frame)
  /-- What follows a complete value. -/
  | after (value : Json) (stack : List Frame)

namespace Parse

/-- Reads the first token of a value. -/
def startValue (stack : List Frame) : Token → Option Parse
  | .beginArray => some (.firstItem stack)
  | .beginObject => some (.firstKey stack)
  | .null => some (.after .null stack)
  | .bool value => some (.after (.bool value) stack)
  | .number numeral => some (.after (.number numeral) stack)
  | .string literal => some (.after (.string literal) stack)
  | _ => none

/-- Reads one token. -/
def step : Parse → Token → Option Parse
  | .expectValue stack, token => startValue stack token
  | .firstItem stack, .endArray => some (.after (.array []) stack)
  | .firstItem stack, token => startValue (.array [] :: stack) token
  | .firstKey stack, .endObject => some (.after (.object []) stack)
  | .firstKey stack, .string key => some (.expectColon [] key stack)
  | .expectKey members stack, .string key => some (.expectColon members key stack)
  | .expectColon members key stack, .colon =>
      some (.expectValue (.object members key :: stack))
  | .after value (.array items :: stack), .comma =>
    some (.expectValue (.array (value :: items) :: stack))
  | .after value (.array items :: stack), .endArray =>
    some (.after (.array (value :: items).reverse) stack)
  | .after value (.object members key :: stack), .comma =>
    some (.expectKey ((key, value) :: members) stack)
  | .after value (.object members key :: stack), .endObject =>
    some (.after (.object ((key, value) :: members).reverse) stack)
  | _, _ => none

/-- The value when the tokens end here. -/
def finish : Parse → Option Json
  | .after value [] => some value
  | _ => none

end Parse

/-- The value of a row of tokens. -/
def ofTokens? (tokens : List Token) : Option Json :=
  (tokens.foldlM Parse.step (.expectValue [])).bind Parse.finish

/-- The value that a text denotes, if it is a JSON text. -/
def parse (text : String) : Option Json :=
  (scan text.toList).bind ofTokens?

end Json
end Jukebox
