import Jukebox.Json.Basic
import Jukebox.Number.Word

/-!
# Reading fields

Records are written as objects or, in short, as the array of their fields in order. An object
may have fields that a record does not know; they are skipped. A known field that stands twice
is an error.
-/

namespace Jukebox
namespace Json

def text? : Json → Option String
  | .string literal => literal
  | _ => none

/-- The natural number below `2 ^ 64` that is written with digits only. -/
def word? : Json → Option Nat
  | .number numeral => numeral.toNat?.filter fun n => n < wordLimit
  | _ => none

/-- Reads every item of an array. -/
def list? {α : Type} (read : Json → Option α) : Json → Option (List α)
  | .array items => items.mapM read
  | _ => none

/-- Reads a field that may be missing or null. -/
def optional? {α : Type} (read : Json → Option α) : Option Json → Option (Option α)
  | none | some .null => some none
  | some value => (read value).map some

/-- Reads a field that may be missing, but not null. -/
def default? {α : Type} (standard : α) (read : Json → Option α) : Option Json → Option α
  | none => some standard
  | some value => read value

/-- The values of all members with a key. -/
def valuesAt (key : String) (members : List (Option String × Json)) : List Json :=
  (members.filter fun member => member.1 == some key).map Prod.snd

/-- The value of a key, or nothing when it is missing; a key that stands twice is an error. -/
def field? (members : List (Option String × Json)) (key : String) : Option (Option Json) :=
  match valuesAt key members with
  | [] => some none
  | [value] => some (some value)
  | _ => none

/-- The fields of a record, in the order of their names. In an array only fields behind the
first `required` ones may be missing. In an object every field may be missing, but every key
has to be a text.
-/
def fields? (names : List String) (required : Nat) : Json → Option (List (Option Json))
  | .object members =>
    if members.all fun member => member.1.isSome then names.mapM (field? members) else none
  | .array items =>
    if required ≤ items.length ∧ items.length ≤ names.length then
      some ((List.range names.length).map fun i => items[i]?)
    else none
  | _ => none

/-- Splits a tagged record into its tag and the other fields; in an array the tag comes
first. -/
def untag? (tag : String) : Json → Option (String × Json)
  | .object members => do
    let value ← ← field? members tag
    let name ← value.text?
    some (name, .object (members.filter fun member => member.1 != some tag))
  | .array (head :: rest) => head.text?.map fun name => (name, .array rest)
  | _ => none

end Json
end Jukebox
