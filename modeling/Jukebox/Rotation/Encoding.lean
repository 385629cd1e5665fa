import Jukebox.Json.Fields
import Jukebox.Json.Parser
import Jukebox.Json.Printer
import Jukebox.Number.Single
import Jukebox.Rotation.Rotator

/-!
# Stored rotators

The full state of a rotator as a JSON text, tagged by its kind, so that a rotator that is read
back goes on exactly where the stored one was. Nothing but the form of the text is checked when
it is read; its numbers may contradict each other.
-/

namespace Jukebox

/-- A list of indices. -/
def indicesToJson (indices : List Nat) : Json :=
  .array (indices.map .nat)

def indicesOfJson? : Json → Option (List Nat) :=
  Json.list? Json.word?

namespace RoundRobin

def fields (r : RoundRobin) : List (String × Json) :=
  [("order", indicesToJson r.order), ("cursor", .nat r.cursor)]

/-- The state with these numbers; all of them have to be words. -/
def ofNumbers? (order : List Nat) (cursor : Nat) : Option RoundRobin :=
  if words : AreWords (cursor :: order) then some { order, cursor, words } else none

def ofJson? (value : Json) : Option RoundRobin := do
  match ← value.fields? ["order", "cursor"] 2 with
  | [some order, some cursor] => ofNumbers? (← indicesOfJson? order) (← cursor.word?)
  | _ => none

end RoundRobin

namespace Shuffle

/-- A deferred newcomer is written as a pair of index and slot. -/
def newcomerToJson (newcomer : Nat × Nat) : Json :=
  indicesToJson [newcomer.1, newcomer.2]

def newcomerOfJson? (value : Json) : Option (Nat × Nat) := do
  match ← indicesOfJson? value with
  | [index, slot] => some (index, slot)
  | _ => none

def fields (s : Shuffle) : List (String × Json) :=
  [("perm", indicesToJson s.perm), ("cursor", .nat s.cursor), ("len", .nat s.size),
    ("seed", .nat s.seed), ("epoch", .nat s.epoch),
    ("deferred", .array (s.deferred.map newcomerToJson))]

/-- The state with these numbers; all of them have to be words. -/
def ofNumbers? (perm : List Nat) (cursor size seed epoch : Nat) (deferred : List (Nat × Nat)) :
    Option Shuffle :=
  if words : AreWords ([cursor, size, seed, epoch] ++ perm ++ slotNumbers deferred) then
    some { perm, cursor, size, seed, epoch, deferred, words }
  else none

def ofJson? (value : Json) : Option Shuffle := do
  match ← value.fields? ["perm", "cursor", "len", "seed", "epoch", "deferred"] 6 with
  | [some perm, some cursor, some size, some seed, some epoch, some deferred] =>
    ofNumbers? (← indicesOfJson? perm) (← cursor.word?) (← size.word?) (← seed.word?)
      (← epoch.word?) (← deferred.list? newcomerOfJson?)
  | _ => none

end Shuffle

namespace Lottery

def fields (l : Lottery) : List (String × Json) :=
  [("len", .nat l.size), ("seed", .nat l.seed), ("draws", .nat l.draws)]

/-- The state with these numbers; all of them have to be words. -/
def ofNumbers? (size seed draws : Nat) : Option Lottery :=
  if words : AreWords [size, seed, draws] then some { size, seed, draws, words } else none

def ofJson? (value : Json) : Option Lottery := do
  match ← value.fields? ["len", "seed", "draws"] 3 with
  | [some size, some seed, some draws] =>
      ofNumbers? (← size.word?) (← seed.word?) (← draws.word?)
  | _ => none

end Lottery

namespace Rotator

def fields : Rotator → List (String × Json)
  | roundRobin r => r.fields
  | shuffle s => s.fields
  | random l => l.fields

def toJson (r : Rotator) : Json :=
  .record (("kind", .text r.kind.key) :: r.fields)

/-- Arrays and objects may be nested this deep in a stored state. -/
def maxDepth : Nat :=
  127

/-- Reads a state. All of it has to be readable, fields that are skipped included: no broken
literals, no numbers beyond double precision and no endless nesting.
-/
def ofJson? (value : Json) : Option Rotator := do
  if !value.isClean (fun numeral => (Single.ofNumeral? numeral).isSome) || maxDepth <
    value.depth then
    none
  else
    let (tag, content) ← value.untag? "kind"
    match ← RotatorKind.ofKey? tag with
    | .roundRobin => (RoundRobin.ofJson? content).map roundRobin
    | .shuffle => (Shuffle.ofJson? content).map shuffle
    | .random => (Lottery.ofJson? content).map random

/-- The text a rotator is stored as. -/
def encode (r : Rotator) : String :=
  r.toJson.compact

/-- The rotator that a stored text denotes. -/
def decode (text : String) : Except RotationError Rotator :=
  match (Json.parse text).bind ofJson? with
  | some r => .ok r
  | none => .error .unreadable

end Rotator
end Jukebox
