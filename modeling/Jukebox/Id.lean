/-!
# Identifiers

Rooms, users, tracks and queue entries are named by opaque texts. The kind of an identifier is
part of its type, so a room cannot be looked up by a user's name. Identifiers are ordered by
their code points. New ones are spelled from an alphabet by a stream of draws, which the caller
supplies.
-/

namespace Jukebox

/-- What an identifier names. -/
inductive IdKind
  | room
  | user
  | track
  | entry
  deriving DecidableEq

/-- An opaque name for one kind of thing. -/
structure Id (kind : IdKind) where
  text : String
  deriving DecidableEq

abbrev RoomId := Id .room

abbrev UserId := Id .user

abbrev TrackId := Id .track

abbrev EntryId := Id .entry

/-- A stream of natural numbers that a caller drew at random. -/
abbrev Draws := Nat → Nat

namespace Id

variable {kind : IdKind}

instance : LawfulBEq (Id kind) :=
  inferInstance

instance : ToString (Id kind) :=
  ⟨Id.text⟩

instance : LT (Id kind) :=
  ⟨fun a b => a.text < b.text⟩

instance (a b : Id kind) : Decidable (a < b) :=
  inferInstanceAs (Decidable (a.text < b.text))

/-- The order of two identifiers, code point by code point. -/
def compare (a b : Id kind) : Ordering :=
  if a < b then .lt else if a = b then .eq else .gt

/-- Sorts identifiers in ascending order; equal ones keep their places. -/
def sort (ids : List (Id kind)) : List (Id kind) :=
  ids.mergeSort fun a b => !decide (b < a)

/-- How many different identifiers a list holds. -/
def distinct (ids : List (Id kind)) : Nat :=
  ids.eraseDups.length

/-- A list of identifiers in brackets, each as its bare text. -/
def listText (ids : List (Id kind)) : String :=
  "[" ++ String.intercalate ", " (ids.map Id.text) ++ "]"

/-!
## New identifiers

Room codes are read out aloud and use capital letters only. All other identifiers also use
small letters and digits.
-/

def capitals : List Char :=
  "ABCDEFGHIJKLMNOPQRSTUVWXYZ".toList

def alphanumerics : List Char :=
  capitals ++ "abcdefghijklmnopqrstuvwxyz0123456789".toList

/-- Spells an identifier: the `i`-th draw picks the `i`-th letter. -/
def spell (alphabet : List Char) (length : Nat) (draws : Draws) : Id kind :=
  ⟨String.ofList ((List.range length).map fun i =>
    alphabet.getD (draws i % alphabet.length) ' ')⟩

/-- A short code of capital letters. -/
def code (length : Nat) (draws : Draws) : Id kind :=
  spell capitals length draws

/-- A long identifier of letters and digits. -/
def random (length : Nat) (draws : Draws) : Id kind :=
  spell alphanumerics length draws

end Id

end Jukebox
