import Jukebox.History
import Jukebox.Json.Fields
import Jukebox.Json.Parser
import Jukebox.Json.Printer
import Jukebox.Queue.Entry
import Jukebox.Room

/-!
# Records as JSON

How identifiers, users, rooms, tracks and history entries are written as JSON values, and how
those that are stored or handed in are read back.
-/

namespace Jukebox

namespace Id

variable {kind : IdKind}

def toJson (id : Id kind) : Json :=
  .text id.text

def ofJson? (value : Json) : Option (Id kind) :=
  value.text?.map Id.mk

end Id

namespace RotatorKind

def toJson (kind : RotatorKind) : Json :=
  .text kind.key

/-- A kind is its key, or an object that has nothing but the key, with the value null. -/
def ofJson? : Json → Option RotatorKind
  | .string literal => literal.bind ofKey?
  | .object [(key, .null)] => key.bind ofKey?
  | _ => none

end RotatorKind

namespace User

def toJson (user : User) : Json :=
  .record [("id", user.id.toJson), ("display_name", .text user.displayName)]

def ofJson? (value : Json) : Option User := do
  match ← value.fields? ["id", "display_name"] 2 with
  | [some id, some name] => some ⟨← Id.ofJson? id, ← name.text?⟩
  | _ => none

end User

namespace Room

def toJson (room : Room) : Json :=
  .record [("id", room.id.toJson), ("display_name", .text room.displayName),
    ("rotator", room.rotator.toJson)]

def ofJson? (value : Json) : Option Room := do
  match ← value.fields? ["id", "display_name", "rotator"] 3 with
  | [some id, some name, some rotator] =>
    some ⟨← Id.ofJson? id, ← name.text?, ← RotatorKind.ofJson? rotator⟩
  | _ => none

end Room

/-- An optional text, null when there is none. -/
def optionalText (text : Option String) : Json :=
  .orNull (text.map .text)

namespace Track

def fields (track : Track) : List (String × Json) :=
  [("id", track.id.toJson), ("name", .text track.name),
    ("artists", .array (track.artists.map .text)), ("album", optionalText track.album),
    ("artwork", optionalText track.artwork),
    ("duration", .orNull (track.duration.map Single.toJson))]

def toJson (track : Track) : Json :=
  .record track.fields

def durationOfJson? : Json → Option Single
  | .number numeral => Single.ofNumeral? numeral
  | _ => none

def ofJson? (value : Json) : Option Track := do
  match ← value.fields? ["id", "name", "artists", "album", "artwork", "duration"] 2 with
  | [some id, some name, artists, album, artwork, duration] =>
    some
      { id := ← Id.ofJson? id
        name := ← name.text?
        artists := ← Json.default? [] (Json.list? Json.text?) artists
        album := ← Json.optional? Json.text? album
        artwork := ← Json.optional? Json.text? artwork
        duration := ← Json.optional? durationOfJson? duration }
  | _ => none

/-- The text a track is stored as. -/
def encode (track : Track) : String :=
  track.toJson.compact

/-- The track that a stored text denotes. -/
def decode? (text : String) : Option Track :=
  (Json.parse text).bind ofJson?

end Track

namespace TrackEntry

/-- The fields of an entry without the moment it was played at. -/
def fields (entry : TrackEntry) : List (String × Json) :=
  [("user_id", entry.user.toJson), ("track", entry.track.toJson),
    ("vetoed", .bool entry.vetoed), ("vetoed_by", .orNull (entry.vetoedBy.map Id.toJson))]

def toJson (entry : TrackEntry) : Json :=
  .record (entry.fields ++ [("played_at", .text entry.playedAt.written)])

end TrackEntry

/-- A queue entry together with the track it refers to. -/
structure QueueTrack where
  id : EntryId
  played : Bool
  track : Track
  deriving DecidableEq

def QueueTrack.toJson (queued : QueueTrack) : Json :=
  .record [("id", queued.id.toJson), ("played", .bool queued.played),
    ("track", queued.track.toJson)]

end Jukebox
