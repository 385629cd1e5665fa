import Jukebox.Records
import Jukebox.RoomName

/-!
# The catalog

A fixed list of tracks that can be queued. It is read from a JSON array. A search looks for a
text in names, artists and albums, and does not mind letter case.
-/

namespace Jukebox

inductive SongError
  | notFound (id : TrackId)
  /-- The catalog is missing or not a text. -/
  | unreadable
  | malformed
  deriving DecidableEq

def SongError.message : SongError → String
  | notFound id => s!"Track {id} doesn't exist"
  | unreadable => "Catalog could not be read"
  | malformed => "Catalog is malformed"

structure Catalog where
  tracks : List Track
  deriving DecidableEq

namespace Catalog

def empty : Catalog :=
  ⟨[]⟩

/-- The catalog that a text holds. -/
def ofText (text : String) : Except SongError Catalog :=
  match (Json.parse text).bind (Json.list? Track.ofJson?) with
  | some tracks => .ok ⟨tracks⟩
  | none => .error .malformed

/-- The catalog in a file with these bytes, if there is a file. -/
def ofBytes (bytes : Option ByteArray) : Except SongError Catalog :=
  match bytes.bind String.fromUTF8? with
  | some text => ofText text
  | none => .error .unreadable

/-- The text that holds a catalog. -/
def encode (catalog : Catalog) : String :=
  (Json.array (catalog.tracks.map Track.toJson)).compact

/-- Whether a field contains a query, which is in small letters. -/
def fieldMatches (query : List Char) (field : String) : Bool :=
  occursIn query (Text.lower field.toList)

def trackMatches (query : List Char) (track : Track) : Bool :=
  fieldMatches query track.name || track.artists.any (fieldMatches query) ||
    track.album.any (fieldMatches query)

/-- The tracks that contain a query, in catalog order; a blank query finds none. -/
def search (catalog : Catalog) (query : String) : List Track :=
  let query := Text.lower (Text.trim query.toList)
  if query.isEmpty then [] else catalog.tracks.filter (trackMatches query)

/-- The first track with an identifier. -/
def track (catalog : Catalog) (id : TrackId) : Except SongError Track :=
  match catalog.tracks.find? fun track => track.id = id with
  | some track => .ok track
  | none => .error (.notFound id)

end Catalog
end Jukebox
