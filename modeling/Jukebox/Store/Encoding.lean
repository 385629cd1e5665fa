import Jukebox.Records
import Jukebox.Store.Disk

/-!
# Files of a database

All tables as one JSON text, so that a database outlives the process that changed it. Every row
is a record of its columns. Texts within rows stay as they are, even those that denote nothing.

The files of a database start with a byte that no text has, so that none is taken for a text.
-/

namespace Jukebox

namespace Json

def bool? : Json → Option Bool
  | .bool value => some value
  | _ => none

end Json

namespace QueueId

/-- The columns that say which queue a row belongs to. -/
def fields (id : QueueId) : List (String × Json) :=
  [("room", id.room.toJson), ("user", id.user.toJson)]

end QueueId

/-- An optional identifier, null when there is none. -/
def optionalId {kind : IdKind} (id : Option (Id kind)) : Json :=
  .orNull (id.map Id.toJson)

namespace RoomRow

def toJson (row : RoomRow) : Json :=
  .record [("id", row.id.toJson), ("name", .text row.displayName),
    ("normalized", .text row.normalizedName), ("kind", .text row.kind),
    ("rotator", .text row.rotator)]

def ofJson? (value : Json) : Option RoomRow := do
  match ← value.fields? ["id", "name", "normalized", "kind", "rotator"] 5 with
  | [some id, some name, some normalized, some kind, some rotator] =>
    some ⟨← Id.ofJson? id, ← name.text?, ← normalized.text?, ← kind.text?, ← rotator.text?⟩
  | _ => none

end RoomRow

namespace TrackRow

def toJson (row : TrackRow) : Json :=
  .record [("id", row.id.toJson), ("track", .text row.track)]

def ofJson? (value : Json) : Option TrackRow := do
  match ← value.fields? ["id", "track"] 2 with
  | [some id, some track] => some ⟨← Id.ofJson? id, ← track.text?⟩
  | _ => none

end TrackRow

namespace QueueRow

def toJson (row : QueueRow) : Json :=
  .record (row.queue.fields ++
    [("order", .nat row.joinOrder), ("pointer", optionalId row.pointer)])

def ofJson? (value : Json) : Option QueueRow := do
  match ← value.fields? ["room", "user", "order", "pointer"] 4 with
  | [some room, some user, some order, pointer] =>
    some ⟨⟨← Id.ofJson? room, ← Id.ofJson? user⟩, ← order.word?,
      ← Json.optional? Id.ofJson? pointer⟩
  | _ => none

end QueueRow

namespace EntryRow

def toJson (row : EntryRow) : Json :=
  .record (row.queue.fields ++
    [("id", row.entry.id.toJson), ("track", row.entry.track.toJson),
      ("played", .bool row.entry.played), ("previous", optionalId row.entry.previous),
      ("next", optionalId row.entry.next)])

def ofJson? (value : Json) : Option EntryRow := do
  match ← value.fields? ["room", "user", "id", "track", "played", "previous", "next"] 7 with
  | [some room, some user, some id, some track, some played, previous, next] =>
    some ⟨⟨← Id.ofJson? room, ← Id.ofJson? user⟩,
      { id := ← Id.ofJson? id
        track := ← Id.ofJson? track
        played := ← played.bool?
        previous := ← Json.optional? Id.ofJson? previous
        next := ← Json.optional? Id.ofJson? next }⟩
  | _ => none

end EntryRow

namespace HistoryRow

def toJson (row : HistoryRow) : Json :=
  .record [("number", .nat row.number), ("room", row.room.toJson), ("user", row.user.toJson),
    ("track", row.track.toJson), ("vetoed", .bool row.vetoed),
    ("vetoed_by", optionalId row.vetoedBy), ("shown", .text row.playedAt.shown),
    ("written", .text row.playedAt.written)]

def ofJson? (value : Json) : Option HistoryRow := do
  match ← value.fields? ["number", "room", "user", "track", "vetoed", "vetoed_by", "shown",
    "written"] 8 with
  | [some number, some room, some user, some track, some vetoed, vetoedBy, some shown,
      some written] =>
    some
      { number := ← number.word?
        room := ← Id.ofJson? room
        user := ← Id.ofJson? user
        track := ← Id.ofJson? track
        vetoed := ← vetoed.bool?
        vetoedBy := ← Json.optional? Id.ofJson? vetoedBy
        playedAt := ⟨← shown.text?, ← written.text?⟩ }
  | _ => none

end HistoryRow

namespace Tables

def toJson (t : Tables) : Json :=
  .record [("rooms", .array (t.rooms.map RoomRow.toJson)),
    ("users", .array (t.users.map User.toJson)),
    ("tracks", .array (t.tracks.map TrackRow.toJson)),
    ("queues", .array (t.queues.map QueueRow.toJson)),
    ("entries", .array (t.entries.map EntryRow.toJson)),
    ("history", .array (t.history.map HistoryRow.toJson))]

def ofJson? (value : Json) : Option Tables := do
  match ← value.fields? ["rooms", "users", "tracks", "queues", "entries", "history"] 6 with
  | [some rooms, some users, some tracks, some queues, some entries, some history] =>
    some
      { rooms := ← Json.list? RoomRow.ofJson? rooms
        users := ← Json.list? User.ofJson? users
        tracks := ← Json.list? TrackRow.ofJson? tracks
        queues := ← Json.list? QueueRow.ofJson? queues
        entries := ← Json.list? EntryRow.ofJson? entries
        history := ← Json.list? HistoryRow.ofJson? history }
  | _ => none

end Tables

namespace Image

def toJson (image : Image) : Json :=
  .record [("logged", .bool image.logged),
    ("tables", .orNull (image.tables.map Tables.toJson))]

def ofJson? (value : Json) : Option Image := do
  match ← value.fields? ["logged", "tables"] 2 with
  | [some logged, tables] => some ⟨← logged.bool?, ← Json.optional? Tables.ofJson? tables⟩
  | _ => none

end Image

namespace Content

open Text

/-- What a file of a database starts with, whose kind has a letter. -/
def heading (kind : Char) : List UInt8 :=
  [255, byte kind]

def written (kind : Char) (value : Json) : ByteArray :=
  ⟨(heading kind ++ Text.bytes value.compact).toArray⟩

/-- The bytes of a file. -/
def toBytes : Content → ByteArray
  | bytes content => content
  | database image => written 'd' image.toJson
  | log tables => written 'l' tables.toJson
  | index => written 'i' .null
  | device => .empty

/-- What a file of a database holds behind its heading. -/
def read? (kind : Char) (value : Json) : Option Content :=
  match kind with
  | 'd' => (Image.ofJson? value).map database
  | 'l' => (Tables.ofJson? value).map log
  | 'i' => some index
  | _ => none

/-- What a file with these bytes holds. -/
def ofBytes (content : ByteArray) : Content :=
  let value? := (String.fromUTF8? (content.extract 2 content.size)).bind Json.parse
  let known? := value?.bind fun value =>
    ['d', 'l', 'i'].findSome? fun kind =>
      if (content.extract 0 2).data.toList = heading kind then read? kind value else none
  known?.getD (bytes content)

end Content
end Jukebox
