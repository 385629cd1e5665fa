import Jukebox.Party

/-!
# Written results

Every result is written either for people, one item a line, or as indented JSON.
-/

namespace Jukebox
namespace CommandLine

/-- A result in both forms. -/
structure Output where
  lines : List String
  json : Json

namespace Output

/-- The text of a result. -/
def text (output : Output) (json : Bool) : String :=
  if json then output.json.indented ++ "\n"
  else String.join (output.lines.map fun line => line ++ "\n")

def userLine (user : User) : String :=
  s!"{user.id} {user.displayName}"

def trackLine (track : Track) : String :=
  if track.artistLine.isEmpty then s!"{track.id} {track.name}"
  else s!"{track.id} {track.name} - {track.artistLine}"

def queuedLine (queued : QueueTrack) : String :=
  let state := if queued.played then "played" else "queued"
  s!"{state} {queued.id} {queued.track.name}"

def playingLine (user : User) (track : Track) : String :=
  s!"Now playing {track.name} from {user.displayName}"

def vetoedLine (entry : TrackEntry) : String :=
  let vetoer := (entry.vetoedBy.map Id.text).getD "?"
  s!"Vetoed {entry.track.name} (by {vetoer})"

def historyLine (entry : TrackEntry) : String :=
  s!"{entry.playedAt.shown} {entry.track.name} from {entry.user}"

def created (room : Room) : Output :=
  ⟨[s!"Created {room.displayName} with code {room.id} ({room.rotator.title})"], room.toJson⟩

def user (user : User) : Output :=
  ⟨[userLine user], user.toJson⟩

def joined (room : RoomId) (user : User) : Output :=
  ⟨[s!"{user.displayName} joined {room}"], user.toJson⟩

def rooms (rooms : List Room) : Output :=
  ⟨rooms.map fun room => s!"{room.id} {room.displayName} ({room.rotator.title})",
    .array (rooms.map Room.toJson)⟩

def users (users : List User) : Output :=
  ⟨users.map userLine, .array (users.map User.toJson)⟩

def tracks (tracks : List Track) : Output :=
  ⟨tracks.map trackLine, .array (tracks.map Track.toJson)⟩

def queued (entry : EntryId) : Output :=
  ⟨[s!"Queued as {entry}"], entry.toJson⟩

def removed (entry : EntryId) : Output :=
  ⟨[s!"Removed {entry}"], entry.toJson⟩

def queue (tracks : List QueueTrack) : Output :=
  ⟨tracks.map queuedLine, .array (tracks.map QueueTrack.toJson)⟩

def playing (user : User) (track : Track) : Output :=
  ⟨[playingLine user track], .array [user.toJson, track.toJson]⟩

/-- A vetoed entry that has no replacement. -/
def vetoed (entry : TrackEntry) : Output :=
  ⟨[vetoedLine entry], entry.toJson⟩

/-- A vetoed entry with the track that replaces it. -/
def replaced (veto : Veto) : Output :=
  ⟨[vetoedLine veto.vetoed, playingLine veto.user veto.track],
    .array [veto.vetoed.toJson, .array [veto.user.toJson, veto.track.toJson]]⟩

def history (entries : List TrackEntry) : Output :=
  ⟨entries.map historyLine, .array (entries.map TrackEntry.toJson)⟩

end Output

end CommandLine
end Jukebox
