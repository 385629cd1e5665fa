import Jukebox.CommandLine.Arguments
import Jukebox.Queue.Entry
import Jukebox.Room

/-!
# Commands

A call names a command, the words it needs and its options. Where the database and the catalog
are may also be said by the environment.
-/

namespace Jukebox
namespace CommandLine

inductive Command
  | createRoom (name : String) (rotator : RotatorKind)
  | addUser (id : UserId) (name : String)
  | join (room : RoomId) (user : UserId)
  | rooms (query : String)
  | members (room : RoomId)
  | tracks (query : String)
  | add (queue : QueueId) (track : TrackId) (after : Option EntryId)
  | remove (queue : QueueId) (entry : EntryId)
  | queue (queue : QueueId) (filter : QueueFilter)
  | next (room : RoomId)
  | veto (room : RoomId) (user : UserId)
  | history (room : RoomId)
  deriving DecidableEq

/-- A complete call. -/
structure Call where
  /-- Where the database is. -/
  database : String
  /-- Where the catalog is, if there is one. -/
  catalog : Option String
  /-- Whether results are written as JSON. -/
  json : Bool
  verbose : Bool
  command : Command
  deriving DecidableEq

/-!
## Options
-/

/-- The options that may stand in front of a command and behind it. -/
def commonOptions : List OptionSpec :=
  [{ name := "json" }, { name := "verbose", short := some 'v' },
    { name := "help", short := some 'h' }]

/-- Whether a text can be a path. -/
def isPath (text : String) : Bool :=
  !text.isEmpty

/-- The options that may stand in front of a command. -/
def leadingOptions : List OptionSpec :=
  { name := "database", short := some 'd', values := some isPath } ::
    { name := "catalog", short := some 'c', values := some isPath } :: commonOptions

/-- What a command is made of: its words, and options of its own. -/
structure CommandForm where
  words : Nat
  options : List OptionSpec := []

def filterOf? (text : String) : Option QueueFilter :=
  if text = "all" then some .all
  else if text = "played" then some .played
  else if text = "unplayed" then some .unplayed
  else none

/-- The form of the command with a name, if there is such a command. -/
def commandForm? (name : String) : Option CommandForm :=
  match name with
  | "create-room" =>
    some ⟨1, [{ name := "rotator", values := some fun text =>
      (RotatorKind.ofText? text).isSome }]⟩
  | "add" => some ⟨3, [{ name := "after", values := some fun _ => true }]⟩
  | "queue" =>
      some ⟨2, [{ name := "filter", values := some fun text => (filterOf? text).isSome }]⟩
  | "remove" => some ⟨3, []⟩
  | "add-user" | "join" | "veto" => some ⟨2, []⟩
  | "rooms" | "members" | "tracks" | "next" | "history" => some ⟨1, []⟩
  | _ => none

/-!
## Reading
-/

/-- The command with a name, given its words and options. -/
def Command.of? (name : String) (given : Given) : Option Command :=
  match name, given.words with
  | "create-room", [room] =>
    (RotatorKind.ofText? ((given.value? "rotator").getD "round-robin")).map (.createRoom room)
  | "add-user", [id, user] => some (.addUser ⟨id⟩ user)
  | "join", [room, user] => some (.join ⟨room⟩ ⟨user⟩)
  | "rooms", [query] => some (.rooms query)
  | "members", [room] => some (.members ⟨room⟩)
  | "tracks", [query] => some (.tracks query)
  | "add", [room, user, track] =>
    some (.add ⟨⟨room⟩, ⟨user⟩⟩ ⟨track⟩ ((given.value? "after").map Id.mk))
  | "remove", [room, user, entry] => some (.remove ⟨⟨room⟩, ⟨user⟩⟩ ⟨entry⟩)
  | "queue", [room, user] =>
    (filterOf? ((given.value? "filter").getD "all")).map (.queue ⟨⟨room⟩, ⟨user⟩⟩)
  | "next", [room] => some (.next ⟨room⟩)
  | "veto", [room, user] => some (.veto ⟨room⟩ ⟨user⟩)
  | "history", [room] => some (.history ⟨room⟩)
  | _, _ => none

def requireValid {α : Type} : Option α → Except UsageError α
  | some value => .ok value
  | none => .error .invalid

/-- The path that an option gives, or else a variable of the environment. -/
def pathOf? (given : Given) (name key : String) (environment : String → Option String) :
    Except UsageError (Option String) :=
  match (given.value? name).or (environment key) with
  | some text => if isPath text then .ok (some text) else .error .invalid
  | none => .ok none

/-- What comes of asking for help in words: at most one may follow, and it names a command. -/
def helpOn : List String → UsageError
  | [] => .helpWanted
  | [name] => if name = "help" || (commandForm? name).isSome then .helpWanted else .invalid
  | _ => .invalid

/-- The call that arguments make, with the variables of the environment. -/
def Call.of (environment : String → Option String) (arguments : List String) :
    Except UsageError Call := do
  let (leading, rest) ← readArguments leadingOptions none .start arguments
  match rest with
  | [] => throw .invalid
  | name :: rest =>
    if name = "help" then throw (helpOn rest)
    let form ← requireValid (commandForm? name)
    let (own, _) ← readArguments (form.options ++ commonOptions) (some form.words) .start rest
    let given ← own.settle
    let leading ← leading.settle
    let command ← requireValid (Command.of? name given)
    let database ← pathOf? leading "database" "RADIOTATION_DATABASE" environment
    let catalog ← pathOf? leading "catalog" "RADIOTATION_CATALOG" environment
    return {
      database := database.getD "radiotation.db"
      catalog := catalog
      json := leading.has "json" || given.has "json"
      verbose := leading.has "verbose" || given.has "verbose"
      command := command }

/-!
## Usage
-/

/-- How each command is called. -/
def commandUsages : List String :=
  ["create-room <NAME> [--rotator <ROTATOR>]", "add-user <ID> <NAME>", "join <ROOM> <USER>",
    "rooms <QUERY>", "members <ROOM>", "tracks <QUERY>",
    "add <ROOM> <USER> <TRACK> [--after <ENTRY>]", "remove <ROOM> <USER> <ENTRY>",
    "queue <ROOM> <USER> [--filter <FILTER>]", "next <ROOM>", "veto <ROOM> <USER>",
    "history <ROOM>"]

/-- How the program is called. -/
def usage : String :=
  let head := "Usage: radiotation [-d <DATABASE>] [-c <CATALOG>] [--json] [-v] <COMMAND>"
  String.join ((head :: "" :: "Commands:" :: commandUsages.map fun line => "  " ++ line).map
    fun line => line ++ "\n")

end CommandLine
end Jukebox
