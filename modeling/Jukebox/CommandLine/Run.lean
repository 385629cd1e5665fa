import Jukebox.CommandLine.Command
import Jukebox.CommandLine.Output
import Jukebox.Store.Opening

/-!
# Running a call

A call loads the catalog, opens the database, performs its command at a party of its own and
closes the database. What it writes, what it logs, how it ends and what becomes of the disk is
decided here; files are read and written by others.
-/

namespace Jukebox
namespace CommandLine

/-- The random choices a command may need, and the time of day. -/
structure Choices where
  /-- Codes for a new room, to be tried in order. -/
  codes : Nat → RoomId
  /-- The seed of a new rotator. -/
  seed : Nat
  /-- The identifier of a new queue entry. -/
  entry : EntryId
  now : Timestamp

/-!
## Commands
-/

/-- What a command has written, how it ended, and the party it leaves behind. -/
structure Finished where
  written : String
  answer : Except PartyError Unit
  party : Party Database

/-- Performs an action and writes its result; a failure writes nothing. -/
def perform {α : Type} (json : Bool) (output : α → Output) (action : PartyAction Database α)
    (party : Party Database) : Finished :=
  match Party.run action party with
  | (.ok value, party) => ⟨(output value).text json, .ok (), party⟩
  | (.error error, party) => ⟨"", .error error, party⟩

/-- A veto without a replacement still writes the entry that was vetoed, and fails. -/
def performVeto (json : Bool) (room : RoomId) (user : UserId) (now : Timestamp)
    (party : Party Database) : Finished :=
  match Party.run (Party.veto room user now) party with
  | (.ok veto, party) => ⟨(Output.replaced veto).text json, .ok (), party⟩
  | (.error .noTracksLeft, party) =>
    match Party.run (Party.history room) party with
    | (.ok entries, party) =>
      let written :=
        (entries.getLast?.map fun entry => (Output.vetoed entry).text json).getD ""
      ⟨written, .error .noTracksLeft, party⟩
    | (.error error, party) => ⟨"", .error error, party⟩
  | (.error error, party) => ⟨"", .error error, party⟩

def Command.run (json : Bool) (choices : Choices) : Command → Party Database → Finished
  | .createRoom name kind =>
    perform json Output.created (Party.createRoom name kind choices.codes choices.seed)
  | .addUser id name => perform json Output.user (Party.register id name)
  | .join room user => perform json (Output.joined room) (Party.join room user)
  | .rooms query => perform json Output.rooms (Party.searchRooms query)
  | .members room => perform json Output.users (Party.members room)
  | .tracks query => perform json Output.tracks (Party.searchTracks query)
  | .add id track after =>
    perform json Output.queued (Party.addTrack id track after choices.entry)
  | .remove id entry =>
    perform json (fun _ => Output.removed entry) (Party.removeTrack id entry)
  | .queue id filter => perform json Output.queue (Party.listTracks id filter)
  | .next room =>
    perform json (fun served => Output.playing served.1 served.2)
      (Party.nextTrack room choices.now)
  | .veto room user => performVeto json room user choices.now
  | .history room => perform json Output.history (Party.history room)

/-- Whether a command that ended with an answer has asked the readers of the database. -/
def Command.asksReaders (answer : Except PartyError Unit) : Command → Bool
  | .rooms query => !(normalizeName query).isEmpty
  | .members _ | .history _ => true
  | .join _ _ => (answer matches .ok _)
  | .veto _ _ => (answer matches .error .noTracksLeft)
  | _ => false

/-!
## Failures
-/

inductive CallError
  | database (error : StoreError)
  | catalog (error : SongError)
  | party (error : PartyError)
  deriving DecidableEq

namespace CallError

def message : CallError → String
  | database error => s!"Could not open database: {error.message}"
  | catalog error => s!"Could not load catalog: {error.message}"
  | party error => error.message

/-- What to do about a failure. -/
def hint : CallError → String
  | database _ =>
      "Make sure the path given with --database or RADIOTATION_DATABASE is writable."
  | catalog _ =>
    "The catalog has to be a JSON array of tracks, each with an \"id\" and a \"name\"."
  | party (.store (.notFound _)) =>
    "Check the ids you passed. Room codes are four capital letters."
  | party (.store (.conflict _)) => "The request clashes with the current state of the room."
  | party (.store .exhausted) => "Add tracks to a queue with the add command."
  | party .noTracksLeft => "Add tracks to a queue with the add command."
  | party (.song (.notFound _)) => "Use the tracks command to find what the catalog has."
  | party (.store (.integrity _)) =>
    "Stored state is inconsistent. This is a bug, please report it."
  | party _ => "This is a database error. Try again, and report it if it keeps happening."

/-- The last words of a call that failed. -/
def log (error : CallError) : List LogRecord :=
  [⟨.error, .commandLine, "radiotation failed!"⟩, ⟨.error, .commandLine, error.message⟩,
    ⟨.error, .commandLine, s!"Hint: {error.hint}"⟩]

end CallError

/-!
## Calls
-/

/-- How a call ends. -/
structure Outcome where
  exitCode : Nat
  written : String
  log : List LogRecord
  /-- The tables afterwards, if the database could be opened. -/
  tables : Option Tables
  /-- The disk afterwards. -/
  disk : Disk

namespace Outcome

def failed (disk : Disk) (log : List LogRecord) (error : CallError) : Outcome :=
  ⟨1, "", log ++ error.log, none, disk⟩

/-- The outcome of a command that has run. -/
def ofFinished (disk : Disk) (log : List LogRecord) (finished : Finished) : Outcome :=
  let log := log ++ finished.party.log
  let tables := finished.party.store.tables
  match finished.answer with
  | .ok () => ⟨0, finished.written, log, some tables, disk⟩
  | .error error =>
      ⟨1, finished.written, log ++ (CallError.party error).log, some tables, disk⟩

end Outcome

/-- Loads the catalog from its file; a call without a catalog has an empty one. -/
def loadCatalog (path : Option String) (file : String → Option ByteArray) :
    Except SongError (Catalog × LogRecord) :=
  match path with
  | none => .ok (.empty, ⟨.warning, .commandLine, "No catalog given, nothing can be queued"⟩)
  | some path =>
    (Catalog.ofBytes (file path)).map fun catalog =>
      (catalog,
        ⟨.info, .commandLine, s!"Loaded {catalog.tracks.length} tracks from {path}"⟩)

/-- Runs a call. Its catalog is a file, and its database lies on a disk. -/
def Call.run (call : Call) (file : String → Option ByteArray) (disk : Disk)
    (choices : Choices) : Outcome :=
  match loadCatalog call.catalog file with
  | .error error => .failed disk [] (.catalog error)
  | .ok (catalog, loaded) =>
    match (Opening.ofText call.database).run disk with
    | (.error error, disk) => .failed disk [loaded] (.database error)
    | (.ok opening, disk) =>
      let opened : LogRecord := ⟨.info, .party, s!"Opened database at {call.database}"⟩
      let finished := call.command.run call.json choices (.start opening.database catalog {})
      let readersAsked := call.command.asksReaders finished.answer
      .ofFinished (opening.close finished.party.store.tables readersAsked disk)
        [loaded, opened] finished

end CommandLine
end Jukebox
