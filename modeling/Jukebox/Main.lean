import Jukebox.CommandLine.Run
import Jukebox.Store.Encoding
import Std.Time.Format

/-!
# The program

Finds out what a call asks for, fetches the files, the random choices and the time of day that
it needs, and puts its results where they belong.
-/

namespace Jukebox
namespace CommandLine

/-!
## Files
-/

/-- The bytes of a file, if it can be read. -/
def fileBytes (path : String) : IO (Option ByteArray) := do
  try
    let bytes ← IO.FS.readBinFile path
    return some bytes
  catch _ => return none

/-- What kind of thing there is at a path. -/
def typeAt? (path : String) : IO (Option IO.FS.FileType) := do
  try
    let metadata ← ((← IO.currentDir) / path).metadata
    return some metadata.type
  catch _ => return none

/-- Takes down what there is at a place. What cannot be named or read is as good as a
device. -/
def look (disk : Disk) (path : FilePath) : IO Disk := do
  let some text := path.text? | return disk.put path .device
  match ← typeAt? text with
  | none => return disk
  | some .dir => return { disk with directories := path :: disk.directories }
  | some .file =>
    match ← fileBytes text with
    | some bytes => return disk.put path (.ofBytes bytes)
    | none => return disk.put path .device
  | some _ => return disk.put path .device

/-- A disk of which nothing is known yet. -/
def unknownDisk : IO Disk := do
  return ⟨.ofText (← IO.currentDir).toString, [], []⟩

/-- The part of the disk that matters for a database. -/
def diskFor (database : String) : IO Disk := do
  let disk ← unknownDisk
  match Location.ofText? .create database with
  | some (.file place) =>
    let way := disk.route place.path
    let family := (way.getLast?.map FilePath.family).getD []
    let pattern := (place.pattern.map disk.route).getD []
    (way ++ family ++ pattern).foldlM look disk
  | _ => return disk

/-- Makes a file what it is to be. -/
def saveFile (disk : Disk) (path : FilePath) : IO Unit := do
  let some text := path.text? | return
  match disk.content? path with
  | some content => IO.FS.writeBinFile text content.toBytes
  | none => IO.FS.removeFile text

/-- Makes all files that have changed what they are to be, and says whether that went well. -/
def save (before after : Disk) : IO Bool := do
  let paths := ((before.files ++ after.files).map Prod.fst).eraseDups
  let changed := paths.filter fun path => !before.agreesAt after path
  try
    for path in changed do
      saveFile after path
    return true
  catch _ => return false

/-!
## Choices
-/

/-- A number below `2 ^ 64` that nobody can foresee. -/
def randomSeed : IO Nat := do
  let bytes ← IO.getRandomBytes 8
  return bytes.toList.foldl (fun n byte => 256 * n + byte.toNat) 0

def currentTime : IO Timestamp := do
  let now := Std.Time.DateTime.ofTimestamp (← Std.Time.Timestamp.now) .UTC
  return ⟨now.format "uuuu-MM-dd HH:mm:ss", now.format "uuuu-MM-dd'T'HH:mm:ss.SSSSSSSSS'Z'"⟩

/-- Fresh choices: each code has words of its own, and the entry has those of another
stream. -/
def freshChoices (config : Config) : IO Choices := do
  let codeWords := Random.Generator.wordsOf (← randomSeed)
  let entryWords := Random.Generator.wordsOf (← randomSeed)
  return {
    codes := fun i =>
      Id.code config.roomCodeLength fun j => codeWords (i * config.roomCodeLength + j)
    seed := ← randomSeed
    entry := Id.random config.entryIdLength entryWords
    now := ← currentTime }

/-!
## Calls
-/

/-- Runs a call. If its files cannot be kept, it runs as if they had never been found. -/
def runCall (call : Call) : IO UInt32 := do
  let catalog ← match call.catalog with
    | some path => fileBytes path
    | none => pure none
  let disk ← diskFor call.database
  let choices ← freshChoices {}
  let run (disk : Disk) : Outcome := call.run (fun _ => catalog) disk choices
  let outcome ← do
    if ← save disk (run disk).disk then pure (run disk) else pure (run (← unknownDisk))
  for record in outcome.log do
    IO.eprintln record.line
  IO.print outcome.written
  return outcome.exitCode.toUInt32

end CommandLine
end Jukebox

open Jukebox CommandLine in
def main (arguments : List String) : IO UInt32 := do
  let database ← IO.getEnv "RADIOTATION_DATABASE"
  let catalog ← IO.getEnv "RADIOTATION_CATALOG"
  let environment (key : String) : Option String :=
    if key = "RADIOTATION_DATABASE" then database
    else if key = "RADIOTATION_CATALOG" then catalog
    else none
  match Call.of environment arguments with
  | .error .helpWanted =>
    IO.print usage
    return 0
  | .error .invalid =>
    IO.eprint usage
    return 2
  | .ok call => runCall call
