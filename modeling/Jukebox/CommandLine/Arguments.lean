/-!
# Options and words

The arguments of a call are options and plain words. A long option has its value behind an
equals sign or in the next argument. Short options may share one hyphen, and the last of them
may have its value attached. Behind a double hyphen everything is a word. No option may be
given twice.

Arguments are read from left to right, and whatever is met first decides: a fault, or the wish
for help. An option with its value in the next argument counts only when reading gets past that
value.
-/

namespace Jukebox
namespace CommandLine

/-- An option that a call understands. -/
structure OptionSpec where
  name : String
  short : Option Char := none
  /-- Which values the option admits, if it takes one. -/
  values : Option (String → Bool) := none

namespace OptionSpec

def takesValue (spec : OptionSpec) : Bool :=
  spec.values.isSome

def admits (spec : OptionSpec) (value : String) : Bool :=
  spec.values.all fun values => values value

end OptionSpec

/-- Why the arguments are not a call. -/
inductive UsageError
  /-- Somebody asked how to use the program. -/
  | helpWanted
  | invalid
  deriving DecidableEq

/-- What was given: options with their values, and words. -/
structure Given where
  options : List (String × String)
  words : List String
  deriving DecidableEq

namespace Given

def none : Given :=
  ⟨[], []⟩

def has (given : Given) (name : String) : Bool :=
  given.options.any fun entry => entry.1 == name

def value? (given : Given) (name : String) : Option String :=
  given.options.lookup name

/-- Notes an option, which must not have been given before, with a value that it admits. -/
def addOption (given : Given) (spec : OptionSpec) (value : String) : Except UsageError Given :=
  if spec.name = "help" then .error .helpWanted
  else if given.has spec.name || !spec.admits value then .error .invalid
  else .ok { given with options := given.options ++ [(spec.name, value)] }

/-- Notes a word, of which there may only be so many. -/
def addWord (limit : Nat) (given : Given) (word : String) : Except UsageError Given :=
  if given.words.length < limit then .ok { given with words := given.words ++ [word] }
  else .error .invalid

end Given

/-- How far reading has come. -/
structure Progress where
  given : Given
  /-- An option that does not count yet, with its value if that was read. -/
  held : Option (OptionSpec × Option String)

namespace Progress

def start : Progress :=
  ⟨.none, none⟩

/-- Counts the option that is held, which must have its value by now. -/
def settle (progress : Progress) : Except UsageError Given :=
  match progress.held with
  | some (spec, some value) => progress.given.addOption spec value
  | some (_, none) => .error .invalid
  | none => .ok progress.given

end Progress

/-- The text in front of the first equals sign, and the text behind it if there is one. -/
def splitValue (cs : List Char) : String × Option String :=
  let name := String.ofList (cs.takeWhile fun c => c != '=')
  match cs.dropWhile fun c => c != '=' with
  | _ :: value => (name, some (String.ofList value))
  | [] => (name, none)

/-- How an argument reads outside of a value. -/
inductive Argument
  | long (name : String) (value : Option String)
  | short (letters : List Char)
  | terminator
  | word (text : String)

def Argument.of (text : String) : Argument :=
  match text.toList with
  | ['-', '-'] => .terminator
  | '-' :: '-' :: rest => let (name, value) := splitValue rest; .long name value
  | ['-'] => .word text
  | '-' :: letters => .short letters
  | _ => .word text

/-- Reads letters that share a hyphen. -/
def readShort (specs : List OptionSpec) (given : Given) : List Char →
    Except UsageError Progress
  | [] => .ok ⟨given, none⟩
  | letter :: rest =>
    match specs.find? fun spec => spec.short = some letter with
    | none => .error .invalid
    | some spec =>
      if !spec.takesValue then
        (given.addOption spec "").bind fun given => readShort specs given rest
      else
        match rest with
        | [] => .ok ⟨given, some (spec, none)⟩
        | '=' :: value =>
            (given.addOption spec (String.ofList value)).map fun given => ⟨given, none⟩
        | value => (given.addOption spec (String.ofList value)).map fun given => ⟨given, none⟩

/-- Reads a long option. -/
def readLong (specs : List OptionSpec) (given : Given) (name : String)
    (value : Option String) : Except UsageError Progress :=
  match specs.find? fun spec => spec.name = name with
  | none => .error .invalid
  | some spec =>
    match spec.takesValue, value with
    | true, some value => (given.addOption spec value).map fun given => ⟨given, none⟩
    | true, none => .ok ⟨given, some (spec, none)⟩
    | false, none => (given.addOption spec "").map fun given => ⟨given, none⟩
    | false, some _ => .error .invalid

/-- Reads arguments in order. `limit` says how many words there may be. Without a limit,
reading stops at the first word, and the arguments from there on are left over.
-/
def readArguments (specs : List OptionSpec) (limit : Option Nat) (progress : Progress) :
    List String → Except UsageError (Progress × List String)
  | [] => .ok (progress, [])
  | text :: rest =>
    match Argument.of text, progress.held, limit with
    | .word word, some (spec, none), _ =>
      readArguments specs limit { progress with held := some (spec, some word) } rest
    | .word _, _, none => .ok (progress, text :: rest)
    | .word word, _, some most =>
      progress.settle.bind fun given =>
        (given.addWord most word).bind fun given =>
          readArguments specs limit ⟨given, none⟩ rest
    | .terminator, _, none => .error .invalid
    | .terminator, _, some most =>
      progress.settle.bind fun given =>
        (rest.foldlM (Given.addWord most) given).map fun given => (⟨given, none⟩, [])
    | .short letters, _, _ =>
      progress.settle.bind fun given =>
        (readShort specs given letters).bind fun progress =>
          readArguments specs limit progress rest
    | .long name value, _, _ =>
      progress.settle.bind fun given =>
        (readLong specs given name value).bind fun progress =>
          readArguments specs limit progress rest

end CommandLine
end Jukebox
