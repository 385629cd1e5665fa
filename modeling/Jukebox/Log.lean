/-!
# Log records
-/

namespace Jukebox

inductive LogLevel
  | error
  | warning
  | info
  deriving DecidableEq

/-- The part of the program that a record comes from. -/
inductive LogSource
  | commandLine
  | party
  deriving DecidableEq

structure LogRecord where
  level : LogLevel
  source : LogSource
  message : String
  deriving DecidableEq

/-- The short name of a level. -/
def LogLevel.tag : LogLevel → String
  | error => "ERR"
  | warning => "WRN"
  | info => "INF"

/-- The short name of a source. -/
def LogSource.tag : LogSource → String
  | commandLine => "CLI"
  | party => "COLLAB"

/-- A record on one line. -/
def LogRecord.line (record : LogRecord) : String :=
  s!"{record.level.tag} {record.source.tag} {record.message}"

end Jukebox
