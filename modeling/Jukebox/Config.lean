import Jukebox.Number.Word

/-!
# Configuration

The limits a jukebox runs with, and the one rule that is computed from them: how long a member
waits between two vetoes.
-/

namespace Jukebox

structure Config where
  /-- Letters in a room code; four give `26 ^ 4` codes. -/
  roomCodeLength : Nat := 4
  /-- Codes tried before room creation gives up. -/
  roomCodeAttempts : Nat := 100
  /-- Characters in the identifier of a queue entry. -/
  entryIdLength : Nat := 32
  /-- A member vetoes at most once in this many tracks per member. -/
  vetoCooldownFactor : Nat := 2
  /-- Jobs that wait for the writer before those who submit them wait too. -/
  writerCapacity : Nat := 64
  /-- Connections that only read. -/
  readConnections : Nat := 4
  deriving DecidableEq

/-- How many of the most recent tracks a member has to wait out between vetoes. -/
def Config.vetoCooldown (config : Config) (members : Nat) : Nat :=
  wrap (config.vetoCooldownFactor * members)

end Jukebox
