import Jukebox.Track

/-!
# History and vetoes

The history of a room holds every track that was served, oldest first. Only the latest entry
can be vetoed, and a member has to let a number of tracks pass between two vetoes.
-/

namespace Jukebox

/-- A moment, as it is shown to people and as it is written in records. -/
structure Timestamp where
  shown : String
  written : String
  deriving DecidableEq

/-- A track that was served in a room, and the member it was served for. -/
structure TrackEntry where
  user : UserId
  track : Track
  vetoed : Bool
  /-- Who vetoed the entry, if somebody did. -/
  vetoedBy : Option UserId
  playedAt : Timestamp
  deriving DecidableEq

namespace TrackEntry

/-- The entry of a track that has just been served. -/
def served (user : UserId) (track : Track) (playedAt : Timestamp) : TrackEntry :=
  ⟨user, track, false, none, playedAt⟩

/-- Flags an entry as vetoed. -/
def veto (entry : TrackEntry) (user : UserId) : TrackEntry :=
  { entry with vetoed := true, vetoedBy := some user }

end TrackEntry

inductive VetoError
  | nothingPlayed
  | alreadyVetoed
  | coolingDown (remaining : Nat)
  deriving DecidableEq

def VetoError.message : VetoError → String
  | nothingPlayed => "Nothing has been played in this room yet"
  | alreadyVetoed => "The current track has already been vetoed"
  | coolingDown remaining => s!"You vetoed recently, wait {remaining} more tracks"

/--
The position of the entry that a member may veto. A veto of their own among the last `cooldown`
entries counts its age from the newest entry, and that many tracks are taken off the wait.
-/
def vetoTarget (history : List TrackEntry) (user : UserId) (cooldown : Nat) :
    Except VetoError Nat :=
  match history.getLast? with
  | none => .error .nothingPlayed
  | some latest =>
    if latest.vetoed then .error .alreadyVetoed
    else
      match (history.reverse.take cooldown).findIdx? fun entry =>
        entry.vetoedBy == some user with
      | some age => .error (.coolingDown (cooldown - age))
      | none => .ok (history.length - 1)

end Jukebox
