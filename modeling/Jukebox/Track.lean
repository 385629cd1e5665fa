import Jukebox.Id
import Jukebox.Number.Single

/-!
# Tracks

A track as the catalog describes it. Queues and rotations only ever look at its identifier.
-/

namespace Jukebox

structure Track where
  id : TrackId
  name : String
  artists : List String := []
  album : Option String := none
  /-- The address of the cover art. -/
  artwork : Option String := none
  /-- The length in seconds. -/
  duration : Option Single := none
  deriving DecidableEq

/-- All artists, joined for display. -/
def Track.artistLine (track : Track) : String :=
  String.intercalate ", " track.artists

end Jukebox
