import Jukebox.Id
import Jukebox.Rotation.Kind

/-!
# Rooms and users

Users join rooms and take turns there. Each member of a room has a queue of their own in it,
which is named by the two identifiers together.
-/

namespace Jukebox

structure User where
  id : UserId
  displayName : String
  deriving DecidableEq

structure Room where
  id : RoomId
  displayName : String
  rotator : RotatorKind
  deriving DecidableEq

/-- Names the queue that a member has in a room. -/
structure QueueId where
  room : RoomId
  user : UserId
  deriving DecidableEq

instance : ToString QueueId :=
  ⟨fun queue => s!"{queue.room}/{queue.user}"⟩

end Jukebox
