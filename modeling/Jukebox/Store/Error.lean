import Jukebox.History
import Jukebox.Queue.Entry
import Jukebox.Room
import Jukebox.Rotation.Rotator

/-!
# Failures of a store

Why an operation on a store was refused, or what was found to be wrong with the stored state.
Every cause knows its message, and causes that point to a damaged state also have a report for
the log.
-/

namespace Jukebox

/-- Something that was asked for and is not there. -/
inductive Missing
  | room (id : RoomId)
  | user (id : UserId)
  | queue (id : QueueId)
  | entry (id : EntryId)
  | track (id : TrackId)
  deriving DecidableEq

def Missing.message : Missing → String
  | room id => s!"room:{id} doesn't exist"
  | user id => s!"user:{id} doesn't exist"
  | queue id => s!"queue:{id} doesn't exist"
  | entry id => s!"queue entry:{id} doesn't exist"
  | track id => s!"track:{id} doesn't exist"

/-- A request that the current state does not allow. -/
inductive Clash
  /-- All room codes that were tried are taken. -/
  | codesTaken (attempts : Nat)
  | member (user : UserId) (room : RoomId)
  | userExists (id : UserId)
  | queue (error : QueueError)
  | veto (error : VetoError)
  deriving DecidableEq

def Clash.message : Clash → String
  | codesTaken attempts => s!"room conflict: no free room code after {attempts} attempts"
  | member user room => s!"membership conflict: {user} is already in room {room}"
  | userExists id => s!"user conflict: {id} already exists"
  | queue error => s!"queue entry conflict: {error.message}"
  | veto error => s!"veto conflict: {error.message}"

/-- A contradiction within the stored state. -/
inductive Fault
  | brokenQueue (queue : QueueId) (reason : Corruption)
  /-- The rotator of a room named an index that belongs to none of its members. -/
  | outOfStep (room : RoomId) (index members : Nat)
  | rotation (error : RotationError)
  /-- The entry that a queue serves next is not there. -/
  | dangling (queue : QueueId) (entry : EntryId)
  | trackUnreadable
  | trackMissing (id : TrackId)
  | memberMissing (id : UserId)
  | nextMissing (user : UserId)
  deriving DecidableEq

namespace Fault

def reason : Fault → String
  | brokenQueue _ reason => reason.message
  | outOfStep _ index members => (RotationError.indexOutOfRange index members).message
  | rotation error => error.message
  | dangling _ entry => (Missing.entry entry).message
  | trackUnreadable => "stored track is unreadable"
  | trackMissing id => s!"track {id} is missing"
  | memberMissing id => s!"member {id} is missing"
  | nextMissing user => s!"next track of {user} is missing"

/-- What the log says about a fault, if it is worth a line of its own. -/
def report? : Fault → Option String
  | brokenQueue queue reason =>
    let message := (QueueError.corrupt reason).message
    some s!"Queue of {queue.user} in {queue.room} is broken: {message}"
  | fault@(outOfStep room _ _) =>
    some s!"Rotator of room {room} is out of sync with its members: {fault.reason}"
  | fault@(dangling queue _) =>
    some s!"Next to serve of {queue.user} in {queue.room} is dangling: {fault.reason}"
  | _ => none

end Fault

inductive StoreError
  | notFound (what : Missing)
  | conflict (clash : Clash)
  /-- Nobody in the room has anything left to play. -/
  | exhausted
  | integrity (fault : Fault)
  /-- Nothing can be changed any more. -/
  | writerClosed
  /-- The storage itself failed. -/
  | internal
  deriving DecidableEq

namespace StoreError

def message : StoreError → String
  | notFound what => what.message
  | conflict clash => clash.message
  | exhausted => "No tracks in room"
  | integrity fault => s!"Integrity violation: {fault.reason}"
  | writerClosed => "The database writer has shut down"
  | internal => "error returned from database"

/-- What an error of a queue means for the store that holds the queue. -/
def ofQueue (queue : QueueId) : QueueError → StoreError
  | .entryNotFound id => .notFound (.entry id)
  | .corrupt reason => .integrity (.brokenQueue queue reason)
  | error => .conflict (.queue error)

def report? : StoreError → Option String
  | integrity fault => fault.report?
  | _ => none

end StoreError

end Jukebox
