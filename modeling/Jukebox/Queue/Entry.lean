import Jukebox.Id

/-!
# Queue entries

A queue is a doubly linked list. Its entries name their neighbours by identifier.
-/

namespace Jukebox

structure QueueEntry where
  id : EntryId
  track : TrackId
  played : Bool
  previous : Option EntryId
  next : Option EntryId
  deriving DecidableEq

/-- Which entries of a queue to list. -/
inductive QueueFilter
  | all
  | played
  | unplayed
  deriving DecidableEq

/-- Whether the filter admits an entry that was, or was not, played. -/
def QueueFilter.admits : QueueFilter → Bool → Bool
  | all, _ => true
  | played, isPlayed => isPlayed
  | unplayed, isPlayed => !isPlayed

/-- How the links of a row of entries can be broken. -/
inductive Corruption
  | manyHeads (count : Nat)
  | cycle (id : EntryId)
  | missing (id : EntryId)
  | backlink (id : EntryId)
  | playedLate (id : EntryId)
  | unreachable (count : Nat)
  | pointer
  deriving DecidableEq

def Corruption.message : Corruption → String
  | manyHeads count => s!"{count} entries claim to be the head"
  | cycle id => s!"{id} is part of a cycle"
  | missing id => s!"{id} is linked but missing"
  | backlink id => s!"{id} doesn't link back to its predecessor"
  | playedLate id => s!"{id} was played after an unplayed entry"
  | unreachable count => s!"{count} entries can't be reached from the head"
  | pointer => "next to serve isn't the first unplayed entry"

inductive QueueError
  | entryNotFound (id : EntryId)
  | insertBeforePlayed (id : EntryId)
  | removePlayed (id : EntryId)
  | duplicateEntry (id : EntryId)
  | corrupt (reason : Corruption)
  deriving DecidableEq

def QueueError.message : QueueError → String
  | entryNotFound id => s!"Queue entry {id} doesn't exist"
  | insertBeforePlayed id => s!"Tracks can't be added before {id}, it has already been played"
  | removePlayed id => s!"Queue entry {id} has already been played and can't be removed"
  | duplicateEntry id => s!"Queue entry {id} already exists"
  | corrupt reason => s!"Queue is corrupt: {reason.message}"

end Jukebox
