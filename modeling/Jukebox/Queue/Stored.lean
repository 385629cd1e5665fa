import Jukebox.Queue.Basic

/-!
# Queues from stored entries

Stored entries come in any order, and their links may be broken in any way. A queue is rebuilt
only from entries that form a list: a walk from the head visits each entry once, links agree in
both directions, played entries come first, and the pointer marks the first unplayed one.
-/

namespace Jukebox
namespace Queue

/-!
## Checking the links
-/

/-- What a walk has seen: the entries so far, the latest first, and the first unplayed one. -/
structure Progress where
  seen : List EntryId
  firstUnplayed : Option EntryId

/-- Checks one entry and notes it. -/
def Progress.visit (p : Progress) (entry : QueueEntry) : Except Corruption Progress :=
  if entry.previous ≠ p.seen.head? then .error (.backlink entry.id)
  else if entry.played && p.firstUnplayed.isSome then .error (.playedLate entry.id)
  else
    .ok ⟨entry.id :: p.seen,
      if entry.played then p.firstUnplayed else p.firstUnplayed.or (some entry.id)⟩

/-- Walks on from an entry, for at most a number of steps; none are left only on a cycle. -/
def checkFrom (entries : List QueueEntry) : Nat → Progress → Option EntryId →
    Except Corruption Progress
  | _, p, none => .ok p
  | 0, _, some id => .error (.cycle id)
  | steps + 1, p, some id =>
    if id ∈ p.seen then .error (.cycle id)
    else
      match find? entries id with
      | none => .error (.missing id)
      | some entry => (p.visit entry).bind fun p => checkFrom entries steps p entry.next

/-- What is wrong with the links of a queue, if anything is. -/
def check (q : Queue) : Except Corruption Unit :=
  (checkFrom q.entries (q.entries.length + 1) ⟨[], none⟩ q.head).bind fun p =>
    if p.seen.length ≠ q.entries.length then
      .error (.unreachable (q.entries.length - p.seen.length))
    else if q.pointer ≠ p.firstUnplayed then .error .pointer
    else .ok ()

def validate (q : Queue) : Except QueueError Unit :=
  q.check.mapError .corrupt

/-!
## Rebuilding
-/

/-- The first entry whose identifier came before. -/
def firstRepeat? : List EntryId → List QueueEntry → Option EntryId
  | _, [] => none
  | seen, entry :: rest =>
    if entry.id ∈ seen then some entry.id else firstRepeat? (entry.id :: seen) rest

/-- Sorts entries by their identifiers. -/
def sort (entries : List QueueEntry) : List QueueEntry :=
  entries.foldr place []

/-- The entries that have no predecessor. -/
def heads (entries : List QueueEntry) : List EntryId :=
  (entries.filter fun entry => entry.previous.isNone).map QueueEntry.id

/-- The queue that stored entries and a stored pointer make up. -/
def ofEntries (entries : List QueueEntry) (pointer : Option EntryId) :
    Except QueueError Queue :=
  match firstRepeat? [] entries with
  | some id => .error (.duplicateEntry id)
  | none =>
    if 1 < (heads entries).length then .error (.corrupt (.manyHeads (heads entries).length))
    else
      let q : Queue := ⟨sort entries, (heads entries).head?, pointer⟩
      q.validate.map fun _ => q

end Queue
end Jukebox
