import Jukebox.Queue.Entry

/-!
# Queues

A member's queue in a room. The entries link to each other in both directions, so inserting and
removing touch the direct neighbours only. Played entries come before unplayed ones, and a
pointer marks the first unplayed entry, which is served next. Entries are kept in the order of
their identifiers, so equal queues are equal values.
-/

namespace Jukebox

structure Queue where
  /-- All entries, in ascending order of their identifiers. -/
  entries : List QueueEntry
  head : Option EntryId
  /-- The first unplayed entry. -/
  pointer : Option EntryId
  deriving DecidableEq

namespace Queue

def empty : Queue :=
  ⟨[], none, none⟩

/-!
## Looking up and changing single entries
-/

def find? (entries : List QueueEntry) (id : EntryId) : Option QueueEntry :=
  entries.find? fun entry => entry.id = id

/-- Puts an entry behind those with smaller identifiers. -/
def place (entry : QueueEntry) : List QueueEntry → List QueueEntry
  | [] => [entry]
  | other :: rest =>
    if other.id < entry.id then other :: place entry rest else entry :: other :: rest

/-- Changes the entry with an identifier, if there is one. -/
def modify (id : Option EntryId) (change : QueueEntry → QueueEntry)
    (entries : List QueueEntry) : List QueueEntry :=
  entries.map fun entry => if some entry.id = id then change entry else entry

def setNext (next : Option EntryId) (entry : QueueEntry) : QueueEntry :=
  { entry with next := next }

def setPrevious (previous : Option EntryId) (entry : QueueEntry) : QueueEntry :=
  { entry with previous := previous }

def get? (q : Queue) (id : EntryId) : Option QueueEntry :=
  find? q.entries id

def isEmpty (q : Queue) : Bool :=
  q.entries.isEmpty

def head? (q : Queue) : Option QueueEntry :=
  q.head.bind q.get?

/-- The entry that is served next: the first unplayed one. -/
def next? (q : Queue) : Option QueueEntry :=
  q.pointer.bind q.get?

/-!
## Walking
-/

/-- Follows the links forward, for at most a number of steps. -/
def walkFrom (q : Queue) : Nat → Option EntryId → List QueueEntry
  | 0, _ => []
  | steps + 1, id =>
    match id.bind q.get? with
    | some entry => entry :: q.walkFrom steps entry.next
    | none => []

/-- The entries in queue order. No entry is visited twice, so their number bounds the walk. -/
def toList (q : Queue) : List QueueEntry :=
  q.walkFrom q.entries.length q.head

/-- The entries in queue order that a filter admits. -/
def list (q : Queue) (filter : QueueFilter) : List QueueEntry :=
  q.toList.filter fun entry => filter.admits entry.played

/-!
## Changing
-/

/-- Puts a new entry behind `after`, or in front when there is none. -/
def insertAfter (q : Queue) (after : Option EntryId) (id : EntryId) (track : TrackId) :
    Except QueueError (QueueEntry × Queue) :=
  if (q.get? id).isSome then .error (.duplicateEntry id)
  else
    match after.map fun anchor => (anchor, q.get? anchor) with
    | some (anchor, none) => .error (.entryNotFound anchor)
    | some (_, some anchor) => insertBefore anchor.next
    | none => insertBefore q.head
where
  /-- Inserts the entry in front of `next`, which must not be played. -/
  insertBefore (next : Option EntryId) : Except QueueError (QueueEntry × Queue) :=
    match (next.bind q.get?).filter QueueEntry.played with
    | some successor => .error (.insertBeforePlayed successor.id)
    | none =>
      let entry : QueueEntry := ⟨id, track, false, after, next⟩
      let linked :=
        modify next (setPrevious (some id)) (modify after (setNext (some id)) q.entries)
      .ok (entry,
        { entries := place entry linked
          head := if after = none then some id else q.head
          pointer := if q.pointer = none ∨ q.pointer = next then some id else q.pointer })

/-- Takes an unplayed entry out and links its neighbours to each other. -/
def remove (q : Queue) (id : EntryId) : Except QueueError (QueueEntry × Queue) :=
  match q.get? id with
  | none => .error (.entryNotFound id)
  | some entry =>
    if entry.played then .error (.removePlayed id)
    else
      let others := q.entries.filter fun other => other.id ≠ id
      let linked := modify entry.next (setPrevious entry.previous)
        (modify entry.previous (setNext entry.next) others)
      .ok (entry,
        { entries := linked
          head := if entry.previous = none then entry.next else q.head
          pointer := if q.pointer = some id then entry.next else q.pointer })

/-- Marks the next entry as played and moves the pointer on; none when everything was
played. -/
def take? (q : Queue) : Option (QueueEntry × Queue) :=
  q.next?.map fun entry =>
    ({ entry with played := true },
      { q with
        entries := modify (some entry.id) (fun e => { e with played := true }) q.entries
        pointer := entry.next })

end Queue
end Jukebox
