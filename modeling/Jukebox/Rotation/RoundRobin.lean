import Jukebox.Rotation.Basic

/-!
# Round robin

Members take turns in a fixed order. A newcomer is placed halfway between the cursor and the
end of the order, so the first turn comes soon and nobody else has to start over.
-/

namespace Jukebox

@[ext]
structure RoundRobin where
  /-- The indices in the order of their turns. -/
  order : List Nat
  /-- The place in the order whose turn is next. -/
  cursor : Nat
  words : AreWords (cursor :: order) := by decide
  deriving DecidableEq

namespace RoundRobin

def empty : RoundRobin :=
  { order := [], cursor := 0 }

theorem cursor_lt (r : RoundRobin) : r.cursor < wordLimit :=
  (List.forall_mem_cons.mp r.words).1

theorem areWords_order (r : RoundRobin) : AreWords r.order :=
  (List.forall_mem_cons.mp r.words).2

/-- The same order at another place. -/
def moved (r : RoundRobin) (cursor : Nat) : RoundRobin where
  order := r.order
  cursor := wrap cursor
  words := List.forall_mem_cons.mpr ⟨wrap_lt _, r.areWords_order⟩

theorem cursor_moved {r : RoundRobin} {cursor : Nat} (h : cursor < wordLimit) :
    (r.moved cursor).cursor = cursor :=
  wrap_of_lt h

/-- Hands out the index at the cursor and moves on, from the end back to the start. -/
def next? (r : RoundRobin) : Option (Nat × RoundRobin) :=
  if r.order = [] then some (0, r)
  else
    (r.order[r.cursor]?).map fun index =>
      (index, r.moved (wrap (r.cursor + 1) % r.order.length))

/-- Inserts a newcomer; the cursor keeps pointing at the same member. -/
def add (r : RoundRobin) : RoundRobin where
  order := r.order.insertIdx (Rotation.halfwaySlot r.cursor r.order.length)
    (wrap r.order.length)
  cursor :=
    if Rotation.halfwaySlot r.cursor r.order.length < r.cursor then wrap (r.cursor + 1)
      else r.cursor
  words := by
    refine List.forall_mem_cons.mpr ⟨?_, ?_⟩
    · split
      · exact wrap_lt _
      · exact r.cursor_lt
    · intro index hindex
      rcases (List.mem_insertIdx (Rotation.halfwaySlot_le _ _)).mp hindex with rfl | hold
      · exact wrap_lt _
      · exact r.areWords_order index hold

instance : Rotation RoundRobin where
  next? := next?
  add := add
  size r := r.order.length

end RoundRobin
end Jukebox
