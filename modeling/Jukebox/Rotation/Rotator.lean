import Jukebox.Rotation.Kind
import Jukebox.Rotation.Lottery
import Jukebox.Rotation.RoundRobin
import Jukebox.Rotation.Shuffle

/-!
# Rotators

The rotation of a room is one of three kinds, and the room keeps the kind for ever.
-/

namespace Jukebox

inductive Rotator
  | roundRobin (rotation : RoundRobin)
  | shuffle (rotation : Shuffle)
  | random (rotation : Lottery)
  deriving DecidableEq

namespace Rotator

/-- An empty rotator, whose random choices are determined by the seed. -/
def new (kind : RotatorKind) (seed : Nat) : Rotator :=
  match kind with
  | .roundRobin => .roundRobin .empty
  | .shuffle => .shuffle (.empty seed)
  | .random => .random (.empty seed)

def kind : Rotator → RotatorKind
  | roundRobin _ => .roundRobin
  | shuffle _ => .shuffle
  | random _ => .random

@[simp]
theorem kind_new (k : RotatorKind) (seed : Nat) : (new k seed).kind = k := by
  cases k <;> rfl

def next? : Rotator → Option (Nat × Rotator)
  | roundRobin r => r.next?.map fun (index, r) => (index, roundRobin r)
  | shuffle s => s.next?.map fun (index, s) => (index, shuffle s)
  | random l => l.next?.map fun (index, l) => (index, random l)

def add : Rotator → Rotator
  | roundRobin r => roundRobin r.add
  | shuffle s => shuffle s.add
  | random l => random l.add

def size : Rotator → Nat
  | roundRobin r => r.order.length
  | shuffle s => s.size
  | random l => l.size

instance : Rotation Rotator where
  next? := next?
  add := add
  size := size

/-- The order that turns follow at present, if there is one. -/
def order? : Rotator → Option (List Nat)
  | roundRobin r => some r.order
  | shuffle s => some s.perm
  | random _ => none

end Rotator

/-- What can go wrong with a rotator. -/
inductive RotationError
  | indexOutOfRange (index members : Nat)
  | unknownKind (text : String)
  | unreadable
  deriving DecidableEq

def RotationError.message : RotationError → String
  | indexOutOfRange index members =>
    s!"Rotator picked index {index}, but the room only has {members} members"
  | unknownKind text =>
      s!"\"{text}\" is not a rotator, expected round-robin, shuffle or random"
  | unreadable => "Rotator state is unreadable"

end Jukebox
