import Jukebox.Store.Address

/-!
# Where a database is

A database is named by a text: the path of its file, or an address, whose parameters say how to
open it. Some texts stand for tables in memory instead. A connection may ask for less than it
is entitled to, but not for more.
-/

namespace Jukebox

open Text

/-- What a connection wants to do, from less to more. -/
inductive Access
  | readOnly
  | readWrite
  /-- Reads and writes, and makes the file if there is none. -/
  | create
  /-- Keeps all tables in memory. -/
  | memory
  deriving DecidableEq

namespace Access

def rank : Access → Nat
  | readOnly => 0
  | readWrite => 1
  | create => 2
  | memory => 3

def ofBytes? (value : List UInt8) : Option Access :=
  if value = bytes "ro" then some readOnly
  else if value = bytes "rw" then some readWrite
  else if value = bytes "rwc" then some create
  else if value = bytes "memory" then some memory
  else none

/-- What a connection gets that is entitled to one access and wants another. -/
def grant? (entitled wanted : Access) : Option Access :=
  if wanted = memory ∨ wanted.rank ≤ entitled.rank then some wanted else none

end Access

/-- How connections to a file keep out of each other's way. -/
inductive Locking
  /-- By locks of the system. -/
  | system
  /-- By locks of the system that leave the file to a single process. -/
  | exclusive
  /-- By a file that is there as long as the database is in use. -/
  | lockFile
  | none
  deriving DecidableEq

/-- Whether there can be a log. Everyone who uses one has to know what the others do. -/
def Locking.allowsLog : Locking → Bool
  | system | exclusive => true
  | lockFile | none => false

/-- What keeps the bytes of a database. -/
inductive Storage
  | files (locking : Locking)
  | memory
  deriving DecidableEq

def Storage.ofBytes? (value : List UInt8) : Option Storage :=
  if value = bytes "unix" then some (files .system)
  else if value = bytes "unix-excl" then some (files .exclusive)
  else if value = bytes "unix-dotfile" then some (files .lockFile)
  else if value = bytes "unix-none" then some (files .none)
  else if value = bytes "memdb" then some memory
  else none

/-- How a connection opens its database. -/
structure Manner where
  access : Access
  /-- Whether connections share what they have read. -/
  shared : Bool := false
  /-- The storage, if it is a known one. -/
  storage : Option Storage := some (.files .system)
  deriving DecidableEq

/-- The manner after a parameter. Those with other names count for nothing here. -/
def Manner.withParameter? (manner : Manner) (parameter : List UInt8 × List UInt8) :
    Option Manner :=
  let (name, value) := parameter
  if name = bytes "mode" then
    ((Access.ofBytes? value).bind manner.access.grant?).map fun access =>
      { manner with access := access }
  else if name = bytes "cache" then
    if value = bytes "shared" then some { manner with shared := true }
    else if value = bytes "private" then some { manner with shared := false }
    else none
  else if name = bytes "vfs" then some { manner with storage := Storage.ofBytes? value }
  else some manner

/-- A file that a connection asks for. -/
structure Place where
  path : List UInt8
  access : Access
  /-- Whether connections share what they have read. -/
  shared : Bool
  locking : Locking
  /-- Whether the file is said never to change. -/
  immutable : Bool
  /-- Whether the index of the log may only be read. -/
  indexReadOnly : Bool
  /-- A file whose permissions a new one is to have. -/
  pattern : Option (List UInt8)
  deriving DecidableEq

/-- Whether the connection may only look at the file. -/
def Place.readOnly (place : Place) : Bool :=
  place.access = .readOnly

/-- What a connection opens. -/
inductive Location
  /-- Tables in memory, which are gone when the last connection to them is closed. -/
  | memory (shared writable : Bool)
  | file (place : Place)
  deriving DecidableEq

namespace Location

/-- The name of a database in memory. -/
def memoryName : List UInt8 :=
  bytes ":memory:"

/-- Whether a name in memory is known to all connections. -/
def isPublic (name : List UInt8) : Bool :=
  1 < name.length && (name.head? = some (byte '/') || name.head? = some (byte '\\'))

/-- The location that an address stands for. Without a path it is one of the connection's
own. -/
def ofAddress? (entitled : Access) (address : Address) : Option Location := do
  let manner ← address.parameters.foldlM Manner.withParameter? { access := entitled }
  let storage ← manner.storage
  let writable : Bool := manner.access ≠ .readOnly
  let immutable := address.flag "immutable"
  if address.path.isEmpty then return .memory false writable
  if manner.access = .memory ∨ address.path = memoryName then
    return .memory manner.shared writable
  match storage with
  | .memory =>
    return .memory (manner.shared || isPublic address.path) (writable && !immutable)
  | .files locking =>
    return .file
      { path := address.path
        access := manner.access
        shared := manner.shared
        locking := if address.flag "nolock" then .none else locking
        immutable := immutable
        indexReadOnly := address.flag "readonly_shm"
        pattern := address.value? "modeof" }

/-- What a connection opens that is entitled to an access. -/
def ofText? (entitled : Access) (text : String) : Option Location := do
  let path := bytes text
  if Address.scheme <+: path then
    ofAddress? entitled (← Address.ofBytes? (path.drop Address.scheme.length))
  else ofAddress? entitled ⟨path, []⟩

end Location
end Jukebox
