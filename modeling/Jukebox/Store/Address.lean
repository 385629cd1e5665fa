import Jukebox.Text.Bytes

/-!
# Addresses of files

A file can be named by an address: a scheme, an optional host, a path, and parameters that say
how to open the file. Bytes can be escaped by a percent sign and two hexadecimal digits. An
escaped zero ends the piece that it stands in.
-/

namespace Jukebox

open Text

/-- A path with parameters. -/
structure Address where
  path : List UInt8
  parameters : List (List UInt8 × List UInt8)
  deriving DecidableEq

namespace Address

/-- How an address starts. -/
def scheme : List UInt8 :=
  bytes "file:"

/-- The byte that two hexadecimal digits spell. -/
def escaped? (high low : UInt8) : Option UInt8 := do
  return (← hexValue? high) * 16 + (← hexValue? low)

/-- Replaces escapes by the bytes they stand for. -/
def unescape : List UInt8 → List UInt8
  | b :: high :: low :: rest =>
    match if b = byte '%' then escaped? high low else none with
    | some value => if value = 0 then [] else value :: unescape rest
    | none => b :: unescape (high :: low :: rest)
  | bytes => bytes

/-- What follows the host, which is none or the local one. -/
def afterHost? (address : List UInt8) : Option (List UInt8) :=
  let slashes := [byte '/', byte '/']
  if slashes <+: address then
    let rest := address.drop slashes.length
    let host := rest.takeWhile fun b => b != byte '/'
    if host.isEmpty || host = bytes "localhost" then some (rest.drop host.length) else none
  else some address

/-- A parameter with its value; one without a name counts for nothing. -/
def parameter? (piece : List UInt8) : Option (List UInt8 × List UInt8) :=
  let (name, value) := cut (byte '=') piece
  let name := unescape name
  if name.isEmpty then none else some (name, unescape value)

/-- Reads an address behind its scheme. A number sign ends it. -/
def ofBytes? (address : List UInt8) : Option Address :=
  (afterHost? address).map fun rest =>
    let (path, query) := cut (byte '?') (cut (byte '#') rest).1
    ⟨unescape path, (pieces (byte '&') query).filterMap parameter?⟩

/-!
## Parameters
-/

/-- The value of the first parameter with a name. -/
def value? (address : Address) (name : String) : Option (List UInt8) :=
  address.parameters.lookup (bytes name)

/-- The number that a value starts with, zero if there is none. It is hexadecimal behind
`0x`. -/
def leadingNumber (value : List UInt8) : Nat :=
  let hexadecimal := (value.drop 2).takeWhile fun b => (hexValue? b).isSome
  if (value.take 2).map small = bytes "0x" && !hexadecimal.isEmpty then numberOf 16 hexadecimal
  else numberOf 10 (value.takeWhile isDigit)

/-- Whether a value says yes, in a word or by a number. Of a number the last eight bits count,
and one that does not fit 31 bits is none.
-/
def isYes (value : List UInt8) : Bool :=
  if value.head?.any isDigit then
    let number := leadingNumber value
    number < 0x80000000 && number % 256 ≠ 0
  else ["on", "yes", "true"].any fun word => value.map small = bytes word

/-- Whether a parameter is given and says yes. -/
def flag (address : Address) (name : String) : Bool :=
  (address.value? name).any isYes

end Address
end Jukebox
