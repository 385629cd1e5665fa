/-!
# Texts as bytes

Names of files are sequences of bytes, which need not be a text. Here is what it takes to read
them apart.
-/

namespace Jukebox
namespace Text

/-- The byte of an ASCII character. -/
def byte (c : Char) : UInt8 :=
  c.toNat.toUInt8

/-- The bytes of a text. -/
def bytes (text : String) : List UInt8 :=
  text.toUTF8.data.toList

/-- Whether a byte lies between two ASCII characters. -/
def isBetween (first last : Char) (b : UInt8) : Bool :=
  byte first ≤ b && b ≤ byte last

/-- The pieces between separators; there is always at least one. -/
def pieces (separator : UInt8) : List UInt8 → List (List UInt8)
  | [] => [[]]
  | b :: rest =>
    if b = separator then [] :: pieces separator rest
    else
      match pieces separator rest with
      | piece :: more => (b :: piece) :: more
      | [] => [[b]]

/-- What stands before the first separator, and what stands behind it. -/
def cut (separator : UInt8) (bytes : List UInt8) : List UInt8 × List UInt8 :=
  (bytes.takeWhile fun b => b != separator, (bytes.dropWhile fun b => b != separator).tail)

def isDigit (b : UInt8) : Bool :=
  isBetween '0' '9' b

/-- The small letter of a capital one; other bytes stay. -/
def small (b : UInt8) : UInt8 :=
  if isBetween 'A' 'Z' b then b + 32 else b

/-- The value of a hexadecimal digit. -/
def hexValue? (b : UInt8) : Option UInt8 :=
  if isDigit b then some (b - byte '0')
  else if isBetween 'a' 'f' b then some (b - byte 'a' + 10)
  else if isBetween 'A' 'F' b then some (b - byte 'A' + 10)
  else none

/-- The number that digits spell in a base. -/
def numberOf (base : Nat) (digits : List UInt8) : Nat :=
  digits.foldl (fun n b => base * n + ((hexValue? b).map UInt8.toNat).getD 0) 0

end Text
end Jukebox
