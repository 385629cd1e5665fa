import Jukebox.Json.Basic
import Jukebox.Number.Shortest
import Jukebox.Number.Word

/-!
# Single-precision numbers in JSON

Track lengths are numbers of single precision. They are written as the shortest decimal that
reads back, and read from any numeral that fits double precision.
-/

namespace Jukebox

/--
A number of single precision as its bits: a sign, eight bits for the exponent and 23 for the
fraction. With all bits of the exponent set it is infinite, or no number at all.
-/
structure Single where
  bits : UInt32
  deriving DecidableEq

namespace Single

open Number

/-!
## Bits
-/

def isNegative (s : Single) : Bool :=
  0x80000000 ≤ s.bits.toNat

def exponentField (s : Single) : Nat :=
  s.bits.toNat / 0x800000 % 0x100

def fractionField (s : Single) : Nat :=
  s.bits.toNat % 0x800000

/-- The absolute value, if it is finite. The significand has one more bit than the fraction,
which is only missing next to zero. -/
def magnitude? (s : Single) : Option Magnitude :=
  if s.exponentField = 0 then some ⟨s.fractionField, single.least⟩
  else if s.exponentField < 0xFF then
    some ⟨0x800000 + s.fractionField, s.exponentField - 1 + single.least⟩
  else none

/-- A sign in front of the other bits. -/
def withSign (negative : Bool) (rest : Nat) : Single :=
  ⟨.ofNat (if negative then 0x80000000 + rest else rest)⟩

/-- A number whose magnitude is of single precision. The highest bit of the significand, where
there is one, counts the exponent up. -/
def finite (negative : Bool) (m : Magnitude) : Single :=
  withSign negative ((m.exponent - single.least).toNat * 0x800000 + m.significand)

def infinite (negative : Bool) : Single :=
  withSign negative (0xFF * 0x800000)

/-!
## Reading

The digits of a numeral are taken up while they fit 64 bits. Further whole digits only count
towards the power of ten, further fraction digits are dropped. The power of ten is then applied
in double precision, at most 308 places at a time.
-/

def digitValue (c : Char) : Nat :=
  c.toNat - '0'.toNat

/-- Takes up digits while the number fits; also gives the digits that are left over. -/
def takeDigits (n : Nat) : List Char → Nat × List Char
  | [] => (n, [])
  | c :: rest =>
    if n * 10 + digitValue c < wordLimit then takeDigits (n * 10 + digitValue c) rest
    else (n, c :: rest)

/-- The digits of a numeral as a number that fits, times a power of ten. -/
def scientific (n : Numeral) : Nat × Int :=
  let (whole, dropped) := takeDigits 0 n.whole
  let (all, unread) := takeDigits whole n.fraction
  (all, (dropped.length : Int) - (n.fraction.length - unread.length : Nat) + n.exponent.getD 0)

def tenToThe (places : Nat) : Magnitude :=
  (double.round? (Nat.pow 10 places) 1).getD ⟨0, 0⟩

/-- Divides by a power of ten. -/
def divideByTens (m : Magnitude) (places : Nat) : Option Magnitude :=
  if places ≤ 308 ∨ m.significand = 0 then double.div? m (tenToThe (min places 308))
  else (double.div? m (tenToThe 308)).bind fun m => divideByTens m (places - 308)
termination_by places

/-- Multiplies by a power of ten; none when the result is beyond double precision. -/
def multiplyByTens (m : Magnitude) (places : Nat) : Option Magnitude :=
  if m.significand = 0 then some m
  else if places ≤ 308 then double.mul? m (tenToThe places)
  else none

/-- The magnitude of a numeral in double precision. -/
def doubleOfNumeral? (n : Numeral) : Option Magnitude :=
  let (digits, exponent) := scientific n
  (double.round? digits 1).bind fun m =>
    if 0 ≤ exponent then multiplyByTens m exponent.toNat
    else divideByTens m exponent.natAbs

/-- Rounds a quotient to single precision. -/
def round (negative : Bool) (num den : Nat) : Single :=
  match single.round? num den with
  | some m => finite negative m
  | none => infinite negative

/-- Whether a numeral is a whole number that is read exactly: 64 bits, or 63 and a minus
sign. -/
def isExactWhole (n : Numeral) : Bool :=
  let value := Nat.ofDigitChars 10 n.whole 0
  n.fraction.isEmpty && n.exponent.isNone &&
    if n.negative then 0 < value && 2 * value ≤ wordLimit else value < wordLimit

/-- The number a numeral denotes. A whole number is rounded once, any other first to double
precision; a numeral beyond double precision denotes none.
-/
def ofNumeral? (n : Numeral) : Option Single :=
  if isExactWhole n then some (round n.negative (Nat.ofDigitChars 10 n.whole 0) 1)
  else (doubleOfNumeral? n).map fun m => round n.negative m.ratio.1 m.ratio.2

/-!
## Writing
-/

/-- Where the point stands decides the layout of a decimal. -/
structure Layout where
  /-- Positional notation goes up to this many places before the point. -/
  maxWhole : Int := 13
  /-- Positional notation goes down to fewer than this many zeros behind the point. -/
  maxZeros : Int := 6

/-- Lays out digits whose point stands behind the `point`-th of them. -/
def layOut (layout : Layout) (negative : Bool) (digits : List Char) (point : Int) : Numeral :=
  if digits.length ≤ point ∧ point ≤ layout.maxWhole then
    ⟨negative, digits ++ List.replicate (point - digits.length).toNat '0', ['0'], none⟩
  else if 0 < point ∧ point ≤ layout.maxWhole then
    ⟨negative, digits.take point.toNat, digits.drop point.toNat, none⟩
  else if -layout.maxZeros < point ∧ point ≤ 0 then
    ⟨negative, ['0'], List.replicate point.natAbs '0' ++ digits, none⟩
  else ⟨negative, digits.take 1, digits.drop 1, some (point - 1)⟩

/-- The numeral of a magnitude: its shortest decimal, laid out. -/
def numeralOf (negative : Bool) (m : Magnitude) : Numeral :=
  if m.significand = 0 then ⟨negative, ['0'], ['0'], none⟩
  else
    let decimal := shortestSingle m
    let digits := Nat.toDigits 10 decimal.digits
    layOut {} negative digits (digits.length + decimal.exponent)

/-- The numeral a number is written as, if it is finite. -/
def toNumeral? (s : Single) : Option Numeral :=
  s.magnitude?.map (numeralOf s.isNegative)

def toJson (s : Single) : Json :=
  Json.orNull (s.toNumeral?.map .number)

end Single
end Jukebox
