/-!
# Numerals

A number in a JSON text, kept as it is spelled: how many digits a number has, and whether it
has a point or an exponent, decides what may be read from it. Digits are kept as characters.
-/

namespace Jukebox

structure Numeral where
  negative : Bool
  /-- The digits before the point. -/
  whole : List Char
  /-- The digits behind the point; none when there is no point. -/
  fraction : List Char
  /-- The power of ten behind the letter e, if there is one. -/
  exponent : Option Int
  deriving DecidableEq

namespace Numeral

/-- The numeral of a natural number. -/
def ofNat (n : Nat) : Numeral :=
  ⟨false, Nat.toDigits 10 n, [], none⟩

/-- The number that is written with sign and digits only. -/
def toNat? (n : Numeral) : Option Nat :=
  if !n.negative && n.fraction.isEmpty && n.exponent.isNone then
    some (Nat.ofDigitChars 10 n.whole 0)
  else none

@[simp]
theorem toNat?_ofNat (n : Nat) : (ofNat n).toNat? = some n := by
  simp [ofNat, toNat?, Nat.ofDigitChars_toDigits]

/-!
## Spelling
-/

/-- The spelling of an exponent, which always has a sign. -/
def exponentChars (e : Int) : List Char :=
  'e' :: (if e < 0 then '-' else '+') :: Nat.toDigits 10 e.natAbs

def chars (n : Numeral) : List Char :=
  (if n.negative then ['-'] else []) ++ n.whole ++
    (if n.fraction.isEmpty then [] else '.' :: n.fraction) ++
    match n.exponent with
    | some e => exponentChars e
    | none => []

/-!
## Reading

A numeral is an optional minus sign, whole digits without a needless zero in front, an optional
point with at least one digit behind it, and an optional exponent with its own sign.
-/

/-- Whole digits are a single zero or start with another digit. -/
def isWhole : List Char → Bool
  | [] => false
  | ['0'] => true
  | c :: _ => c != '0'

/-- Reads what follows the letter e. -/
def exponentOfChars? (cs : List Char) : Option Int :=
  let (negative, digits) : Bool × List Char :=
    match cs with
    | '-' :: rest => (true, rest)
    | '+' :: rest => (false, rest)
    | _ => (false, cs)
  if digits.isEmpty || !digits.all Char.isDigit then none
  else
    let size : Int := Nat.ofDigitChars 10 digits 0
    some (if negative then -size else size)

/-- Reads what follows the digits of sign, whole and fraction. -/
def exponentPart? : List Char → Option (Option Int)
  | [] => some none
  | c :: rest => if c = 'e' ∨ c = 'E' then (exponentOfChars? rest).map some else none

/-- Reads a numeral that has lost its sign. -/
def unsigned? (negative : Bool) (cs : List Char) : Option Numeral :=
  let whole := cs.takeWhile Char.isDigit
  if !isWhole whole then none
  else
    match cs.dropWhile Char.isDigit with
    | '.' :: rest =>
      let fraction := rest.takeWhile Char.isDigit
      if fraction.isEmpty then none
      else (exponentPart? (rest.dropWhile Char.isDigit)).map fun e =>
        ⟨negative, whole, fraction, e⟩
    | rest => (exponentPart? rest).map fun e => ⟨negative, whole, [], e⟩

def ofChars? : List Char → Option Numeral
  | '-' :: rest => unsigned? true rest
  | cs => unsigned? false cs

end Numeral
end Jukebox
