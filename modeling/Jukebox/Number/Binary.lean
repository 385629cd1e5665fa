/-!
# Binary formats

A binary format holds numbers `significand * 2 ^ exponent` with a bounded significand. This
module rounds a quotient of natural numbers to the nearest number of a format. A tie goes to
the even significand.
-/

namespace Jukebox
namespace Number

/-- A binary format: bits of the significand, and the range of its exponents. -/
structure Format where
  precision : Nat
  least : Int
  greatest : Int
  deriving DecidableEq

def single : Format :=
  ⟨24, -149, 104⟩

def double : Format :=
  ⟨53, -1074, 971⟩

/-- The number `significand * 2 ^ exponent`. -/
structure Magnitude where
  significand : Nat
  exponent : Int
  deriving DecidableEq

namespace Magnitude

/-- A magnitude as numerator and denominator. -/
def ratio (m : Magnitude) : Nat × Nat :=
  (m.significand <<< m.exponent.toNat, 1 <<< (-m.exponent).toNat)

end Magnitude

/-- The natural number nearest to a quotient; a half goes to the even neighbour. -/
def nearest (num den : Nat) : Nat :=
  let quotient := num / den
  let rest := num % den
  if 2 * rest < den then quotient
  else if den < 2 * rest then quotient + 1
  else if quotient % 2 = 0 then quotient
  else quotient + 1

/-- A quotient divided by a power of two, as numerator and denominator. -/
def descale (num den : Nat) (exponent : Int) : Nat × Nat :=
  (num <<< (-exponent).toNat, den <<< exponent.toNat)

namespace Format

/-- The exponent at which a positive quotient fills the significand, or the least one. -/
def exponentOf (f : Format) (num den : Nat) : Int :=
  let guess : Int := (Nat.log2 num : Int) - Nat.log2 den - f.precision
  let (n, d) := descale num den guess
  max f.least (if n < d <<< f.precision then guess else guess + 1)

/-- The number of the format nearest to a quotient; none when it lies beyond the largest
one. -/
def round? (f : Format) (num den : Nat) : Option Magnitude :=
  if num = 0 then some ⟨0, f.least⟩
  else
    let exponent := f.exponentOf num den
    let (n, d) := descale num den exponent
    let significand := nearest n d
    let rounded : Magnitude :=
      if significand < 1 <<< f.precision then ⟨significand, exponent⟩
      else ⟨1 <<< (f.precision - 1), exponent + 1⟩
    if rounded.exponent ≤ f.greatest then some rounded else none

end Format

/-!
## Arithmetic

Products and quotients are computed exactly and rounded once.
-/

def Format.mul? (f : Format) (a b : Magnitude) : Option Magnitude :=
  f.round? (a.ratio.1 * b.ratio.1) (a.ratio.2 * b.ratio.2)

def Format.div? (f : Format) (a b : Magnitude) : Option Magnitude :=
  f.round? (a.ratio.1 * b.ratio.2) (a.ratio.2 * b.ratio.1)

end Number
end Jukebox
