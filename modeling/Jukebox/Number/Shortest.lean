import Jukebox.Number.Binary

/-!
# Shortest decimals

The shortest decimal of a magnitude has the fewest digits among those that are nearer to it
than to any other number of the format. Of several such decimals the one nearest to the
magnitude is taken.
-/

namespace Jukebox
namespace Number

/-- The number `digits * 10 ^ exponent`. -/
structure Decimal where
  digits : Nat
  exponent : Int
  deriving DecidableEq

/-- The numbers that round to a magnitude: those between the midpoints to its two neighbours.
All three are counted in quarters of the last place. The midpoints belong to it when its
significand is even.
-/
structure Interval where
  low : Nat
  value : Nat
  high : Nat
  closed : Bool

/-- The interval of a magnitude. Below a power of two the numbers of a format lie closer
together. -/
def Format.interval (f : Format) (m : Magnitude) : Interval where
  low :=
    if m.significand = 1 <<< (f.precision - 1) ∧
      f.least < m.exponent then 4 * m.significand - 1
    else 4 * m.significand - 2
  value := 4 * m.significand
  high := 4 * m.significand + 2
  closed := m.significand % 2 = 0

namespace Interval

/-- Whether a quotient, counted in the same quarters, lies in the interval. -/
def contains (i : Interval) (num den : Nat) : Bool :=
  if i.closed then i.low * den ≤ num && num ≤ i.high * den
  else i.low * den < num && num < i.high * den

end Interval

/-- The power of ten as numerator and denominator. -/
def powerOfTen (exponent : Int) : Nat × Nat :=
  (Nat.pow 10 exponent.toNat, Nat.pow 10 (-exponent).toNat)

/-- The multiple of a power of ten that rounds to the magnitude and lies nearest to it. It is
one of the two neighbours of the magnitude among these multiples.
-/
def Format.onGrid? (f : Format) (m : Magnitude) (exponent : Int) : Option Decimal :=
  let interval := f.interval m
  let (tenNum, tenDen) := powerOfTen exponent
  let (unitNum, unitDen) := (Magnitude.mk 1 (m.exponent - 2)).ratio
  -- One step of the grid is `stepNum / stepDen` quarters.
  let stepNum := tenNum * unitDen
  let stepDen := tenDen * unitNum
  let below := interval.value * stepDen / stepNum
  let hit (digits : Nat) : Bool := digits != 0 && interval.contains (digits * stepNum) stepDen
  match hit below, hit (below + 1) with
  | true, true => some ⟨nearest (interval.value * stepDen) stepNum, exponent⟩
  | true, false => some ⟨below, exponent⟩
  | false, true => some ⟨below + 1, exponent⟩
  | false, false => none

/-- Tries ever finer grids. -/
def Format.shortestFrom (f : Format) (m : Magnitude) : Nat → Int → Decimal
  | 0, exponent => ⟨0, exponent⟩
  | tries + 1, exponent =>
    match f.onGrid? m exponent with
    | some decimal => decimal
    | none => f.shortestFrom m tries (exponent - 1)

/-- The shortest decimal of a positive single-precision magnitude. -/
def shortestSingle (m : Magnitude) : Decimal :=
  single.shortestFrom m 100 39

end Number
end Jukebox
