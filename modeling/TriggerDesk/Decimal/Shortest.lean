import TriggerDesk.Decimal.Binary64

/-!
# The shortest decimal that reads back

Between the decimals that a reader rounds to a given binary64 number, `shortest` picks one with
the fewest digits, and of those the nearest to the number. The decimals that round to the
number form an interval; a grid of decimals `c * 10 ^ k` meets the interval only if one of the
two grid points around the number does, so it is enough to look at these two, from coarse grids
to fine ones. All comparisons are between naturals, so nothing is rounded on the way.
-/

namespace TriggerDesk.Decimal

/-- Which of two decimals with the number exactly between them is written. -/
inductive Tie where
  /-- The one whose last digit is even. -/
  | even
  /-- The greater one. -/
  | up
  deriving DecidableEq, Repr

/-- The decimals that round to a number, as bounds on `c * step` for a grid point `c`: every
field is scaled by the same factor, which makes it a natural. -/
structure Interval where
  low : Nat
  value : Nat
  high : Nat
  /-- Whether the bounds themselves round to the number. -/
  closed : Bool
  deriving DecidableEq, Repr

/-- The interval of the number `significand * 2 ^ exponent` in quarters of its last place: the
bounds are half a place away, below the least normal significand a quarter. -/
def Interval.ofParts (significand : Nat) (exponent : Int) : Interval :=
  let narrow := significand = Binary64.normal ∧ Binary64.leastExponent < exponent
  { low := 4 * significand - (if narrow then 1 else 2)
    value := 4 * significand
    high := 4 * significand + 2
    closed := significand % 2 = 0 }

/-- Whether the grid point at `point` rounds to the number. -/
def Interval.holds (interval : Interval) (point : Nat) : Bool :=
  if interval.closed then interval.low ≤ point && point ≤ interval.high
  else interval.low < point && point < interval.high

/-- Every field multiplied by `factor`. -/
def Interval.scale (interval : Interval) (factor : Nat) : Interval :=
  { interval with
    low := interval.low * factor, value := interval.value * factor
    high := interval.high * factor }

/-- The grid point that is written, if one of the two around the number rounds to it. -/
def Interval.nearest? (tie : Tie) (interval : Interval) (step : Nat) : Option Nat :=
  let below := interval.value / step
  match interval.holds (below * step), interval.holds ((below + 1) * step) with
  | true, true =>
    let left := interval.value - below * step
    let right := (below + 1) * step - interval.value
    let takeBelow := match tie with
      | .even => left < right || (left = right && below % 2 = 0)
      | .up => left < right
    some (if takeBelow then below else below + 1)
  | true, false => some below
  | false, true => some (below + 1)
  | false, false => none

/-- `2 ^ exponent` over `10 ^ place` as a quotient of two naturals. -/
def gridScale (exponent place : Int) : Nat × Nat :=
  (Nat.pow 2 exponent.toNat * Nat.pow 10 (-place).toNat,
    Nat.pow 2 (-exponent).toNat * Nat.pow 10 place.toNat)

/-- The first of the grids of `fuel` places from `place` down that has a point to write, with
that point; the last grid's lower neighbour if none has. -/
def searchGrids (tie : Tie) (significand : Nat) (exponent : Int) : Nat → Int → Nat × Int
  | fuel, place =>
    let (factor, step) := gridScale (exponent - 2) place
    let interval := (Interval.ofParts significand exponent).scale factor
    match interval.nearest? tie step, fuel with
    | some point, _ => (point, place)
    | none, 0 => (interval.value / step, place)
    | none, fuel + 1 => searchGrids tie significand exponent fuel (place - 1)

/-- A place above the leading digit of the number: `log10 2` is a little below 0.30103. -/
def placeAbove (significand : Nat) (exponent : Int) : Int :=
  (exponent + significand.log2 + 1) * 30103 / 100000 + 1

/-- The digits and the place of the last one of the shortest decimal of a positive number. -/
def shortest (tie : Tie) (significand : Nat) (exponent : Int) : Nat × Int :=
  searchGrids tie significand exponent 24 (placeAbove significand exponent)

end TriggerDesk.Decimal
