/-!
# The parts of a binary64 number

`Binary64.ofFloat` takes a `Float` apart into a sign, a significand and a power of two, all
exact. What prints a number works on these parts with `Nat` arithmetic alone.
-/

namespace TriggerDesk.Decimal

/-- A binary64 number in parts: a finite one is `significand * 2 ^ exponent`, negated when
`negative`. -/
inductive Binary64 where
  | nan
  | infinite (negative : Bool)
  | finite (negative : Bool) (significand : Nat) (exponent : Int)
  deriving DecidableEq, Repr

namespace Binary64

/-- The least significand of a number that is not subnormal. -/
def normal : Nat := Nat.pow 2 52

/-- The exponent of the smallest numbers. -/
def leastExponent : Int := -1074

/-- The parts of a `Float`. -/
def ofFloat (x : Float) : Binary64 :=
  let bits := x.toBits.toNat
  let negative := bits / Nat.pow 2 63 == 1
  let biased : Nat := bits / normal % 2048
  let fraction : Nat := bits % normal
  if biased = 2047 then (if fraction = 0 then infinite negative else nan)
  else if biased = 0 then finite negative fraction leastExponent
  else finite negative (normal + fraction) (leastExponent + (biased : Int) - 1)

end Binary64

end TriggerDesk.Decimal
