import TriggerDesk.Decimal.Reader

/-!
# The numbers of JSON text

A numeral is a sign, whole digits, perhaps a fraction and perhaps an exponent (`Numeral`). Its
value (`Numeral.number?`) is an integer when it is written as one and fits 64 bits, and a
binary64 number otherwise. The binary64 value is computed as the wire format lays down: as many
digits as fit 64 bits are kept, the rest only move the exponent, and the kept digits are
multiplied or divided by one rounded power of ten. That is close to the decimal and not always
the number nearest to it.
-/

namespace TriggerDesk.Json

/-- The value of a numeral. -/
inductive Number where
  /-- A whole number from `0` to `2 ^ 64 - 1`. -/
  | natural (n : Nat)
  /-- The number `-n`, from `-2 ^ 63` to `-1`. -/
  | negative (n : Nat)
  | real (x : Float)
  deriving DecidableEq, Repr

/-- The number as a binary64 number, rounded if it is a large integer. -/
def Number.toFloat : Number → Float
  | natural n => (UInt64.ofNat n).toFloat
  | negative n => -(UInt64.ofNat n).toFloat
  | real x => x

/-- The number as a signed 64-bit integer; only a numeral written as an integer has one. -/
def Number.toInt64? : Number → Option Int
  | natural n => if n < Nat.pow 2 63 then some n else none
  | negative n => some (-(n : Int))
  | real _ => none

/-- A numeral as it stands in the text. The exponent is its sign and its digits. -/
structure Numeral where
  negative : Bool
  whole : List Char
  fraction : Option (List Char)
  exponent : Option (Bool × List Char)
  deriving DecidableEq, Repr

/-- The first number that 64 bits do not hold. -/
def wordBound : Nat := Nat.pow 2 64

/-- The digits of a numeral that are kept, and the power of ten that goes with them. -/
structure Scaled where
  kept : Nat
  power : Int
  deriving DecidableEq, Repr

/-- Appends whole digits. From the first digit that does not fit on, each digit raises the
power instead. -/
def Scaled.appendWhole (scaled : Scaled) : List Char → Scaled
  | [] => scaled
  | d :: rest =>
    let next := 10 * scaled.kept + Decimal.digitValue d
    if next < wordBound then appendWhole { scaled with kept := next } rest
    else { scaled with power := scaled.power + (rest.length + 1) }

/-- Appends the digits of a fraction. From the first digit that does not fit on, the digits
are dropped. -/
def Scaled.appendFraction (scaled : Scaled) : List Char → Scaled
  | [] => scaled
  | d :: rest =>
    let next := 10 * scaled.kept + Decimal.digitValue d
    if next < wordBound then appendFraction ⟨next, scaled.power - 1⟩ rest
    else scaled

/-- The binary64 number nearest to `10 ^ n`, for the powers in range. -/
def powerOfTen (n : Nat) : Float := Float.ofScientific 1 false n

/-- The greatest power of ten that binary64 has. -/
def greatestPower : Nat := 308

/-- Divides by `10 ^ n`, in steps of the greatest power; a zero stays as it is. -/
def divideByPower (x : Float) (n : Nat) : Nat → Float
  | 0 => x / powerOfTen n
  | steps + 1 =>
    if n ≤ greatestPower then x / powerOfTen n
    else if x == 0 then x
    else divideByPower (x / powerOfTen greatestPower) (n - greatestPower) steps

/-- The binary64 number of the kept digits, unless it is out of range. Twenty digits are zero
after three steps down, so three steps are enough. -/
def Scaled.toFloat? (scaled : Scaled) : Option Float :=
  let x := (UInt64.ofNat scaled.kept).toFloat
  if 0 ≤ scaled.power then
    if scaled.power.toNat ≤ greatestPower then
      let y := x * powerOfTen scaled.power.toNat
      if y.isInf then none else some y
    else if x == 0 then some x
    else none
  else some (divideByPower x (-scaled.power).toNat 3)

/-- The first exponent that 32 bits do not hold. -/
def exponentBound : Nat := Nat.pow 2 31

/-- The digits of an exponent up to and with the first one at which it leaves 32 bits, or
`none` if it never does. -/
def overflowingDigits? (digits : List Char) : Option Nat :=
  (List.range digits.length).find? (fun i =>
    exponentBound ≤ Decimal.digitsValue (digits.take (i + 1))) |>.map (· + 1)

/-- An exponent kept within 32 bits. -/
def clampExponent (power : Int) : Int :=
  max (-(exponentBound : Int)) (min (exponentBound - 1) power)

/-- The binary64 number of a numeral, unless it is out of range. -/
def Numeral.real? (numeral : Numeral) : Option Float :=
  let scaled := (Scaled.mk 0 0).appendWhole numeral.whole
  let scaled := scaled.appendFraction (numeral.fraction.getD [])
  let magnitude := match numeral.exponent with
    | none => scaled.toFloat?
    | some (negative, digits) =>
      match overflowingDigits? digits with
      | some _ => if scaled.kept ≠ 0 ∧ !negative then none else some 0
      | none =>
        let exponent : Int := Decimal.digitsValue digits
        let power := scaled.power + (if negative then -exponent else exponent)
        { scaled with power := clampExponent power }.toFloat?
  magnitude.map fun x => if numeral.negative then -x else x

/-- The value of a numeral, unless it is out of range. Minus zero has no integer of its own
and is a binary64 number. -/
def Numeral.number? (numeral : Numeral) : Option Number :=
  let n := Decimal.digitsValue numeral.whole
  if numeral.fraction.isSome || numeral.exponent.isSome || wordBound ≤ n then
    numeral.real?.map .real
  else if !numeral.negative then some (.natural n)
  else if n = 0 || Nat.pow 2 63 < n then some (.real (-(UInt64.ofNat n).toFloat))
  else some (.negative n)

end TriggerDesk.Json
