import TriggerDesk.Decimal.Shortest

/-!
# How a number is laid out

`Layout` says how a format writes the digits that `shortest` chose: where the point stands, when
a power of ten is used, and what stands for the numbers without digits. `Layout.plain` is the
form for people, `Layout.json` the form on the wire.
-/

namespace TriggerDesk.Decimal

/-- The decisions of a format of decimal numbers. -/
structure Layout where
  tie : Tie
  /-- The least and greatest power of ten of a leading digit that is written without an
  exponent; `none` if no exponent is ever written. -/
  positional : Option (Int × Int)
  /-- Whether a whole number gets a point and a zero. -/
  pointed : Bool
  nan : String
  infinity : String
  negativeInfinity : String
  deriving DecidableEq, Repr

/-- Numbers for people: no exponent and no point in a whole number; of two shortest decimals at
the same distance the greater is written. -/
def Layout.plain : Layout :=
  { tie := .up, positional := none, pointed := false
    nan := "NaN", infinity := "inf", negativeInfinity := "-inf" }

/-- Numbers in JSON text: from `0.00001` to below `1e+16` without an exponent, always with a
point; of two shortest decimals at the same distance the even one is written. JSON has no
number that is not finite. -/
def Layout.json : Layout :=
  { tie := .even, positional := some (-5, 15), pointed := true
    nan := "null", infinity := "null", negativeInfinity := "null" }

/-- The digits of a natural. -/
def digitsOf (n : Nat) : List Char := Nat.toDigits 10 n

/-- Digits with their last one at `place`, without an exponent. -/
def placePositional (pointed : Bool) (digits : List Char) (place : Int) : List Char :=
  if 0 ≤ place then
    digits ++ List.replicate place.toNat '0' ++ (if pointed then ['.', '0'] else [])
  else
    let fraction := (-place).toNat
    if fraction < digits.length then
      digits.take (digits.length - fraction) ++ '.' :: digits.drop (digits.length - fraction)
    else
      '0' :: '.' :: (List.replicate (fraction - digits.length) '0' ++ digits)

/-- An exponent with its sign. -/
def exponentText (power : Int) : List Char :=
  (if power < 0 then '-' else '+') :: digitsOf power.natAbs

/-- Digits whose leading one stands for `10 ^ power`, with that exponent. -/
def placeScientific (digits : List Char) (power : Int) : List Char :=
  match digits with
  | [] => []
  | [d] => d :: 'e' :: exponentText power
  | d :: rest => d :: '.' :: (rest ++ 'e' :: exponentText power)

/-- Whether a leading digit that stands for `10 ^ power` is written without an exponent. -/
def Layout.isPositional (layout : Layout) (power : Int) : Bool :=
  match layout.positional with
  | none => true
  | some (least, greatest) => least ≤ power && power ≤ greatest

/-- A number that is not negative. -/
def Layout.magnitude (layout : Layout) (significand : Nat) (exponent : Int) : List Char :=
  if significand = 0 then placePositional layout.pointed ['0'] 0
  else
    let (point, place) := shortest layout.tie significand exponent
    let digits := digitsOf point
    let power := place + digits.length - 1
    if layout.isPositional power then placePositional layout.pointed digits place
    else placeScientific digits power

/-- The text of a number. -/
def Layout.write (layout : Layout) (x : Float) : String :=
  match Binary64.ofFloat x with
  | .nan => layout.nan
  | .infinite false => layout.infinity
  | .infinite true => layout.negativeInfinity
  | .finite negative significand exponent =>
    String.ofList ((if negative then ['-'] else []) ++ layout.magnitude significand exponent)

end TriggerDesk.Decimal
