/-!
# Reading decimal numbers

The number that a person or an exchange writes in decimal: `readFloat?` takes the whole text or
nothing, and gives the binary64 number nearest to the decimal. `readNatural?` reads a counting
number below a bound.
-/

namespace TriggerDesk.Decimal

/-- The value of a digit. -/
def digitValue (c : Char) : Nat := c.toNat - '0'.toNat

/-- The value of a list of digits. -/
def digitsValue (digits : List Char) : Nat :=
  digits.foldl (fun value c => 10 * value + digitValue c) 0

/-- The digits in front, and the rest. -/
def spanDigits (chars : List Char) : List Char × List Char :=
  (chars.takeWhile Char.isDigit, chars.dropWhile Char.isDigit)

/-- A sign in front, as whether it is a minus, and the rest. -/
def takeSign : List Char → Bool × List Char
  | '-' :: rest => (true, rest)
  | '+' :: rest => (false, rest)
  | rest => (false, rest)

/-- The number nearest to `digits * 10 ^ power`. The first test keeps the powers of ten small:
a decimal of more than 400 places before the point is above every finite number, and one that
starts more than 400 places behind it is nearest to zero. -/
def nearestFloat (digits : Nat) (power : Int) : Float :=
  let places : Int := (Nat.toDigits 10 digits).length + power
  if digits = 0 then 0
  else if 400 < places then 1 / 0
  else if places < -400 then 0
  else Float.ofScientific digits (power < 0) power.natAbs

/-- The power of ten at the end of a decimal: nothing, or a mark, a sign and digits. -/
def readPower? : List Char → Option Int
  | [] => some 0
  | c :: rest =>
    if c = 'e' ∨ c = 'E' then
      let (negative, digits) := takeSign rest
      if digits.isEmpty || !digits.all Char.isDigit then none
      else
        let power : Int := digitsValue digits
        some (if negative then -power else power)
    else none

/-- A decimal without a sign: digits on at least one side of the point, and a power of ten. -/
def readMagnitude? (chars : List Char) : Option Float :=
  let (whole, rest) := spanDigits chars
  let (fraction, rest) := match rest with
    | '.' :: rest => spanDigits rest
    | rest => ([], rest)
  if whole.isEmpty && fraction.isEmpty then none
  else (readPower? rest).map fun power =>
    nearestFloat (digitsValue (whole ++ fraction)) (power - fraction.length)

/-- The numbers that are written as a word, in any mixture of cases. -/
def readWord? (chars : List Char) : Option Float :=
  match String.ofList (chars.map Char.toLower) with
  | "inf" | "infinity" => some (1 / 0)
  | "nan" => some (0 / 0)
  | _ => none

/-- The number that a text is: an optional sign, then a word or a decimal. -/
def readFloat? (text : String) : Option Float :=
  let (negative, chars) := takeSign text.toList
  (readWord? chars <|> readMagnitude? chars).map fun x => if negative then -x else x

/-- The natural below `bound` that a text is: digits, after at most one plus sign. -/
def readNatural? (bound : Nat) (text : String) : Option Nat :=
  let digits := match text.toList with
    | '+' :: rest => rest
    | chars => chars
  if digits.isEmpty || !digits.all Char.isDigit then none
  else
    let value := digitsValue digits
    if value < bound then some value else none

end TriggerDesk.Decimal
