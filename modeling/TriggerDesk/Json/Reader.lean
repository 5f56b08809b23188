import TriggerDesk.Json.Document
import TriggerDesk.Json.Fault

/-!
# Reading JSON text

`readDocument` reads one JSON document from a text, by rules that say what becomes of the
scalars and how deep a document may be. Under `Rules.strict` a number out of range, a surrogate
without its partner and the 128th open bracket are faults, and the result is a value
(`readValue`). Under `Rules.lenient` such a scalar is a scalar without a value, and any depth is
read (`readLenient`): this is for the parts of a message that nobody looks at.
-/

namespace TriggerDesk.Json

/-- How the scalars and the depth of a document are treated. `text` reads a text behind its
opening quote; `number` gives the value of a numeral that stands in front of the characters,
or a fault. -/
structure Rules (τ ν : Type) where
  text : List Char → Except Fault (τ × List Char)
  number : Numeral → List Char → Except Fault ν
  /-- The brackets that may be open at once, if there is a limit. -/
  depth : Option Nat

/-! ## Blanks, literals and numerals -/

/-- The blanks of JSON. -/
def isSpace (c : Char) : Bool := c = ' ' || c = '\n' || c = '\t' || c = '\r'

def skipSpace (chars : List Char) : List Char := chars.dropWhile isSpace

/-- Reads the letters of a literal. -/
def scanLiteral : List Char → List Char → Except Fault (List Char)
  | [], rest => .ok rest
  | _ :: _, [] => .error (.here .endInValue [])
  | letter :: letters, c :: rest =>
    if c = letter then scanLiteral letters rest else .error (.here .notALiteral (c :: rest))

/-- One digit or more; without one, the numeral is broken off or wrong. -/
def scanDigits (chars : List Char) : Except Fault (List Char × List Char) :=
  match Decimal.spanDigits chars with
  | ([], []) => .error (.here .endInValue [])
  | ([], rest) => .error (.here .notANumeral rest)
  | (digits, rest) => .ok (digits, rest)

/-- The whole part of a numeral: a zero alone, or digits that start with another one. -/
def scanWhole : List Char → Except Fault (List Char × List Char)
  | '0' :: d :: rest =>
    if d.isDigit then .error (.here .notANumeral (d :: rest)) else .ok (['0'], d :: rest)
  | chars => scanDigits chars

def scanFraction : List Char → Except Fault (Option (List Char) × List Char)
  | '.' :: rest => do
    let (digits, rest) ← scanDigits rest
    return (some digits, rest)
  | rest => .ok (none, rest)

def scanExponent (chars : List Char) : Except Fault (Option (Bool × List Char) × List Char) :=
  match chars with
  | c :: rest =>
    if c = 'e' ∨ c = 'E' then do
      let (negative, rest) := Decimal.takeSign rest
      let (digits, rest) ← scanDigits rest
      return (some (negative, digits), rest)
    else .ok (none, chars)
  | [] => .ok (none, [])

/-- A numeral. -/
def scanNumeral (chars : List Char) : Except Fault (Numeral × List Char) := do
  let (negative, chars) := match chars with
    | '-' :: rest => (true, rest)
    | _ => (false, chars)
  let (whole, chars) ← scanWhole chars
  let (fraction, chars) ← scanFraction chars
  let (exponent, chars) ← scanExponent chars
  return ({ negative, whole, fraction, exponent }, chars)

/-- The place at which a numeral turns out to be out of range: where its exponent leaves 32
bits, or else its end. The characters given are those after the numeral. -/
def rangeFault (numeral : Numeral) (rest : List Char) : Fault :=
  match numeral.exponent with
  | some (_, digits) =>
    match overflowingDigits? digits with
    | some count => .before .numberOutOfRange (digits.drop count ++ rest)
    | none => .before .numberOutOfRange rest
  | none => .before .numberOutOfRange rest

/-! ## Texts -/

/-- The value of a hexadecimal digit. -/
def hexValue? (c : Char) : Option Nat :=
  if c.isDigit then some (c.toNat - '0'.toNat)
  else if 'a' ≤ c ∧ c ≤ 'f' then some (c.toNat - 'a'.toNat + 10)
  else if 'A' ≤ c ∧ c ≤ 'F' then some (c.toNat - 'A'.toNat + 10)
  else none

/-- The code unit of four hexadecimal digits. -/
def unitOf? (a b c d : Char) : Option Nat := do
  return (((← hexValue? a) * 16 + (← hexValue? b)) * 16 + (← hexValue? c)) * 16 + (← hexValue? d)

def isHighSurrogate (unit : Nat) : Bool := 0xD800 ≤ unit && unit ≤ 0xDBFF

def isLowSurrogate (unit : Nat) : Bool := 0xDC00 ≤ unit && unit ≤ 0xDFFF

/-- The character of a pair of surrogates. -/
def pairChar (high low : Nat) : Char :=
  Char.ofNat ((high - 0xD800) * 0x400 + (low - 0xDC00) + 0x10000)

/-- The fault of a numbered escape whose four digits are not all there. Four bytes are taken
before they are looked at. -/
def unitFault (rest : List Char) : Fault :=
  if (bytesOf rest).length < 4 then .here .endInText [] else ⟨.unknownEscape, rest, 4⟩

/-- The character of an escape with one letter. -/
def letterEscape? : Char → Option Char
  | '"' => some '"'
  | '\\' => some '\\'
  | '/' => some '/'
  | 'b' => some '\x08'
  | 'f' => some '\x0c'
  | 'n' => some '\n'
  | 'r' => some '\r'
  | 't' => some '\t'
  | _ => none

/-- Puts a character in front of a text that was read. -/
def consChar (c : Char) (scan : Except Fault (List Char × List Char)) :
    Except Fault (List Char × List Char) :=
  scan.map fun (text, rest) => (c :: text, rest)

/-- The characters of a text behind its opening quote. -/
def scanText : List Char → Except Fault (List Char × List Char)
  | [] => .error (.here .endInText [])
  | '"' :: rest => .ok ([], rest)
  | '\\' :: 'u' :: a :: b :: c :: d :: rest =>
    match unitOf? a b c d with
    | none => .error (unitFault (a :: b :: c :: d :: rest))
    | some unit =>
      if isLowSurrogate unit then .error (.before .loneSurrogate rest)
      else if isHighSurrogate unit then
        match rest with
        | '\\' :: 'u' :: a :: b :: c :: d :: rest =>
          match unitOf? a b c d with
          | none => .error (unitFault (a :: b :: c :: d :: rest))
          | some low =>
            if isLowSurrogate low then consChar (pairChar unit low) (scanText rest)
            else .error (.before .loneSurrogate rest)
        | '\\' :: 'u' :: rest => .error (unitFault rest)
        | ['\\'] => .error (.here .endInText [])
        | '\\' :: rest => .error (.here .unfinishedPair rest)
        | [] => .error (.here .endInText [])
        | rest => .error (.here .unfinishedPair rest)
      else consChar (Char.ofNat unit) (scanText rest)
  | '\\' :: 'u' :: rest => .error (unitFault rest)
  | ['\\'] => .error (.here .endInText [])
  | '\\' :: c :: rest =>
    match letterEscape? c with
    | some d => consChar d (scanText rest)
    | none => .error (.here .unknownEscape (c :: rest))
  | c :: rest =>
    if c.toNat < 0x20 then .error (.here .controlCharacter (c :: rest))
    else consChar c (scanText rest)

/-- The end of a text behind its opening quote, if it has one. Numbered escapes need their four
digits, but surrogates need no partner. -/
def skipText : List Char → Except Fault (List Char)
  | [] => .error (.here .endInText [])
  | '"' :: rest => .ok rest
  | '\\' :: 'u' :: a :: b :: c :: d :: rest =>
    match unitOf? a b c d with
    | none => .error (unitFault (a :: b :: c :: d :: rest))
    | some _ => skipText rest
  | '\\' :: 'u' :: rest => .error (unitFault rest)
  | ['\\'] => .error (.here .endInText [])
  | '\\' :: c :: rest =>
    match letterEscape? c with
    | some _ => skipText rest
    | none => .error (.here .unknownEscape (c :: rest))
  | c :: rest =>
    if c.toNat < 0x20 then .error (.here .controlCharacter (c :: rest)) else skipText rest

/-! ## Rules -/

/-- Every scalar must have a value, and at most 127 brackets may be open. -/
def Rules.strict : Rules String Number where
  text chars := (scanText chars).map fun (text, rest) => (String.ofList text, rest)
  number numeral rest :=
    match numeral.number? with
    | some n => .ok n
    | none => .error (rangeFault numeral rest)
  depth := some 127

/-- Scalars without a value are kept as such, and any number of brackets may be open. -/
def Rules.lenient : Rules (Option String) (Option Number) where
  text chars := do
    let rest ← skipText chars
    match scanText chars with
    | .ok (text, rest) => return (some (String.ofList text), rest)
    | .error _ => return (none, rest)
  number numeral _ := .ok numeral.number?
  depth := none

/-! ## Documents -/

/-- The brackets that may be open behind one more. -/
def deeper (chars : List Char) : Option Nat → Except Fault (Option Nat)
  | none => .ok none
  | some 0 => .error (.here .tooDeep chars)
  | some (n + 1) => .ok (some n)

/-- The blanks and the colon behind a name. -/
def scanColon (chars : List Char) : Except Fault (List Char) :=
  match skipSpace chars with
  | ':' :: rest => .ok rest
  | [] => .error (.here .endInObject [])
  | rest => .error (.here .noColon rest)

variable {τ ν : Type}

mutual

/-- One document and the characters behind it. -/
def scanDocument (rules : Rules τ ν) (depth : Option Nat) :
    Nat → List Char → Except Fault (Document τ ν × List Char)
  | 0, chars => .error (.here .endInValue chars)
  | fuel + 1, chars =>
    match skipSpace chars with
    | [] => .error (.here .endInValue [])
    | 'n' :: rest => do return (.null, ← scanLiteral ['u', 'l', 'l'] rest)
    | 't' :: rest => do return (.bool true, ← scanLiteral ['r', 'u', 'e'] rest)
    | 'f' :: rest => do return (.bool false, ← scanLiteral ['a', 'l', 's', 'e'] rest)
    | '"' :: rest => do
      let (text, rest) ← rules.text rest
      return (.text text, rest)
    | '[' :: rest => do
      let depth ← deeper ('[' :: rest) depth
      let (items, rest) ← scanItems rules depth fuel rest
      return (.array items, rest)
    | '\x7b' :: rest => do
      let depth ← deeper ('\x7b' :: rest) depth
      let (members, rest) ← scanMembers rules depth fuel rest
      return (.object members, rest)
    | c :: rest =>
      if c = '-' ∨ c.isDigit then do
        let (numeral, rest) ← scanNumeral (c :: rest)
        return (.number (← rules.number numeral rest), rest)
      else .error (.here .notAValue (c :: rest))

/-- The items of an array behind its opening bracket. -/
def scanItems (rules : Rules τ ν) (depth : Option Nat) :
    Nat → List Char → Except Fault (List (Document τ ν) × List Char)
  | 0, chars => .error (.here .endInArray chars)
  | fuel + 1, chars =>
    match skipSpace chars with
    | [] => .error (.here .endInArray [])
    | ']' :: rest => .ok ([], rest)
    | rest => do
      let (item, rest) ← scanDocument rules depth fuel rest
      let (items, rest) ← scanMoreItems rules depth fuel rest
      return (item :: items, rest)

/-- The items behind one item. -/
def scanMoreItems (rules : Rules τ ν) (depth : Option Nat) :
    Nat → List Char → Except Fault (List (Document τ ν) × List Char)
  | 0, chars => .error (.here .endInArray chars)
  | fuel + 1, chars =>
    match skipSpace chars with
    | [] => .error (.here .endInArray [])
    | ']' :: rest => .ok ([], rest)
    | ',' :: rest =>
      match skipSpace rest with
      | [] => .error (.here .endInValue [])
      | ']' :: rest => .error (.here .trailingComma (']' :: rest))
      | rest => do
        let (item, rest) ← scanDocument rules depth fuel rest
        let (items, rest) ← scanMoreItems rules depth fuel rest
        return (item :: items, rest)
    | rest => .error (.here .noCommaInArray rest)

/-- The members of an object behind its opening brace. -/
def scanMembers (rules : Rules τ ν) (depth : Option Nat) :
    Nat → List Char → Except Fault (List (τ × Document τ ν) × List Char)
  | 0, chars => .error (.here .endInObject chars)
  | fuel + 1, chars =>
    match skipSpace chars with
    | [] => .error (.here .endInObject [])
    | '\x7d' :: rest => .ok ([], rest)
    | rest => scanMember rules depth fuel rest

/-- A member, at its name, and the members behind it. -/
def scanMember (rules : Rules τ ν) (depth : Option Nat) :
    Nat → List Char → Except Fault (List (τ × Document τ ν) × List Char)
  | 0, chars => .error (.here .endInObject chars)
  | fuel + 1, chars =>
    match chars with
    | '"' :: rest => do
      let (name, rest) ← rules.text rest
      let rest ← scanColon rest
      let (value, rest) ← scanDocument rules depth fuel rest
      let (members, rest) ← scanMoreMembers rules depth fuel rest
      return ((name, value) :: members, rest)
    | rest => .error (.here .nameNotText rest)

/-- The members behind one member. -/
def scanMoreMembers (rules : Rules τ ν) (depth : Option Nat) :
    Nat → List Char → Except Fault (List (τ × Document τ ν) × List Char)
  | 0, chars => .error (.here .endInObject chars)
  | fuel + 1, chars =>
    match skipSpace chars with
    | [] => .error (.here .endInObject [])
    | '\x7d' :: rest => .ok ([], rest)
    | ',' :: rest =>
      match skipSpace rest with
      | [] => .error (.here .endInValue [])
      | '\x7d' :: rest => .error (.here .trailingComma ('\x7d' :: rest))
      | rest => scanMember rules depth fuel rest
    | rest => .error (.here .noCommaInObject rest)

end

/-- Reading steps that are enough for a text: between two of them that pass no character there
are at most two others. -/
def readingSteps (chars : List Char) : Nat := 3 * chars.length + 3

/-- The document that the characters are, with blanks around it. -/
def scanWholeDocument (rules : Rules τ ν) (chars : List Char) : Except Fault (Document τ ν) := do
  let (document, rest) ← scanDocument rules rules.depth (readingSteps chars) chars
  match skipSpace rest with
  | [] => return document
  | rest => .error (.here .trailingCharacters rest)

/-- The value that a text is, its objects sorted. -/
def readValue (text : String) : Except Located Value :=
  match scanWholeDocument Rules.strict text.toList with
  | .ok value => .ok (Value.sorted value)
  | .error fault => .error (fault.locate text.toList)

/-- The document that a text is, whether or not all of its scalars have a value. -/
def readLenient? (text : String) : Option (Document (Option String) (Option Number)) :=
  (scanWholeDocument Rules.lenient text.toList).toOption

end TriggerDesk.Json
