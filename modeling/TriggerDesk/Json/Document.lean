import TriggerDesk.Json.Number
import TriggerDesk.Decimal.Layout

/-!
# JSON documents

`Document` is the tree of a JSON text: scalars, arrays, and objects with their members in
order. Its two parameters are the types of texts and of numbers. A `Value` is a document whose
texts and numbers all have a value; `Value.sorted` is the form in which each object has every
name once, in order. `Value.write` is the compact text of a value.
-/

namespace TriggerDesk.Json

/-- The tree of a JSON text over texts `τ` and numbers `ν`. -/
inductive Document (τ ν : Type) where
  | null
  | bool (b : Bool)
  | number (n : ν)
  | text (t : τ)
  | array (items : List (Document τ ν))
  | object (members : List (τ × Document τ ν))
  deriving Repr

/-- A document in which every text and every number has a value. -/
abbrev Value := Document String Number

/-- Sets the member of a name in a list of members sorted by name. -/
def setMember {α : Type} (name : String) (value : α) : List (String × α) → List (String × α)
  | [] => [(name, value)]
  | (other, found) :: rest =>
    if name < other then (name, value) :: (other, found) :: rest
    else if name = other then (name, value) :: rest
    else (other, found) :: setMember name value rest

namespace Value

mutual

/-- The same value with the members of each object sorted by name. Of members with one name
the last counts. -/
def sorted : Value → Value
  | .array items => .array (sortedItems items)
  | .object members => .object (sortedMembers members [])
  | value => value

def sortedItems : List Value → List Value
  | [] => []
  | item :: rest => sorted item :: sortedItems rest

/-- Adds the members to a sorted list, first to last. -/
def sortedMembers : List (String × Value) → List (String × Value) → List (String × Value)
  | [], members => members
  | (name, value) :: rest, members => sortedMembers rest (setMember name (sorted value) members)

end

/-- The member of an object under a name; other values have no members. -/
def member? (value : Value) (name : String) : Option Value :=
  match value with
  | .object members => members.lookup name
  | _ => none

/-- The text that a value is. -/
def text? : Value → Option String
  | .text t => some t
  | _ => none

/-- The hexadecimal escape of a control character. -/
def unitEscape (c : Char) : List Char :=
  let n := c.toNat
  ['\\', 'u', '0', '0', Nat.digitChar (n / 16), Nat.digitChar (n % 16)]

/-- The characters that stand for one character of a text. -/
def escapeChar (c : Char) : List Char :=
  match c with
  | '"' => ['\\', '"']
  | '\\' => ['\\', '\\']
  | '\x08' => ['\\', 'b']
  | '\x0c' => ['\\', 'f']
  | '\n' => ['\\', 'n']
  | '\r' => ['\\', 'r']
  | '\t' => ['\\', 't']
  | c => if c.toNat < 0x20 then unitEscape c else [c]

/-- A text between its quotes. -/
def writeText (text : String) : List Char :=
  '"' :: (text.toList.flatMap escapeChar ++ ['"'])

/-- A numeral for a number. A number that is not finite has none and is written as `null`. -/
def writeNumber : Number → List Char
  | .natural n => Decimal.digitsOf n
  | .negative n => '-' :: Decimal.digitsOf n
  | .real x => (Decimal.Layout.json.write x).toList

mutual

/-- The characters of a value, without blanks. -/
def chars : Value → List Char
  | .null => "null".toList
  | .bool true => "true".toList
  | .bool false => "false".toList
  | .number n => writeNumber n
  | .text t => writeText t
  | .array [] => ['[', ']']
  | .array (item :: rest) => '[' :: (chars item ++ itemChars rest)
  | .object [] => ['\x7b', '\x7d']
  | .object ((name, value) :: rest) =>
    '\x7b' :: (writeText name ++ ':' :: (chars value ++ memberChars rest))

/-- The items after the first, and the closing bracket. -/
def itemChars : List Value → List Char
  | [] => [']']
  | item :: rest => ',' :: (chars item ++ itemChars rest)

/-- The members after the first, and the closing brace. -/
def memberChars : List (String × Value) → List Char
  | [] => ['\x7d']
  | (name, value) :: rest =>
    ',' :: (writeText name ++ ':' :: (chars value ++ memberChars rest))

end

/-- The compact text of a value. -/
def write (value : Value) : String := String.ofList value.chars

end Value

end TriggerDesk.Json
