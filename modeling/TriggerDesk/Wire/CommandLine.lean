import TriggerDesk.Order.Event
import TriggerDesk.Json.Reader
import TriggerDesk.Text.Quoted

/-!
# Commands from lines

What a session makes of a line that a client sent: a command, or a rejection that says why the
line is none. A line that is not JSON is malformed; an object whose `msg` is no kind of command
is unsupported; any other value that does not have the shape of a command is invalid. The
rejection carries the order id, if the line is an object and has one.
-/

namespace TriggerDesk.Wire

open Json TriggerDesk.Order

/-- The parts of a command, in the order in which an array gives them. -/
inductive Part where
  | msg
  | oid
  | symbol
  | brokers
  | price
  deriving DecidableEq, Repr

def Part.all : List Part := [.msg, .oid, .symbol, .brokers, .price]

def Part.name : Part → String
  | msg => "msg"
  | oid => "oid"
  | symbol => "symbol"
  | brokers => "brokers"
  | price => "price"

def Part.ofName? (name : String) : Option Part := Part.all.find? (·.name = name)

/-- What a place in a command asks for. -/
inductive Wanted where
  | command
  | text
  | sequence
  | number
  | nameOrMap
  | nothing
  deriving DecidableEq, Repr

def Wanted.describe : Wanted → String
  | command => "struct Command"
  | text => "a string"
  | sequence => "a sequence"
  | number => "f64"
  | nameOrMap => "string or map"
  | nothing => "unit"

/-- Why a value is no command. -/
inductive Mismatch where
  /-- A value stands where another type of value is wanted. -/
  | type (found : Value) (wanted : Wanted)
  /-- The kind of command is given by an object that has not exactly one member. -/
  | notOneName
  | unknownKind (name : String)
  | missing (part : Part)
  | tooFew (count : Nat)
  | tooMany (count : Nat)

/-- What a message says that it found. -/
def describeValue : Value → String
  | .null => "null"
  | .bool b => s!"boolean `{b}`"
  | .number (.real x) => s!"floating point `{Decimal.Layout.json.write x}`"
  | .number n => s!"integer `{String.ofList (Value.writeNumber n)}`"
  | .text t => s!"string {Text.quote t}"
  | .array _ => "sequence"
  | .object _ => "map"

/-- The names of the kinds of commands, as a message lists them. -/
def kindNames : String :=
  ", ".intercalate (Command.Kind.all.map fun kind => s!"`{kind.name}`")

def Mismatch.message : Mismatch → String
  | type found wanted => s!"invalid type: {describeValue found}, expected {wanted.describe}"
  | notOneName => "invalid value: map, expected map with a single key"
  | unknownKind name => s!"unknown variant `{name}`, expected one of {kindNames}"
  | missing part => s!"missing field `{part.name}`"
  | tooFew count => s!"invalid length {count}, expected struct Command with 5 elements"
  | tooMany count => s!"invalid length {count}, expected fewer elements in array"

/-- The kind of command with a name. -/
def readKindName (name : String) : Except Mismatch Command.Kind :=
  match Command.Kind.ofName? name with
  | some kind => .ok kind
  | none => .error (.unknownKind name)

/-- The kind of command that a value is: its name, or an object with the name for a `null`. -/
def readKind : Value → Except Mismatch Command.Kind
  | .text name => readKindName name
  | .object [(name, content)] => do
    let kind ← readKindName name
    match content with
    | .null => return kind
    | other => .error (.type other .nothing)
  | .object _ => .error .notOneName
  | other => .error (.type other .nameOrMap)

def readText : Value → Except Mismatch String
  | .text t => .ok t
  | other => .error (.type other .text)

def readTexts : Value → Except Mismatch (List String)
  | .array items => items.mapM readText
  | other => .error (.type other .sequence)

def readNumber : Value → Except Mismatch Float
  | .number n => .ok n.toFloat
  | other => .error (.type other .number)

/-- A command some of whose parts have been read. -/
structure Draft where
  kind : Option Command.Kind := none
  oid : Option String := none
  symbol : Option String := none
  brokers : Option (List String) := none
  price : Option Float := none

/-- Reads one part. -/
def Draft.read (draft : Draft) (part : Part) (value : Value) : Except Mismatch Draft :=
  match part with
  | .msg => (readKind value).map fun kind => { draft with kind := some kind }
  | .oid => (readText value).map fun oid => { draft with oid := some oid }
  | .symbol => (readText value).map fun symbol => { draft with symbol := some symbol }
  | .brokers => (readTexts value).map fun brokers => { draft with brokers := some brokers }
  | .price => (readNumber value).map fun price => { draft with price := some price }

/-- A part that has to be there. -/
def need {α : Type} (part : Part) : Option α → Except Mismatch α
  | some a => .ok a
  | none => .error (.missing part)

/-- The command of a draft with all its parts. -/
def Draft.finish (draft : Draft) : Except Mismatch Command := do
  let kind ← need .msg draft.kind
  let oid ← need .oid draft.oid
  let symbol ← need .symbol draft.symbol
  let brokers ← need .brokers draft.brokers
  let price ← need .price draft.price
  return { kind, oid, symbol, brokers, price }

/-- Reads the members of an object, in their order. Members with other names are passed
over. -/
def Draft.readMembers (draft : Draft) : List (String × Value) → Except Mismatch Draft
  | [] => .ok draft
  | (name, value) :: rest =>
    match Part.ofName? name with
    | none => readMembers draft rest
    | some part => do readMembers (← draft.read part value) rest

/-- Reads the items of an array as the parts in order. `count` is the number of all items. -/
def Draft.readItems (draft : Draft) (count : Nat) : List Part → List Value → Except Mismatch Draft
  | [], [] => .ok draft
  | [], _ :: _ => .error (.tooMany count)
  | _ :: _, [] => .error (.tooFew count)
  | part :: parts, value :: rest => do readItems (← draft.read part value) count parts rest

/-- The command that a value is. -/
def readCommand : Value → Except Mismatch Command
  | .object members => do (← Draft.readMembers {} members).finish
  | .array items => do (← Draft.readItems {} items.length Part.all items).finish
  | other => .error (.type other .command)

/-- The order id that a line gives, if it is an object with a text for it. -/
def oidOf (value : Value) : String :=
  ((value.member? "oid").bind Value.text?).getD ""

/-- Whether the value is an object whose `msg` is no kind of command. -/
def unsupportedKind? (value : Value) : Option Value :=
  (value.member? "msg").bind fun kind =>
    match readKind kind with
    | .ok _ => none
    | .error _ => some kind

/-- The command of a line, or the event that rejects it. -/
def decodeLine (line : String) : Except Event Command :=
  match readValue line with
  | .error located =>
    .error (Event.rejectedLine "" s!"malformed command: {located.message}")
  | .ok value =>
    match unsupportedKind? value with
    | some kind =>
      .error (Event.rejectedLine (oidOf value) s!"unsupported command {kind.write}")
    | none =>
      match readCommand value with
      | .ok command => .ok command
      | .error mismatch =>
        .error (Event.rejectedLine (oidOf value) s!"invalid command: {mismatch.message}")

end TriggerDesk.Wire
