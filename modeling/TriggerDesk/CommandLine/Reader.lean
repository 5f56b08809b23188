import TriggerDesk.CommandLine.Task
import TriggerDesk.Decimal.Reader
import TriggerDesk.Settings.Basic

/-!
# Reading the command line

The words after the program's name are a task with its arguments. A task takes some arguments by
place and some by name, as `--name value` or `--name=value`; `--addr` goes with every task, and
may also stand before it. After a lone `--` every word is taken by place.

`Invocation.ofWords` reads the words from left to right. An argument is looked at when the next
one is taken up, so of two faults the one that is found first by that rule is reported. What the
arguments of each task are is said by its `Form`.
-/

namespace TriggerDesk.CommandLine

open Settings

/-- Why there is no task to do. Asking for help or for the version is among the reasons. -/
inductive UsageError where
  | help
  | version
  /-- There is no word at all. -/
  | nothingGiven
  | missingTask
  | unknownTask
  | unknownArgument
  | missingArgument
  /-- A value is missing, or is none of those that are possible. -/
  | badValue
  /-- A value is not the number that it should be. -/
  | badNumber
  /-- An argument is given twice. -/
  | repeated
  /-- A value is given to what takes none. -/
  | needlessValue
  deriving DecidableEq, Repr

/-- What an argument says. -/
inductive Slot where
  | address
  | metricsPort
  | feedMode
  | recordFile
  | side
  | symbol
  | price
  | broker
  | oid
  deriving DecidableEq, Repr

/-- An argument that has been read. -/
inductive Argument where
  | address (text : String)
  | metricsPort (port : Nat)
  | feedMode (mode : FeedMode)
  | recordFile (path : String)
  | side (which : Side)
  | symbol (text : String)
  | price (level : Float)
  | broker (text : String)
  | oid (text : String)
  deriving DecidableEq, Repr

def Argument.slot : Argument → Slot
  | address _ => .address
  | metricsPort _ => .metricsPort
  | feedMode _ => .feedMode
  | recordFile _ => .recordFile
  | side _ => .side
  | symbol _ => .symbol
  | price _ => .price
  | broker _ => .broker
  | oid _ => .oid

/-- A port: a number with a sign or without. A minus is of use with zero alone. -/
def readPort? (text : String) : Option Nat :=
  let (negative, digits) := Decimal.takeSign text.toList
  if digits.isEmpty || !digits.all Char.isDigit then none
  else
    let value := Decimal.digitsValue digits
    if value < portBound && (!negative || value == 0) then some value else none

/-- Reads an argument. -/
def Slot.read (text : String) : Slot → Except UsageError Argument
  | .address => .ok (.address text)
  | .metricsPort => ((readPort? text).map Argument.metricsPort).elim (.error .badNumber) .ok
  | .feedMode => ((FeedMode.ofOption? text).map Argument.feedMode).elim (.error .badValue) .ok
  | .recordFile => .ok (.recordFile text)
  | .side => ((Side.ofName? text).map Argument.side).elim (.error .badValue) .ok
  | .symbol => .ok (.symbol text)
  | .price => ((Decimal.readFloat? text).map Argument.price).elim (.error .badNumber) .ok
  | .broker => .ok (.broker text)
  | .oid => .ok (.oid text)

/-! ## Forms -/

/-- The tasks by their names. -/
inductive TaskName where
  | serve
  | alert
  | order
  | session
  deriving DecidableEq, Repr

def TaskName.ofText? : String → Option TaskName
  | "serve" => some serve
  | "alert" => some alert
  | "order" => some order
  | "session" => some session
  | _ => none

/-- The word that asks for help. -/
def helpWord : String := "help"

/-- Whether a word stands for a task or for help. -/
def isTaskWord (word : String) : Bool := word == helpWord || (TaskName.ofText? word).isSome

/-- The arguments that are taken in one part of the command line. -/
structure Form where
  /-- Those with a name. -/
  named : List (String × Slot)
  /-- Those with a place, all of which are needed. -/
  placed : List Slot
  /-- Whether a task follows, before which the version may be asked for. -/
  leads : Bool
  deriving DecidableEq, Repr

/-- What may stand before the task. -/
def Form.lead : Form := { named := [("addr", .address)], placed := [], leads := true }

/-- What a task takes. -/
def TaskName.form : TaskName → Form
  | serve =>
    { named := [("addr", .address), ("metrics-port", .metricsPort), ("feed-mode", .feedMode),
        ("record-file", .recordFile)]
      placed := [], leads := false }
  | alert =>
    { named := [("addr", .address), ("broker", .broker), ("oid", .oid)]
      placed := [.symbol, .price], leads := false }
  | order =>
    { named := [("addr", .address), ("broker", .broker), ("oid", .oid)]
      placed := [.side, .symbol, .price], leads := false }
  | session => { named := [("addr", .address)], placed := [], leads := false }

/-! ## Taking words -/

/-- An argument that was taken up and not looked at. -/
structure Pending where
  slot : Slot
  /-- Its value; `none` when a name was given and the value is to follow. -/
  value : Option String
  deriving DecidableEq, Repr

/-- How far reading has come. -/
structure Progress where
  arguments : List Argument
  pending : Option Pending
  /-- The places that are not taken. -/
  places : List Slot
  /-- Whether a lone `--` has been passed. -/
  byPlace : Bool
  deriving DecidableEq, Repr

/-- Before the first word of a form. -/
def Form.start (form : Form) : Progress :=
  { arguments := [], pending := none, places := form.placed, byPlace := false }

namespace Progress

/-- Whether the next word is the value of a name. -/
def awaitsValue (progress : Progress) : Bool :=
  progress.pending.any (·.value.isNone)

/-- Looks at the argument that was taken up last. -/
def resolve (progress : Progress) : Except UsageError Progress :=
  match progress.pending with
  | none => .ok progress
  | some { value := none, .. } => .error .badValue
  | some { slot, value := some text } =>
    if progress.arguments.any (·.slot = slot) then .error .repeated
    else do
      let argument ← slot.read text
      return { progress with arguments := progress.arguments ++ [argument], pending := none }

/-- Takes an argument up. -/
def takeUp (progress : Progress) (slot : Slot) (value : Option String) :
    Except UsageError Progress := do
  return { ← progress.resolve with pending := some { slot, value } }

/-- A word that asks for something else than a task. -/
def interrupt (progress : Progress) (reason : UsageError) : Except UsageError Progress := do
  let _ ← progress.resolve
  .error reason

/-- Takes a word by place. -/
def takePlaced (progress : Progress) (form : Form) (word : String) : Except UsageError Progress :=
  match progress.places with
  | slot :: places => do return { ← progress.takeUp slot (some word) with places }
  | [] =>
    if form.leads && !(progress.byPlace && isTaskWord word) then .error .unknownTask
    else .error .unknownArgument

/-- Takes a name, with its value if they are one word. -/
def takeNamed (progress : Progress) (form : Form) (name : String) (value : Option String) :
    Except UsageError Progress :=
  match form.named.lookup name with
  | some slot =>
    match value with
    | some _ => do (← progress.takeUp slot value).resolve
    | none => progress.takeUp slot none
  | none =>
    let reason? : Option UsageError :=
      if name = "help" then some .help
      else if form.leads && name = "version" then some .version
      else none
    match reason?, value with
    | some reason, none => progress.interrupt reason
    | some _, some _ => .error .needlessValue
    | none, _ => .error .unknownArgument

/-- Takes a word of one dash and letters. The first letter decides. -/
def takeLetters (progress : Progress) (form : Form) (letter : Char) : Except UsageError Progress :=
  if letter = 'h' then progress.interrupt .help
  else if form.leads && letter = 'V' then progress.interrupt .version
  else .error .unknownArgument

/-- Takes a word that is no name: the value that is awaited, or else a word with a place. -/
def takePlain (progress : Progress) (form : Form) (word : String) : Except UsageError Progress :=
  match progress.pending with
  | some { slot, value := none } =>
    .ok { progress with pending := some { slot, value := some word } }
  | _ => progress.takePlaced form word

end Progress

/-- The shapes that a word can have. -/
inductive Word where
  | lonelyDashes
  /-- Two dashes, a name, and perhaps a value after an equals sign. -/
  | named (name : String) (value : Option String)
  /-- One dash and letters, of which this is the first. -/
  | letters (first : Char)
  | plain
  deriving DecidableEq, Repr

/-- A name, and the value after the first equals sign. -/
def splitValue (chars : List Char) : String × Option String :=
  match chars.dropWhile (· ≠ '=') with
  | [] => (String.ofList chars, none)
  | _ :: value => (String.ofList (chars.takeWhile (· ≠ '=')), some (String.ofList value))

/-- The shape of a word. -/
def Word.of (word : String) : Word :=
  match word.toList with
  | ['-', '-'] => .lonelyDashes
  | '-' :: '-' :: rest =>
    let (name, value) := splitValue rest
    .named name value
  | '-' :: first :: _ => .letters first
  | _ => .plain

/-- Takes a word that stands for no task. -/
def Progress.take (progress : Progress) (form : Form) (word : String) :
    Except UsageError Progress :=
  if progress.byPlace then progress.takePlaced form word
  else
    match Word.of word with
    | .lonelyDashes => .ok { progress with byPlace := true }
    | .named name value => progress.takeNamed form name value
    | .letters first => progress.takeLetters form first
    | .plain => progress.takePlain form word

/-- Takes words, up to the one that stands for a task if a task is to follow. Gives that word and
those after it. -/
def Form.takeAll (form : Form) (progress : Progress) :
    List String → Except UsageError (Progress × List String)
  | [] => .ok (progress, [])
  | word :: rest =>
    if form.leads && !progress.byPlace && !progress.awaitsValue && isTaskWord word then
      .ok (progress, word :: rest)
    else do takeAll form (← progress.take form word) rest

/-! ## Tasks -/

/-- The value of an argument that has to be there. -/
def need {α : Type} (arguments : List Argument) (pick : Argument → Option α) :
    Except UsageError α :=
  (arguments.findSome? pick).elim (.error .missingArgument) .ok

def Argument.address? : Argument → Option String
  | address text => some text
  | _ => none

def Argument.metricsPort? : Argument → Option Nat
  | metricsPort port => some port
  | _ => none

def Argument.feedMode? : Argument → Option FeedMode
  | feedMode mode => some mode
  | _ => none

def Argument.recordFile? : Argument → Option String
  | recordFile path => some path
  | _ => none

def Argument.side? : Argument → Option Side
  | side which => some which
  | _ => none

def Argument.symbol? : Argument → Option String
  | symbol text => some text
  | _ => none

def Argument.price? : Argument → Option Float
  | price level => some level
  | _ => none

def Argument.broker? : Argument → Option String
  | broker text => some text
  | _ => none

def Argument.oid? : Argument → Option String
  | oid text => some text
  | _ => none

/-- The target that arguments give. The broker is the random walk unless one is given. -/
def readTarget (arguments : List Argument) : Except UsageError Target := do
  return {
    symbol := ← need arguments Argument.symbol?
    price := ← need arguments Argument.price?
    broker := (arguments.findSome? Argument.broker?).getD "mock"
    oid := arguments.findSome? Argument.oid? }

/-- The task that arguments give. -/
def TaskName.finish (arguments : List Argument) : TaskName → Except UsageError Task
  | .serve =>
    .ok (.serve (arguments.findSome? Argument.metricsPort?)
      (arguments.findSome? Argument.feedMode?) (arguments.findSome? Argument.recordFile?))
  | .alert => (readTarget arguments).map .alert
  | .order => do return .order (← need arguments Argument.side?) (← readTarget arguments)
  | .session => .ok .session

/-- Reads the words of a task. -/
def readTask (name : TaskName) (words : List String) : Except UsageError Invocation := do
  let (progress, _) ← name.form.takeAll name.form.start words
  let progress ← progress.resolve
  return {
    task := ← name.finish progress.arguments
    address := progress.arguments.findSome? Argument.address? }

/-- What the words after `help` give: they may name one task. -/
def readHelp : List String → UsageError
  | [] => .help
  | [word] => if isTaskWord word then .help else .unknownTask
  | _ => .unknownTask

/-- What the words before the task give when no task follows. -/
def endLead (progress : Progress) : Except UsageError Invocation := do
  let progress ← progress.resolve
  .error (if progress.arguments.isEmpty then .nothingGiven else .missingTask)

/-- The invocation that some words are. The address after the task prevails. -/
def Invocation.ofWords (words : List String) : Except UsageError Invocation := do
  let (progress, rest) ← Form.lead.takeAll Form.lead.start words
  match rest with
  | [] => endLead progress
  | word :: rest =>
    match TaskName.ofText? word with
    | none => .error (readHelp rest)
    | some name =>
      let invocation ← readTask name rest
      let progress ← progress.resolve
      return { invocation with
        address := invocation.address.or (progress.arguments.findSome? Argument.address?) }

end TriggerDesk.CommandLine
