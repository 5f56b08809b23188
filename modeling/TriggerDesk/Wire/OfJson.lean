import TriggerDesk.Journal.Entry
import TriggerDesk.Json.Reader
import TriggerDesk.Market.Listing
import TriggerDesk.Market.Quote

/-!
# Messages from JSON

What message a JSON document is, for a reader that knows which message it expects. A message
with parts is an object, or an array of its parts in order. Members with other names are
passed over, whatever their value; a part given twice makes the object unreadable. Some parts
may be missing and then have a default.
-/

namespace TriggerDesk

open Json

/-- A document whose scalars need not have a value. -/
abbrev Json.Lenient := Document (Option String) (Option Number)

namespace Json.Lenient

def text? : Lenient → Option String
  | .text t => t
  | _ => none

def float? : Lenient → Option Float
  | .number n => n.map Number.toFloat
  | _ => none

def int? : Lenient → Option Int
  | .number n => n.bind Number.toInt64?
  | _ => none

/-- A part that is `null` when absent. -/
def optional? {α : Type} (read : Lenient → Option α) : Lenient → Option (Option α)
  | .null => some none
  | document => (read document).map some

def list? {α : Type} (read : Lenient → Option α) : Lenient → Option (List α)
  | .array items => items.mapM read
  | _ => none

/-- A name out of a fixed set: a text, or an object with that name for a `null`. -/
def choice? {α : Type} (ofName? : String → Option α) : Lenient → Option α
  | .text t => t.bind ofName?
  | .object [(name, .null)] => name.bind ofName?
  | _ => none

/-- The only member of a list under a name: `none` if two members have the name. -/
def only? (name : String) (members : List (String × Lenient)) : Option (Option Lenient) :=
  match members.filter (·.1 = name) with
  | [] => some none
  | [(_, document)] => some (some document)
  | _ => none

/-- The parts of a message in the order of their names; a part that is missing is `none`. -/
def parts? (names : List String) : Lenient → Option (List (Option Lenient))
  | .object members => do
    let members ← members.mapM fun (name, document) => name.map (·, document)
    names.mapM fun name => only? name members
  | .array items =>
    if items.length ≤ names.length then
      some (items.map some ++ List.replicate (names.length - items.length) none)
    else none
  | _ => none

/-- A part with a default. -/
def orElse {α : Type} (read : Lenient → Option α) (default : α) : Option Lenient → Option α
  | none => some default
  | some document => read document

end Json.Lenient

open Json.Lenient

namespace Order

def Command.ofJson? (document : Lenient) : Option Command := do
  match ← document.parts? ["msg", "oid", "symbol", "brokers", "price"] with
  | [some kind, some oid, some symbol, some brokers, some price] =>
    return { kind := ← kind.choice? Command.Kind.ofName?
             oid := ← oid.text?
             symbol := ← symbol.text?
             brokers := ← brokers.list? text?
             price := ← price.float? }
  | _ => none

/-- All parts but the kind, the id and the price have a default: empty texts, a level of zero,
and nothing for the parts that an event may lack. -/
def Event.ofJson? (document : Lenient) : Option Event := do
  match ← document.parts? ["msg", "oid", "symbol", "broker", "index", "price", "level",
      "direction", "name", "reason"] with
  | [some kind, some oid, symbol, broker, index, some price, level, direction, name, reason] =>
    return { kind := ← kind.choice? Event.Kind.ofName?
             oid := ← oid.text?
             symbol := ← orElse text? "" symbol
             broker := ← orElse text? "" broker
             index := ← orElse (optional? int?) none index
             price := ← price.float?
             level := ← orElse float? 0 level
             direction := ← orElse (optional? (choice? Direction.ofName?)) none direction
             name := ← orElse text? "" name
             reason := ← orElse (optional? text?) none reason }
  | _ => none

def Trigger.ofJson? (document : Lenient) : Option Trigger := do
  match ← document.parts? ["price", "direction"] with
  | [some level, some direction] =>
    return { level := ← level.float?, direction := ← direction.choice? Direction.ofName? }
  | _ => none

end Order

namespace Market

def Listing.ofJson? (document : Lenient) : Option Listing := do
  match ← document.parts? ["broker", "symbol"] with
  | [some broker, some symbol] => return { broker := ← broker.text?, symbol := ← symbol.text? }
  | _ => none

def Tick.ofJson? (document : Lenient) : Option Tick := do
  match ← document.parts? ["price", "size", "kind"] with
  | [some price, size, kind] =>
    return { price := ← price.float?
             size := ← orElse (optional? float?) none size
             kind := ← orElse (optional? text?) none kind }
  | _ => none

def Quote.ofJson? (document : Lenient) : Option Quote := do
  match ← document.parts? ["last", "ticks"] with
  | [some last, some ticks] =>
    return { last := ← last.float?, ticks := ← ticks.list? Tick.ofJson? }
  | _ => none

end Market

/-- An entry is an object with one member, named for its kind. -/
def Journal.Entry.ofJson? : Lenient → Option Journal.Entry
  | .object [(some "Cmd", document)] => (Order.Command.ofJson? document).map .command
  | .object [(some "Trig", document)] => (Order.Event.ofJson? document).map .event
  | .object [(some "Note", document)] => (Json.Lenient.text? document).map .note
  | _ => none

/-- The event that a line is. -/
def Order.Event.ofLine? (line : String) : Option Order.Event :=
  readLenient? line >>= Order.Event.ofJson?

end TriggerDesk
