import TriggerDesk.Journal.Entry
import TriggerDesk.Json.Document
import TriggerDesk.Market.Listing
import TriggerDesk.Market.Quote

/-!
# Messages as JSON

The JSON value of each message, its members in the order in which they are written. Parts of an
event or of a tick that are absent have no member.
-/

namespace TriggerDesk

open Json

/-- A member for a part that may be absent. -/
def Json.Value.optionalMember (name : String) (value : Option Value) : List (String × Value) :=
  match value with
  | none => []
  | some value => [(name, value)]

/-- The number of an integer. -/
def Json.Number.ofInt (n : Int) : Number :=
  if n < 0 then .negative n.natAbs else .natural n.natAbs

namespace Order

def Command.toJson (command : Command) : Value :=
  .object
    [("msg", .text command.kind.name),
     ("oid", .text command.oid),
     ("symbol", .text command.symbol),
     ("brokers", .array (command.brokers.map .text)),
     ("price", .number (.real command.price))]

def Event.toJson (event : Event) : Value :=
  .object <|
    [("msg", .text event.kind.name),
     ("oid", .text event.oid),
     ("symbol", .text event.symbol),
     ("broker", .text event.broker)] ++
    Value.optionalMember "index" (event.index.map fun n => .number (.ofInt n)) ++
    [("price", .number (.real event.price)),
     ("level", .number (.real event.level))] ++
    Value.optionalMember "direction" (event.direction.map fun d => .text d.name) ++
    [("name", .text event.name)] ++
    Value.optionalMember "reason" (event.reason.map .text)

def Trigger.toJson (trigger : Trigger) : Value :=
  .object
    [("price", .number (.real trigger.level)),
     ("direction", .text trigger.direction.name)]

end Order

namespace Market

def Listing.toJson (listing : Listing) : Value :=
  .object [("broker", .text listing.broker), ("symbol", .text listing.symbol)]

def Tick.toJson (tick : Tick) : Value :=
  .object <|
    [("price", .number (.real tick.price))] ++
    Value.optionalMember "size" (tick.size.map fun x => .number (.real x)) ++
    Value.optionalMember "kind" (tick.kind.map .text)

def Quote.toJson (quote : Quote) : Value :=
  .object
    [("last", .number (.real quote.last)),
     ("ticks", .array (quote.ticks.map Tick.toJson))]

end Market

/-- An entry is an object with one member, named for its kind. -/
def Journal.Entry.toJson : Journal.Entry → Value
  | .command request => .object [("Cmd", request.toJson)]
  | .event answer => .object [("Trig", answer.toJson)]
  | .note content => .object [("Note", .text content)]

end TriggerDesk
