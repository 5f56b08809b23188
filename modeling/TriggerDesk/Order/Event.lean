import TriggerDesk.Order.Command
import TriggerDesk.Order.Trigger

/-!
# Events

What a session answers: an acknowledgement when an order waits at a level, an alert or a fill
when its level is reached, a cancellation, or a rejection with a reason. `Event.ofCommand` is
the part that every answer to a command shares.
-/

namespace TriggerDesk.Order

/-- What happened. -/
inductive Event.Kind where
  | ack
  | alert
  | fill
  | cancelled
  | rejected
  deriving DecidableEq, Repr

def Event.Kind.name : Event.Kind → String
  | ack => "ack"
  | alert => "alert"
  | fill => "fill"
  | cancelled => "cancelled"
  | rejected => "rejected"

/-- Every kind. -/
def Event.Kind.all : List Event.Kind := [ack, alert, fill, cancelled, rejected]

/-- The kind with a name. -/
def Event.Kind.ofName? (name : String) : Option Event.Kind :=
  Event.Kind.all.find? (·.name = name)

/-- A kind is found by its name. -/
theorem Event.Kind.ofName?_name (kind : Event.Kind) : Event.Kind.ofName? kind.name = some kind := by
  cases kind <;> rfl

/-- An answer of a session. -/
structure Event where
  kind : Event.Kind
  oid : String
  symbol : String
  broker : String
  /-- The place of the tick among the valid ticks of its feed, for an alert or a fill. -/
  index : Option Int
  /-- The price of the tick for an alert or a fill, else the level. -/
  price : Float
  /-- The level of the order. -/
  level : Float
  direction : Option Direction
  /-- The kind of the command that the event is about. -/
  name : String
  reason : Option String
  deriving DecidableEq, Repr

namespace Event

/-- An event of a kind about a command. -/
def ofCommand (kind : Kind) (command : Command) : Event :=
  { kind
    oid := command.oid
    symbol := command.symbol
    broker := command.broker?.getD ""
    index := none
    price := command.price
    level := command.price
    direction := none
    name := command.kind.name
    reason := none }

/-- The order of a command waits at its level. -/
def ack (command : Command) (direction : Direction) : Event :=
  { ofCommand .ack command with direction := some direction }

/-- The order of a command no longer waits. -/
def cancelled (command : Command) : Event :=
  ofCommand .cancelled command

/-- A command was refused. -/
def rejected (command : Command) (reason : String) : Event :=
  { ofCommand .rejected command with reason := some reason }

/-- A line that is no command was refused. -/
def rejectedLine (oid reason : String) : Event :=
  { kind := .rejected, oid, symbol := "", broker := "", index := none, price := 0, level := 0
    direction := none, name := "", reason := some reason }

/-- The kind of event at the level of an order: an order to buy or sell is filled, anything
else is an alert. -/
def triggeredKind : Command.Kind → Kind
  | .buy | .sell => .fill
  | _ => .alert

/-- A tick reached the level of an order. -/
def triggered (command : Command) (direction : Direction) (index : Int) (price : Float) : Event :=
  { ofCommand (triggeredKind command.kind) command with
    index := some index, price, direction := some direction }

/-- The same event with a reason. -/
def withReason (event : Event) (reason : String) : Event :=
  { event with reason := some reason }

end Event

end TriggerDesk.Order
