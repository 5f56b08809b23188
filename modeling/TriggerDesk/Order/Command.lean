/-!
# Commands

What a client asks of a session: to place an alert or an order, or to cancel or modify one that
it placed. An order waits at one broker, the first of those given.
-/

namespace TriggerDesk.Order

/-- What a command asks for. -/
inductive Command.Kind where
  | alert
  | buy
  | sell
  | cancel
  | modify
  deriving DecidableEq, Repr

/-- The name of a kind on the wire and on the console. -/
def Command.Kind.name : Command.Kind → String
  | alert => "alert"
  | buy => "buy"
  | sell => "sell"
  | cancel => "cancel"
  | modify => "modify"

/-- Every kind, in the order in which messages list them. -/
def Command.Kind.all : List Command.Kind := [alert, buy, sell, cancel, modify]

/-- The kind with a name. -/
def Command.Kind.ofName? (name : String) : Option Command.Kind :=
  Command.Kind.all.find? (·.name = name)

/-- Whether a command of this kind places an order. -/
def Command.Kind.places : Command.Kind → Bool
  | alert | buy | sell => true
  | cancel | modify => false

/-- A request of a client. `oid` is the id that the client chose for the order. -/
structure Command where
  kind : Command.Kind
  oid : String
  symbol : String
  brokers : List String
  price : Float
  deriving DecidableEq, Repr

/-- The broker that an order goes to: the first one given. -/
def Command.broker? (command : Command) : Option String :=
  command.brokers.head?

/-- The list of kinds leaves none out. -/
theorem Command.Kind.mem_all (kind : Command.Kind) : kind ∈ Command.Kind.all := by
  cases kind <;> decide

/-- A kind is found by its name. -/
theorem Command.Kind.ofName?_name (kind : Command.Kind) :
    Command.Kind.ofName? kind.name = some kind := by
  cases kind <;> rfl

end TriggerDesk.Order
