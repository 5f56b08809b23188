import TriggerDesk.Client.Link

/-!
# The client's terminal

A client of a daemon: its ledger, and the bytes that came from the daemon and were not read.
Commands leave as lines of the ledger's queue (`takeFrames`), and events come in as lines
(`takeEvents`); lines that are no events are passed over.
-/

namespace TriggerDesk.Client

open TriggerDesk.Order Wire

/-- A client at its end of a connection to a daemon. -/
structure Terminal where
  ledger : Ledger
  incoming : Lines

namespace Terminal

/-- A client that has just connected. -/
def start (queueCapacity retention : Nat) : Terminal :=
  { ledger := .new queueCapacity retention, incoming := { bytes := [], isOpen := true } }

/-- Bytes came from the daemon. -/
def receive (terminal : Terminal) (bytes : List UInt8) : Terminal :=
  { terminal with incoming := terminal.incoming.append bytes }

/-- No more bytes come from the daemon. -/
def hangUp (terminal : Terminal) : Terminal :=
  { terminal with incoming := { terminal.incoming with isOpen := false } }

/-- The commands on their way out, as the bytes of their lines. -/
def takeFrames (terminal : Terminal) : List UInt8 × Terminal :=
  let queue := terminal.ledger.queue
  (queue.items.flatMap fun command => frame command.toJson.write,
    { terminal with ledger := { terminal.ledger with queue := { queue with items := [] } } })

/-- Reads the lines that came in, at most `fuel` of them. -/
def takeLines : Nat → Lines → List String × Lines
  | 0, lines => ([], lines)
  | fuel + 1, lines =>
    match lines.next with
    | .line text rest =>
      let (texts, rest) := takeLines fuel rest
      (text :: texts, rest)
    | .pending | .ended | .unreadable => ([], lines)

/-- The events that came in. The ledger learns of them. There are no more lines than bytes. -/
def takeEvents (terminal : Terminal) : List Event × Terminal :=
  let (texts, incoming) := takeLines terminal.incoming.bytes.length terminal.incoming
  let events := texts.filterMap Event.ofLine?
  (events, { incoming, ledger := events.foldl Ledger.observe terminal.ledger })

end Terminal

/-- Whether an event is the last one of an order: all but acknowledgements are. -/
def settles (oid : String) (event : Event) : Bool :=
  event.oid = oid && event.kind ≠ .ack

/-- A number with at least so many digits. -/
def padded (base width n : Nat) : String :=
  String.ofList ((Nat.toDigits base n).leftpad width '0')

/-- A fresh order id: the time of day, to the millisecond, and a number below 2^16 that chance
gives. -/
def freshOid (millisecondOfDay chance : Nat) : String :=
  let seconds := millisecondOfDay / 1000
  let clock := [padded 10 2 (seconds / 3600), padded 10 2 (seconds / 60 % 60),
    padded 10 2 (seconds % 60), padded 10 3 (millisecondOfDay % 1000)]
  s!"{String.join clock}-{padded 16 4 chance}"

end TriggerDesk.Client
