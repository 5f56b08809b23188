import TriggerDesk.Client.Console
import TriggerDesk.Notice.Summary
import TriggerDesk.Wire.Connection
import TriggerDesk.Wire.OfJson

/-!
# A client and its session

A client's ledger joined to a session. A forwarder takes the commands of the ledger to the
session, in order, and a consumer brings the events back to the ledger. Between them is a
carrier: the channels of the session itself, or a connection.

The consumer hands a summary of every alert and every fill to a notifier. What becomes of it
does not matter to the client.
-/

namespace TriggerDesk.Client

open TriggerDesk.Order Wire

/-- What is between a client and its session. -/
inductive Carrier where
  | memory (session : Session)
  | wire (connection : Connection)
  deriving DecidableEq, Repr

namespace Carrier

/-- The session at the other end. -/
def session : Carrier → Session
  | memory session => session
  | wire connection => connection.session

/-- What comes of giving a command to a carrier. -/
inductive Handover where
  | taken (carrier : Carrier)
  | full
  | closed
  deriving DecidableEq, Repr

/-- Gives a command to the carrier. A connection whose far end is gone takes one more command,
which is lost, and closes. -/
def give (command : Command) : Carrier → Handover
  | memory session =>
    match session.inbox.send command with
    | .ok inbox => .taken (.memory { session with inbox })
    | .error .full => .full
    | .error .closed => .closed
  | wire connection =>
    if connection.incoming.isOpen then
      .taken (.wire (connection.write (frame command.toJson.write)).2)
    else .closed

/-- No more commands come. -/
def closeCommands : Carrier → Carrier
  | memory session => .memory { session with inbox := session.inbox.closeSending }
  | wire connection => .wire connection.closeWriting

/-- The client takes no more events. -/
def closeEvents : Carrier → Carrier
  | memory session => .memory { session with outbox := session.outbox.close }
  | wire connection => .wire { connection with listening := false }

/-- Takes what came back first: an event, or a line that is none. -/
def take? : Carrier → Option (Option Event × Carrier)
  | memory session =>
    session.outbox.take?.map fun (event, outbox) =>
      (some event, .memory { session with outbox })
  | wire connection =>
    match connection.outgoing with
    | [] => none
    | line :: rest => some (Event.ofLine? line, .wire { connection with outgoing := rest })

/-- Whether the session is over. -/
def isEnded : Carrier → Bool
  | memory session => session.isEnded
  | wire connection => connection.isEnded

end Carrier

/-- Where the forwarder stands. -/
inductive Forwarder where
  | idle
  /-- It waits for room. -/
  | holding (command : Command)
  | ended
  deriving DecidableEq, Repr

/-- A client joined to a session. -/
structure Link where
  ledger : Ledger
  carrier : Carrier
  forwarder : Forwarder
  /-- Whether the client takes events. -/
  consuming : Bool
  /-- The events that the client took, the oldest first. -/
  seen : List Event
  /-- The summaries that the notifier was given, the oldest first. -/
  notices : List String
  deriving DecidableEq, Repr

namespace Link

/-- A client that has just been joined to a session. -/
def start (ledger : Ledger) (carrier : Carrier) : Link :=
  { ledger, carrier, forwarder := .idle, consuming := true, seen := [], notices := [] }

/-- The forwarder ends: the queue of the ledger is closed, and no more commands come. -/
def endForwarding (link : Link) : Link :=
  { link with
    forwarder := .ended
    ledger := { link.ledger with queue := link.ledger.queue.closeReceiving }
    carrier := link.carrier.closeCommands }

/-- The client takes no more events. -/
def endConsuming (link : Link) : Link :=
  { link with consuming := false, carrier := link.carrier.closeEvents }

/-- The next step of the forwarder. -/
def forwarderStep (link : Link) : Option Link :=
  match link.forwarder with
  | .ended => none
  | .idle =>
    (link.ledger.queue.receive?).map fun (command, queue) =>
      { link with ledger := { link.ledger with queue }, forwarder := .holding command }
  | .holding command =>
    match link.carrier.give command with
    | .taken carrier => some { link with carrier, forwarder := .idle }
    | .full => none
    | .closed => some link.endForwarding

/-- Whether the notifier hears of an event. -/
def isNotified (event : Event) : Bool :=
  match event.kind with
  | .alert | .fill => true
  | .ack | .cancelled | .rejected => false

/-- The client takes an event. -/
def consume (link : Link) (event : Event) : Link :=
  { link with
    ledger := link.ledger.observe event
    notices := if isNotified event then link.notices ++ [event.summary] else link.notices
    seen := link.seen ++ [event] }

/-- The next step of the consumer. A line that is no event is passed over. -/
def consumerStep (link : Link) : Option Link :=
  if link.consuming then
    match link.carrier.take? with
    | none => none
    | some (some event, carrier) => some ({ link with carrier }.consume event)
    | some (none, carrier) => some { link with carrier }
  else none

/-- Who takes turns. -/
inductive Actor where
  | carrier (actor : Connection.Actor)
  | forwarder
  | consumer
  deriving DecidableEq, Repr

/-- The next step of an actor of the carrier. -/
def carrierStep (actor : Connection.Actor) : Carrier → Option Carrier
  | .memory session =>
    match actor with
    | .session actor => (Session.step actor session).map .memory
    | .reader | .writer => none
  | .wire connection => (Connection.step actor connection).map .wire

/-- The next step of an actor. -/
def step (actor : Actor) (link : Link) : Option Link :=
  match actor with
  | .carrier actor => (carrierStep actor link.carrier).map fun carrier => { link with carrier }
  | .forwarder => link.forwarderStep
  | .consumer => link.consumerStep

/-- Everyone who takes turns. -/
def actors (link : Link) : List Actor :=
  let carriers : List Connection.Actor := match link.carrier with
    | .memory session => session.actors.map .session
    | .wire connection => connection.actors
  .forwarder :: (carriers.map .carrier ++ [.consumer])

/-- Whether an actor of the carrier is about to take something from a channel or to put something
into one. -/
def carrierExchanges (actor : Connection.Actor) : Carrier → Bool
  | .memory session =>
    match actor with
    | .session actor => Session.exchanges actor session
    | .reader | .writer => false
  | .wire connection => Connection.exchanges actor connection

/-- Whether an actor is about to take something from a channel or to put something into one. -/
def exchanges (actor : Actor) (link : Link) : Bool :=
  match actor with
  | .carrier actor => carrierExchanges actor link.carrier
  | .forwarder | .consumer => true

/-- The machine of a client and its session. -/
def machine : Machine Link Actor := { actors, step, exchanges }

end Link

end TriggerDesk.Client
