import TriggerDesk.Client.Link

/-!
# Stages

What a rehearsal is played on: a session alone, reached through its channels or through a
connection, or a session with a client. The stages have one machine, and `Stage.work` bounds the
turns that are left until nobody can go on.
-/

namespace TriggerDesk.Rehearsal

open Client TriggerDesk.Order Feed

/-- A session, with a client or without. -/
inductive Stage where
  | bare (carrier : Carrier)
  | client (link : Link)
  deriving DecidableEq, Repr

namespace Stage

/-- What reaches the session. -/
def carrier : Stage → Carrier
  | bare carrier => carrier
  | client link => link.carrier

/-- The session of a stage. -/
def session (stage : Stage) : Session := stage.carrier.session

/-- Changes the carrier. -/
def withCarrier : Stage → Carrier → Stage
  | bare _, carrier => .bare carrier
  | client link, carrier => .client { link with carrier }

/-- Changes the session. -/
def withSession (stage : Stage) (session : Session) : Stage :=
  stage.withCarrier <| match stage.carrier with
    | .memory _ => .memory session
    | .wire connection => .wire { connection with session }

/-- The next step of an actor. -/
def step (actor : Link.Actor) : Stage → Option Stage
  | bare carrier =>
    match actor with
    | .carrier actor => (Link.carrierStep actor carrier).map .bare
    | .forwarder | .consumer => none
  | client link => (Link.step actor link).map .client

/-- Everyone who takes turns. -/
def actors : Stage → List Link.Actor
  | bare (.memory session) => session.actors.map fun actor => .carrier (.session actor)
  | bare (.wire connection) => connection.actors.map .carrier
  | client link => link.actors

/-- Whether an actor is about to take something from a channel or to put something into one. -/
def exchanges (actor : Link.Actor) : Stage → Bool
  | bare carrier =>
    match actor with
    | .carrier actor => Link.carrierExchanges actor carrier
    | .forwarder | .consumer => false
  | client link => Link.exchanges actor link

/-- The machine of a stage. -/
def machine : Machine Stage Link.Actor := { actors, step, exchanges }

/-- The client sends no more commands. -/
def closeCommands : Stage → Stage
  | bare carrier => .bare carrier.closeCommands
  | client link => .client link.endForwarding

/-- The client takes no more events. -/
def closeEvents : Stage → Stage
  | bare carrier => .bare carrier.closeEvents
  | client link => .client link.endConsuming

/-- The work that a carrier has before it. -/
def carrierWork : Carrier → Nat
  | .memory session => session.work
  | .wire connection => connection.work

/-- A bound for the turns until nobody can go on. -/
def work (stage : Stage) : Nat :=
  Session.turnBound <| match stage with
    | bare carrier => carrierWork carrier
    | client link => carrierWork link.carrier + link.ledger.queue.items.length

end Stage

end TriggerDesk.Rehearsal
