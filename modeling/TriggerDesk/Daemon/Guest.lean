import TriggerDesk.Feed.RandomWalk
import TriggerDesk.Wire.Connection

/-!
# Guests of the daemon

The daemon serves each of its clients through a connection with a feed of its own: for every
stream that the session reads a price walks. A `Guest` is such a connection together with the
walks. What a guest is told (`receive`, `hangUp`, `tick`) ends with everyone in the session
waiting; what there is to hand on (`takeLines`, `takeEntries`, `takeMeters`) is handed on once.
-/

namespace TriggerDesk.Daemon

open Feed Journal Market Metrics Wire

/-- A client of the daemon. -/
structure Guest where
  /-- The connection, and the actors in line. -/
  current : Machine.Line Connection Connection.Actor
  /-- The last price of each stream whose price walks. -/
  walks : Table StreamId Float

namespace Guest

/-- A client that has just come. -/
def start (brokers : Brokers) (limit : Option Nat) : Guest :=
  { current :=
      { state := Connection.start { brokers := some brokers, replay := .new } limit, line := [] }
    walks := .empty }

/-- The connection. -/
def connection (guest : Guest) : Connection := guest.current.state

/-- Changes the connection. Whoever can go on now joins the line. -/
def withConnection (guest : Guest) (connection : Connection) : Guest :=
  { guest with
    current := Connection.machine.queue { guest.current with state := connection } }

/-- Everyone takes turns until nobody can go on. -/
def settle (guest : Guest) : Guest :=
  { guest with
    current :=
      Connection.machine.settle (Session.turnBound guest.connection.work) guest.current }

/-- Bytes came from the client. -/
def receive (guest : Guest) (bytes : List UInt8) : Guest :=
  (guest.withConnection (guest.connection.write bytes).2).settle

/-- No more bytes come from the client. -/
def hangUp (guest : Guest) : Guest :=
  (guest.withConnection guest.connection.closeWriting).settle

/-- Whether nothing more can come of the connection. -/
def isOver (guest : Guest) : Bool := guest.connection.isEnded

/-! ## The walks -/

/-- The streams that someone reads, with their listings. -/
def readStreams (guest : Guest) : List (Listing × StreamId) :=
  let replay := guest.connection.session.source.replay
  replay.current.entries.filter fun (_, id) => (replay.streams[id]?).any (·.receiving)

/-- The next quote of a stream: the first one, or what a draw makes of its price. -/
def nextQuote (guest : Guest) (walk : RandomWalk) (stream : StreamId) (draw : Draw) : Quote :=
  match guest.walks.get? stream with
  | none => walk.firstQuote
  | some price => walk.quoteAfter price draw

/-- Something happens to the session. -/
def meet (guest : Guest) (stimulus : Session.Stimulus) : Guest :=
  guest.withConnection
    { guest.connection with session := guest.connection.session.meet stimulus }

/-- The price of a stream moves. -/
def move (guest : Guest) (walk : RandomWalk) (listing : Listing) (stream : StreamId)
    (draw : Draw) : Guest :=
  let quote := guest.nextQuote walk stream draw
  { guest.meet (.push listing [(listing.symbol, quote)]) with
    walks := guest.walks.set stream quote.last }

/-- The time between two prices passes, and the price of every stream moves. There has to be a
draw for each of `readStreams`. -/
def tick (guest : Guest) (walk : RandomWalk) (draws : List Draw) : Guest :=
  let moved := (guest.readStreams.zip draws).foldl
    (fun guest ((listing, stream), draw) => guest.move walk listing stream draw)
    (guest.meet (.wait walk.interval))
  moved.settle

/-! ## What is handed on -/

/-- The lines for the client. -/
def takeLines (guest : Guest) : List String × Guest :=
  (guest.connection.outgoing,
    (guest.withConnection { guest.connection with outgoing := [] }).settle)

/-- Changes the session without letting anyone go on. -/
def withSession (guest : Guest) (session : Session) : Guest :=
  { guest with
    current := { guest.current with state := { guest.connection with session } } }

/-- What was written into the journal. -/
def takeEntries (guest : Guest) : List Entry × Guest :=
  let session := guest.connection.session
  (session.journal, guest.withSession { session with journal := [] })

/-- What was counted. -/
def takeMeters (guest : Guest) : Meters × Guest :=
  let session := guest.connection.session
  (session.meters, guest.withSession { session with meters := .zero })

end Guest

end TriggerDesk.Daemon
