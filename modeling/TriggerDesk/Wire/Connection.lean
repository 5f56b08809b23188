import TriggerDesk.Session.Machine
import TriggerDesk.Session.Work
import TriggerDesk.Text.Blank
import TriggerDesk.Wire.CommandLine
import TriggerDesk.Wire.Lines
import TriggerDesk.Wire.ToJson

/-!
# Connections

A session at the other end of a stream of bytes. A reader turns the lines that come in into
commands for the desk; it answers a line that is no command by an event of its own, and passes
over blank lines. A writer turns the events of the outbox into lines. Reading ends with the
bytes, at a line that is not valid UTF-8, or with the session; then the desk gets no more
commands.
-/

namespace TriggerDesk

open TriggerDesk.Order

/-- The most commands and the most events that wait inside a connection. -/
def Wire.connectionCapacity : Nat := 1024

/-- Where the reader of a connection stands. -/
inductive Wire.Reader where
  | reading
  /-- It waits for room in the inbox. -/
  | forwarding (command : Command)
  /-- It waits for a place for the rejection of a line. -/
  | refusing (event : Event)
  | ended
  deriving DecidableEq, Repr

/-- A session that is reached through lines. -/
structure Wire.Connection where
  session : Session
  /-- What the client sent and the reader has not read. -/
  incoming : Wire.Lines
  reader : Wire.Reader
  /-- The lines that were written and that the client has not taken, the oldest first. -/
  outgoing : List String
  /-- Whether the client takes lines. -/
  listening : Bool
  deriving DecidableEq, Repr

namespace Wire.Connection

/-- A connection to a session that has just been opened. -/
def start (source : Feed.Source) (limit : Option Nat) : Connection :=
  { session := .start source limit connectionCapacity connectionCapacity
    incoming := { bytes := [], isOpen := true }
    reader := .reading, outgoing := [], listening := true }

/-- Changes the session. -/
def withSession (connection : Connection) (session : Session) : Connection :=
  { connection with session }

/-- The client sends bytes. Says whether the reader is there to read them. -/
def write (connection : Connection) (bytes : List UInt8) : Bool × Connection :=
  if connection.reader = .ended || !connection.incoming.isOpen then
    (false, { connection with incoming := { connection.incoming with isOpen := false } })
  else (true, { connection with incoming := connection.incoming.append bytes })

/-- The client sends no more bytes. -/
def closeWriting (connection : Connection) : Connection :=
  { connection with incoming := { connection.incoming with isOpen := false } }

/-! ## The reader -/

/-- The reader ends: it sends no more commands to the desk. -/
def endReading (connection : Connection) : Connection :=
  let session := connection.session
  { connection with
    reader := .ended
    session := { session with
      inbox := session.inbox.closeSending
      outbox := session.outbox.withdraw .reader } }

/-- The reader has read a line. -/
def readLine (connection : Connection) (line : String) : Connection :=
  if Text.isBlankText line then connection
  else
    match decodeLine line with
    | .ok command => { connection with reader := .forwarding command }
    | .error event =>
      let session := connection.session.count (.rejects "unsupported") 1
      { connection with session := session.announce .reader event, reader := .refusing event }

/-- The next step of the reader. -/
def readerStep (connection : Connection) : Option Connection :=
  match connection.reader with
  | .ended => none
  | .reading =>
    if connection.session.isEnded then some connection.endReading
    else
      match connection.incoming.next with
      | .pending => none
      | .ended | .unreadable => some connection.endReading
      | .line text rest => some ({ connection with incoming := rest }.readLine text)
  | .forwarding command =>
    match connection.session.inbox.send command with
    | .ok inbox =>
      some { connection with session := { connection.session with inbox }, reader := .reading }
    | .error .full => none
    | .error .closed => some connection.endReading
  | .refusing event =>
    if connection.session.isEnded then some connection.endReading
    else
      match connection.session.outbox.standing .reader with
      | .waiting => none
      | .closed => some connection.endReading
      | .granted =>
        some { connection with session := connection.session.put .reader event, reader := .reading }

/-! ## The writer -/

/-- The line of an event. -/
def eventLine (event : Event) : String := event.toJson.write

/-- The next step of the writer. When the client takes no lines, nobody takes events either. -/
def writerStep (connection : Connection) : Option Connection :=
  match connection.session.outbox.take? with
  | none => none
  | some (event, outbox) =>
    if connection.listening then
      some { connection with
        session := { connection.session with outbox }
        outgoing := connection.outgoing ++ [eventLine event] }
    else some { connection with session := { connection.session with outbox := outbox.close } }

/-- Whether the session is over and every event of it is written. -/
def isEnded (connection : Connection) : Bool :=
  connection.session.isEnded && connection.session.outbox.take?.isNone

/-! ## Turns -/

/-- Who takes turns on a connection. -/
inductive Actor where
  | session (actor : Session.Actor)
  | reader
  | writer
  deriving DecidableEq, Repr

/-- The next step of an actor. -/
def step (actor : Actor) (connection : Connection) : Option Connection :=
  match actor with
  | .session actor => (Session.step actor connection.session).map connection.withSession
  | .reader => connection.readerStep
  | .writer => connection.writerStep

/-- Everyone who takes turns. -/
def actors (connection : Connection) : List Actor :=
  .reader :: (connection.session.actors.map .session ++ [.writer])

/-- Whether an actor is about to take something from a channel or to put something into one. -/
def exchanges (actor : Actor) (connection : Connection) : Bool :=
  match actor with
  | .session actor => Session.exchanges actor connection.session
  | .reader => connection.reader ≠ .reading
  | .writer => true

/-- The machine of a connection. -/
def machine : Machine Connection Actor := { actors, step, exchanges }

/-- The work that a connection has before it. -/
def work (connection : Connection) : Nat :=
  connection.session.work + connection.incoming.bytes.length + connection.outgoing.length

end Wire.Connection

end TriggerDesk
