import TriggerDesk.Book.Basic
import TriggerDesk.Channel
import TriggerDesk.Feed.Brokers
import TriggerDesk.Journal.Entry
import TriggerDesk.Metrics.Meter
import TriggerDesk.Outbox

/-!
# The state of a session

A session serves one client. Its desk takes the commands of the client one at a time, and a
watcher for each listing follows the feed and lets orders fire. Desk and watchers share the book
and the outbox and do nothing else together.

`Desk` and `Watcher.Phase` say where each of them stands between two steps: what it waits for
and what it holds meanwhile.
-/

namespace TriggerDesk

open Market TriggerDesk.Order Feed Metrics Journal

/-- The names of watchers: the place of a watcher in the order in which they were started. -/
abbrev WatcherId := Nat

/-- How a watcher came to its end. -/
inductive Watcher.Ending where
  /-- No first quote came. -/
  | neverLive
  /-- The feed was lost, and every order of the listing is cancelled. -/
  | retired
  /-- The client left. -/
  | clientLeft
  /-- The session stopped it. -/
  | aborted
  deriving DecidableEq, Repr

/-- Where a watcher stands. -/
inductive Watcher.Phase where
  /-- It has not subscribed yet. -/
  | starting
  /-- It waits for the first quote. -/
  | opening (stream : StreamId)
  /-- It has these prices to look at, and then waits for more. -/
  | following (stream : StreamId) (prices : List Float)
  /-- It waits for a place for the first of some orders that fired, and then goes on with the
  prices. -/
  | firing (stream : StreamId) (event : Event) (rest : List Event) (prices : List Float)
  /-- It waits for a place for the first of some orders that are cancelled, and then ends. -/
  | retiring (stream : StreamId) (event : Event) (rest : List Event)
  | ended (ending : Ending)
  deriving DecidableEq, Repr

/-- The stream that a watcher reads. -/
def Watcher.Phase.stream? : Watcher.Phase → Option StreamId
  | opening stream | following stream _ | firing stream .. | retiring stream .. => some stream
  | starting | ended _ => none

/-- Whether the first quote has come and the watcher has not ended. -/
def Watcher.Phase.isLive : Watcher.Phase → Bool
  | following .. | firing .. | retiring .. => true
  | starting | opening _ | ended _ => false

def Watcher.Phase.isEnded : Watcher.Phase → Bool
  | ended _ => true
  | _ => false

/-- What came of waiting for a first quote. -/
inductive Watcher.Outcome where
  /-- The price of the quote. -/
  | live (price : Float)
  | failed (failure : Failure)
  deriving DecidableEq, Repr

/-- What follows the feed of a listing. -/
structure Watcher where
  listing : Listing
  phase : Watcher.Phase
  /-- The number of valid prices that it looked at. -/
  index : Nat
  /-- What came of waiting for the first quote, once that is known. -/
  outcome : Option Watcher.Outcome
  deriving DecidableEq, Repr

/-- A watcher that has done nothing yet. -/
def Watcher.new (listing : Listing) : Watcher :=
  { listing, phase := .starting, index := 0, outcome := none }

/-- An order that the desk is about to place. -/
structure Placing where
  command : Command
  listing : Listing
  /-- Whether the feed was lost once already since the command came. -/
  again : Bool
  deriving DecidableEq, Repr

/-- Where the desk stands. -/
inductive Desk where
  /-- It waits for a command. -/
  | idle
  /-- It waits for a watcher that is losing its feed to end. -/
  | awaitEnd (placing : Placing) (watcher : WatcherId)
  /-- It waits for the first quote of a watcher, and for no longer than until `deadline`. -/
  | awaitQuote (placing : Placing) (watcher : WatcherId) (deadline : Option Nat)
  /-- It waits for a place for the acknowledgement of an order armed at a last price. -/
  | awaitPlace (placing : Placing) (last : Float)
  /-- It waits for a place for the acknowledgement of a move. -/
  | awaitMove (command : Command)
  /-- It waits for a place for an event. -/
  | answering (event : Event)
  | ended
  deriving DecidableEq, Repr

/-- A session. -/
structure Session where
  /-- Milliseconds since the session was opened. -/
  clock : Nat
  /-- How many milliseconds the desk waits for a first quote. Without a limit it waits on. -/
  limit : Option Nat
  source : Source
  /-- The commands of the client that the desk has not taken. -/
  inbox : Channel Command
  outbox : Outbox
  book : Book
  desk : Desk
  /-- Every watcher ever started. -/
  watchers : List Watcher
  /-- The watcher started last for each listing that had one and is not being given a new one. -/
  spawned : Table Listing WatcherId
  meters : Meters
  journal : List Entry
  deriving DecidableEq, Repr

namespace Session

/-- Moves a meter. -/
def count (session : Session) (meter : Meter) (n : Int) : Session :=
  { session with meters := session.meters.add meter n }

/-- Writes an entry into the journal. -/
def write (session : Session) (entry : Entry) : Session :=
  { session with journal := session.journal ++ [entry] }

/-- Counts an event and writes it down. -/
def observe (session : Session) (event : Event) : Session :=
  (session.count (.events event.kind.name) 1).write (.event event)

/-- A party has an event: it is counted and written down, and the party asks for a place. -/
def announce (session : Session) (party : Party) (event : Event) : Session :=
  let session := session.observe event
  { session with outbox := session.outbox.request party }

/-- A party puts an event into its place. -/
def put (session : Session) (party : Party) (event : Event) : Session :=
  { session with outbox := session.outbox.put party event }

/-- Changes a watcher. -/
def modifyWatcher (session : Session) (id : WatcherId) (change : Watcher → Watcher) : Session :=
  { session with watchers := session.watchers.modify id change }

/-- Moves a watcher to another phase. -/
def setPhase (session : Session) (id : WatcherId) (phase : Watcher.Phase) : Session :=
  session.modifyWatcher id fun watcher => { watcher with phase }

/-- The watcher leaves the stream that it reads, if any. -/
def leaveStream (session : Session) (phase : Watcher.Phase) : Session :=
  match phase.stream? with
  | none => session
  | some stream =>
    { session with source :=
      { session.source with replay := session.source.replay.unsubscribe stream } }

/-- A watcher ends: its stream has no reader any more, and it neither has nor awaits a place. -/
def endWatcher (session : Session) (id : WatcherId) (ending : Watcher.Ending) : Session :=
  match session.watchers[id]? with
  | none => session
  | some watcher =>
    if watcher.phase.isEnded then session
    else
      let session := if watcher.phase.isLive then session.count .watchers (-1) else session
      let session := session.leaveStream watcher.phase
      { session with outbox := session.outbox.withdraw (.watcher id) }.setPhase id (.ended ending)

/-- A session that has just been opened. -/
def start (source : Source) (limit : Option Nat) (inboxCapacity outboxCapacity : Nat) : Session :=
  let session : Session :=
    { clock := 0, limit, source
      inbox := .new inboxCapacity, outbox := .new outboxCapacity
      book := .empty, desk := .idle, watchers := [], spawned := .empty
      meters := .zero, journal := [] }
  (session.count .sessions 1).write (.note "session started")

/-- Whether the session is over. -/
def isEnded (session : Session) : Bool :=
  match session.desk with
  | .ended => true
  | _ => false

end Session

end TriggerDesk
