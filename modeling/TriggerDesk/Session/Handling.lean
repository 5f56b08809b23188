import TriggerDesk.Decimal.Layout
import TriggerDesk.Session.State
import TriggerDesk.Text.Duration

/-!
# What the desk does

The desk answers every command with one event.

To place an order it first sees to a live feed for the listing: a feed that is live already is
used as it is, a watcher that is losing its feed is waited for, and otherwise a new watcher is
started and its first quote awaited. Then the order is armed at the last price, and put into the
book and acknowledged in one step, once there is a place for the acknowledgement. If the feed is
lost in between, this is tried once more.

To move an order the desk gets a place for the acknowledgement first, so that no price is
compared with the new level before the acknowledgement is on its way.

`Session.deskStep` is what the desk does between two points where it may have to wait.
-/

namespace TriggerDesk

open Market TriggerDesk.Order Metrics

/-- Why a command is rejected. -/
inductive Rejection where
  | noBroker
  | badPrice (price : Float)
  | duplicateOid
  | unknownOid
  /-- There is no live feed, because of what the text says. -/
  | noFeed (cause : String)
  deriving DecidableEq, Repr

/-- The label under which rejections are counted. -/
def Rejection.label : Rejection → String
  | noBroker => "no_broker"
  | badPrice _ => "bad_price"
  | duplicateOid => "duplicate"
  | unknownOid => "unknown_oid"
  | noFeed _ => "feed"

/-- What the client is told. -/
def Rejection.message : Rejection → String
  | noBroker => "no broker given"
  | badPrice price => s!"invalid price {Decimal.Layout.plain.write price}"
  | duplicateOid => Book.Refusal.duplicateOid.message
  | unknownOid => "unknown order id"
  | noFeed cause => s!"feed unavailable: {cause}"

namespace Session

/-- The desk has an answer. -/
def answer (session : Session) (event : Event) : Session :=
  { session.announce .desk event with desk := .answering event }

/-- The desk rejects a command. -/
def reject (session : Session) (command : Command) (rejection : Rejection) : Session :=
  (session.count (.rejects rejection.label) 1).answer (Event.rejected command rejection.message)

/-- The desk gives its place back. -/
def returnPlace (session : Session) : Session :=
  { session with outbox := session.outbox.withdraw .desk }

/-! ## Placing an order -/

/-- Arms the order at a last price and asks for a place. -/
def arm (session : Session) (placing : Placing) (last : Float) : Session :=
  { session with
    desk := .awaitPlace placing last
    outbox := session.outbox.request .desk }

/-- Starts a watcher and awaits its first quote. -/
def startWatcher (session : Session) (placing : Placing) : Session :=
  let id := session.watchers.length
  { session with
    watchers := session.watchers ++ [Watcher.new placing.listing]
    spawned := session.spawned.set placing.listing id
    desk := .awaitQuote placing id (session.limit.map (session.clock + ·)) }

/-- Sees to a new watcher for a listing without a last price. The watcher before it is waited
for if it lost its feed, since it may still have cancellations to deliver; if it did not, it is
stopped. -/
def replaceWatcher (session : Session) (placing : Placing) : Session :=
  match session.spawned.get? placing.listing with
  | none => session.startWatcher placing
  | some id =>
    let session := { session with spawned := session.spawned.erase placing.listing }
    if session.book.isRetiring placing.listing then
      { session with desk := .awaitEnd placing id }
    else (session.endWatcher id .aborted).startWatcher placing

/-- Sees to a live feed. -/
def seekFeed (session : Session) (placing : Placing) : Session :=
  match session.book.last? placing.listing with
  | some last => session.arm placing last
  | none => session.replaceWatcher placing

/-- The feed was lost before the order was in the book. -/
def tryAgain (session : Session) (placing : Placing) : Session :=
  if placing.again then
    session.reject placing.command (.noFeed s!"{placing.listing.name} keeps failing")
  else session.seekFeed { placing with again := true }

/-- The first quote has come. The last price is the one of the book, which may be newer; and the
feed may be lost again. -/
def feedReady (session : Session) (placing : Placing) : Session :=
  let session := session.count .firstQuotes 1
  match session.book.last? placing.listing with
  | some last => session.arm placing last
  | none => session.tryAgain placing

/-- Puts the order into the book and its acknowledgement into the place of the desk. -/
def place (session : Session) (placing : Placing) (last : Float) : Session :=
  let order := Pending.ofCommand placing.command last
  match session.book.insert placing.listing order with
  | (.ok (), book) =>
    let ack := Event.ack order.command order.trigger.direction
    { ((session.observe ack).put .desk ack).count .pending 1 with book, desk := .idle }
  | (.error .duplicateOid, _) => session.returnPlace.reject placing.command .duplicateOid
  | (.error (.noFeed _), book) => { session with book }.returnPlace.tryAgain placing

/-! ## Commands -/

/-- A command to place an order. -/
def handleOrder (session : Session) (command : Command) : Session :=
  match command.broker? with
  | none => session.reject command .noBroker
  | some broker =>
    if !command.price.isFinite then session.reject command (.badPrice command.price)
    else if session.book.contains command.oid then session.reject command .duplicateOid
    else
      let listing := { broker, symbol := command.symbol }
      session.seekFeed { command, listing, again := false }

/-- A command to cancel an order. -/
def handleCancel (session : Session) (command : Command) : Session :=
  match session.book.remove command.oid with
  | none => session.reject command .unknownOid
  | some (order, book) =>
    ({ session with book }.count .pending (-1)).answer (Event.cancelled order.command)

/-- A command to move an order. -/
def handleModify (session : Session) (command : Command) : Session :=
  if !command.price.isFinite then session.reject command (.badPrice command.price)
  else
    { session with
      desk := .awaitMove command
      outbox := session.outbox.request .desk }

/-- Moves an order and puts the acknowledgement into the place of the desk. -/
def move (session : Session) (command : Command) : Session :=
  match session.book.modify command.oid command.price with
  | none => session.returnPlace.reject command .unknownOid
  | some moved =>
    let ack := Event.ack moved.order.command moved.order.trigger.direction
    { (session.observe ack).put .desk ack with book := moved.book, desk := .idle }

/-- The desk takes a command up. -/
def handle (session : Session) (command : Command) : Session :=
  let session := (session.count (.commands command.kind.name) 1).write (.command command)
  match command.kind with
  | .alert | .buy | .sell => session.handleOrder command
  | .cancel => session.handleCancel command
  | .modify => session.handleModify command

/-! ## The end -/

/-- Stops watchers. -/
def stopWatchers (session : Session) (ids : List WatcherId) : Session :=
  ids.foldl (fun session id => session.endWatcher id .aborted) session

/-- The session is over: its orders no longer count as pending, and its watchers are stopped. -/
def shutDown (session : Session) : Session :=
  let left := session.book.size
  let session := session.count .pending (-left)
  let session := session.stopWatchers (List.range session.watchers.length)
  let session := session.write (.note s!"session ended, {left} pending dropped")
  let session := session.count .sessions (-1)
  { session with
    outbox := session.outbox.withdraw .desk
    inbox := session.inbox.closeReceiving
    desk := .ended }

/-! ## Steps -/

/-- Goes on once the desk has a place. The session is over when the client has left. -/
def withPlace (session : Session) (next : Session → Session) : Option Session :=
  match session.outbox.standing .desk with
  | .waiting => none
  | .closed => some session.shutDown
  | .granted => some (next session)

/-- What has come of waiting for a first quote, if anything. A quote that is there counts even
when the time is over. -/
def quoteOutcome? (session : Session) (watcher : Watcher) (deadline : Option Nat) :
    Option (Except String Unit) :=
  match watcher.outcome with
  | some (.live _) => some (.ok ())
  | some (.failed failure) => some (.error failure.message)
  | none =>
    if watcher.phase.isEnded then some (.error "feed worker exited before first quote")
    else if deadline.any (· ≤ session.clock) then
      some (.error s!"feed not ready after {Text.duration (session.limit.getD 0)}")
    else none

/-- The next step of the desk. -/
def deskStep (session : Session) : Option Session :=
  match session.desk with
  | .idle =>
    match session.inbox.receive? with
    | some (command, inbox) => some ({ session with inbox }.handle command)
    | none => if session.inbox.isEnded then some session.shutDown else none
  | .awaitEnd placing id => do
    let watcher ← session.watchers[id]?
    if watcher.phase.isEnded then some (session.startWatcher placing) else none
  | .awaitQuote placing id deadline => do
    let watcher ← session.watchers[id]?
    match ← session.quoteOutcome? watcher deadline with
    | .ok () => some (session.feedReady placing)
    | .error cause => some (session.reject placing.command (.noFeed cause))
  | .awaitPlace placing last => session.withPlace fun session => session.place placing last
  | .awaitMove command => session.withPlace fun session => session.move command
  | .answering event =>
    session.withPlace fun session => { session.put .desk event with desk := .idle }
  | .ended => none

end Session

end TriggerDesk
