import TriggerDesk.Session.State

/-!
# What watchers do

A watcher subscribes to its listing and waits for a first quote, whose last price becomes the
last price in the book. From then on it looks at every price of its symbol in turn. A price that
is not finite or is negative is passed over. Any other becomes the last price, and the orders
that it reaches fire, the one placed or moved last at the end.

When the feed is lost, the watcher takes every order of the listing out of the book, announces
the cancellations in the same order, and ends.

`Session.watcherStep` is what a watcher does between two points where it may have to wait.
-/

namespace TriggerDesk

open Market TriggerDesk.Order Feed

namespace Session

/-- No first quote will come. -/
def giveUp (session : Session) (id : WatcherId) (failure : Failure) : Session :=
  (session.modifyWatcher id fun watcher => { watcher with outcome := some (.failed failure) })
    |>.endWatcher id .neverLive

/-- The watcher subscribes. -/
def subscribe (session : Session) (id : WatcherId) (listing : Listing) : Session :=
  match session.source.subscribe listing with
  | (.ok stream, source) => { session with source }.setPhase id (.opening stream)
  | (.error failure, source) => { session with source }.giveUp id failure

/-- The watcher took the item that it read. -/
def advanceStream (session : Session) (stream : StreamId) : Session :=
  { session with source :=
    { session.source with replay := session.source.replay.advance stream } }

/-- The feed is live from a price on. -/
def goLive (session : Session) (id : WatcherId) (stream : StreamId) (listing : Listing)
    (price : Float) : Session :=
  let session := session.count .watchers 1
  { session with book := session.book.setLast listing price }.modifyWatcher id fun watcher =>
    { watcher with phase := .following stream [], outcome := some (.live price) }

/-- The price that a first quote makes the last price of a listing. -/
def firstPrice? (listing : Listing) (batch : Batch) : Option Float :=
  (batch.lastFor? listing.symbol).filter isValidPrice

/-- The watcher reads its first item. -/
def takeFirst (session : Session) (id : WatcherId) (stream : StreamId) (listing : Listing) :
    Reading → Option Session
  | .pending => none
  | .ended => some (session.giveUp id (.broken "feed closed before first quote"))
  | .item (.failure failure) => some ((session.advanceStream stream).giveUp id failure)
  | .item (.batch batch) =>
    let session := session.advanceStream stream
    match firstPrice? listing batch with
    | some price => some (session.goLive id stream listing price)
    | none =>
      some (session.giveUp id (.broken s!"first quote has no last for {listing.name}"))

/-- The watcher announces an order that left the book. -/
def announceLeft (session : Session) (id : WatcherId) (event : Event) : Session :=
  (session.count .pending (-1)).announce (.watcher id) event

/-- Announces the events of orders that fired, and then goes on with some prices. -/
def fire (session : Session) (id : WatcherId) (stream : StreamId) (prices : List Float) :
    List Event → Session
  | [] => session.setPhase id (.following stream prices)
  | event :: rest => (session.announceLeft id event).setPhase id (.firing stream event rest prices)

/-- Announces cancellations, and then ends. -/
def drain (session : Session) (id : WatcherId) (stream : StreamId) : List Event → Session
  | [] => session.endWatcher id .retired
  | event :: rest => (session.announceLeft id event).setPhase id (.retiring stream event rest)

/-- The events of orders that fire at a price. -/
def firedEvents (orders : List Pending) (index : Nat) (price : Float) : List Event :=
  orders.map fun order => Event.triggered order.command order.trigger.direction index price

/-- The events of orders that are cancelled for a reason. -/
def drainedEvents (orders : List Pending) (reason : String) : List Event :=
  orders.map fun order => (Event.cancelled order.command).withReason reason

/-- The watcher passes over a price. -/
def skipPrice (session : Session) (listing : Listing) (reason : String) : Session :=
  session.count (.badTicks listing.broker listing.symbol reason) 1

/-- The watcher looks at a valid price: the last price is set, and the orders that the price
reaches leave the book. -/
def takePrice (session : Session) (id : WatcherId) (listing : Listing) (price : Float) :
    List Pending × Session :=
  let (orders, book) := (session.book.setLast listing price).evaluate listing price
  let session := { session with book }.modifyWatcher id fun watcher =>
    { watcher with index := watcher.index + 1 }
  (orders, (session.count .ticks 1).count (.ticksAt listing.broker listing.symbol) 1)

/-- The watcher looks at its next price. -/
def lookAt (session : Session) (id : WatcherId) (watcher : Watcher) (stream : StreamId)
    (price : Float) (prices : List Float) : Session :=
  if !price.isFinite then
    (session.skipPrice watcher.listing "non_finite").setPhase id (.following stream prices)
  else if price < 0 then
    (session.skipPrice watcher.listing "negative").setPhase id (.following stream prices)
  else
    let (orders, session) := session.takePrice id watcher.listing price
    session.fire id stream prices (firedEvents orders watcher.index price)

/-- The feed of a watcher is lost. -/
def loseFeed (session : Session) (id : WatcherId) (stream : StreamId) (listing : Listing)
    (failure : Failure) : Session :=
  let reason := s!"feed failed: {failure.message}"
  let session := session.write (.note s!"{listing.name}: {reason}")
  let (orders, book) := session.book.retire listing
  { session with book }.drain id stream (drainedEvents orders reason)

/-- The watcher reads the next item of a live feed. -/
def takeNext (session : Session) (id : WatcherId) (stream : StreamId) (listing : Listing) :
    Reading → Option Session
  | .pending => none
  | .ended => some (session.loseFeed id stream listing (.broken "feed closed"))
  | .item (.failure failure) =>
    some ((session.advanceStream stream).loseFeed id stream listing failure)
  | .item (.batch batch) =>
    let prices := (batch.ticksFor listing.symbol).map (·.price)
    some ((session.advanceStream stream).setPhase id (.following stream prices))

/-- Puts the event that a watcher announced, once it has a place. The watcher ends when the
client has left. -/
def deliver (session : Session) (id : WatcherId) (event : Event) (next : Session → Session) :
    Option Session :=
  match session.outbox.standing (.watcher id) with
  | .waiting => none
  | .closed => some (session.endWatcher id .clientLeft)
  | .granted => some (next (session.put (.watcher id) event))

/-- The next step of a watcher. -/
def watcherStep (session : Session) (id : WatcherId) : Option Session := do
  let watcher ← session.watchers[id]?
  match watcher.phase with
  | .starting => some (session.subscribe id watcher.listing)
  | .opening stream =>
    session.takeFirst id stream watcher.listing (session.source.replay.peek stream)
  | .following stream [] =>
    session.takeNext id stream watcher.listing (session.source.replay.peek stream)
  | .following stream (price :: prices) => some (session.lookAt id watcher stream price prices)
  | .firing stream event rest prices =>
    session.deliver id event fun session => session.fire id stream prices rest
  | .retiring stream event rest =>
    session.deliver id event fun session => session.drain id stream rest
  | .ended _ => none

end Session

end TriggerDesk
