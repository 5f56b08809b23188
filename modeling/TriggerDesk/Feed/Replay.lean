import TriggerDesk.Channel
import TriggerDesk.Feed.Failure
import TriggerDesk.Market.Listing
import TriggerDesk.Table

/-!
# The replay feed

A feed whose quotes are put in by hand. Each listing has at most one current stream, which items
are pushed to. A stream is made when an item is pushed and no stream is read, and then waits for
a subscriber with all that is pushed to it; or when a subscriber comes and none waits, and then
takes the place of the stream before it, which ends.

A stream buffers at most `streamCapacity` items. Once `refuse` was called for a listing, every
later subscription to it fails, without touching the stream that waits.
-/

namespace TriggerDesk.Feed

open Market

/-- The most items that a stream holds. -/
def streamCapacity : Nat := 4096

/-- The names of streams: the place of a stream in the order in which they were made. -/
abbrev StreamId := Nat

/-- The streams of a replay feed. -/
structure Replay where
  /-- Every stream ever made. -/
  streams : List (Channel Item)
  /-- The stream that items of a listing are pushed to. -/
  current : Table Listing StreamId
  /-- The stream of a listing that waits for a subscriber. -/
  waiting : Table Listing StreamId
  /-- Why subscriptions to a listing fail, if they do. -/
  refusals : Table Listing String
  /-- How often each listing was subscribed to, failures included. -/
  opens : Table Listing Nat
  deriving DecidableEq, Repr

/-- What reading a stream gives. -/
inductive Reading where
  | item (item : Item)
  /-- Nothing yet. -/
  | pending
  | ended
  deriving DecidableEq, Repr

namespace Replay

/-- A feed without streams. -/
def new : Replay :=
  { streams := [], current := .empty, waiting := .empty, refusals := .empty, opens := .empty }

/-- Changes a stream. -/
def modifyStream (replay : Replay) (id : StreamId) (change : Channel Item → Channel Item) :
    Replay :=
  { replay with streams := replay.streams.modify id change }

/-- The senders leave the current stream of a listing, if it has one. -/
def endCurrent (replay : Replay) (listing : Listing) : Replay :=
  match replay.current.get? listing with
  | none => replay
  | some id => replay.modifyStream id Channel.closeSending

/-- Nobody takes the waiting stream of a listing, if it has one. -/
def dropWaiting (replay : Replay) (listing : Listing) : Replay :=
  match replay.waiting.get? listing with
  | none => replay
  | some id =>
    { replay.modifyStream id Channel.closeReceiving with waiting := replay.waiting.erase listing }

/-- Makes a stream the current one of a listing. -/
def startStream (replay : Replay) (listing : Listing) : StreamId × Replay :=
  let id := replay.streams.length
  let replay := replay.endCurrent listing
  (id, { replay with
    streams := replay.streams ++ [Channel.new streamCapacity]
    current := replay.current.set listing id })

/-- The current stream of a listing, if someone reads it or will. -/
def readCurrent? (replay : Replay) (listing : Listing) : Option StreamId := do
  let id ← replay.current.get? listing
  let stream ← replay.streams[id]?
  if stream.receiving then some id else none

/-- The stream that an item of a listing goes to: the current one, or a new one that waits. -/
def target (replay : Replay) (listing : Listing) : StreamId × Replay :=
  match replay.readCurrent? listing with
  | some id => (id, replay)
  | none =>
    let (id, replay) := (replay.dropWaiting listing).startStream listing
    (id, { replay with waiting := replay.waiting.set listing id })

/-- Sends an item to the current stream of a listing, and says whether there was room. -/
def send (replay : Replay) (listing : Listing) (item : Item) : Bool × Replay :=
  let (id, replay) := replay.target listing
  match replay.streams[id]? with
  | none => (false, replay)
  | some stream =>
    match stream.send item with
    | .ok stream => (true, replay.modifyStream id fun _ => stream)
    | .error _ => (false, replay)

/-- Pushes a batch. -/
def push (replay : Replay) (listing : Listing) (batch : Batch) : Bool × Replay :=
  replay.send listing (.batch batch)

/-- Pushes a failure. -/
def breakStream (replay : Replay) (listing : Listing) (reason : String) : Bool × Replay :=
  replay.send listing (.failure (.broken reason))

/-- Ends the current stream of a listing. A subscriber still reads what was pushed. -/
def close (replay : Replay) (listing : Listing) : Replay :=
  let replay := (replay.endCurrent listing).dropWaiting listing
  { replay with current := replay.current.erase listing }

/-- Makes every later subscription to a listing fail. -/
def refuse (replay : Replay) (listing : Listing) (reason : String) : Replay :=
  { replay with refusals := replay.refusals.set listing reason }

/-- How often a listing was subscribed to. -/
def openCount (replay : Replay) (listing : Listing) : Nat :=
  (replay.opens.get? listing).getD 0

/-- Counts a subscription. -/
def countOpen (replay : Replay) (listing : Listing) : Replay :=
  { replay with opens := replay.opens.set listing (replay.openCount listing + 1) }

/-- Subscribes to a listing. -/
def subscribe (replay : Replay) (listing : Listing) : Except Failure StreamId × Replay :=
  let replay := replay.countOpen listing
  match replay.refusals.get? listing, replay.waiting.get? listing with
  | some reason, _ => (.error (.refused reason), replay)
  | none, some id => (.ok id, { replay with waiting := replay.waiting.erase listing })
  | none, none =>
    let (id, replay) := replay.startStream listing
    (.ok id, replay)

/-- What the subscriber of a stream reads next. -/
def peek (replay : Replay) (id : StreamId) : Reading :=
  match replay.streams[id]? with
  | none => .ended
  | some stream =>
    match stream.items with
    | item :: _ => .item item
    | [] => if stream.sending then .pending else .ended

/-- The feed after the subscriber of a stream took the item that it read. -/
def advance (replay : Replay) (id : StreamId) : Replay :=
  replay.modifyStream id fun stream => { stream with items := stream.items.tail }

/-- The subscriber of a stream leaves. -/
def unsubscribe (replay : Replay) (id : StreamId) : Replay :=
  replay.modifyStream id Channel.closeReceiving

end Replay

end TriggerDesk.Feed
