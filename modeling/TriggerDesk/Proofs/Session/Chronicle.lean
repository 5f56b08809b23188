import TriggerDesk.Proofs.Session.Effects

/-!
# The chronicle of a run

A chronicle is written beside a run and has no influence on it. Every order that is placed gets a
number, also when its id was used before. The chronicle keeps which orders were moved, which ones
each actor took out of the book and has not told of, and for every event in the outbox the order
that it is about; so the events of one order can be read one after the other
(`Chronicle.story`).

`Chronicle.Tells` is what a session should look like beside its chronicle: for each order the
acknowledgements come first, one for the placing and one for each move, and then at most one event
that ends it; and the order is in exactly one place, in the book, in the hand of one actor, or
told.
-/

namespace TriggerDesk

open Market TriggerDesk.Order Feed

/-- What has become of orders and events in a run. -/
structure Chronicle where
  /-- Every order that was placed, as it was then, with its listing. The place in this list is the
  number of the order. -/
  accepted : List (Listing × Pending)
  /-- The number of the order that was placed last under an id. -/
  number : String → Nat
  /-- The orders that were moved, once for each move. -/
  moved : List Nat
  /-- The orders that an actor took out of the book and has not told of, in the order in which it
  will. -/
  hand : Session.Actor → List Nat
  /-- For each event that was put, the order that it is about; none for a rejection. -/
  subjects : List (Option Nat)

/-- The events among these that are about an order. -/
def eventsAbout (events : List Event) (subjects : List (Option Nat)) (i : Nat) : List Event :=
  ((events.zip subjects).filter (·.2 = some i)).map (·.1)

/-- Where an order is. -/
inductive Whereabouts where
  /-- It waits in the book. -/
  | pending
  /-- It left the book, and an actor is about to put its last event. -/
  | held (actor : Session.Actor)
  /-- Its last event was put. -/
  | told
  deriving DecidableEq, Repr

namespace Chronicle

/-- The chronicle of a session in which nothing has happened. -/
def blank : Chronicle :=
  { accepted := [], number := fun _ => 0, moved := [], hand := fun _ => [], subjects := [] }

/-! ## Writing -/

/-- The chronicle after a deed. -/
def record (chronicle : Chronicle) (actor : Session.Actor) : Deed → Chronicle
  | .nothing => chronicle
  | .place listing order =>
    { chronicle with
      accepted := chronicle.accepted ++ [(listing, order)]
      number := Function.update chronicle.number order.oid chronicle.accepted.length
      subjects := chronicle.subjects ++ [some chronicle.accepted.length] }
  | .move order =>
    { chronicle with
      moved := chronicle.moved ++ [chronicle.number order.oid]
      subjects := chronicle.subjects ++ [some (chronicle.number order.oid)] }
  | .take orders =>
    { chronicle with
      hand := Function.update chronicle.hand actor
        (chronicle.hand actor ++ orders.map (chronicle.number ·.oid)) }
  | .put event =>
    if event.kind = .rejected then { chronicle with subjects := chronicle.subjects ++ [none] }
    else
      { chronicle with
        hand := Function.update chronicle.hand actor (chronicle.hand actor).tail
        subjects := chronicle.subjects ++ [(chronicle.hand actor).head?] }

/-- The chronicle after a move in a session. Only turns that are taken are written down. -/
def follow (chronicle : Chronicle) (session : Session) : Session.Move → Chronicle
  | .turn actor =>
    match Session.step actor session with
    | some _ => chronicle.record actor (session.deed actor)
    | none => chronicle
  | .stimulus _ | .feeds _ => chronicle

/-- The chronicle after some moves, begun in a session. -/
def along (chronicle : Chronicle) (session : Session) : List Session.Move → Chronicle
  | [] => chronicle
  | move :: moves => (chronicle.follow session move).along (session.advance move) moves

/-! ## Reading -/

/-- The events about an order that were put, the oldest first. -/
def story (chronicle : Chronicle) (session : Session) (i : Nat) : List Event :=
  eventsAbout session.outbox.events chronicle.subjects i

/-- An order is found at a place. -/
def Finds (chronicle : Chronicle) (session : Session) (i : Nat) : Whereabouts → Prop
  | .pending => ∃ listing first order, chronicle.accepted[i]? = some (listing, first) ∧
      order ∈ session.book.pending listing ∧ order.oid = first.oid ∧
      chronicle.number order.oid = i
  | .held actor => ∃ event, (i, event) ∈ (chronicle.hand actor).zip (session.held actor)
  | .told => ∃ event ∈ chronicle.story session i, event.kind ≠ .ack

end Chronicle

/-! ## What stories look like -/

/-- The acknowledgements of an order: the first one is that of the order as it was placed, and
there is one more for each move. -/
structure Acknowledged (order : Pending) (moves : Nat) (acks : List Event) : Prop where
  first : acks.head? = some (Event.ack order.command order.trigger.direction)
  all : ∀ ack ∈ acks, ack.kind = .ack ∧ ack.oid = order.oid
  count : acks.length = moves + 1

/-- An event ends an order that was acknowledged like this last. An alert or a fill, by what was
ordered, is told with the level and the direction of the acknowledgement. -/
structure Ends (order : Pending) (ack event : Event) : Prop where
  oid : event.oid = order.oid
  level : event.level = ack.level
  kind : event.kind = Event.triggeredKind order.command.kind ∧ event.direction = ack.direction ∨
    event.kind = .cancelled

end TriggerDesk
