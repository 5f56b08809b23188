import TriggerDesk.Order.Event

/-!
# The outbox

The events of a session on their way to its client. The outbox holds at most `capacity` events
and promised places. A party that has an event asks for a place first; places are given out in
the order in which they were asked for, and an event is put into a place that was given.

`events` lists every event ever put, and `taken` counts those that the client took, so what is
on its way is the rest. Once the client has left, nobody gets a place.
-/

namespace TriggerDesk

open TriggerDesk.Order

/-- Who puts events into the outbox: the desk that carries out commands, the reader of a
connection, and the watchers of the feeds. -/
inductive Party where
  | desk
  | reader
  | watcher (id : Nat)
  deriving DecidableEq, Repr

/-- Events on their way to a client. -/
structure Outbox where
  capacity : Nat
  /-- Every event that was put, the oldest first. -/
  events : List Event
  /-- How many of them the client took. -/
  taken : Nat
  /-- Who has a place and has not put an event yet. -/
  granted : List Party
  /-- Who waits for a place, in the order of asking. -/
  waiting : List Party
  /-- Whether the client is there. -/
  receiving : Bool
  deriving DecidableEq, Repr

namespace Outbox

/-- An outbox without events. -/
def new (capacity : Nat) : Outbox :=
  { capacity, events := [], taken := 0, granted := [], waiting := [], receiving := true }

/-- The events that the client has not taken. -/
def underway (outbox : Outbox) : List Event := outbox.events.drop outbox.taken

/-- The number of places in use. -/
def used (outbox : Outbox) : Nat :=
  (outbox.events.length - outbox.taken) + outbox.granted.length

/-- Whether a place is free. -/
def hasRoom (outbox : Outbox) : Bool := outbox.used < outbox.capacity

/-- Gives a free place to whoever waits longest. -/
def grantNext (outbox : Outbox) : Outbox :=
  match outbox.waiting with
  | [] => outbox
  | party :: rest =>
    if outbox.hasRoom then { outbox with granted := outbox.granted ++ [party], waiting := rest }
    else outbox

/-- Asks for a place. -/
def request (outbox : Outbox) (party : Party) : Outbox :=
  if outbox.receiving then { outbox with waiting := outbox.waiting ++ [party] }.grantNext
  else outbox

/-- What a party that asked for a place finds. -/
inductive Standing where
  | granted
  | waiting
  /-- The client has left. -/
  | closed
  deriving DecidableEq, Repr

/-- What a party finds. That the client has left comes before a place that was given. -/
def standing (outbox : Outbox) (party : Party) : Standing :=
  if !outbox.receiving then .closed
  else if party ∈ outbox.granted then .granted
  else .waiting

/-- Puts an event into the place of a party. -/
def put (outbox : Outbox) (party : Party) (event : Event) : Outbox :=
  { outbox with events := outbox.events ++ [event], granted := outbox.granted.erase party }

/-- A party gives its place back, or no longer waits for one. -/
def withdraw (outbox : Outbox) (party : Party) : Outbox :=
  { outbox with
    granted := outbox.granted.erase party
    waiting := outbox.waiting.erase party }.grantNext

/-- The client takes the oldest event. -/
def take? (outbox : Outbox) : Option (Event × Outbox) :=
  match outbox.events[outbox.taken]? with
  | some event =>
    if outbox.receiving then some (event, { outbox with taken := outbox.taken + 1 }.grantNext)
    else none
  | none => none

/-- The client leaves. -/
def close (outbox : Outbox) : Outbox :=
  { outbox with granted := [], waiting := [], receiving := false }

/-! ## Asking for a place and giving it back leaves the events alone -/

/-- Giving a place leaves the events. -/
@[simp]
theorem events_grantNext (outbox : Outbox) : outbox.grantNext.events = outbox.events := by
  unfold grantNext
  split
  · rfl
  · split <;> rfl

/-- Giving a place leaves what the client has taken. -/
@[simp]
theorem taken_grantNext (outbox : Outbox) : outbox.grantNext.taken = outbox.taken := by
  unfold grantNext
  split
  · rfl
  · split <;> rfl

/-- Giving a place leaves whether the client is there. -/
@[simp]
theorem receiving_grantNext (outbox : Outbox) : outbox.grantNext.receiving = outbox.receiving := by
  unfold grantNext
  split
  · rfl
  · split <;> rfl

/-- Asking for a place leaves the events. -/
@[simp]
theorem events_request (outbox : Outbox) (party : Party) :
    (outbox.request party).events = outbox.events := by
  unfold request
  split
  · exact events_grantNext _
  · rfl

/-- Asking for a place leaves what the client has taken. -/
@[simp]
theorem taken_request (outbox : Outbox) (party : Party) :
    (outbox.request party).taken = outbox.taken := by
  unfold request
  split
  · exact taken_grantNext _
  · rfl

/-- Asking for a place leaves whether the client is there. -/
@[simp]
theorem receiving_request (outbox : Outbox) (party : Party) :
    (outbox.request party).receiving = outbox.receiving := by
  unfold request
  split
  · exact receiving_grantNext _
  · rfl

/-- Giving a place back leaves the events. -/
@[simp]
theorem events_withdraw (outbox : Outbox) (party : Party) :
    (outbox.withdraw party).events = outbox.events :=
  events_grantNext _

/-- Giving a place back leaves what the client has taken. -/
@[simp]
theorem taken_withdraw (outbox : Outbox) (party : Party) :
    (outbox.withdraw party).taken = outbox.taken :=
  taken_grantNext _

/-- Giving a place back leaves whether the client is there. -/
@[simp]
theorem receiving_withdraw (outbox : Outbox) (party : Party) :
    (outbox.withdraw party).receiving = outbox.receiving :=
  receiving_grantNext _

/-- A party finds that the client has left only when it has. -/
theorem receiving_of_closed {outbox : Outbox} {party : Party}
    (h : outbox.standing party = .closed) : outbox.receiving = false := by
  unfold standing at h
  split at h
  · next hleft => simpa using hleft
  · split at h <;> cases h

/-- Taking leaves the events and whether the client is there alone. -/
theorem take?_eq_some {outbox next : Outbox} {event : Event}
    (h : outbox.take? = some (event, next)) :
    outbox.events[outbox.taken]? = some event ∧ next.events = outbox.events ∧
      next.taken = outbox.taken + 1 ∧ next.receiving = outbox.receiving := by
  unfold take? at h
  split at h
  · next found hfound =>
    split at h
    · cases h
      exact ⟨hfound, events_grantNext _, taken_grantNext _, receiving_grantNext _⟩
    · cases h
  · cases h

/-- The event that is taken was the first one underway. -/
theorem underway_of_take {outbox next : Outbox} {event : Event}
    (h : outbox.take? = some (event, next)) : outbox.underway = event :: next.underway := by
  obtain ⟨hevent, hevents, htaken, _⟩ := take?_eq_some h
  obtain ⟨hlength, hevent⟩ := List.getElem?_eq_some_iff.1 hevent
  rw [underway, underway, hevents, htaken, List.drop_eq_getElem_cons hlength, hevent]

/-- Events that are put come behind those underway. -/
theorem underway_append {outbox next : Outbox} {events : List Event}
    (h : next.events = outbox.events ++ events) (htaken : next.taken = outbox.taken)
    (hle : outbox.taken ≤ outbox.events.length) : next.underway = outbox.underway ++ events := by
  rw [underway, h, htaken, List.drop_append_of_le_length hle, underway]

end Outbox

end TriggerDesk
