import TriggerDesk.Session.Machine

/-!
# Deeds

`Session.deed` names what the next turn of an actor does to orders and events: it places or moves
an order and acknowledges that, takes orders out of the book, puts an event that it announced
before, or does none of this. That a turn does just that is said where the turns are: for the
desk in `deskTurn_of_deskStep`, for a watcher in `watcherTurn_of_watcherStep`.

The rest is what turns leave alone, and the end of a watcher, which both kinds of turn share.
-/

namespace TriggerDesk

open Market TriggerDesk.Order Feed

/-- What a turn does to orders and events. -/
inductive Deed where
  | nothing
  /-- An order enters the book and its acknowledgement is put. -/
  | place (listing : Listing) (order : Pending)
  /-- An order moves and its acknowledgement is put. The order is given as it is afterwards. -/
  | move (order : Pending)
  /-- Orders leave the book, and whoever took the turn now has an event to put for each. -/
  | take (orders : List Pending)
  /-- An event that was held is put. -/
  | put (event : Event)
  deriving DecidableEq, Repr

/-- The command that the desk works on. -/
def Desk.command? : Desk → Option Command
  | .awaitEnd placing _ | .awaitQuote placing _ _ | .awaitPlace placing _ => some placing.command
  | .awaitMove command => some command
  | .idle | .answering _ | .ended => none

/-- The watcher whose end the desk awaits. -/
def Desk.awaited? : Desk → Option WatcherId
  | .awaitEnd _ id => some id
  | .idle | .awaitQuote .. | .awaitPlace .. | .awaitMove _ | .answering _ | .ended => none

/-- The event that the desk waits to put. -/
def Desk.answer? : Desk → Option Event
  | .answering event => some event
  | .idle | .awaitEnd .. | .awaitQuote .. | .awaitPlace .. | .awaitMove _ | .ended => none

/-- The event that the desk holds of an order that it took out of the book. -/
def Desk.held : Desk → List Event
  | .answering event => if event.kind = .rejected then [] else [event]
  | .idle | .awaitEnd .. | .awaitQuote .. | .awaitPlace .. | .awaitMove _ | .ended => []

/-- The desk does not wait for a watcher to end, and has no event to put. -/
structure Desk.IsFree (desk : Desk) : Prop where
  awaited : desk.awaited? = none
  answer : desk.answer? = none

/-- A desk without an answer to put holds no event. -/
theorem Desk.held_of_answer {desk : Desk} (h : desk.answer? = none) : desk.held = [] := by
  cases desk with
  | answering event => cases h
  | idle | awaitEnd | awaitQuote | awaitPlace | awaitMove | ended => rfl

/-- A desk that works on a command is free, unless it waits for a watcher to end. -/
theorem Desk.isFree_of_command {desk : Desk} {command : Command}
    (hcommand : desk.command? = some command) (hawaited : desk.awaited? = none) : desk.IsFree := by
  refine ⟨hawaited, ?_⟩
  cases desk with
  | answering event => cases hcommand
  | idle | awaitEnd | awaitQuote | awaitPlace | awaitMove | ended => rfl

/-- The order that the desk is about to place. -/
def Desk.placing? : Desk → Option Placing
  | .awaitEnd placing _ | .awaitQuote placing _ _ | .awaitPlace placing _ => some placing
  | .idle | .awaitMove _ | .answering _ | .ended => none

/-- The command places an order at the listing, at a price that is finite. -/
structure Placing.IsProper (placing : Placing) : Prop where
  places : placing.command.kind.places = true
  broker : placing.command.broker? = some placing.listing.broker
  symbol : placing.listing.symbol = placing.command.symbol
  finite : placing.command.price.isFinite = true

/-- The command by which the desk is about to move an order. -/
def Desk.moving? : Desk → Option Command
  | .awaitMove command => some command
  | .idle | .awaitEnd .. | .awaitQuote .. | .awaitPlace .. | .answering _ | .ended => none

/-- What the desk is about to place, if anything, is an order, and it moves an order only when
that was asked for. -/
structure Desk.IsProper (desk : Desk) : Prop where
  placing : ∀ placing, desk.placing? = some placing → placing.IsProper
  moving : ∀ command, desk.moving? = some command → command.kind = .modify

/-- The events that a watcher has announced or is about to, and not put yet. -/
def Watcher.held (watcher : Watcher) : List Event :=
  match watcher.phase with
  | .firing _ event rest _ | .retiring _ event rest => event :: rest
  | .starting | .opening _ | .following .. | .ended _ => []

/-- Whether the feed of a watcher is live. -/
def Watcher.Phase.tracks : Watcher.Phase → Bool
  | following .. | firing .. => true
  | starting | opening _ | retiring .. | ended _ => false

/-- Whether a watcher lost its feed and has cancellations to deliver. -/
def Watcher.Phase.isRetiring : Watcher.Phase → Bool
  | retiring .. => true
  | starting | opening _ | following .. | firing .. | ended _ => false

/-- A watcher of a live feed neither drains nor has ended. -/
theorem Watcher.Phase.not_retiring_of_tracks {phase : Watcher.Phase} (h : phase.tracks = true) :
    phase.isRetiring = false ∧ phase.isEnded = false := by
  cases phase with
  | following | firing => exact ⟨rfl, rfl⟩
  | starting | opening | retiring | ended => cases h

/-- A watcher that drains has not ended. -/
theorem Watcher.Phase.not_ended_of_retiring {phase : Watcher.Phase}
    (h : phase.isRetiring = true) : phase.isEnded = false := by
  cases phase with
  | retiring => rfl
  | starting | opening | following | firing | ended => cases h

/-- A watcher that has come to an end. One that had ended before stays as it is. -/
def Watcher.stop (ending : Watcher.Ending) (watcher : Watcher) : Watcher :=
  if watcher.phase.isEnded then watcher else { watcher with phase := .ended ending }

/-- A watcher that is stopped has ended. -/
theorem Watcher.isEnded_stop (ending : Watcher.Ending) (watcher : Watcher) :
    (watcher.stop ending).phase.isEnded = true := by
  unfold Watcher.stop
  split
  · next hended => exact hended
  · rfl

/-- A watcher that has ended holds nothing. -/
theorem Watcher.held_of_ended {watcher : Watcher} (h : watcher.phase.isEnded = true) :
    watcher.held = [] := by
  unfold Watcher.held
  cases hphase : watcher.phase with
  | starting | opening | following | ended => rfl
  | firing | retiring =>
    rw [hphase] at h
    cases h

/-- A watcher that holds nothing holds nothing when it has come to an end. -/
theorem Watcher.held_stop {ending : Watcher.Ending} {watcher : Watcher} (h : watcher.held = []) :
    (watcher.stop ending).held = [] := by
  unfold Watcher.stop
  split
  · exact h
  · rfl

/-- A watcher that is stopped keeps its listing. -/
theorem Watcher.listing_stop (ending : Watcher.Ending) (watcher : Watcher) :
    (watcher.stop ending).listing = watcher.listing := by
  unfold Watcher.stop
  split <;> rfl

namespace Session

variable {session next : Session}

/-! ## Deeds -/

/-- What taking up a command does. Only a cancellation is done at once. -/
def takeUpDeed (session : Session) (command : Command) : Deed :=
  match command.kind with
  | .cancel =>
    match session.book.remove command.oid with
    | some (order, _) => .take [order]
    | none => .nothing
  | .alert | .buy | .sell | .modify => .nothing

/-- What placing an order does. -/
def placeDeed (session : Session) (placing : Placing) (last : Float) : Deed :=
  match session.book.insert placing.listing (Pending.ofCommand placing.command last) with
  | (.ok (), _) => .place placing.listing (Pending.ofCommand placing.command last)
  | (.error _, _) => .nothing

/-- What moving an order does. -/
def moveDeed (session : Session) (command : Command) : Deed :=
  match session.book.modify command.oid command.price with
  | some moved => .move moved.order
  | none => .nothing

/-- What the next turn of the desk does. -/
def deskDeed (session : Session) : Deed :=
  match session.desk with
  | .idle =>
    match session.inbox.receive? with
    | some (command, _) => session.takeUpDeed command
    | none => .nothing
  | .awaitPlace placing last => session.placeDeed placing last
  | .awaitMove command => session.moveDeed command
  | .answering event => .put event
  | .awaitEnd .. | .awaitQuote .. | .ended => .nothing

/-- What looking at a price does to the orders of a listing. -/
def lookDeed (session : Session) (listing : Listing) (price : Float) : Deed :=
  if !price.isFinite || price < 0 then .nothing
  else .take ((session.book.setLast listing price).evaluate listing price).1

/-- What reading a live feed does to the orders of a listing. -/
def readDeed (session : Session) (listing : Listing) : Reading → Deed
  | .pending | .item (.batch _) => .nothing
  | .ended | .item (.failure _) => .take (session.book.retire listing).1

/-- What the next turn of a watcher does. -/
def watcherDeed (session : Session) (id : WatcherId) : Deed :=
  match session.watchers[id]? with
  | none => .nothing
  | some watcher =>
    match watcher.phase with
    | .following stream [] =>
      session.readDeed watcher.listing (session.source.replay.peek stream)
    | .following _ (price :: _) => session.lookDeed watcher.listing price
    | .firing _ event .. | .retiring _ event _ => .put event
    | .starting | .opening _ | .ended _ => .nothing

/-- What the next turn of an actor does, unless the actor has to wait. -/
def deed (session : Session) : Actor → Deed
  | .desk => session.deskDeed
  | .watcher id => session.watcherDeed id

/-! ## What turns leave alone -/

/-- The commands that the desk has not answered: the one that it works on, and then those in the
inbox. -/
def docket (session : Session) : List Command :=
  session.desk.command?.toList ++ session.inbox.items

/-- What no turn changes. -/
structure Beside (session next : Session) : Prop where
  taken : next.outbox.taken = session.outbox.taken
  receiving : next.outbox.receiving = session.outbox.receiving
  joined : next.inbox.isOpen = session.inbox.isOpen

/-- Orders and events are as before. -/
structure Still (session next : Session) : Prop extends Beside session next where
  lane : ∀ listing, next.book.lane listing = session.book.lane listing
  index : next.book.index = session.book.index
  events : next.outbox.events = session.outbox.events

/-- What two turns leave as it is, both together do. -/
theorem Still.trans {middle : Session} (first : session.Still middle)
    (second : middle.Still next) : session.Still next where
  taken := second.taken.trans first.taken
  receiving := second.receiving.trans first.receiving
  joined := second.joined.trans first.joined
  lane listing := (second.lane listing).trans (first.lane listing)
  index := second.index.trans first.index
  events := second.events.trans first.events

/-- Every last price is as before. -/
theorem Still.last_eq (h : session.Still next) (listing : Listing) :
    next.book.last? listing = session.book.last? listing :=
  congrArg Lane.last (h.lane listing)

/-- Every listing that is retiring is as before. -/
theorem Still.isRetiring_eq (h : session.Still next) (listing : Listing) :
    next.book.isRetiring listing = session.book.isRetiring listing :=
  congrArg Lane.retiring (h.lane listing)

/-- Every feed is as before. -/
theorem Still.sameFeeds (h : session.Still next) : session.book.SameFeeds next.book :=
  fun listing => ⟨h.last_eq listing, h.isRetiring_eq listing⟩

/-- At every listing the same orders wait. -/
theorem Still.pending_eq (h : session.Still next) (listing : Listing) :
    next.book.pending listing = session.book.pending listing :=
  congrArg Lane.orders (h.lane listing)

/-- Watchers, and who follows which listing, are as before. -/
structure SameStaff (session next : Session) : Prop where
  watchers : next.watchers = session.watchers
  spawned : next.spawned = session.spawned

/-! ## Ending a watcher -/

/-- Only watchers, orders and events may differ. -/
structure Aside (session next : Session) : Prop extends Beside session next where
  inbox : next.inbox = session.inbox
  desk : next.desk = session.desk
  spawned : next.spawned = session.spawned

/-- What two turns leave alone, both together do. -/
theorem Aside.trans {middle : Session} (first : session.Aside middle)
    (second : middle.Aside next) : session.Aside next where
  taken := second.taken.trans first.taken
  receiving := second.receiving.trans first.receiving
  joined := second.joined.trans first.joined
  inbox := second.inbox.trans first.inbox
  desk := second.desk.trans first.desk
  spawned := second.spawned.trans first.spawned

/-- Only watchers may differ. -/
structure Bystanders (session next : Session) : Prop extends Aside session next where
  book : next.book = session.book
  events : next.outbox.events = session.outbox.events

/-- Nothing differs from itself. -/
theorem Bystanders.refl (session : Session) : session.Bystanders session :=
  ⟨⟨⟨rfl, rfl, rfl⟩, rfl, rfl, rfl⟩, rfl, rfl⟩

/-- Two changes of watchers are one. -/
theorem Bystanders.trans {middle : Session} (first : session.Bystanders middle)
    (second : middle.Bystanders next) : session.Bystanders next where
  toAside := first.toAside.trans second.toAside
  book := second.book.trans first.book
  events := second.events.trans first.events

/-- If only watchers differ, orders and events are as before. -/
theorem Bystanders.still (h : session.Bystanders next) : session.Still next where
  toBeside := h.toBeside
  lane _ := by rw [h.book]
  index := by rw [h.book]
  events := h.events

/-- Counting changes no order and no event. -/
theorem bystanders_count (session : Session) (meter : Metrics.Meter) (n : Int) :
    session.Bystanders (session.count meter n) :=
  ⟨⟨⟨rfl, rfl, rfl⟩, rfl, rfl, rfl⟩, rfl, rfl⟩

/-- A phase that a watcher enters changes no order and no event. -/
theorem bystanders_setPhase (session : Session) (id : WatcherId) (phase : Watcher.Phase) :
    session.Bystanders (session.setPhase id phase) :=
  ⟨⟨⟨rfl, rfl, rfl⟩, rfl, rfl, rfl⟩, rfl, rfl⟩

/-- Leaving a stream changes no order and no event. -/
theorem bystanders_leaveStream (session : Session) (phase : Watcher.Phase) :
    session.Bystanders (session.leaveStream phase) := by
  unfold leaveStream
  split <;> exact ⟨⟨⟨rfl, rfl, rfl⟩, rfl, rfl, rfl⟩, rfl, rfl⟩

/-- Withdrawing a request for a place changes no order and no event. -/
theorem bystanders_withdraw (session : Session) (party : Party) :
    session.Bystanders { session with outbox := session.outbox.withdraw party } where
  taken := Outbox.taken_withdraw _ _
  receiving := Outbox.receiving_withdraw _ _
  joined := rfl
  book := rfl
  events := Outbox.events_withdraw _ _
  inbox := rfl
  desk := rfl
  spawned := rfl

/-- The end of a watcher changes no order and no event. -/
theorem bystanders_endWatcher (session : Session) (id : WatcherId) (ending : Watcher.Ending) :
    session.Bystanders (session.endWatcher id ending) := by
  unfold endWatcher
  split
  · exact .refl _
  · next watcher _ =>
    dsimp only
    split
    · exact .refl _
    · have hcounted : session.Bystanders
          (if watcher.phase.isLive then session.count .watchers (-1) else session) := by
        split
        · exact bystanders_count _ _ _
        · exact .refl _
      exact hcounted.trans <| (bystanders_leaveStream _ _).trans <|
        (bystanders_withdraw _ _).trans (bystanders_setPhase _ _ _)

/-- Only the watcher that is ended is stopped. -/
theorem getElem?_watchers_endWatcher (session : Session) (id other : WatcherId)
    (ending : Watcher.Ending) :
    (session.endWatcher id ending).watchers[other]? =
      if id = other then session.watchers[other]?.map (Watcher.stop ending)
      else session.watchers[other]? := by
  unfold endWatcher
  split
  · next hnone =>
    split
    · next heq =>
      subst heq
      rw [hnone]
      rfl
    · rfl
  · next watcher hwatcher =>
    dsimp only
    split
    · next hended =>
      split
      · next heq =>
        subst heq
        rw [hwatcher, Option.map_some, Watcher.stop, if_pos hended]
      · rfl
    · next hrunning =>
      have hleft : ∀ (counted : Session) (phase : Watcher.Phase),
          (counted.leaveStream phase).watchers = counted.watchers := by
        intro counted phase
        unfold leaveStream
        split <;> rfl
      have hcounted : (if watcher.phase.isLive then session.count .watchers (-1)
          else session).watchers = session.watchers := by
        split <;> rfl
      show (List.modify _ id _)[other]? = _
      rw [hleft, hcounted, List.getElem?_modify]
      split
      · next heq =>
        subst heq
        rw [hwatcher, Option.map_some, Watcher.stop, if_neg hrunning]
        rfl
      · simp

end Session

end TriggerDesk
