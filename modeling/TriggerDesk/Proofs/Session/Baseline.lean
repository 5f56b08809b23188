import Mathlib.Data.List.Induction
import TriggerDesk.Proofs.Session.Runs

/-!
# The price an order is armed at

An order is armed at a last price, and that price decides from which side its level has to be
reached. A move arms the order at the last price that the listing has in that very turn. A new
order is armed at the price that was the last one when the desk began to wait for a place for the
acknowledgement, and any number of ticks may have passed since: the order has the trigger that
the last price of the moment would give exactly when the two prices lie on the same side of the
level. The acknowledgement says the direction that the order has, in both cases.

`becomesLive_along` says this of every turn of every run. `armed_at_old_price` is a run in which
the price rises over the level while the desk waits.
-/

namespace TriggerDesk

open Market TriggerDesk.Order Feed

namespace Session

variable {first session next : Session}

/-- An order has become live at the end of a lane and is acknowledged with the direction that it
has, at a moment when the listing has a last price. No other order became live. -/
structure BecomesLive (session next : Session) (listing : Listing) (order : Pending)
    (last : Float) : Prop where
  live : (next.book.pending listing).getLast? = some order
  level : order.trigger.level = order.command.price
  last : next.book.last? listing = some last
  told : next.outbox.events =
    session.outbox.events ++ [Event.ack order.command order.trigger.direction]
  only : ∀ other, ∀ waiting ∈ next.book.pending other,
    waiting ∈ session.book.pending other ∨ other = listing ∧ waiting = order

/-- The desk waits to place an order since a moment in a run at which the baseline was the last
price of the listing. -/
structure HasWaitedSince (first : Session) (earlier later : List Move) (placing : Placing)
    (baseline : Float) : Prop where
  last : (first.run earlier).book.last? placing.listing = some baseline
  waits : ∀ middle, middle <+: later →
    (first.run (earlier ++ middle)).desk = .awaitPlace placing baseline

/-! ## Where the baseline comes from -/

/-- The desk begins to wait for a place for a new order only when it has read the last price. -/
theorem DeskTurn.last_of_awaitPlace {deed : Deed} (h : session.DeskTurn next deed)
    {placing : Placing} {baseline : Float} (hdesk : next.desk = .awaitPlace placing baseline) :
    next.book.last? placing.listing = some baseline := by
  cases h with
  | arm armed last hstill _ _ _ _ hlast hnext =>
    rw [hnext] at hdesk
    cases hdesk
    exact (hstill.last_eq _).trans hlast
  | refuse _ _ _ _ _ _ hnext | await _ _ _ _ _ _ _ _ _ _ hnext | start _ _ _ _ _ _ _ _ hnext
  | restart _ _ _ _ _ _ _ _ _ _ _ _ _ _ hnext | prepare _ _ _ _ _ _ hnext
  | cancel _ _ _ _ _ _ _ _ _ hnext | place _ _ _ _ _ _ _ _ _ _ hnext
  | move _ _ _ _ _ _ _ _ _ hnext | deliver _ _ _ _ _ _ _ hnext | shutDown _ _ _ hnext =>
    rw [hnext] at hdesk
    cases hdesk

/-- A move that is no turn of the desk leaves the desk as it is. -/
theorem desk_of_advance (session : Session) (move : Move) :
    session.DeskTurn (session.advance move) session.deskDeed ∨
      (session.advance move).desk = session.desk := by
  rcases advance_cases session move with ⟨actor, _, hstep⟩ | hsame
  · cases actor with
    | desk => exact .inl (deskTurn_of_deskStep hstep)
    | watcher id =>
      obtain ⟨watcher, after, hreplaces, _⟩ := watcherTurn_of_watcherStep hstep
      exact .inr hreplaces.desk
  · exact .inr hsame.desk

/-- A wait goes on with a move after which the desk still waits for a place for the same order. -/
theorem HasWaitedSince.concat {earlier later : List Move} {placing : Placing} {baseline : Float}
    (h : HasWaitedSince first earlier later placing baseline) {move : Move}
    (hdesk : (first.run (earlier ++ (later ++ [move]))).desk = .awaitPlace placing baseline) :
    HasWaitedSince first earlier (later ++ [move]) placing baseline where
  last := h.last
  waits middle hmiddle := by
    rcases List.prefix_concat_iff.1 hmiddle with hall | hbefore
    · rw [hall]
      exact hdesk
    · exact h.waits middle hbefore

/-- While the desk waits to place an order, the baseline is a price that was the last one when
it began to. -/
theorem exists_hasWaitedSince (hfirst : first.desk = .idle) {moves : List Move}
    {placing : Placing} {baseline : Float}
    (hdesk : (first.run moves).desk = .awaitPlace placing baseline) :
    ∃ earlier later, moves = earlier ++ later ∧
      HasWaitedSince first earlier later placing baseline := by
  -- From the end of the run back to the turn in which the desk asked for a place.
  induction moves using List.reverseRecOn with
  | nil =>
    rw [run_nil, hfirst] at hdesk
    cases hdesk
  | append_singleton moves move ih =>
    have hlast := hdesk
    rw [run_append, run_cons, run_nil] at hlast
    rcases desk_of_advance (first.run moves) move with hturn | hsame
    · refine ⟨moves ++ [move], [], (List.append_nil _).symm, ?_, fun middle hmiddle => ?_⟩
      · rw [run_append, run_cons, run_nil]
        exact hturn.last_of_awaitPlace hlast
      · rw [List.prefix_nil.1 hmiddle, List.append_nil]
        exact hdesk
    · obtain ⟨earlier, later, hmoves, hwaited⟩ := ih (hsame.symm.trans hlast)
      subst hmoves
      rw [List.append_assoc] at hdesk ⊢
      exact ⟨earlier, later ++ [move], rfl, hwaited.concat hdesk⟩

/-! ## Becoming live -/

/-- An order that the book takes becomes live, and is acknowledged with its direction. -/
theorem becomesLive_of_insert {listing : Listing} {order : Pending} {command : Command}
    {baseline : Float} (horder : order = Pending.ofCommand command baseline)
    (hinsert : session.book.insert listing order = (.ok (), next.book))
    (hevents : next.outbox.events =
      session.outbox.events ++ [Event.ack order.command order.trigger.direction]) :
    ∃ last, session.BecomesLive next listing order last := by
  obtain ⟨⟨last, hlast⟩, hlane⟩ := Book.lane_of_insert hinsert
  refine ⟨last, ?_, ?_, ?_, hevents, fun other waiting hwaiting => ?_⟩
  · rw [Book.pending, hlane, if_pos rfl]
    exact List.getLast?_concat
  · rw [horder]
    rfl
  · exact ((Book.sameFeeds_of_insert hinsert) listing).1.trans hlast
  · rw [Book.pending, hlane] at hwaiting
    split at hwaiting
    · next heq =>
      rcases List.mem_append.1 hwaiting with hold | hnew
      · exact .inl (heq ▸ hold)
      · exact .inr ⟨heq, List.mem_singleton.1 hnew⟩
    · exact .inl hwaiting

/-- An order that is moved becomes live again, armed at the last price of its listing. -/
theorem becomesLive_of_modify {command : Command} {moved : Book.Moved}
    (hmodify : session.book.modify command.oid command.price = some moved)
    (hbook : next.book = moved.book)
    (hevents : next.outbox.events = session.outbox.events ++
      [Event.ack moved.order.command moved.order.trigger.direction]) :
    ∃ listing last, session.BecomesLive next listing moved.order last ∧
      moved.order.trigger = Trigger.arm moved.order.trigger.level last := by
  obtain ⟨listing, old, last, _, hlast, horder, hlane⟩ := Book.lane_of_modify hmodify
  refine ⟨listing, last, ⟨?_, ?_, ?_, hevents, fun other waiting hwaiting => ?_⟩, ?_⟩
  · rw [Book.pending, hbook, hlane, if_pos rfl]
    exact List.getLast?_concat
  · rw [horder]
    rfl
  · rw [hbook]
    exact ((Book.sameFeeds_of_modify hmodify) listing).1.trans hlast
  · rw [Book.pending, hbook, hlane] at hwaiting
    split at hwaiting
    · next heq =>
      rcases List.mem_append.1 hwaiting with hold | hnew
      · exact .inl (heq ▸ List.mem_of_mem_eraseP hold)
      · exact .inr ⟨heq, List.mem_singleton.1 hnew⟩
    · exact .inl hwaiting
  · rw [horder]
    rfl

/-- No order has become live. -/
def NoneLive (session next : Session) : Prop :=
  ∀ listing, ∀ waiting ∈ next.book.pending listing, waiting ∈ session.book.pending listing

/-- Where no order changes, none becomes live. -/
theorem Still.noneLive (h : session.Still next) : session.NoneLive next :=
  fun listing _ hwaiting => h.pending_eq listing ▸ hwaiting

/-- No order becomes live when one is removed. -/
theorem noneLive_of_remove {oid : String} {order : Pending}
    (h : session.book.remove oid = some (order, next.book)) : session.NoneLive next := by
  intro other waiting hwaiting
  obtain ⟨⟨listing, found⟩, _, h⟩ := Option.bind_eq_some_iff.1 h
  simp only [Option.pure_def, Option.some.injEq, Prod.mk.injEq] at h
  have hlane := Book.lane_setLane session.book listing other
    { session.book.lane listing with
      orders := Book.without oid (session.book.lane listing).orders }
  rw [Book.pending, ← h.2] at hwaiting
  have hwaiting := hlane ▸ hwaiting
  split at hwaiting
  · next heq => exact heq ▸ List.mem_of_mem_eraseP hwaiting
  · exact hwaiting

/-- No order becomes live in a turn of a watcher. -/
theorem noneLive_of_watcherTurn {watcher after : Watcher} {deed : Deed}
    (h : session.WatcherTurn next watcher after deed) (hopen : next.IsOpen)
    (hbeside : session.Beside next) : session.NoneLive next := by
  intro other waiting hwaiting
  cases h with
  | quiet hbook | deliver _ hbook => exact hbook ▸ hwaiting
  | goLive price hbook =>
    rw [Book.pending, hbook, Book.lane_setLast] at hwaiting
    split at hwaiting
    · next heq => exact heq ▸ hwaiting
    · exact hwaiting
  | tick price orders hevaluate =>
    have hlane := Book.lane_evaluate (session.book.setLast watcher.listing price)
      watcher.listing other price
    rw [hevaluate] at hlane
    rw [Book.pending, hlane, Book.pending, Book.lane_setLast, Book.lane_setLast,
      if_pos rfl] at hwaiting
    split at hwaiting
    · next heq => exact heq ▸ (List.mem_filter.1 hwaiting).1
    · exact hwaiting
  | lose reason orders hretire =>
    have hpending := Book.pending_retire session.book watcher.listing other
    rw [hretire] at hpending
    rw [hpending] at hwaiting
    split at hwaiting
    · cases hwaiting
    · exact hwaiting
  | leave _ hleft =>
    rw [← hbeside.receiving, hopen.receiving] at hleft
    cases hleft

/-! ## Every turn of every run -/

/-- What the order that a turn at the end of a run makes live is armed at, by what the turn
does. -/
inductive ArmedAt (first : Session) (moves : List Move) (next : Session) : Deed → Prop
  /-- The trigger is that of the baseline. It is that of the last price if the two lie on the same
  side of the level, and only then. -/
  | place (placing : Placing) (order : Pending) (baseline last : Float)
      (earlier later : List Move) :
      moves = earlier ++ later → HasWaitedSince first earlier later placing baseline →
      placing.command = order.command →
      (first.run moves).BecomesLive next placing.listing order last →
      order.trigger = Trigger.arm order.trigger.level baseline →
      (order.trigger = Trigger.arm order.trigger.level last ↔
        (baseline ≤ order.trigger.level ↔ last ≤ order.trigger.level)) →
      ArmedAt first moves next (.place placing.listing order)
  /-- The trigger is that of the last price. -/
  | move (listing : Listing) (order : Pending) (last : Float) :
      (first.run moves).BecomesLive next listing order last →
      order.trigger = Trigger.arm order.trigger.level last →
      ArmedAt first moves next (.move order)
  | nothing : (first.run moves).NoneLive next → ArmedAt first moves next .nothing
  | take (orders : List Pending) :
      (first.run moves).NoneLive next → ArmedAt first moves next (.take orders)
  | put (event : Event) : (first.run moves).NoneLive next → ArmedAt first moves next (.put event)

/-- What a turn of the desk makes live is armed at the price for which the desk asked for a place,
or at the last one if it is moved. -/
theorem armedAt_of_deskTurn (hfirst : first.desk = .idle) {moves : List Move} {deed : Deed}
    (hturn : (first.run moves).DeskTurn next deed) (hopen : next.IsOpen) :
    ArmedAt first moves next deed := by
  cases hturn with
  | refuse _ _ hstill | arm _ _ hstill | await _ _ hstill | start _ _ hstill
  | restart _ _ _ _ hstill | prepare _ hstill => exact .nothing hstill.noneLive
  | cancel _ _ _ _ _ _ _ hremove => exact .take _ (noneLive_of_remove hremove)
  | deliver event _ _ _ _ hbook =>
    refine .put event fun listing waiting hwaiting => ?_
    rw [hbook] at hwaiting
    exact hwaiting
  | place placing baseline order _ _ hplace _ horder hinsert hevents =>
    obtain ⟨earlier, later, hmoves, hwaited⟩ := exists_hasWaitedSince hfirst hplace
    obtain ⟨last, hlive⟩ := becomesLive_of_insert horder hinsert hevents
    subst horder
    exact .place placing _ baseline last earlier later hmoves hwaited rfl hlive rfl
      Trigger.arm_eq_arm_iff
  | move command moved _ _ _ _ hmodify hbook hevents =>
    obtain ⟨listing, last, hlive, harmed⟩ := becomesLive_of_modify hmodify hbook hevents
    exact .move listing moved.order last hlive harmed
  | shutDown _ _ _ hdesk => exact absurd hdesk hopen.running

/-- A turn of a watcher makes no order live. -/
theorem armedAt_of_watcherTurn {watcher after : Watcher} {moves : List Move} {deed : Deed}
    (hturn : (first.run moves).WatcherTurn next watcher after deed) (hopen : next.IsOpen)
    (hbeside : (first.run moves).Beside next) : ArmedAt first moves next deed := by
  have hnone := noneLive_of_watcherTurn hturn hopen hbeside
  cases hturn with
  | quiet | goLive => exact .nothing hnone
  | tick | lose => exact .take _ hnone
  | deliver => exact .put _ hnone
  | leave _ hleft =>
    rw [← hbeside.receiving, hopen.receiving] at hleft
    cases hleft

/-- Whatever happens in a session and in whichever order: an order that is moved is armed at the
last price of the moment; a new one at the price that was the last one when the desk began to
wait for a place, which is as good exactly when it lies on the same side of the level; the
acknowledgement says the direction that the order has; and no other turn makes an order live. -/
theorem armedAt_along (source : Source) (limit : Option Nat) (inboxCapacity outboxCapacity : Nat)
    (moves : List Move) {actor : Actor}
    (hstep : step actor ((start source limit inboxCapacity outboxCapacity).run moves) = some next)
    (hopen : next.IsOpen) :
    ArmedAt (start source limit inboxCapacity outboxCapacity) moves next
      (((start source limit inboxCapacity outboxCapacity).run moves).deed actor) := by
  cases actor with
  | desk => exact armedAt_of_deskTurn rfl (deskTurn_of_deskStep hstep) hopen
  | watcher id =>
    obtain ⟨watcher, after, hreplaces, hturn⟩ := watcherTurn_of_watcherStep hstep
    exact armedAt_of_watcherTurn hturn hopen hreplaces.toBeside

/-- The outbox holds one event. An order is acknowledged, the next one is armed at 60 and waits
for a place, the price rises to 70, and the client takes the first acknowledgement. -/
def crowdedMoves : List Move :=
  [.stimulus (.push ⟨"B", "X"⟩ (.ofPrices "X" [60])),
    .stimulus (.send { kind := .alert, oid := "a", symbol := "X", brokers := ["B"], price := 500 }),
    .turn .desk, .turn (.watcher 0), .turn (.watcher 0), .turn .desk, .turn .desk,
    .stimulus (.send { kind := .alert, oid := "b", symbol := "X", brokers := ["B"], price := 65 }),
    .turn .desk,
    .stimulus (.push ⟨"B", "X"⟩ (.ofPrices "X" [70])), .turn (.watcher 0), .turn (.watcher 0),
    .stimulus .take]

/-- The session at the end of that run. -/
def crowded : Session := (start ⟨none, .new⟩ none 4 1).run crowdedMoves

/-- The second order of that run, armed at a price that has passed. -/
def overtaken : Pending :=
  Pending.ofCommand { kind := .alert, oid := "b", symbol := "X", brokers := ["B"], price := 65 } 60

/-- An order that waited for a place is armed at 60, though the last price is 70 when it becomes
live. -/
theorem armedAt_along_overtaken :
    step .desk crowded = some (crowded.advance (.turn .desk)) ∧
      (crowded.advance (.turn .desk)).IsOpen ∧
      crowded.deed .desk = .place ⟨"B", "X"⟩ overtaken ∧
      ArmedAt (start ⟨none, .new⟩ none 4 1) crowdedMoves (crowded.advance (.turn .desk))
        (crowded.deed .desk) := by
  have hstep : step .desk crowded = some (crowded.advance (.turn .desk)) := by decide +kernel
  have hopen : (crowded.advance (.turn .desk)).IsOpen := ⟨by decide +kernel, by decide +kernel⟩
  have harmed := armedAt_along ⟨none, .new⟩ none 4 1 crowdedMoves hstep hopen
  exact ⟨hstep, hopen, by decide +kernel, harmed⟩

/-- The order becomes live at a last price of 70 with a trigger that 70 would not give, so that it
fires at the next tick, wherever that is above 65. -/
theorem armed_at_old_price :
    step .desk crowded = some (crowded.advance (.turn .desk)) ∧
      crowded.deed .desk = .place ⟨"B", "X"⟩ overtaken ∧
      (crowded.advance (.turn .desk)).book.last? ⟨"B", "X"⟩ = some 70 ∧
      overtaken.trigger ≠ Trigger.arm overtaken.trigger.level 70 ∧
      overtaken.trigger.hits 70 = true := by
  decide +kernel

end Session

end TriggerDesk
