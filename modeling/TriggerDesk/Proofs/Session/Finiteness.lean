import TriggerDesk.Proofs.Order.Crossing
import TriggerDesk.Proofs.Session.Acts
import TriggerDesk.Proofs.Session.Replies
import TriggerDesk.Proofs.Session.Stages

/-!
# Finite numbers in a session

When the commands of a session have finite prices, all its numbers stay finite, whatever its feeds
deliver: the last prices, which are not negative either, the levels of the orders, and the prices
and levels of all events, those that are put and those that somebody holds. `Session.IsFinite` says
so, and every turn keeps it, also when the client has left and when the session ends
(`Session.IsFinite.of_step`).
-/

namespace TriggerDesk

open Market TriggerDesk.Order Feed

/-- An event whose price and level are finite. -/
structure Order.Event.IsFinite (event : Event) : Prop where
  price : event.price.isFinite = true
  level : event.level.isFinite = true

/-- An order that waits at the price of its command, which is finite. -/
structure Order.Pending.IsFinite (order : Pending) : Prop where
  level : order.trigger.level = order.command.price
  price : order.command.price.isFinite = true

/-- A lane whose last price is valid, with finite orders. -/
structure Lane.IsFinite (lane : Lane) : Prop where
  last : ∀ price, lane.last = some price → isValidPrice price = true
  orders : ∀ order ∈ lane.orders, order.IsFinite

/-- A lane without a price and without orders is finite. -/
theorem Lane.isFinite_empty {retiring : Bool} :
    Lane.IsFinite { last := none, retiring, orders := [] } where
  last _ h := by cases h
  orders _ h := by cases h

/-- A book of such lanes. -/
def Book.IsFinite (book : Book) : Prop := ∀ listing, (book.lane listing).IsFinite

/-! ## Events of finite commands -/

section Events

variable {command : Command} {order : Pending}

/-- A finite command is acknowledged with finite numbers. -/
theorem Order.Event.isFinite_ack (h : command.price.isFinite = true) (direction : Direction) :
    (Event.ack command direction).IsFinite :=
  ⟨h, h⟩

/-- A finite command places a finite order. -/
theorem Order.Pending.isFinite_ofCommand (h : command.price.isFinite = true) (last : Float) :
    (Pending.ofCommand command last).IsFinite :=
  ⟨rfl, h⟩

/-- An order that is moved to a finite level stays finite. -/
theorem Order.Pending.isFinite_moveTo {level : Float} (h : level.isFinite = true)
    (order : Pending) (last : Float) : (order.moveTo level last).IsFinite :=
  ⟨rfl, h⟩

/-- Finite orders that fire at a finite price have finite events. -/
theorem isFinite_firedEvents {orders : List Pending} (h : ∀ order ∈ orders, order.IsFinite)
    {price : Float} (hprice : price.isFinite = true) (index : ℕ) :
    ∀ event ∈ Session.firedEvents orders index price, event.IsFinite := by
  intro event hevent
  obtain ⟨order, horder, rfl⟩ := List.mem_map.1 hevent
  exact ⟨hprice, (h order horder).price⟩

/-- Finite orders are cancelled with finite events. -/
theorem isFinite_drainedEvents {orders : List Pending} (h : ∀ order ∈ orders, order.IsFinite)
    (reason : String) : ∀ event ∈ Session.drainedEvents orders reason, event.IsFinite := by
  intro event hevent
  obtain ⟨order, horder, rfl⟩ := List.mem_map.1 hevent
  exact ⟨(h order horder).price, (h order horder).price⟩

end Events

/-! ## The book -/

namespace Book.IsFinite

variable {book next : Book} {listing : Listing} {order : Pending} {oid : String}

/-- An empty book is finite. -/
theorem empty : Book.empty.IsFinite := fun _ => Lane.isFinite_empty

/-- A book with the same lanes stays finite. -/
theorem of_lane (h : book.IsFinite) (hlane : ∀ listing, next.lane listing = book.lane listing) :
    next.IsFinite := by
  intro listing
  rw [hlane listing]
  exact h listing

/-- One lane may change. -/
theorem of_lanes (h : book.IsFinite) {lane : Lane}
    (hlane : ∀ other, next.lane other = if other = listing then lane else book.lane other)
    (hfinite : lane.IsFinite) : next.IsFinite := by
  intro other
  rw [hlane other]
  split
  · exact hfinite
  · exact h other

/-- A book that takes a finite order stays finite. -/
theorem of_insert (h : book.IsFinite) (horder : order.IsFinite)
    (hinsert : book.insert listing order = (.ok (), next)) : next.IsFinite := by
  refine h.of_lanes (lane_of_insert hinsert).2 ⟨(h listing).last, fun found hfound => ?_⟩
  rcases List.mem_append.1 hfound with hfound | hfound
  · exact (h listing).orders found hfound
  · rw [List.mem_singleton.1 hfound]
    exact horder

/-- An order that is found in a finite book is finite. -/
theorem of_find? (h : book.IsFinite) (hfind : book.find? oid = some (listing, order)) :
    order.IsFinite := by
  obtain ⟨found, _, hfind⟩ := Option.bind_eq_some_iff.1 hfind
  obtain ⟨other, hother, hfind⟩ := Option.bind_eq_some_iff.1 hfind
  cases hfind
  exact (h listing).orders order (List.mem_of_find?_eq_some hother)

/-- The orders at a listing of a finite book are finite without one of them. -/
theorem isFinite_without (h : book.IsFinite) (listing : Listing) (oid : String) :
    ∀ order ∈ without oid (book.pending listing), order.IsFinite :=
  fun order horder => (h listing).orders order (List.mem_of_mem_eraseP horder)

/-- An order that is taken out of a finite book is finite, and so is what is left. -/
theorem of_remove (h : book.IsFinite) (hremove : book.remove oid = some (order, next)) :
    order.IsFinite ∧ next.IsFinite := by
  obtain ⟨⟨listing, found⟩, hfind, hremove⟩ := Option.bind_eq_some_iff.1 hremove
  cases hremove
  exact ⟨h.of_find? hfind, h.of_lanes (fun other => lane_setLane book listing other _)
    ⟨(h listing).last, h.isFinite_without listing oid⟩⟩

/-- An order that is moved to a finite level is finite, and so is the book then. -/
theorem of_modify (h : book.IsFinite) {level : Float} (hlevel : level.isFinite = true)
    {moved : Moved} (hmodify : book.modify oid level = some moved) :
    moved.order.IsFinite ∧ moved.book.IsFinite := by
  obtain ⟨listing, old, last, _, _, hmoved, hlane⟩ := lane_of_modify hmodify
  have hfinite : moved.order.IsFinite := hmoved ▸ Pending.isFinite_moveTo hlevel old last
  refine ⟨hfinite, h.of_lanes hlane ⟨(h listing).last, fun found hfound => ?_⟩⟩
  rcases List.mem_append.1 hfound with hfound | hfound
  · exact h.isFinite_without listing oid found hfound
  · rw [List.mem_singleton.1 hfound]
    exact hfinite

/-- A valid last price leaves a book finite. -/
theorem setLast (h : book.IsFinite) {price : Float} (hprice : isValidPrice price = true) :
    (book.setLast listing price).IsFinite := by
  refine h.of_lanes (lane_setLast book listing · price) ⟨fun found hfound => ?_, (h listing).orders⟩
  cases hfound
  exact hprice

/-- Orders that fire are finite, and so is what is left. -/
theorem of_evaluate (h : book.IsFinite) {price : Float} {orders : List Pending}
    (hevaluate : book.evaluate listing price = (orders, next)) :
    (∀ order ∈ orders, order.IsFinite) ∧ next.IsFinite := by
  have horders : orders = (book.evaluate listing price).1 := by rw [hevaluate]
  have hnext : next = (book.evaluate listing price).2 := by rw [hevaluate]
  subst horders hnext
  refine ⟨fun order horder => ?_, h.of_lanes (lane_evaluate book listing · price)
    ⟨(h listing).last, fun order horder => ?_⟩⟩
  · rw [show (book.evaluate listing price).1 = _ from takeHits_fst book listing price] at horder
    exact (h listing).orders order (List.mem_filter.1 horder).1
  · exact (h listing).orders order (List.mem_filter.1 horder).1

/-- Orders that are drained are finite, and so is what is left. -/
theorem of_retire (h : book.IsFinite) {orders : List Pending}
    (hretire : book.retire listing = (orders, next)) :
    (∀ order ∈ orders, order.IsFinite) ∧ next.IsFinite := by
  have horders : orders = (book.takeAll listing).1 := (congrArg Prod.fst hretire).symm
  have hlane : ∀ other, next.lane other = (book.takeAll listing).2.lane other := by
    intro other
    rw [← show (book.retire listing).2 = next from congrArg Prod.snd hretire]
    rfl
  subst horders
  cases hget : book.lanes.get? listing with
  | none =>
    have htake : book.takeAll listing = ([], book) := by rw [takeAll, hget]
    rw [htake] at hlane ⊢
    exact ⟨fun order horder => (List.not_mem_nil horder).elim, h.of_lane hlane⟩
  | some lane =>
    have htake : book.takeAll listing = (lane.orders,
        book.setLane listing { last := none, retiring := true, orders := [] }) := by
      rw [takeAll, hget]
    have hself : book.lane listing = lane := by rw [Book.lane, hget, Option.getD_some]
    rw [htake] at hlane ⊢
    exact ⟨hself ▸ (h listing).orders,
      h.of_lanes (fun other => (hlane other).trans (lane_setLane _ _ _ _)) Lane.isFinite_empty⟩

end Book.IsFinite

/-! ## The session -/

namespace Session

variable {session next : Session} {id : WatcherId} {watcher : Watcher}

/-- All numbers of a session are finite, but for prices that a watcher has not looked at. -/
structure IsFinite (session : Session) : Prop where
  book : session.book.IsFinite
  docket : ∀ command ∈ session.docket, command.price.isFinite = true
  answer : ∀ event, session.desk.answer? = some event → event.IsFinite
  held : ∀ watcher ∈ session.watchers, ∀ event ∈ watcher.held, event.IsFinite
  events : ∀ event ∈ session.outbox.events, event.IsFinite

/-- When a session starts, there are no orders and no events. -/
theorem isFinite_start (source : Source) (limit : Option ℕ) (inboxCapacity outboxCapacity : ℕ) :
    (start source limit inboxCapacity outboxCapacity).IsFinite where
  book := .empty
  docket _ h := by cases h
  answer _ h := by cases h
  held _ h := by cases h
  events _ h := by cases h

/-! ## Turns of the desk -/

/-- A watcher that is stopped holds nothing. -/
theorem mem_watchers_endWatcher {ending : Watcher.Ending}
    (h : watcher ∈ (session.endWatcher id ending).watchers) :
    watcher ∈ session.watchers ∨ watcher.held = [] := by
  obtain ⟨other, hother⟩ := List.mem_iff_getElem?.1 h
  rw [getElem?_watchers_endWatcher] at hother
  split at hother
  · obtain ⟨before, _, rfl⟩ := Option.map_eq_some_iff.1 hother
    exact .inr (Watcher.held_of_ended (Watcher.isEnded_stop ending before))
  · exact .inl (List.mem_of_getElem? hother)

/-- A watcher that is left after some were stopped was there before, or holds nothing. -/
theorem mem_watchers_stopWatchers {ids : List WatcherId}
    (h : watcher ∈ (session.stopWatchers ids).watchers) :
    watcher ∈ session.watchers ∨ watcher.held = [] := by
  induction ids generalizing session with
  | nil => exact .inl h
  | cons id rest ih =>
    have hlater : watcher ∈ ((session.endWatcher id .aborted).stopWatchers rest).watchers := h
    rcases ih hlater with hmem | hnone
    · exact mem_watchers_endWatcher hmem
    · exact .inr hnone

namespace IsFinite

/-- What a watcher holds is finite, if it was there before or holds nothing. -/
theorem held_of_mem_or (h : session.IsFinite)
    (hor : watcher ∈ session.watchers ∨ watcher.held = []) :
    ∀ event ∈ watcher.held, event.IsFinite := by
  rcases hor with hmem | hnone
  · exact h.held watcher hmem
  · rw [hnone]
    intro event hevent
    cases hevent

/-- The command that the desk has taken up or takes up next is finite. -/
theorem first (h : session.IsFinite) {command : Command} {rest : List Command}
    (hdocket : session.docket = command :: rest) : command.price.isFinite = true :=
  h.docket command (hdocket ▸ List.mem_cons_self)

/-- A turn that changes no order and no event, and starts at most watchers that hold nothing, leaves
a finite session finite. -/
theorem of_still (h : session.IsFinite) (hstill : session.Still next)
    (hdocket : next.docket ⊆ session.docket)
    (hanswer : ∀ event, next.desk.answer? = some event → event.IsFinite)
    (hwatchers : ∀ watcher ∈ next.watchers, watcher ∈ session.watchers ∨ watcher.held = []) :
    next.IsFinite where
  book := h.book.of_lane hstill.lane
  docket command hcommand := h.docket command (hdocket hcommand)
  answer := hanswer
  held watcher hwatcher := h.held_of_mem_or (hwatchers watcher hwatcher)
  events := hstill.events ▸ h.events

/-- Such a turn leaves a finite session finite also when the desk works on the same command after
it. -/
theorem of_working (h : session.IsFinite) (hstill : session.Still next)
    (hdocket : next.docket = session.docket) (hdesk : next.desk.answer? = none)
    (hwatchers : ∀ watcher ∈ next.watchers, watcher ∈ session.watchers ∨ watcher.held = []) :
    next.IsFinite := by
  refine h.of_still hstill (hdocket ▸ List.Subset.refl _) (fun event hevent => ?_) hwatchers
  rw [hdesk] at hevent
  cases hevent

/-- A turn that puts an event and leaves the watchers alone. -/
theorem of_put (h : session.IsFinite) (hstaff : session.SameStaff next) (hbook : next.book.IsFinite)
    (hdocket : next.docket ⊆ session.docket) (hdesk : next.desk = .idle)
    {event : Event} (hevent : event.IsFinite)
    (hevents : next.outbox.events = session.outbox.events ++ [event]) : next.IsFinite where
  book := hbook
  docket command hcommand := h.docket command (hdocket hcommand)
  answer other hother := by
    rw [hdesk] at hother
    cases hother
  held := hstaff.watchers ▸ h.held
  events other hother := by
    rw [hevents] at hother
    rcases List.mem_append.1 hother with hother | hother
    · exact h.events other hother
    · rw [List.mem_singleton.1 hother]
      exact hevent

/-- Shutting down leaves a session finite. -/
theorem shutDown (h : session.IsFinite) : session.shutDown.IsFinite where
  book := by
    have hstopped : ∀ ids, ((session.count .pending (-session.book.size)).stopWatchers ids).book =
        session.book := fun ids => (bystanders_stopWatchers _ ids).book
    show (Session.stopWatchers _ _).book.IsFinite
    rw [hstopped]
    exact h.book
  docket _ hcommand := by cases hcommand
  answer _ hevent := by cases hevent
  held watcher hwatcher := by
    have hstopped : watcher ∈ ((session.count .pending (-session.book.size)).stopWatchers
        (List.range session.watchers.length)).watchers := hwatcher
    have hcases := mem_watchers_stopWatchers hstopped
    exact h.held_of_mem_or hcases
  events := (events_shutDown session).1 ▸ h.events

/-- Every turn of the desk that does not end the session. -/
theorem of_deskTurn (h : session.IsFinite) {deed : Deed} (hturn : session.DeskTurn next deed)
    (hrunning : next.desk ≠ .ended) : next.IsFinite := by
  have hless : ∀ {command : Command}, session.docket = command :: next.docket →
      next.docket ⊆ session.docket :=
    fun heq => heq ▸ List.subset_cons_self _ _
  -- A watcher that is started or stopped holds no events, and the others hold what they held.
  have hkept : next.watchers = session.watchers →
      ∀ watcher ∈ next.watchers, watcher ∈ session.watchers ∨ watcher.held = [] :=
    fun heq watcher hwatcher => .inl (heq ▸ hwatcher)
  cases hturn with
  | refuse command rejection hstill hstaff _ hdocket hdesk =>
    refine h.of_still hstill (hless hdocket) (fun event hevent => ?_) (hkept hstaff.watchers)
    rw [hdesk] at hevent
    cases hevent
    exact ⟨h.first hdocket, h.first hdocket⟩
  | arm placing last hstill hstaff _ hdocket _ _ hdesk =>
    exact h.of_working hstill hdocket (hdesk ▸ rfl) (hkept hstaff.watchers)
  | await placing id hstill hwatchers _ hdocket _ _ _ _ hdesk =>
    exact h.of_working hstill hdocket (hdesk ▸ rfl) (hkept hwatchers)
  | start placing deadline hstill hdocket _ _ hwatchers _ hdesk =>
    refine h.of_working hstill hdocket (hdesk ▸ rfl) ?_
    rw [hwatchers]
    exact List.forall_mem_append.2 ⟨fun _ => .inl, List.forall_mem_singleton.2 (.inr rfl)⟩
  | restart placing id deadline stopped hstill _ hdocket _ _ _ _ hstopped hwatchers _ hdesk =>
    refine h.of_working hstill hdocket (hdesk ▸ rfl) ?_
    rw [hwatchers, hstopped]
    exact List.forall_mem_append.2 ⟨fun _ => mem_watchers_endWatcher,
      List.forall_mem_singleton.2 (.inr rfl)⟩
  | prepare command hstill hstaff _ hdocket _ hdesk =>
    exact h.of_working hstill hdocket (hdesk ▸ rfl) (hkept hstaff.watchers)
  | cancel command order hbeside hstaff _ hdocket _ hremove hevents hdesk =>
    obtain ⟨horder, hbook⟩ := h.book.of_remove hremove
    refine ⟨hbook, fun other hother => h.docket other (hless hdocket hother),
      fun event hevent => ?_, hstaff.watchers ▸ h.held, hevents ▸ h.events⟩
    rw [hdesk] at hevent
    cases hevent
    exact ⟨horder.price, horder.price⟩
  | place placing last order hbeside hstaff _ hdocket horder hinsert hevents hdesk =>
    have hfinite : order.IsFinite := horder ▸ Pending.isFinite_ofCommand (h.first hdocket) last
    exact h.of_put hstaff (h.book.of_insert hfinite hinsert) (hless hdocket) hdesk
      (Event.isFinite_ack hfinite.price _) hevents
  | move command moved hbeside hstaff _ hdocket hmodify hbook hevents hdesk =>
    obtain ⟨hfinite, hnext⟩ := h.book.of_modify (h.first hdocket) hmodify
    exact h.of_put hstaff (hbook ▸ hnext) (hless hdocket) hdesk
      (Event.isFinite_ack hfinite.price _) hevents
  | deliver event hbeside hstaff hanswering hdocket hbook hevents hdesk =>
    refine h.of_put hstaff (hbook ▸ h.book) (hdocket ▸ List.Subset.refl _) hdesk
      (h.answer event ?_) hevents
    rw [hanswering]
    rfl
  | shutDown deed _ _ hdesk => exact absurd hdesk hrunning

/-- A turn of the desk leaves a session finite. -/
theorem of_deskStep (h : session.IsFinite) (hstep : session.deskStep = some next) :
    next.IsFinite := by
  by_cases hended : next.desk = .ended
  · rcases onward_of_deskStep hstep with ⟨_, hrunning, _⟩ | honward | ⟨rfl, _⟩
    · exact absurd hended hrunning
    · exact absurd hended honward.running
    · exact h.shutDown
  · exact h.of_deskTurn (deskTurn_of_deskStep hstep) hended

end IsFinite

/-! ## Turns of the watchers -/

/-- Putting an event that is announced before adds it and nothing else. -/
theorem events_of_deliver {event : Event} {further : Session → Session}
    (h : session.deliver id event further = some next)
    (hfurther : ∀ session : Session, session.Bystanders (further session)) :
    next.outbox.events = session.outbox.events ∨
      next.outbox.events = session.outbox.events ++ [event] := by
  unfold deliver at h
  split at h
  · cases h
  · cases h
    exact .inl (bystanders_endWatcher _ _ _).events
  · cases h
    exact .inr (hfurther _).events

/-- Subscribing puts no event. -/
theorem events_subscribe (session : Session) (id : WatcherId) (listing : Listing) :
    (session.subscribe id listing).outbox.events = session.outbox.events := by
  unfold subscribe
  split
  · rfl
  · next failure source _ => exact (bystanders_giveUp { session with source } id failure).events

/-- Reading what comes first puts no event. -/
theorem events_takeFirst {stream : StreamId} {listing : Listing} {reading : Reading}
    (h : session.takeFirst id stream listing reading = some next) :
    next.outbox.events = session.outbox.events := by
  unfold takeFirst at h
  split at h
  · cases h
  · cases h
    exact (bystanders_giveUp _ _ _).events
  · cases h
    exact (bystanders_giveUp _ _ _).events
  · dsimp only at h
    split at h
    · cases h
      rfl
    · cases h
      exact (bystanders_giveUp _ _ _).events

/-- Taking what comes next puts no event. -/
theorem events_takeNext {stream : StreamId} {listing : Listing} {reading : Reading}
    (h : session.takeNext id stream listing reading = some next) :
    next.outbox.events = session.outbox.events := by
  unfold takeNext at h
  split at h
  · cases h
  · cases h
    exact (bystanders_drain _ _ _ _).events
  · cases h
    exact (bystanders_drain _ _ _ _).events
  · cases h
    rfl

/-- Looking at a price puts no event. -/
theorem events_lookAt (session : Session) (id : WatcherId) (watcher : Watcher) (stream : StreamId)
    (price : Float) (prices : List Float) :
    (session.lookAt id watcher stream price prices).outbox.events = session.outbox.events := by
  unfold lookAt
  split
  · rfl
  · split
    · rfl
    · exact (bystanders_fire _ _ _ _ _).events

/-- A watcher puts at most the event that it holds first. -/
theorem events_of_watcherStep (hwatcher : session.watchers[id]? = some watcher)
    (h : session.watcherStep id = some next) :
    next.outbox.events = session.outbox.events ∨
      ∃ event ∈ watcher.held, next.outbox.events = session.outbox.events ++ [event] := by
  obtain ⟨found, hfound, h⟩ := Option.bind_eq_some_iff.1 h
  rw [hwatcher] at hfound
  cases hfound
  cases hphase : watcher.phase with
  | starting =>
    rw [hphase] at h
    cases h
    exact .inl (events_subscribe _ _ _)
  | opening stream =>
    rw [hphase] at h
    exact .inl (events_takeFirst h)
  | following stream prices =>
    rw [hphase] at h
    cases prices with
    | nil => exact .inl (events_takeNext h)
    | cons price prices =>
      cases h
      exact .inl (events_lookAt _ _ _ _ _ _)
  | firing stream event rest prices =>
    rw [hphase] at h
    refine (events_of_deliver h fun _ => bystanders_fire _ _ _ _ _).imp_right fun hput => ?_
    exact ⟨event, by rw [Watcher.held, hphase]; exact List.mem_cons_self, hput⟩
  | retiring stream event rest =>
    rw [hphase] at h
    refine (events_of_deliver h fun _ => bystanders_drain _ _ _ _).imp_right fun hput => ?_
    exact ⟨event, by rw [Watcher.held, hphase]; exact List.mem_cons_self, hput⟩
  | ended =>
    rw [hphase] at h
    cases h

namespace IsFinite

/-- What a turn makes of a watcher holds finite events only, and the book stays finite. -/
theorem of_acts (h : session.IsFinite) (hwatcher : watcher ∈ session.watchers) {after : Watcher}
    (hacts : session.Acts next id watcher after) :
    next.book.IsFinite ∧ ∀ event ∈ after.held, event.IsFinite := by
  have hheld := h.held watcher hwatcher
  cases hacts with
  | subscribe _ _ hbook | read _ _ _ hbook | skip _ _ _ _ _ hbook | giveUp _ _ hbook =>
    exact ⟨hbook ▸ h.book, fun event hevent => nomatch hevent⟩
  | goLive stream price _ hvalid hbook =>
    exact ⟨hbook ▸ h.book.setLast hvalid, fun event hevent => nomatch hevent⟩
  | look stream price prices orders _ hfinite hnonneg hevaluate =>
    -- Only a valid price becomes the last one, so what fires at it is finite too.
    have hvalid : isValidPrice price = true := isValidPrice_iff.2 ⟨hfinite, hnonneg⟩
    obtain ⟨horders, hnext⟩ := (h.book.setLast hvalid).of_evaluate hevaluate
    refine ⟨hnext, ?_⟩
    rw [Watcher.held_fires]
    exact isFinite_firedEvents horders hfinite watcher.index
  | lose stream failure orders _ _ hretire =>
    obtain ⟨horders, hnext⟩ := h.book.of_retire hretire
    refine ⟨hnext, ?_⟩
    rw [Watcher.held_drains]
    exact isFinite_drainedEvents horders failure.reason
  | fired stream event rest prices hphase _ hbook =>
    refine ⟨hbook ▸ h.book, fun other hother => hheld other ?_⟩
    rw [Watcher.held_fires] at hother
    rw [Watcher.held, hphase]
    exact List.mem_cons_of_mem _ hother
  | drained stream event rest hphase _ hbook =>
    refine ⟨hbook ▸ h.book, fun other hother => hheld other ?_⟩
    rw [Watcher.held_drains] at hother
    rw [Watcher.held, hphase]
    exact List.mem_cons_of_mem _ hother
  | leave _ _ hbook =>
    refine ⟨hbook ▸ h.book, fun event hevent => ?_⟩
    rw [Watcher.held_of_ended (Watcher.isEnded_stop _ _)] at hevent
    cases hevent

/-- A turn of a watcher leaves a session finite. -/
theorem of_watcherStep (h : session.IsFinite) (hstep : session.watcherStep id = some next) :
    next.IsFinite := by
  obtain ⟨watcher, after, hreplaces, _⟩ := watcherTurn_of_watcherStep hstep
  have hwatcher := hreplaces.was
  have hmem := List.mem_of_getElem? hwatcher
  obtain ⟨found, hfound, hacts⟩ := acts_of_watcherStep hwatcher hstep
  rw [hreplaces.becomes] at hfound
  cases hfound
  obtain ⟨hbook, hheld⟩ := h.of_acts hmem hacts
  have hdocket : next.docket = session.docket := by
    rw [Session.docket, Session.docket, hreplaces.desk, hreplaces.inbox]
  refine ⟨hbook, hdocket ▸ h.docket, hreplaces.desk ▸ h.answer, fun other hother => ?_, ?_⟩
  · rw [hreplaces.watchers_eq] at hother
    rcases List.mem_or_eq_of_mem_set hother with hother | rfl
    · exact h.held other hother
    · exact hheld
  · rcases events_of_watcherStep hwatcher hstep with hevents | ⟨event, hevent, hevents⟩
    · exact hevents ▸ h.events
    · intro other hother
      rw [hevents] at hother
      rcases List.mem_append.1 hother with hother | hother
      · exact h.events other hother
      · rw [List.mem_singleton.1 hother]
        exact h.held watcher hmem event hevent

/-- Somebody else may put commands and events that are finite. -/
theorem of_others (h : session.IsFinite) (hbook : next.book = session.book)
    (hdesk : next.desk = session.desk) (hwatchers : next.watchers = session.watchers)
    (hinbox : ∀ command ∈ next.inbox.items,
      command ∈ session.inbox.items ∨ command.price.isFinite = true)
    (hevents : ∀ event ∈ next.outbox.events,
      event ∈ session.outbox.events ∨ event.IsFinite) : next.IsFinite where
  book := hbook ▸ h.book
  docket command hcommand := by
    rw [Session.docket, hdesk] at hcommand
    rcases List.mem_append.1 hcommand with hcommand | hcommand
    · exact h.docket command (List.mem_append_left _ hcommand)
    · rcases hinbox command hcommand with hold | hfinite
      · exact h.docket command (List.mem_append_right _ hold)
      · exact hfinite
  answer := hdesk ▸ h.answer
  held := hwatchers ▸ h.held
  events event hevent := (hevents event hevent).elim (h.events event) id

/-- Every turn keeps all numbers finite. -/
theorem of_step {actor : Actor} (h : session.IsFinite) (hstep : step actor session = some next) :
    next.IsFinite := by
  cases actor with
  | desk => exact h.of_deskStep hstep
  | watcher id => exact h.of_watcherStep hstep

end IsFinite

end Session

end TriggerDesk
