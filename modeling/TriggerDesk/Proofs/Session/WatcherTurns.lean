import TriggerDesk.Proofs.Session.Deeds

/-!
# Turns of the watchers

`WatcherTurn` says, kind by kind, what a turn of a watcher does to the book, to the events and to
what the watcher holds; `Session.Replaces` says that the turn changes no other watcher and nothing
else. `watcherTurn_of_watcherStep` says that every turn is of one of these kinds, with the deed
that `Session.watcherDeed` names.
-/

namespace TriggerDesk

open Market TriggerDesk.Order Feed

namespace Session

variable {session next : Session} {id : WatcherId} {watcher after : Watcher}

/-! ## Replacing a watcher -/

/-- A watcher is as given before and after, and the other watchers and the desk are as before. -/
structure Replaces (session next : Session) (id : WatcherId) (watcher after : Watcher) : Prop
    extends Aside session next where
  was : session.watchers[id]? = some watcher
  becomes : next.watchers[id]? = some after
  others : ∀ other, other ≠ id → next.watchers[other]? = session.watchers[other]?
  listing : after.listing = watcher.listing

/-- A watcher that becomes another and then a third one becomes the third. -/
theorem Replaces.trans {middle : Session} {between : Watcher}
    (first : session.Replaces middle id watcher between)
    (second : middle.Replaces next id between after) :
    session.Replaces next id watcher after where
  toAside := first.toAside.trans second.toAside
  was := first.was
  becomes := second.becomes
  others other hne := (second.others other hne).trans (first.others other hne)
  listing := second.listing.trans first.listing

/-- Nothing happens to a watcher where the list of watchers stays. -/
theorem Aside.replaces (haside : session.Aside next) (hwatchers : next.watchers = session.watchers)
    (hwatcher : session.watchers[id]? = some watcher) :
    session.Replaces next id watcher watcher where
  toAside := haside
  was := hwatcher
  becomes := hwatchers ▸ hwatcher
  others other _ := by rw [hwatchers]
  listing := rfl

/-- A watcher that changes becomes what the change makes of it. -/
theorem replaces_modifyWatcher (hwatcher : session.watchers[id]? = some watcher)
    (change : Watcher → Watcher) (hlisting : (change watcher).listing = watcher.listing) :
    session.Replaces (session.modifyWatcher id change) id watcher (change watcher) where
  toAside := ⟨⟨rfl, rfl, rfl⟩, rfl, rfl, rfl⟩
  was := hwatcher
  becomes := by
    show (session.watchers.modify id change)[id]? = _
    rw [List.getElem?_modify, hwatcher]
    simp
  others other hne := by
    show (session.watchers.modify id change)[other]? = _
    rw [List.getElem?_modify]
    simp [Ne.symm hne]
  listing := hlisting

/-- A watcher that enters a phase becomes one in that phase. -/
theorem replaces_setPhase (hwatcher : session.watchers[id]? = some watcher)
    (phase : Watcher.Phase) :
    session.Replaces (session.setPhase id phase) id watcher { watcher with phase } :=
  replaces_modifyWatcher hwatcher _ rfl

/-- A watcher that is ended becomes one that is stopped. -/
theorem replaces_endWatcher (hwatcher : session.watchers[id]? = some watcher)
    (ending : Watcher.Ending) :
    session.Replaces (session.endWatcher id ending) id watcher (watcher.stop ending) where
  toAside := (bystanders_endWatcher session id ending).toAside
  was := hwatcher
  becomes := by rw [getElem?_watchers_endWatcher, if_pos rfl, hwatcher, Option.map_some]
  others other hne := by rw [getElem?_watchers_endWatcher, if_neg (Ne.symm hne)]
  listing := Watcher.listing_stop ending watcher

/-- Where a watcher is replaced, the list of watchers has the new one in its place. -/
theorem Replaces.watchers_eq (h : session.Replaces next id watcher after) :
    next.watchers = session.watchers.set id after := by
  refine List.ext_getElem? fun other => ?_
  rw [List.getElem?_set]
  by_cases heq : id = other
  · subst heq
    rw [if_pos rfl, if_pos (List.getElem?_eq_some_iff.1 h.was).1, h.becomes]
  · rw [if_neg heq, h.others other (Ne.symm heq)]

/-! ## Kinds of turns -/

/-- What a turn of a watcher changes, by what it does. -/
inductive WatcherTurn (session next : Session) (watcher after : Watcher) : Deed → Prop where
  /-- Nothing happens to orders and events. -/
  | quiet :
      next.book = session.book → next.outbox.events = session.outbox.events →
      watcher.held = [] → after.held = [] →
      (after.phase.tracks = true → watcher.phase.tracks = true) →
      watcher.phase.isRetiring = false → after.phase.isRetiring = false →
      watcher.phase.isEnded = false →
      WatcherTurn session next watcher after .nothing
  /-- The feed is live from a price on. -/
  | goLive (price : Float) :
      next.book = session.book.setLast watcher.listing price →
      next.outbox.events = session.outbox.events →
      watcher.held = [] → after.held = [] →
      watcher.phase.isRetiring = false → after.phase.tracks = true →
      watcher.phase.isEnded = false →
      WatcherTurn session next watcher after .nothing
  /-- A price is looked at. -/
  | tick (price : Float) (orders : List Pending) :
      (session.book.setLast watcher.listing price).evaluate watcher.listing price =
        (orders, next.book) →
      next.outbox.events = session.outbox.events →
      watcher.held = [] → after.held = firedEvents orders watcher.index price →
      watcher.phase.tracks = true → after.phase.tracks = true →
      WatcherTurn session next watcher after (.take orders)
  /-- The feed is lost. -/
  | lose (reason : String) (orders : List Pending) :
      session.book.retire watcher.listing = (orders, next.book) →
      next.outbox.events = session.outbox.events →
      watcher.held = [] → after.held = drainedEvents orders reason →
      watcher.phase.tracks = true → after.phase.tracks = false →
      WatcherTurn session next watcher after (.take orders)
  /-- An event is put. -/
  | deliver (event : Event) :
      next.book = session.book →
      next.outbox.events = session.outbox.events ++ [event] →
      watcher.held = event :: after.held →
      (after.phase.tracks = true → watcher.phase.tracks = true) →
      (after.phase.isRetiring = true → watcher.phase.isRetiring = true) →
      watcher.phase.isEnded = false →
      WatcherTurn session next watcher after (.put event)
  /-- The client has left. -/
  | leave (deed : Deed) :
      session.outbox.receiving = false →
      WatcherTurn session next watcher after deed

/-! ## Firing and draining -/

/-- Announcing an order that left the book changes no order and no event. -/
theorem bystanders_announceLeft (session : Session) (id : WatcherId) (event : Event) :
    session.Bystanders (session.announceLeft id event) where
  taken := Outbox.taken_request _ _
  receiving := Outbox.receiving_request _ _
  joined := rfl
  inbox := rfl
  desk := rfl
  spawned := rfl
  book := rfl
  events := Outbox.events_request _ _

/-- Firing orders, which are out of the book already, changes no order and no event. -/
theorem bystanders_fire (session : Session) (id : WatcherId) (stream : StreamId)
    (prices : List Float) (events : List Event) :
    session.Bystanders (session.fire id stream prices events) := by
  cases events with
  | nil => exact bystanders_setPhase _ _ _
  | cons event rest =>
    exact (bystanders_announceLeft session id event).trans (bystanders_setPhase _ _ _)

/-- Draining orders, which are out of the book already, changes no order and no event. -/
theorem bystanders_drain (session : Session) (id : WatcherId) (stream : StreamId)
    (events : List Event) : session.Bystanders (session.drain id stream events) := by
  cases events with
  | nil => exact bystanders_endWatcher _ _ _
  | cons event rest =>
    exact (bystanders_announceLeft session id event).trans (bystanders_setPhase _ _ _)

/-- A watcher that fires holds the events of the orders, and its feed is live. -/
theorem replaces_fire (hwatcher : session.watchers[id]? = some watcher) (stream : StreamId)
    (prices : List Float) (events : List Event) :
    ∃ after, session.Replaces (session.fire id stream prices events) id watcher after ∧
      after.held = events ∧ after.phase.tracks = true := by
  cases events with
  | nil => exact ⟨_, replaces_setPhase hwatcher _, rfl, rfl⟩
  | cons event rest =>
    have hsame : session.Replaces (session.announceLeft id event) id watcher watcher :=
      (bystanders_announceLeft session id event).toAside.replaces rfl hwatcher
    exact ⟨_, hsame.trans (replaces_setPhase hsame.becomes _), rfl, rfl⟩

/-- A watcher that drains holds the cancellations, and its feed is not live. -/
theorem replaces_drain (hwatcher : session.watchers[id]? = some watcher)
    (hrunning : watcher.phase.isEnded = false) (stream : StreamId) (events : List Event) :
    ∃ after, session.Replaces (session.drain id stream events) id watcher after ∧
      after.held = events ∧ after.phase.tracks = false := by
  cases events with
  | nil =>
    refine ⟨_, replaces_endWatcher hwatcher .retired, ?_, ?_⟩ <;>
      simp [Watcher.stop, hrunning, Watcher.held, Watcher.Phase.tracks]
  | cons event rest =>
    have hsame : session.Replaces (session.announceLeft id event) id watcher watcher :=
      (bystanders_announceLeft session id event).toAside.replaces rfl hwatcher
    exact ⟨_, hsame.trans (replaces_setPhase hsame.becomes _), rfl, rfl⟩

/-! ## Turns -/

/-- At most the feeds, the meters and the journal differ. -/
structure Unmoved (session ready : Session) : Prop extends Bystanders session ready where
  watchers : ready.watchers = session.watchers

section Unmoved

variable {ready : Session} {listing : Listing} {stream : StreamId}

/-- Nothing has moved between a session and itself. -/
theorem Unmoved.refl (session : Session) : session.Unmoved session := ⟨.refl session, rfl⟩

/-- Where nothing has moved, a watcher is as before. -/
theorem Unmoved.replaces (h : session.Unmoved ready)
    (hwatcher : session.watchers[id]? = some watcher) :
    session.Replaces ready id watcher watcher :=
  h.toAside.replaces h.watchers hwatcher

/-- Reading on in a stream moves nothing. -/
theorem unmoved_advanceStream (session : Session) (stream : StreamId) :
    session.Unmoved (session.advanceStream stream) :=
  ⟨⟨⟨⟨rfl, rfl, rfl⟩, rfl, rfl, rfl⟩, rfl, rfl⟩, rfl⟩

/-- Giving up changes no order and no event. -/
theorem bystanders_giveUp (session : Session) (id : WatcherId) (failure : Failure) :
    session.Bystanders (session.giveUp id failure) := by
  have hmodified : session.Bystanders (session.modifyWatcher id fun watcher =>
      { watcher with outcome := some (.failed failure) }) :=
    ⟨⟨⟨rfl, rfl, rfl⟩, rfl, rfl, rfl⟩, rfl, rfl⟩
  exact hmodified.trans (bystanders_endWatcher _ _ _)

/-- A watcher without a first quote ends. -/
theorem Unmoved.turn_giveUp (h : session.Unmoved ready)
    (hwatcher : session.watchers[id]? = some watcher)
    (hheld : watcher.held = []) (hretiring : watcher.phase.isRetiring = false)
    (hrunning : watcher.phase.isEnded = false) (failure : Failure) :
    ∃ after, session.Replaces (ready.giveUp id failure) id watcher after ∧
      WatcherTurn session (ready.giveUp id failure) watcher after .nothing := by
  have hbystanders := h.toBystanders.trans (bystanders_giveUp ready id failure)
  have hsame := h.replaces hwatcher
  have hmodified := hsame.trans (replaces_modifyWatcher hsame.becomes
    (fun watcher => { watcher with outcome := some (.failed failure) }) rfl)
  refine ⟨_, hmodified.trans (replaces_endWatcher hmodified.becomes .neverLive),
    .quiet hbystanders.book hbystanders.events hheld ?_ ?_ hretiring ?_ hrunning⟩ <;>
    simp [Watcher.stop, hrunning, Watcher.held, Watcher.Phase.tracks, Watcher.Phase.isRetiring]

/-- A watcher that follows the feed goes on, or one that does not waits for its first quote. -/
theorem Unmoved.turn_setPhase (h : session.Unmoved ready)
    (hwatcher : session.watchers[id]? = some watcher) (hheld : watcher.held = [])
    (hretiring : watcher.phase.isRetiring = false) (hrunning : watcher.phase.isEnded = false)
    {phase : Watcher.Phase} (hphase : { watcher with phase }.held = [])
    (htracks : phase.tracks = true → watcher.phase.tracks = true)
    (hnot : phase.isRetiring = false) :
    ∃ after, session.Replaces (ready.setPhase id phase) id watcher after ∧
      WatcherTurn session (ready.setPhase id phase) watcher after .nothing := by
  have hsame := h.replaces hwatcher
  exact ⟨_, hsame.trans (replaces_setPhase hsame.becomes phase),
    .quiet h.book h.events hheld hphase htracks hretiring hnot hrunning⟩

/-- Subscribing is a turn of the watcher. -/
theorem turn_subscribe (hwatcher : session.watchers[id]? = some watcher)
    (hphase : watcher.phase = .starting) :
    ∃ after, session.Replaces (session.subscribe id listing) id watcher after ∧
      WatcherTurn session (session.subscribe id listing) watcher after .nothing := by
  have hready : ∀ source, session.Unmoved { session with source } :=
    fun source => ⟨⟨⟨⟨rfl, rfl, rfl⟩, rfl, rfl, rfl⟩, rfl, rfl⟩, rfl⟩
  have hheld : watcher.held = [] := by rw [Watcher.held, hphase]
  have hretiring : watcher.phase.isRetiring = false := by rw [hphase]; rfl
  have hrunning : watcher.phase.isEnded = false := by rw [hphase]; rfl
  unfold subscribe
  split
  · exact (hready _).turn_setPhase hwatcher hheld hretiring hrunning rfl nofun rfl
  · exact (hready _).turn_giveUp hwatcher hheld hretiring hrunning _

/-- Reading what comes first is a turn of the watcher. -/
theorem turn_takeFirst (hwatcher : session.watchers[id]? = some watcher)
    (hphase : watcher.phase = .opening stream) {reading : Reading}
    (h : session.takeFirst id stream watcher.listing reading = some next) :
    ∃ after, session.Replaces next id watcher after ∧
      WatcherTurn session next watcher after .nothing := by
  have hready := unmoved_advanceStream session stream
  have hheld : watcher.held = [] := by rw [Watcher.held, hphase]
  have hretiring : watcher.phase.isRetiring = false := by rw [hphase]; rfl
  have hrunning : watcher.phase.isEnded = false := by rw [hphase]; rfl
  unfold takeFirst at h
  split at h
  · cases h
  · cases h
    exact (Unmoved.refl session).turn_giveUp hwatcher hheld hretiring hrunning _
  · cases h
    exact hready.turn_giveUp hwatcher hheld hretiring hrunning _
  · dsimp only at h
    split at h
    · next price _ =>
      cases h
      have hlive : session.Aside { (session.advanceStream stream).count .watchers 1 with
          book := session.book.setLast watcher.listing price } :=
        ⟨⟨rfl, rfl, rfl⟩, rfl, rfl, rfl⟩
      have hsame := hlive.replaces rfl hwatcher
      have hmodified := hsame.trans (replaces_modifyWatcher hsame.becomes (fun watcher =>
        { watcher with phase := .following stream [], outcome := some (.live price) }) rfl)
      exact ⟨_, hmodified, .goLive price rfl rfl hheld rfl hretiring rfl hrunning⟩
    · cases h
      exact hready.turn_giveUp hwatcher hheld hretiring hrunning _

/-- A watcher whose feed is lost holds the cancellations of the orders that it takes out. -/
theorem Unmoved.turn_drain (h : session.Unmoved ready)
    (hwatcher : session.watchers[id]? = some watcher) (hheld : watcher.held = [])
    (htracks : watcher.phase.tracks = true) (hrunning : watcher.phase.isEnded = false)
    {orders : List Pending} {book : Book}
    (hretire : session.book.retire watcher.listing = (orders, book)) (reason : String) :
    ∃ after,
      session.Replaces ({ ready with book }.drain id stream (drainedEvents orders reason)) id
        watcher after ∧
      WatcherTurn session ({ ready with book }.drain id stream (drainedEvents orders reason))
        watcher after (.take orders) := by
  have haside : session.Aside { ready with book } :=
    ⟨⟨h.taken, h.receiving, h.joined⟩, h.inbox, h.desk, h.spawned⟩
  have hsame := haside.replaces h.watchers hwatcher
  have hdrain := bystanders_drain { ready with book } id stream (drainedEvents orders reason)
  obtain ⟨after, hafter, hholds, hlost⟩ :=
    replaces_drain hsame.becomes hrunning stream (drainedEvents orders reason)
  exact ⟨after, hsame.trans hafter, .lose reason orders (hretire.trans (by rw [hdrain.book]))
    (hdrain.events.trans h.events) hheld hholds htracks hlost⟩

/-- Losing the feed is a turn in which the watcher takes the orders of its listing out of the
book. -/
theorem Unmoved.turn_loseFeed (h : session.Unmoved ready)
    (hwatcher : session.watchers[id]? = some watcher) (hheld : watcher.held = [])
    (htracks : watcher.phase.tracks = true) (hrunning : watcher.phase.isEnded = false)
    (failure : Failure) :
    ∃ after,
      session.Replaces (ready.loseFeed id stream watcher.listing failure) id watcher after ∧
      WatcherTurn session (ready.loseFeed id stream watcher.listing failure) watcher after
        (.take (session.book.retire watcher.listing).1) := by
  have hwritten : ∀ entry, session.Unmoved (ready.write entry) := fun _ =>
    ⟨⟨⟨⟨h.taken, h.receiving, h.joined⟩, h.inbox, h.desk, h.spawned⟩, h.book, h.events⟩,
      h.watchers⟩
  -- The text of the reason and of the entry do not matter here.
  have hlost : ∃ entry reason, ready.loseFeed id stream watcher.listing failure =
      { ready.write entry with book := (session.book.retire watcher.listing).2 }.drain id stream
        (drainedEvents (session.book.retire watcher.listing).1 reason) := by
    rw [← h.book]
    exact ⟨_, _, rfl⟩
  obtain ⟨entry, reason, hlost⟩ := hlost
  rw [hlost]
  exact (hwritten entry).turn_drain hwatcher hheld htracks hrunning rfl reason

/-- Taking what comes next is a turn that does what the reading says. -/
theorem turn_takeNext (hwatcher : session.watchers[id]? = some watcher)
    (hphase : watcher.phase = .following stream []) {reading : Reading}
    (h : session.takeNext id stream watcher.listing reading = some next) :
    ∃ after, session.Replaces next id watcher after ∧
      WatcherTurn session next watcher after (session.readDeed watcher.listing reading) := by
  have hready := unmoved_advanceStream session stream
  have hheld : watcher.held = [] := by rw [Watcher.held, hphase]
  have htracks : watcher.phase.tracks = true := by rw [hphase]; rfl
  have hretiring : watcher.phase.isRetiring = false := by rw [hphase]; rfl
  have hrunning : watcher.phase.isEnded = false := by rw [hphase]; rfl
  unfold takeNext at h
  split at h
  · cases h
  · cases h
    exact (Unmoved.refl session).turn_loseFeed hwatcher hheld htracks hrunning _
  · cases h
    exact hready.turn_loseFeed hwatcher hheld htracks hrunning _
  · cases h
    exact hready.turn_setPhase hwatcher hheld hretiring hrunning rfl (fun _ => htracks) rfl

/-- A watcher that looks at a price holds the events of the orders that fire. -/
theorem Replaces.turn_fire {looked : Watcher} (h : session.Replaces ready id watcher looked)
    (hevents : ready.outbox.events = session.outbox.events) (hheld : watcher.held = [])
    (htracks : watcher.phase.tracks = true) {price : Float} {orders : List Pending}
    (hevaluate : (session.book.setLast watcher.listing price).evaluate watcher.listing price =
      (orders, ready.book)) (stream : StreamId) (prices : List Float) :
    ∃ after,
      session.Replaces (ready.fire id stream prices (firedEvents orders watcher.index price)) id
        watcher after ∧
      WatcherTurn session (ready.fire id stream prices (firedEvents orders watcher.index price))
        watcher after (.take orders) := by
  have hfire := bystanders_fire ready id stream prices (firedEvents orders watcher.index price)
  obtain ⟨after, hafter, hholds, hlive⟩ :=
    replaces_fire h.becomes stream prices (firedEvents orders watcher.index price)
  exact ⟨after, h.trans hafter, .tick price orders (hevaluate.trans (by rw [hfire.book]))
    (hfire.events.trans hevents) hheld hholds htracks hlive⟩

/-- Taking a price is a turn in which the watcher takes out the orders that it hits. -/
theorem turn_takePrice (hwatcher : session.watchers[id]? = some watcher)
    (hheld : watcher.held = []) (htracks : watcher.phase.tracks = true) (price : Float)
    (prices : List Float) {orders : List Pending} {taken : Session}
    (h : session.takePrice id watcher.listing price = (orders, taken)) :
    ∃ after,
      session.Replaces (taken.fire id stream prices (firedEvents orders watcher.index price)) id
        watcher after ∧
      WatcherTurn session (taken.fire id stream prices (firedEvents orders watcher.index price))
        watcher after (.take orders) := by
  unfold takePrice at h
  cases hevaluate : (session.book.setLast watcher.listing price).evaluate watcher.listing price with
  | mk hit book =>
    rw [hevaluate] at h
    cases h
    -- The book changes first, then what the watcher counts, then the meters.
    have haside : session.Aside { session with book } := ⟨⟨rfl, rfl, rfl⟩, rfl, rfl, rfl⟩
    have hsame := haside.replaces rfl hwatcher
    have hlooked := hsame.trans (replaces_modifyWatcher hsame.becomes
      (fun watcher => { watcher with index := watcher.index + 1 }) rfl)
    have hcounted := hlooked.trans (((bystanders_count _ .ticks 1).trans (bystanders_count _
      (.ticksAt watcher.listing.broker watcher.listing.symbol) 1)).toAside.replaces rfl
      hlooked.becomes)
    exact hcounted.turn_fire rfl hheld htracks hevaluate stream prices

/-- Looking at a price is a turn that does what the price says. -/
theorem turn_lookAt (hwatcher : session.watchers[id]? = some watcher) {price : Float}
    {prices : List Float} (hphase : watcher.phase = .following stream (price :: prices)) :
    ∃ after, session.Replaces (session.lookAt id watcher stream price prices) id watcher after ∧
      WatcherTurn session (session.lookAt id watcher stream price prices) watcher after
        (session.lookDeed watcher.listing price) := by
  have hheld : watcher.held = [] := by rw [Watcher.held, hphase]
  have htracks : watcher.phase.tracks = true := by rw [hphase]; rfl
  have hretiring : watcher.phase.isRetiring = false := by rw [hphase]; rfl
  have hrunning : watcher.phase.isEnded = false := by rw [hphase]; rfl
  have hskipped : ∀ reason, session.Unmoved (session.skipPrice watcher.listing reason) :=
    fun _ => ⟨⟨⟨⟨rfl, rfl, rfl⟩, rfl, rfl, rfl⟩, rfl, rfl⟩, rfl⟩
  unfold lookAt lookDeed
  by_cases hfinite : price.isFinite = true
  · by_cases hnegative : price < 0
    · simp only [hfinite, hnegative, decide_true, Bool.not_true, Bool.or_true, if_true]
      exact (hskipped _).turn_setPhase hwatcher hheld hretiring hrunning rfl (fun _ => htracks) rfl
    · simp only [hfinite, hnegative, decide_false, Bool.not_true, Bool.or_false, Bool.false_eq_true,
        if_false]
      exact turn_takePrice hwatcher hheld htracks price prices rfl
  · rw [Bool.not_eq_true] at hfinite
    simp only [hfinite, Bool.not_false, Bool.true_or, if_true]
    exact (hskipped _).turn_setPhase hwatcher hheld hretiring hrunning rfl (fun _ => htracks) rfl

end Unmoved

/-- Putting an event changes nothing but the events. -/
theorem aside_put (session : Session) (party : Party) (event : Event) :
    session.Aside (session.put party event) :=
  ⟨⟨rfl, rfl, rfl⟩, rfl, rfl, rfl⟩

/-- A watcher that may put its event puts it, and one whose client has left ends. -/
theorem turn_deliver (hwatcher : session.watchers[id]? = some watcher) {event : Event}
    {further : Session → Session} (h : session.deliver id event further = some next)
    (hfurther : ∃ after,
      session.Replaces (further (session.put (.watcher id) event)) id watcher after ∧
      WatcherTurn session (further (session.put (.watcher id) event)) watcher after
        (.put event)) :
    ∃ after, session.Replaces next id watcher after ∧
      WatcherTurn session next watcher after (.put event) := by
  unfold deliver at h
  split at h
  · cases h
  · next hclosed =>
    cases h
    exact ⟨_, replaces_endWatcher hwatcher .clientLeft,
      .leave _ (Outbox.receiving_of_closed hclosed)⟩
  · cases h
    exact hfurther

/-- Every turn of a watcher is of one of the kinds, with the deed that it is said to do. -/
theorem watcherTurn_of_watcherStep (h : session.watcherStep id = some next) :
    ∃ watcher after, session.Replaces next id watcher after ∧
      WatcherTurn session next watcher after (session.watcherDeed id) := by
  obtain ⟨watcher, hwatcher, h⟩ := Option.bind_eq_some_iff.1 h
  refine ⟨watcher, ?_⟩
  unfold watcherDeed
  rw [hwatcher]
  dsimp only
  cases hphase : watcher.phase with
  | starting =>
    rw [hphase] at h
    cases h
    exact turn_subscribe hwatcher hphase
  | opening stream =>
    rw [hphase] at h
    exact turn_takeFirst hwatcher hphase h
  | following stream prices =>
    rw [hphase] at h
    cases prices with
    | nil => exact turn_takeNext hwatcher hphase h
    | cons price prices =>
      cases h
      exact turn_lookAt hwatcher hphase
  | firing stream event rest prices =>
    rw [hphase] at h
    refine turn_deliver hwatcher h ?_
    have hput := (aside_put session (.watcher id) event).replaces rfl hwatcher
    -- After this event it goes on with the rest, and holds exactly that.
    obtain ⟨after, hafter, hholds, hlive⟩ := replaces_fire hput.becomes stream prices rest
    have hfire := bystanders_fire (session.put (.watcher id) event) id stream prices rest
    refine ⟨after, hput.trans hafter, .deliver event hfire.book hfire.events ?_ ?_ ?_ ?_⟩
    · rw [hholds, Watcher.held, hphase]
    · intro _
      rw [hphase]
      rfl
    · intro hretiring
      rw [(Watcher.Phase.not_retiring_of_tracks hlive).1] at hretiring
      cases hretiring
    · rw [hphase]
      rfl
  | retiring stream event rest =>
    rw [hphase] at h
    refine turn_deliver hwatcher h ?_
    have hrunning : watcher.phase.isEnded = false := by rw [hphase]; rfl
    have hput := (aside_put session (.watcher id) event).replaces rfl hwatcher
    obtain ⟨after, hafter, hholds, hlost⟩ := replaces_drain hput.becomes hrunning stream rest
    have hdrain := bystanders_drain (session.put (.watcher id) event) id stream rest
    refine ⟨after, hput.trans hafter, .deliver event hdrain.book hdrain.events ?_ ?_ ?_ hrunning⟩
    · rw [hholds, Watcher.held, hphase]
    · intro htracks
      rw [hlost] at htracks
      cases htracks
    · intro _
      rw [hphase]
      rfl
  | ended ending =>
    rw [hphase] at h
    cases h

end Session

end TriggerDesk
