import TriggerDesk.Proofs.Session.WatcherTurns

/-!
# What becomes of a watcher

`Session.Acts` has every way in which a turn of a watcher changes the watcher itself: its phase,
the number of prices that it looked at, and what came of waiting for its first quote. Each comes
with what the turn does to the book and to the meter of pending orders. `acts_of_watcherStep` says
that every turn is one of these, also after the client has left.

`WatcherTurn` says less of the watcher, and more of everybody else.
-/

namespace TriggerDesk

open Market TriggerDesk.Order Feed

/-- Why a reading is the last one of a live feed, if it is. -/
def Feed.Reading.failure? : Reading → Option Failure
  | .pending | .item (.batch _) => none
  | .ended => some (.broken "feed closed")
  | .item (.failure failure) => some failure

/-- What the orders of a lost feed are cancelled for. -/
def Feed.Failure.reason (failure : Failure) : String := s!"feed failed: {failure.message}"

/-- The watcher once it has events of orders that fired to put. -/
def Watcher.fires (watcher : Watcher) (stream : StreamId) (prices : List Float) :
    List Event → Watcher
  | [] => { watcher with phase := .following stream prices }
  | event :: rest => { watcher with phase := .firing stream event rest prices }

/-- The watcher once it has cancellations to put. -/
def Watcher.drains (watcher : Watcher) (stream : StreamId) : List Event → Watcher
  | [] => { watcher with phase := .ended .retired }
  | event :: rest => { watcher with phase := .retiring stream event rest }

/-- The watcher has looked at one more price. -/
def Watcher.looked (watcher : Watcher) : Watcher := { watcher with index := watcher.index + 1 }

namespace Watcher

variable (watcher : Watcher) (stream : StreamId) (prices : List Float) (events : List Event)

/-- A watcher whose orders fired holds their events. -/
theorem held_fires : (watcher.fires stream prices events).held = events := by
  cases events <;> rfl

/-- A watcher whose orders fired still follows its feed. -/
theorem tracks_fires : (watcher.fires stream prices events).phase.tracks = true := by
  cases events <;> rfl

/-- A watcher whose orders fired keeps its listing. -/
theorem listing_fires : (watcher.fires stream prices events).listing = watcher.listing := by
  cases events <;> rfl

/-- A watcher whose orders fired has looked at no further price. -/
theorem index_fires : (watcher.fires stream prices events).index = watcher.index := by
  cases events <;> rfl

/-- A watcher that drains holds the cancellations. -/
theorem held_drains : (watcher.drains stream events).held = events := by
  cases events <;> rfl

/-- A watcher that drains keeps its listing. -/
theorem listing_drains : (watcher.drains stream events).listing = watcher.listing := by
  cases events <;> rfl

end Watcher

/-- How many of some orders that left the book are no longer counted as pending, once the event of
the first one is announced. -/
def announced : List Event → Int
  | [] => 0
  | _ :: _ => 1

namespace Session

variable {session next : Session} {id : WatcherId} {watcher : Watcher} {stream : StreamId}

/-- What the meter of pending orders reads. -/
def pendingCount (session : Session) : Int := session.meters.get .pending

/-- What a turn of a watcher makes of it. -/
inductive Acts (session next : Session) (id : WatcherId) (watcher : Watcher) : Watcher → Prop
  /-- It subscribes. -/
  | subscribe (stream : StreamId) :
      watcher.phase = .starting →
      next.book = session.book → next.pendingCount = session.pendingCount →
      Acts session next id watcher { watcher with phase := .opening stream }
  /-- No first quote will come. -/
  | giveUp (failure : Failure) :
      (watcher.phase = .starting ∨ ∃ stream, watcher.phase = .opening stream) →
      next.book = session.book → next.pendingCount = session.pendingCount →
      Acts session next id watcher
        { watcher with phase := .ended .neverLive, outcome := some (.failed failure) }
  /-- The first quote has come. -/
  | goLive (stream : StreamId) (price : Float) :
      watcher.phase = .opening stream → isValidPrice price = true →
      next.book = session.book.setLast watcher.listing price →
      next.pendingCount = session.pendingCount →
      Acts session next id watcher
        { watcher with phase := .following stream [], outcome := some (.live price) }
  /-- It has more prices to look at. -/
  | read (stream : StreamId) (prices : List Float) :
      watcher.phase = .following stream [] →
      next.book = session.book → next.pendingCount = session.pendingCount →
      Acts session next id watcher { watcher with phase := .following stream prices }
  /-- It passes over a price. -/
  | skip (stream : StreamId) (price : Float) (prices : List Float) :
      watcher.phase = .following stream (price :: prices) →
      (price.isFinite = false ∨ price < 0) →
      next.book = session.book → next.pendingCount = session.pendingCount →
      Acts session next id watcher { watcher with phase := .following stream prices }
  /-- It looks at a price. -/
  | look (stream : StreamId) (price : Float) (prices : List Float) (orders : List Pending) :
      watcher.phase = .following stream (price :: prices) →
      price.isFinite = true → ¬ price < 0 →
      (session.book.setLast watcher.listing price).evaluate watcher.listing price =
        (orders, next.book) →
      next.pendingCount =
        session.pendingCount - announced (firedEvents orders watcher.index price) →
      Acts session next id watcher
        (watcher.looked.fires stream prices (firedEvents orders watcher.index price))
  /-- Its feed is lost. -/
  | lose (stream : StreamId) (failure : Failure) (orders : List Pending) :
      watcher.phase = .following stream [] →
      (session.source.replay.peek stream).failure? = some failure →
      session.book.retire watcher.listing = (orders, next.book) →
      next.pendingCount =
        session.pendingCount - announced (drainedEvents orders failure.reason) →
      Acts session next id watcher (watcher.drains stream (drainedEvents orders failure.reason))
  /-- It puts the event of an order that fired. -/
  | fired (stream : StreamId) (event : Event) (rest : List Event) (prices : List Float) :
      watcher.phase = .firing stream event rest prices →
      session.outbox.standing (.watcher id) = .granted →
      next.book = session.book → next.pendingCount = session.pendingCount - announced rest →
      Acts session next id watcher (watcher.fires stream prices rest)
  /-- It puts a cancellation. -/
  | drained (stream : StreamId) (event : Event) (rest : List Event) :
      watcher.phase = .retiring stream event rest →
      session.outbox.standing (.watcher id) = .granted →
      next.book = session.book → next.pendingCount = session.pendingCount - announced rest →
      Acts session next id watcher (watcher.drains stream rest)
  /-- It had an event to put, but the client has left. -/
  | leave :
      session.outbox.receiving = false → watcher.held ≠ [] →
      next.book = session.book → next.pendingCount = session.pendingCount →
      Acts session next id watcher (watcher.stop .clientLeft)

/-! ## The meter -/

/-- Counting moves the meter of pending orders only if it is that meter that is counted. -/
@[simp]
theorem pendingCount_count (session : Session) (meter : Metrics.Meter) (n : Int) :
    (session.count meter n).pendingCount =
      if meter = .pending then session.pendingCount + n else session.pendingCount := by
  rw [pendingCount, count, Metrics.Meters.get_add]
  by_cases hmeter : meter = .pending
  · rw [if_pos hmeter, if_pos hmeter.symm, hmeter]
    rfl
  · rw [if_neg hmeter, if_neg (Ne.symm hmeter)]
    rfl

/-- A watcher that enters a phase leaves the meter as it is. -/
@[simp]
theorem pendingCount_setPhase (session : Session) (id : WatcherId) (phase : Watcher.Phase) :
    (session.setPhase id phase).pendingCount = session.pendingCount := rfl

/-- A watcher that leaves its stream leaves the meter as it is. -/
@[simp]
theorem pendingCount_leaveStream (session : Session) (phase : Watcher.Phase) :
    (session.leaveStream phase).pendingCount = session.pendingCount := by
  unfold leaveStream
  split <;> rfl

/-- Nothing is counted when a watcher ends. -/
@[simp]
theorem pendingCount_endWatcher (session : Session) (id : WatcherId) (ending : Watcher.Ending) :
    (session.endWatcher id ending).pendingCount = session.pendingCount := by
  unfold endWatcher
  split
  · rfl
  · dsimp only
    split
    · rfl
    · rw [pendingCount_setPhase]
      show (leaveStream _ _).pendingCount = _
      rw [pendingCount_leaveStream]
      split
      · rw [pendingCount_count, if_neg nofun]
      · rfl

/-- An order that left the book is no longer counted once its event is announced. -/
theorem pendingCount_announceLeft (session : Session) (id : WatcherId) (event : Event) :
    (session.announceLeft id event).pendingCount = session.pendingCount - 1 := by
  show (((session.count .pending (-1)).count (.events event.kind.name) 1)).pendingCount = _
  rw [pendingCount_count, if_neg nofun, pendingCount_count, if_pos rfl]
  rfl

/-- When orders fire, the first of them is announced. -/
theorem pendingCount_fire (session : Session) (id : WatcherId) (stream : StreamId)
    (prices : List Float) (events : List Event) :
    (session.fire id stream prices events).pendingCount =
      session.pendingCount - announced events := by
  cases events with
  | nil => exact (Int.sub_zero _).symm
  | cons event rest => exact pendingCount_announceLeft session id event

/-- When orders are drained, the first of them is announced. -/
theorem pendingCount_drain (session : Session) (id : WatcherId) (stream : StreamId)
    (events : List Event) :
    (session.drain id stream events).pendingCount = session.pendingCount - announced events := by
  cases events with
  | nil => exact (pendingCount_endWatcher _ _ _).trans (Int.sub_zero _).symm
  | cons event rest => exact pendingCount_announceLeft session id event

/-! ## The watcher -/

/-- A change of a watcher is found under its id. -/
theorem watchers_modifyWatcher (session : Session)
    (hwatcher : session.watchers[id]? = some watcher) (change : Watcher → Watcher) :
    (session.modifyWatcher id change).watchers[id]? = some (change watcher) := by
  show (session.watchers.modify id change)[id]? = _
  rw [List.getElem?_modify_eq, hwatcher]
  rfl

/-- A phase that a watcher enters is found under its id. -/
theorem watchers_setPhase (session : Session) (hwatcher : session.watchers[id]? = some watcher)
    (phase : Watcher.Phase) :
    (session.setPhase id phase).watchers[id]? = some { watcher with phase } :=
  watchers_modifyWatcher session hwatcher _

/-- After orders fired, the watcher has their events to put. -/
theorem watchers_fire (hwatcher : session.watchers[id]? = some watcher) (stream : StreamId)
    (prices : List Float) (events : List Event) :
    (session.fire id stream prices events).watchers[id]? =
      some (watcher.fires stream prices events) := by
  cases events with
  | nil => exact watchers_setPhase session hwatcher _
  | cons event rest =>
    exact watchers_setPhase (session.announceLeft id event) hwatcher _

/-- After orders were drained, the watcher has their cancellations to put. -/
theorem watchers_drain (hwatcher : session.watchers[id]? = some watcher)
    (hrunning : watcher.phase.isEnded = false) (stream : StreamId) (events : List Event) :
    (session.drain id stream events).watchers[id]? = some (watcher.drains stream events) := by
  cases events with
  | nil =>
    have hended := (replaces_endWatcher hwatcher .retired).becomes
    rwa [Watcher.stop, hrunning, if_neg Bool.false_ne_true] at hended
  | cons event rest =>
    exact watchers_setPhase (session.announceLeft id event) hwatcher _

/-- A watcher that gives up has ended without being live, and says why. -/
theorem watchers_giveUp (session : Session) (hwatcher : session.watchers[id]? = some watcher)
    (hrunning : watcher.phase.isEnded = false) (failure : Failure) :
    (session.giveUp id failure).watchers[id]? =
      some { watcher with phase := .ended .neverLive, outcome := some (.failed failure) } := by
  have hmodified := watchers_modifyWatcher session hwatcher
    fun watcher => { watcher with outcome := some (.failed failure) }
  have hended := (replaces_endWatcher hmodified .neverLive).becomes
  simp only [Watcher.stop, hrunning, Bool.false_eq_true, if_false] at hended
  exact hended

/-- Giving up leaves the book alone. -/
theorem book_giveUp (session : Session) (id : WatcherId) (failure : Failure) :
    (session.giveUp id failure).book = session.book :=
  (bystanders_giveUp session id failure).book

/-- Giving up counts nothing. -/
theorem pendingCount_giveUp (session : Session) (id : WatcherId) (failure : Failure) :
    (session.giveUp id failure).pendingCount = session.pendingCount :=
  pendingCount_endWatcher _ _ _

/-- A watcher that goes live follows its stream and says at which price. -/
theorem watchers_goLive (session : Session) (hwatcher : session.watchers[id]? = some watcher)
    (stream : StreamId) (listing : Listing) (price : Float) :
    (session.goLive id stream listing price).watchers[id]? =
      some { watcher with phase := .following stream [], outcome := some (.live price) } :=
  watchers_modifyWatcher { session.count .watchers 1 with
      book := session.book.setLast listing price } hwatcher fun watcher => { watcher with
    phase := .following stream [], outcome := some (.live price) }

/-- A watcher that takes a price has looked at one more. -/
theorem watchers_takePrice (hwatcher : session.watchers[id]? = some watcher) (price : Float) :
    (session.takePrice id watcher.listing price).2.watchers[id]? = some watcher.looked :=
  watchers_modifyWatcher { session with
      book := ((session.book.setLast watcher.listing price).evaluate watcher.listing price).2 }
    hwatcher fun watcher => { watcher with index := watcher.index + 1 }

/-! ## Turns -/

/-- Subscribing is an act of the watcher. -/
theorem acts_subscribe (hwatcher : session.watchers[id]? = some watcher)
    (hphase : watcher.phase = .starting) (listing : Listing) :
    ∃ after, (session.subscribe id listing).watchers[id]? = some after ∧
      Acts session (session.subscribe id listing) id watcher after := by
  have hrunning : watcher.phase.isEnded = false := by rw [hphase]; rfl
  unfold subscribe
  split
  · next stream source _ =>
    exact ⟨_, watchers_setPhase { session with source } hwatcher _,
      .subscribe stream hphase rfl rfl⟩
  · next failure source _ =>
    exact ⟨_, watchers_giveUp { session with source } hwatcher hrunning _,
      .giveUp failure (.inl hphase) (book_giveUp _ _ _) (pendingCount_giveUp _ _ _)⟩

/-- Reading what comes first is an act of the watcher. -/
theorem acts_takeFirst (hwatcher : session.watchers[id]? = some watcher)
    (hphase : watcher.phase = .opening stream) {reading : Reading}
    (h : session.takeFirst id stream watcher.listing reading = some next) :
    ∃ after, next.watchers[id]? = some after ∧ Acts session next id watcher after := by
  have hrunning : watcher.phase.isEnded = false := by rw [hphase]; rfl
  have hgiveUp : ∀ (ready : Session) (failure : Failure), ready.watchers = session.watchers →
      ready.book = session.book → ready.pendingCount = session.pendingCount →
      ∃ after, (ready.giveUp id failure).watchers[id]? = some after ∧
        Acts session (ready.giveUp id failure) id watcher after :=
    fun ready failure hwatchers hbook hcount =>
      ⟨_, watchers_giveUp ready (hwatchers ▸ hwatcher) hrunning _,
        .giveUp failure (.inr ⟨stream, hphase⟩) ((book_giveUp _ _ _).trans hbook)
          ((pendingCount_giveUp _ _ _).trans hcount)⟩
  unfold takeFirst at h
  split at h
  · cases h
  · cases h
    exact hgiveUp session _ rfl rfl rfl
  · cases h
    exact hgiveUp (session.advanceStream stream) _ rfl rfl rfl
  · dsimp only at h
    split at h
    · next price hprice =>
      cases h
      have hlive := watchers_goLive (session.advanceStream stream) hwatcher stream
        watcher.listing price
      refine ⟨_, hlive, .goLive stream price hphase (Option.mem_filter_iff.1 hprice).2 rfl ?_⟩
      exact (pendingCount_count _ _ _).trans (if_neg nofun)
    · cases h
      exact hgiveUp (session.advanceStream stream) _ rfl rfl rfl

/-- Losing the feed is an act of the watcher. -/
theorem acts_loseFeed {ready : Session} (hwatcher : session.watchers[id]? = some watcher)
    (hphase : watcher.phase = .following stream []) {failure : Failure}
    (hfailure : (session.source.replay.peek stream).failure? = some failure)
    (hwatchers : ready.watchers = session.watchers) (hbook : ready.book = session.book)
    (hcount : ready.pendingCount = session.pendingCount) :
    ∃ after, (ready.loseFeed id stream watcher.listing failure).watchers[id]? = some after ∧
      Acts session (ready.loseFeed id stream watcher.listing failure) id watcher after := by
  have hrunning : watcher.phase.isEnded = false := by rw [hphase]; rfl
  -- The entry in the journal does not matter here.
  obtain ⟨entry, hlost⟩ : ∃ entry, ready.loseFeed id stream watcher.listing failure =
      { ready.write entry with book := (session.book.retire watcher.listing).2 }.drain id stream
        (drainedEvents (session.book.retire watcher.listing).1 failure.reason) := by
    rw [← hbook]
    exact ⟨_, rfl⟩
  rw [hlost]
  refine ⟨_, watchers_drain (hwatchers ▸ hwatcher) hrunning _ _,
    .lose stream failure _ hphase hfailure ?_ ?_⟩
  · rw [(bystanders_drain _ _ _ _).book]
  · rw [pendingCount_drain]
    exact congrArg (· - _) hcount

/-- Taking what comes next is an act of the watcher. -/
theorem acts_takeNext (hwatcher : session.watchers[id]? = some watcher)
    (hphase : watcher.phase = .following stream [])
    (h : session.takeNext id stream watcher.listing (session.source.replay.peek stream) =
      some next) :
    ∃ after, next.watchers[id]? = some after ∧ Acts session next id watcher after := by
  unfold takeNext at h
  split at h
  · cases h
  · next hreading =>
    cases h
    exact acts_loseFeed hwatcher hphase (by rw [hreading]; rfl) rfl rfl rfl
  · next hreading =>
    cases h
    exact acts_loseFeed hwatcher hphase (by rw [hreading]; rfl) rfl rfl rfl
  · cases h
    exact ⟨_, watchers_setPhase (session.advanceStream stream) hwatcher _,
      .read stream _ hphase rfl rfl⟩

/-- Looking at a price is an act of the watcher. -/
theorem acts_lookAt (hwatcher : session.watchers[id]? = some watcher) {price : Float}
    {prices : List Float} (hphase : watcher.phase = .following stream (price :: prices)) :
    ∃ after, (session.lookAt id watcher stream price prices).watchers[id]? = some after ∧
      Acts session (session.lookAt id watcher stream price prices) id watcher after := by
  have hskip : ∀ reason, (price.isFinite = false ∨ price < 0) → ∃ after,
      ((session.skipPrice watcher.listing reason).setPhase id
        (.following stream prices)).watchers[id]? = some after ∧
      Acts session ((session.skipPrice watcher.listing reason).setPhase id
        (.following stream prices)) id watcher after :=
    fun reason hbad => ⟨_, watchers_setPhase (session.skipPrice _ reason) hwatcher _,
      .skip stream price prices hphase hbad rfl ((pendingCount_count _ _ _).trans (if_neg nofun))⟩
  unfold lookAt
  split
  · next hinfinite => exact hskip _ (.inl (by simpa using hinfinite))
  · next hfinite =>
    split
    · next hnegative => exact hskip _ (.inr hnegative)
    · next hnonneg =>
      have hlooked := watchers_takePrice hwatcher price
      refine ⟨_, watchers_fire hlooked _ _ _, .look stream price prices _ hphase
        (by simpa using hfinite) hnonneg (Prod.ext rfl ?_) ?_⟩
      · exact (bystanders_fire (session.takePrice id watcher.listing price).2 _ _ _ _).book.symm
      · show (fire (session.takePrice id watcher.listing price).2 _ _ _ _).pendingCount = _
        rw [pendingCount_fire]
        congr 1
        show ((count _ _ _).count _ _).pendingCount = _
        rw [pendingCount_count, if_neg nofun, pendingCount_count, if_neg nofun]
        rfl

/-- Putting an event that it holds is an act of the watcher, once it has a place. -/
theorem acts_deliver (hwatcher : session.watchers[id]? = some watcher) {event : Event}
    {further : Session → Session} (hheld : watcher.held ≠ [])
    (h : session.deliver id event further = some next)
    (hfurther : session.outbox.standing (.watcher id) = .granted →
      ∃ after, (further (session.put (.watcher id) event)).watchers[id]? = some after ∧
      Acts session (further (session.put (.watcher id) event)) id watcher after) :
    ∃ after, next.watchers[id]? = some after ∧ Acts session next id watcher after := by
  unfold deliver at h
  split at h
  · cases h
  · next hclosed =>
    cases h
    exact ⟨_, (replaces_endWatcher hwatcher .clientLeft).becomes,
      .leave (Outbox.receiving_of_closed hclosed) hheld (bystanders_endWatcher _ _ _).book
        (pendingCount_endWatcher _ _ _)⟩
  · next hgranted =>
    cases h
    exact hfurther hgranted

/-- Every turn of a watcher makes one of these things of it. -/
theorem acts_of_watcherStep (hwatcher : session.watchers[id]? = some watcher)
    (h : session.watcherStep id = some next) :
    ∃ after, next.watchers[id]? = some after ∧ Acts session next id watcher after := by
  obtain ⟨found, hfound, h⟩ := Option.bind_eq_some_iff.1 h
  rw [hwatcher] at hfound
  cases hfound
  have hput : ∀ event, (session.put (.watcher id) event).watchers[id]? = some watcher :=
    fun _ => hwatcher
  cases hphase : watcher.phase with
  | starting =>
    rw [hphase] at h
    cases h
    exact acts_subscribe hwatcher hphase _
  | opening stream =>
    rw [hphase] at h
    exact acts_takeFirst hwatcher hphase h
  | following stream prices =>
    rw [hphase] at h
    cases prices with
    | nil => exact acts_takeNext hwatcher hphase h
    | cons price prices =>
      cases h
      exact acts_lookAt hwatcher hphase
  | firing stream event rest prices =>
    rw [hphase] at h
    have hheld : watcher.held ≠ [] := by
      rw [Watcher.held, hphase]
      exact List.cons_ne_nil _ _
    refine acts_deliver hwatcher hheld h fun hgranted => ?_
    exact ⟨_, watchers_fire (hput event) _ _ _, .fired stream event rest prices hphase hgranted
      (bystanders_fire _ _ _ _ _).book (pendingCount_fire _ _ _ _ _)⟩
  | retiring stream event rest =>
    rw [hphase] at h
    have hrunning : watcher.phase.isEnded = false := by rw [hphase]; rfl
    have hheld : watcher.held ≠ [] := by
      rw [Watcher.held, hphase]
      exact List.cons_ne_nil _ _
    refine acts_deliver hwatcher hheld h fun hgranted => ?_
    exact ⟨_, watchers_drain (hput event) hrunning _ _, .drained stream event rest hphase
      hgranted (bystanders_drain _ _ _ _).book (pendingCount_drain _ _ _ _)⟩
  | ended ending =>
    rw [hphase] at h
    cases h

end Session

end TriggerDesk
