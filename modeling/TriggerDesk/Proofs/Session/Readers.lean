import TriggerDesk.Proofs.Feed.Streams
import TriggerDesk.Session.Machine

/-!
# Who reads which stream

A watcher gets its stream by subscribing: the stream that waits for a subscriber of the listing, or
a new one. Until it ends it reads no other stream, and neither the desk nor another watcher touches
the streams otherwise (`Quiet`). So no two watchers ever read one stream, and nobody reads one that
waits (`apart_of_reaches`).
-/

namespace TriggerDesk

open Market TriggerDesk.Order Feed Metrics

namespace Session

variable {session next last : Session} {id target : WatcherId} {stream : StreamId}
  {watcher : Watcher}

/-- The stream that a watcher reads. -/
def reads? (session : Session) (id : WatcherId) : Option StreamId :=
  session.watchers[id]?.bind (·.phase.stream?)

/-- A watcher reads the stream of its phase. -/
theorem reads?_of_watcher (h : session.watchers[id]? = some watcher) :
    session.reads? id = watcher.phase.stream? := by
  rw [reads?, h, Option.bind_some]

/-- Taking a price leaves what anybody reads. -/
theorem reads?_takePrice (session : Session) (id target : WatcherId) (listing : Listing)
    (price : Float) :
    (session.takePrice id listing price).2.reads? target = session.reads? target := by
  show ((session.watchers.modify id fun watcher =>
    { watcher with index := watcher.index + 1 })[target]?).bind (·.phase.stream?) = _
  rw [List.getElem?_modify, reads?]
  cases session.watchers[target]? with
  | none => rfl
  | some watcher =>
    by_cases heq : id = target <;> simp [heq]

/-! ## Turns in which nobody subscribes -/

/-- No stream is made or taken, and nobody comes to read another one. -/
structure Quiet (session next : Session) : Prop where
  length : next.source.replay.streams.length = session.source.replay.streams.length
  waiting : next.source.replay.waiting = session.source.replay.waiting
  reads : ∀ id stream, next.reads? id = some stream → session.reads? id = some stream

namespace Quiet

/-- A turn that leaves the source and the watchers is quiet. -/
theorem of_eq (hsource : next.source = session.source)
    (hwatchers : next.watchers = session.watchers) : session.Quiet next where
  length := by rw [hsource]
  waiting := by rw [hsource]
  reads id stream h := by rwa [reads?, ← hwatchers]

/-- Nothing happens between a session and itself. -/
theorem refl (session : Session) : session.Quiet session := of_eq rfl rfl

/-- Two quiet changes are one. -/
theorem trans (before : session.Quiet next) (after : next.Quiet last) : session.Quiet last where
  length := after.length.trans before.length
  waiting := after.waiting.trans before.waiting
  reads id stream h := before.reads id stream (after.reads id stream h)

/-- A stream changes. -/
theorem modifyStream (session : Session) (stream : StreamId)
    (change : Channel Item → Channel Item) :
    session.Quiet { session with source :=
      { session.source with replay := session.source.replay.modifyStream stream change } } where
  length := List.length_modify _ _ _
  waiting := rfl
  reads _ _ h := h

/-- A watcher changes, and reads what it has read. -/
theorem modifyWatcher {change : Watcher → Watcher}
    (h : ∀ watcher own, session.watchers[id]? = some watcher →
      (change watcher).phase.stream? = some own → watcher.phase.stream? = some own) :
    session.Quiet (session.modifyWatcher id change) where
  length := rfl
  waiting := rfl
  reads target own hreads := by
    have hget : (session.watchers.modify id change)[target]?.bind (·.phase.stream?) = some own :=
      hreads
    obtain ⟨after, hafter, hstream⟩ := Option.bind_eq_some_iff.1 hget
    rw [List.getElem?_modify] at hafter
    obtain ⟨watcher, hwatcher, rfl⟩ := Option.map_eq_some_iff.1 hafter
    refine Option.bind_eq_some_iff.2 ⟨watcher, hwatcher, ?_⟩
    by_cases heq : id = target
    · subst heq
      rw [if_pos rfl] at hstream
      exact h watcher own hwatcher hstream
    · rw [if_neg heq] at hstream
      exact hstream

/-- A phase in which a watcher reads no other stream than before is quiet. -/
theorem setPhase {phase : Watcher.Phase}
    (h : ∀ watcher own, session.watchers[id]? = some watcher → phase.stream? = some own →
      watcher.phase.stream? = some own) :
    session.Quiet (session.setPhase id phase) :=
  modifyWatcher h

/-- Leaving a stream is quiet. -/
theorem leaveStream (session : Session) (phase : Watcher.Phase) :
    session.Quiet (session.leaveStream phase) := by
  unfold Session.leaveStream
  split
  · exact refl session
  · exact modifyStream session _ _

/-- The end of a watcher is quiet. -/
theorem endWatcher (session : Session) (id : WatcherId) (ending : Watcher.Ending) :
    session.Quiet (session.endWatcher id ending) := by
  unfold Session.endWatcher
  split
  · exact refl session
  · next watcher hwatcher =>
    split
    · exact refl session
    · have hcounted : session.Quiet (if watcher.phase.isLive then session.count .watchers (-1)
          else session) := by
        split
        · exact of_eq rfl rfl
        · exact refl session
      have hended : ∀ left, session.Quiet left → session.Quiet
          ({ left with outbox := left.outbox.withdraw (.watcher id) }.setPhase id
            (.ended ending)) := by
        intro left hleft
        have hwithdrawn : left.Quiet { left with outbox := left.outbox.withdraw (.watcher id) } :=
          of_eq rfl rfl
        refine (hleft.trans hwithdrawn).trans (setPhase ?_)
        intro _ _ _ h
        cases h
      exact hended _ (hcounted.trans (leaveStream _ watcher.phase))

/-- The start of a watcher, who reads nothing yet, is quiet. -/
theorem startWatcher (session : Session) (placing : Placing) :
    session.Quiet (session.startWatcher placing) where
  length := rfl
  waiting := rfl
  reads id own h := by
    unfold reads? at h ⊢
    have hget : (session.watchers ++ [Watcher.new placing.listing])[id]?.bind
        (·.phase.stream?) = some own := h
    rw [List.getElem?_append] at hget
    split at hget
    · exact hget
    · obtain ⟨watcher, hwatcher, hstream⟩ := Option.bind_eq_some_iff.1 hget
      rw [List.mem_singleton.1 (List.mem_of_getElem? hwatcher)] at hstream
      cases hstream

/-! ### The desk -/

/-- A rejection is quiet. -/
theorem reject (session : Session) (command : Command) (rejection : Rejection) :
    session.Quiet (session.reject command rejection) :=
  of_eq rfl rfl

/-- Putting a watcher in place of another is quiet. -/
theorem replaceWatcher (session : Session) (placing : Placing) :
    session.Quiet (session.replaceWatcher placing) := by
  unfold Session.replaceWatcher
  split
  · exact startWatcher session placing
  · next other _ =>
    dsimp only
    split
    · exact of_eq rfl rfl
    · have herased : session.Quiet
          { session with spawned := session.spawned.erase placing.listing } := of_eq rfl rfl
      exact (herased.trans (endWatcher _ other _)).trans (startWatcher _ placing)

/-- Seeking the feed of a listing is quiet. -/
theorem seekFeed (session : Session) (placing : Placing) :
    session.Quiet (session.seekFeed placing) := by
  unfold Session.seekFeed
  split
  · exact of_eq rfl rfl
  · exact replaceWatcher session placing

/-- Trying again is quiet. -/
theorem tryAgain (session : Session) (placing : Placing) :
    session.Quiet (session.tryAgain placing) := by
  unfold Session.tryAgain
  split
  · exact reject session _ _
  · exact seekFeed session _

/-- Going on after a first quote is quiet. -/
theorem feedReady (session : Session) (placing : Placing) :
    session.Quiet (session.feedReady placing) := by
  have hcounted : session.Quiet (session.count .firstQuotes 1) := of_eq rfl rfl
  unfold Session.feedReady
  dsimp only
  split
  · exact of_eq rfl rfl
  · exact hcounted.trans (tryAgain _ placing)

/-- Placing an order is quiet. -/
theorem place (session : Session) (placing : Placing) (last : Float) :
    session.Quiet (session.place placing last) := by
  unfold Session.place
  dsimp only
  split
  · exact of_eq rfl rfl
  · exact of_eq rfl rfl
  · next book _ =>
    have hreturned : session.Quiet { session with book }.returnPlace := of_eq rfl rfl
    exact hreturned.trans (tryAgain _ placing)

/-- Taking up a command that places an order is quiet. -/
theorem handleOrder (session : Session) (command : Command) :
    session.Quiet (session.handleOrder command) := by
  unfold Session.handleOrder
  split
  · exact reject session _ _
  · split
    · exact reject session _ _
    · split
      · exact reject session _ _
      · exact seekFeed session _

/-- A cancellation is quiet. -/
theorem handleCancel (session : Session) (command : Command) :
    session.Quiet (session.handleCancel command) := by
  unfold Session.handleCancel
  split
  · exact reject session _ _
  · exact of_eq rfl rfl

/-- Taking up a command that moves an order is quiet. -/
theorem handleModify (session : Session) (command : Command) :
    session.Quiet (session.handleModify command) := by
  unfold Session.handleModify
  split
  · exact reject session _ _
  · exact of_eq rfl rfl

/-- Moving the order is quiet. -/
theorem move (session : Session) (command : Command) : session.Quiet (session.move command) := by
  unfold Session.move
  split
  · exact of_eq rfl rfl
  · exact of_eq rfl rfl

/-- Taking up any command is quiet. -/
theorem handle (session : Session) (command : Command) :
    session.Quiet (session.handle command) := by
  have hwritten : session.Quiet
      ((session.count (.commands command.kind.name) 1).write (.command command)) :=
    of_eq rfl rfl
  unfold Session.handle
  dsimp only
  split
  · exact hwritten.trans (handleOrder _ command)
  · exact hwritten.trans (handleOrder _ command)
  · exact hwritten.trans (handleOrder _ command)
  · exact hwritten.trans (handleCancel _ command)
  · exact hwritten.trans (handleModify _ command)

/-- Stopping watchers is quiet. -/
theorem stopWatchers (session : Session) (ids : List WatcherId) :
    session.Quiet (session.stopWatchers ids) := by
  induction ids generalizing session with
  | nil => exact refl session
  | cons id rest ih => exact (endWatcher session id .aborted).trans (ih _)

/-- Shutting down is quiet. -/
theorem shutDown (session : Session) : session.Quiet session.shutDown := by
  have hcounted : session.Quiet (session.count .pending (-session.book.size)) := of_eq rfl rfl
  exact (hcounted.trans (stopWatchers _ _)).trans (of_eq rfl rfl)

/-- What is done with a place is quiet if the rest is. -/
theorem withPlace {after : Session → Session} (hnext : session.Quiet (after session))
    (h : session.withPlace after = some next) : session.Quiet next := by
  unfold Session.withPlace at h
  split at h
  · cases h
  · cases h
    exact shutDown session
  · cases h
    exact hnext

/-- The desk makes no stream and reads none. -/
theorem deskStep (h : session.deskStep = some next) : session.Quiet next := by
  unfold Session.deskStep at h
  split at h
  · split at h
    · next command inbox _ =>
      cases h
      have htaken : session.Quiet { session with inbox } := of_eq rfl rfl
      exact htaken.trans (handle _ command)
    · split at h
      · cases h
        exact shutDown session
      · cases h
  · obtain ⟨watcher, hwatcher, h⟩ := Option.bind_eq_some_iff.1 h
    split at h
    · cases h
      exact startWatcher session _
    · cases h
  · obtain ⟨watcher, hwatcher, h⟩ := Option.bind_eq_some_iff.1 h
    obtain ⟨outcome, houtcome, h⟩ := Option.bind_eq_some_iff.1 h
    split at h
    · cases h
      exact feedReady session _
    · cases h
      exact reject session _ _
  · exact withPlace (place session _ _) h
  · exact withPlace (move session _) h
  · exact withPlace (of_eq rfl rfl) h
  · cases h

/-! ### The watchers -/

variable {own : StreamId}

/-- Who reads a stream may go on with it. -/
theorem follow (before : session.Quiet next) (hreads : next.reads? id = some own)
    {phase : Watcher.Phase} (hphase : phase.stream? = some own) :
    session.Quiet (next.setPhase id phase) := by
  refine before.trans (setPhase fun watcher found hwatcher hfound => ?_)
  rw [reads?_of_watcher hwatcher] at hreads
  rw [hreads, ← hphase, hfound]

/-- Giving up is quiet. -/
theorem giveUp (before : session.Quiet next) (id : WatcherId) (failure : Failure) :
    session.Quiet (next.giveUp id failure) := by
  have hfailed : next.Quiet (next.modifyWatcher id fun watcher =>
      { watcher with outcome := some (.failed failure) }) :=
    modifyWatcher fun _ _ _ hstream => hstream
  exact (before.trans hfailed).trans (endWatcher _ id .neverLive)

/-- Announcing an order that left the book is quiet. -/
theorem announceLeft (before : session.Quiet next) (id : WatcherId) (event : Event) :
    session.Quiet (next.announceLeft id event) :=
  before.trans (of_eq rfl rfl)

/-- Firing orders is quiet, for a watcher that keeps its stream. -/
theorem fire (before : session.Quiet next) (hreads : next.reads? id = some own)
    (prices : List Float) (events : List Event) :
    session.Quiet (next.fire id own prices events) := by
  cases events with
  | nil => exact before.follow hreads rfl
  | cons event rest => exact (before.announceLeft id event).follow hreads rfl

/-- Draining orders is quiet, for a watcher that keeps its stream. -/
theorem drain (before : session.Quiet next) (hreads : next.reads? id = some own)
    (events : List Event) : session.Quiet (next.drain id own events) := by
  cases events with
  | nil => exact before.trans (endWatcher next id .retired)
  | cons event rest => exact (before.announceLeft id event).follow hreads rfl

/-- Going live on the stream that the watcher subscribed to is quiet. -/
theorem goLive (before : session.Quiet next) (hreads : next.reads? id = some own)
    (listing : Listing) (price : Float) : session.Quiet (next.goLive id own listing price) := by
  have hbooked : next.Quiet { next.count .watchers 1 with
      book := (next.count .watchers 1).book.setLast listing price } := of_eq rfl rfl
  refine (before.trans hbooked).trans (modifyWatcher fun watcher found hwatcher hfound => ?_)
  exact ((reads?_of_watcher hwatcher).symm.trans hreads).trans hfound

/-- Reading what comes first is quiet. -/
theorem takeFirst (hreads : session.reads? id = some own) {listing : Listing} {reading : Reading}
    (h : session.takeFirst id own listing reading = some next) : session.Quiet next := by
  have hadvanced : session.Quiet (session.advanceStream own) := modifyStream session own _
  unfold Session.takeFirst at h
  split at h
  · cases h
  · cases h
    exact (refl session).giveUp id _
  · cases h
    exact hadvanced.giveUp id _
  · dsimp only at h
    split at h
    · cases h
      exact hadvanced.goLive hreads listing _
    · cases h
      exact hadvanced.giveUp id _

/-- Looking at a price is quiet. -/
theorem lookAt (hreads : session.reads? id = some own) (watcher : Watcher) (price : Float)
    (prices : List Float) : session.Quiet (session.lookAt id watcher own price prices) := by
  have hskipped : ∀ reason, session.Quiet (session.skipPrice watcher.listing reason) :=
    fun _ => of_eq rfl rfl
  unfold Session.lookAt
  split
  · exact (hskipped _).follow hreads rfl
  · split
    · exact (hskipped _).follow hreads rfl
    · have htaken : session.Quiet (session.takePrice id watcher.listing price).2 :=
        ⟨rfl, rfl, fun target found h => (reads?_takePrice ..).symm.trans h⟩
      exact htaken.fire ((reads?_takePrice ..).trans hreads) prices _

/-- Losing a feed is quiet. -/
theorem loseFeed (before : session.Quiet next) (hreads : next.reads? id = some own)
    (listing : Listing) (failure : Failure) :
    session.Quiet (next.loseFeed id own listing failure) := by
  have hretired : ∀ entry book, next.Quiet { next.write entry with book } :=
    fun _ _ => of_eq rfl rfl
  exact (before.trans (hretired _ _)).drain hreads _

/-- Taking what comes next is quiet. -/
theorem takeNext (hreads : session.reads? id = some own) {listing : Listing} {reading : Reading}
    (h : session.takeNext id own listing reading = some next) : session.Quiet next := by
  have hadvanced : session.Quiet (session.advanceStream own) := modifyStream session own _
  unfold Session.takeNext at h
  split at h
  · cases h
  · cases h
    exact (refl session).loseFeed hreads listing _
  · cases h
    exact hadvanced.loseFeed hreads listing _
  · cases h
    exact hadvanced.follow hreads rfl

/-- Putting an event with a place is quiet if what follows is. -/
theorem deliver {event : Event} {after : Session → Session}
    (hnext : session.Quiet (after (session.put (.watcher id) event)))
    (h : session.deliver id event after = some next) : session.Quiet next := by
  unfold Session.deliver at h
  split at h
  · cases h
  · cases h
    exact endWatcher session id .clientLeft
  · cases h
    exact hnext

/-- A watcher comes to read a stream only where it subscribes. -/
theorem watcherStep (h : session.watcherStep id = some next) :
    session.Quiet next ∨ ∃ listing, next = session.subscribe id listing := by
  obtain ⟨watcher, hwatcher, h⟩ := Option.bind_eq_some_iff.1 h
  have hreads := reads?_of_watcher hwatcher
  have hput : ∀ event, session.Quiet (session.put (.watcher id) event) := fun _ => of_eq rfl rfl
  split at h
  · next hphase =>
    cases h
    exact .inr ⟨watcher.listing, rfl⟩
  · next hphase =>
    rw [hphase] at hreads
    exact .inl (takeFirst hreads h)
  · next hphase =>
    rw [hphase] at hreads
    exact .inl (takeNext hreads h)
  · next hphase =>
    rw [hphase] at hreads
    cases h
    exact .inl (lookAt hreads watcher _ _)
  · next event rest prices hphase =>
    rw [hphase] at hreads
    exact .inl (deliver ((hput event).fire hreads prices rest) h)
  · next event rest hphase =>
    rw [hphase] at hreads
    exact .inl (deliver ((hput event).drain hreads rest) h)
  · cases h

end Quiet

/-! ## Every stream has one reader -/

/-- No two watchers read one stream, and nobody reads one that waits for a subscriber. -/
structure Apart (session : Session) : Prop where
  made : ∀ id stream, session.reads? id = some stream →
    stream < session.source.replay.streams.length
  waits : ∀ listing stream, session.source.replay.waiting.get? listing = some stream →
    stream < session.source.replay.streams.length
  one : ∀ id other stream, session.reads? id = some stream → session.reads? other = some stream →
    id = other
  taken : ∀ id listing stream, session.reads? id = some stream →
    session.source.replay.waiting.get? listing ≠ some stream
  own : ∀ listing other stream, session.source.replay.waiting.get? listing = some stream →
    session.source.replay.waiting.get? other = some stream → listing = other

namespace Apart

/-- A quiet turn keeps streams apart. -/
theorem of_quiet (h : session.Apart) (hquiet : session.Quiet next) : next.Apart where
  made id stream hreads := hquiet.length ▸ h.made id stream (hquiet.reads id stream hreads)
  waits listing stream hwaits := hquiet.length ▸ h.waits listing stream (hquiet.waiting ▸ hwaits)
  one id other stream hreads hother :=
    h.one id other stream (hquiet.reads id stream hreads) (hquiet.reads other stream hother)
  taken id listing stream hreads :=
    hquiet.waiting ▸ h.taken id listing stream (hquiet.reads id stream hreads)
  own listing other stream hwaits hother :=
    h.own listing other stream (hquiet.waiting ▸ hwaits) (hquiet.waiting ▸ hother)

/-- Streams are made, and some do not wait any more. -/
theorem of_sub (h : session.Apart) {source : Source}
    (hlength : session.source.replay.streams.length ≤ source.replay.streams.length)
    (hwaiting : ∀ listing stream, source.replay.waiting.get? listing = some stream →
      session.source.replay.waiting.get? listing = some stream) :
    Apart { session with source } where
  made id stream hreads := Nat.lt_of_lt_of_le (h.made id stream hreads) hlength
  waits listing stream hwaits :=
    Nat.lt_of_lt_of_le (h.waits listing stream (hwaiting listing stream hwaits)) hlength
  one := h.one
  taken id listing stream hreads hwaits :=
    h.taken id listing stream hreads (hwaiting listing stream hwaits)
  own listing other stream hwaits hother :=
    h.own listing other stream (hwaiting listing stream hwaits) (hwaiting other stream hother)

/-- A stream that is made is read by nobody, and waits for one listing at most. -/
theorem of_makes (h : session.Apart) {listing : Listing} {replay : Replay}
    (hmakes : Replay.Makes session.source.replay listing replay) :
    (session.withReplay replay).Apart := by
  cases hmakes with
  | none hlength hwaiting =>
    exact h.of_sub (Nat.le_of_eq hlength.symm) fun other stream hwaits => hwaiting ▸ hwaits
  | one hlength hwaiting =>
    have hless : ∀ stream, stream < session.source.replay.streams.length →
        stream < replay.streams.length := fun stream hlt => hlength ▸ Nat.lt_succ_of_lt hlt
    -- The stream that waits is the new one, or waited before.
    have hcases : ∀ other stream, replay.waiting.get? other = some stream →
        other = listing ∧ stream = session.source.replay.streams.length ∨
          session.source.replay.waiting.get? other = some stream := by
      intro other stream hwaits
      rw [hwaiting] at hwaits
      split at hwaits
      · next heq => exact .inl ⟨heq, (Option.some_inj.1 hwaits).symm⟩
      · exact .inr hwaits
    constructor
    case made => exact fun id stream hreads => hless stream (h.made id stream hreads)
    case waits =>
      intro other stream hwaits
      rcases hcases other stream hwaits with ⟨-, rfl⟩ | hwaits
      · exact hlength ▸ Nat.lt_succ_self _
      · exact hless stream (h.waits other stream hwaits)
    case one => exact h.one
    case taken =>
      intro id other stream hreads hwaits
      rcases hcases other stream hwaits with ⟨-, rfl⟩ | hwaits
      · exact Nat.lt_irrefl _ (h.made id _ hreads)
      · exact h.taken id other stream hreads hwaits
    case own =>
      intro other rival stream hwaits hrival
      rcases hcases other stream hwaits with ⟨rfl, rfl⟩ | hwaits
      · rcases hcases rival _ hrival with ⟨rfl, -⟩ | hrival
        · rfl
        · exact absurd (h.waits rival _ hrival) (Nat.lt_irrefl _)
      · rcases hcases rival stream hrival with ⟨rfl, rfl⟩ | hrival
        · exact absurd (h.waits other _ hwaits) (Nat.lt_irrefl _)
        · exact h.own other rival stream hwaits hrival

/-- A watcher starts to read a stream that is nobody's. -/
theorem opening (h : session.Apart) {own : StreamId}
    (hmade : own < session.source.replay.streams.length)
    (hfree : ∀ other, session.reads? other ≠ some own)
    (hwaits : ∀ listing, session.source.replay.waiting.get? listing ≠ some own) :
    (session.setPhase id (.opening own)).Apart := by
  have hcases : ∀ target stream, (session.setPhase id (.opening own)).reads? target = some stream →
      target = id ∧ stream = own ∨ session.reads? target = some stream := by
    intro target stream hreads
    obtain ⟨after, hafter, hstream⟩ := Option.bind_eq_some_iff.1 hreads
    have hget : (session.watchers.modify id fun watcher =>
        { watcher with phase := .opening own })[target]? = some after := hafter
    rw [List.getElem?_modify] at hget
    obtain ⟨watcher, hwatcher, rfl⟩ := Option.map_eq_some_iff.1 hget
    by_cases heq : id = target
    · rw [if_pos heq] at hstream
      exact .inl ⟨heq.symm, (Option.some_inj.1 hstream).symm⟩
    · rw [if_neg heq] at hstream
      exact .inr (Option.bind_eq_some_iff.2 ⟨watcher, hwatcher, hstream⟩)
  constructor
  case made =>
    intro target stream hreads
    rcases hcases target stream hreads with ⟨-, rfl⟩ | hreads
    · exact hmade
    · exact h.made target stream hreads
  case waits => exact h.waits
  case one =>
    intro target other stream hreads hother
    rcases hcases target stream hreads with ⟨rfl, rfl⟩ | hbefore
    -- Two readers of one stream: one of them would be the watcher that takes it, and nobody had it.
    · rcases hcases other _ hother with ⟨rfl, -⟩ | hrival
      · rfl
      · exact absurd hrival (hfree other)
    · rcases hcases other stream hother with ⟨rfl, rfl⟩ | hrival
      · exact absurd hbefore (hfree target)
      · exact h.one target other stream hbefore hrival
  case taken =>
    intro target listing stream hreads
    rcases hcases target stream hreads with ⟨-, rfl⟩ | hreads
    · exact hwaits listing
    · exact h.taken target listing stream hreads
  case own => exact h.own

/-- Whoever subscribes gets a stream that nobody reads, and that does not wait any more. -/
theorem given (h : session.Apart) (listing : Listing) :
    Apart { session with source := (session.source.subscribe listing).2 } ∧
      ∀ own, (session.source.subscribe listing).1 = .ok own →
        own < (session.source.subscribe listing).2.replay.streams.length ∧
        (∀ other, session.reads? other ≠ some own) ∧
        ∀ other, (session.source.subscribe listing).2.replay.waiting.get? other ≠ some own := by
  have hgives := session.source.gives listing
  refine ⟨h.of_sub hgives.length hgives.waiting, fun own hgiven => ?_⟩
  rcases hgives.given own hgiven with ⟨hwaits, hgone⟩ | ⟨rfl, hmade⟩
  · refine ⟨Nat.lt_of_lt_of_le (h.waits listing own hwaits) hgives.length,
      fun other hreads => h.taken other listing own hreads hwaits, fun other hother => ?_⟩
    have hsame := h.own other listing own (hgives.waiting other own hother) hwaits
    rw [hsame, hgone] at hother
    cases hother
  · exact ⟨hmade, fun other hreads => Nat.lt_irrefl _ (h.made other _ hreads), fun other hwaits =>
      Nat.lt_irrefl _ (h.waits other _ (hgives.waiting other _ hwaits))⟩

/-- A subscriber gets a stream that nobody reads. -/
theorem subscribe (h : session.Apart) (id : WatcherId) (listing : Listing) :
    (session.subscribe id listing).Apart := by
  obtain ⟨hnext, hgiven⟩ := h.given listing
  unfold Session.subscribe
  generalize session.source.subscribe listing = outcome at hnext hgiven
  obtain ⟨given, source⟩ := outcome
  cases given with
  | ok own =>
    obtain ⟨hmade, hfree, hwaits⟩ := hgiven own rfl
    exact hnext.opening hmade hfree hwaits
  | error failure => exact hnext.of_quiet ((Quiet.refl _).giveUp id failure)

/-- A turn keeps streams apart. -/
theorem step (h : session.Apart) {actor : Actor} (hstep : step actor session = some next) :
    next.Apart := by
  cases actor with
  | desk => exact h.of_quiet (.deskStep hstep)
  | watcher id =>
    rcases Quiet.watcherStep hstep with hquiet | ⟨listing, rfl⟩
    · exact h.of_quiet hquiet
    · exact h.subscribe id listing

/-- Whatever comes from outside keeps streams apart. -/
theorem meet (h : session.Apart) (stimulus : Stimulus) : (session.meet stimulus).Apart := by
  cases stimulus with
  | send command =>
    unfold Session.meet
    dsimp only
    split
    · exact h.of_quiet (.of_eq rfl rfl)
    · exact h
  | take =>
    unfold Session.meet
    dsimp only
    split
    · exact h.of_quiet (.of_eq rfl rfl)
    · exact h
  | endCommands | leave | wait => exact h.of_quiet (.of_eq rfl rfl)
  | push listing batch => exact h.of_makes (Replay.makes_send _ listing _)
  | breakStream listing reason => exact h.of_makes (Replay.makes_send _ listing _)
  | closeStream listing =>
    have hlength := Replay.length_close session.source.replay listing
    refine h.of_sub (Nat.le_of_eq hlength.symm) fun other stream hwaits => ?_
    rw [Replay.waiting_close] at hwaits
    split at hwaits
    · cases hwaits
    · exact hwaits
  | refuse listing reason => exact h.of_sub (Nat.le_refl _) fun _ _ hwaits => hwaits

/-- A session that keeps streams apart does so in all that it comes to. -/
theorem of_reaches (h : session.Apart) (hreaches : Reaches session next) : next.Apart := by
  induction hreaches with
  | refl _ => exact h
  | turn actor hstep _ ih => exact ih (h.step hstep)
  | stimulus stimulus _ ih => exact ih (h.meet stimulus)

end Apart

/-- When a session starts, nobody reads anything. -/
theorem apart_start {source : Source} (hsound : source.replay.Sound) (limit : Option Nat)
    (inboxCapacity outboxCapacity : Nat) :
    (start source limit inboxCapacity outboxCapacity).Apart where
  made _ _ h := by cases h
  waits listing stream hwaits := by
    obtain ⟨-, unread, hcontent⟩ := hsound.waits listing stream hwaits
    exact Replay.lt_of_content? hcontent
  one _ _ _ h := by cases h
  taken _ _ _ h := by cases h
  own listing other stream hwaits hother :=
    (hsound.own listing other stream (hsound.waits listing stream hwaits).1
      (hsound.waits other stream hother).1).symm

/-- Whatever happens in a session: every stream has one reader at most, and none while it waits. -/
theorem apart_of_reaches {source : Source} (hsound : source.replay.Sound) {limit : Option Nat}
    {inboxCapacity outboxCapacity : Nat}
    (hreaches : Reaches (start source limit inboxCapacity outboxCapacity) session) :
    session.Apart :=
  (apart_start hsound limit inboxCapacity outboxCapacity).of_reaches hreaches

end Session

end TriggerDesk
