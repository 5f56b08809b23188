import TriggerDesk.Proofs.Session.Runs

/-!
# How long the desk waits for a first quote

No turn takes time, and no turn changes the limit of a session. A desk that begins to wait for a
first quote sets its deadline by the limit (`Session.Timely`). So a desk that waits for a first
quote can go on once the limit has passed, whatever the feed does
(`Punctual.quoteOutcome?_ne_none`).
-/

namespace TriggerDesk

open Market TriggerDesk.Order Feed

namespace Session

variable {first session next : Session} {id : WatcherId}

/-- No time has passed. If the desk waits for a first quote now, it waited for it before, or has
just begun to wait, for as long as the limit allows. -/
structure Timely (first session : Session) : Prop where
  limit : session.limit = first.limit
  clock : session.clock = first.clock
  deadline : ∀ placing id deadline, session.desk = .awaitQuote placing id deadline →
    first.desk = .awaitQuote placing id deadline ∨ deadline = first.limit.map (first.clock + ·)

namespace Timely

/-- No time has passed between a session and itself. -/
theorem refl (session : Session) : session.Timely session :=
  ⟨rfl, rfl, fun _ _ _ hdesk => .inl hdesk⟩

/-- Limit, clock and desk stay. -/
theorem stay (h : first.Timely session) (hlimit : next.limit = session.limit)
    (hclock : next.clock = session.clock) (hdesk : next.desk = session.desk) :
    first.Timely next :=
  ⟨hlimit.trans h.limit, hclock.trans h.clock,
    fun placing id deadline hawaits => h.deadline placing id deadline (hdesk ▸ hawaits)⟩

/-- The desk does something else than to wait for a first quote. -/
theorem turnTo (h : first.Timely session) (hlimit : next.limit = session.limit)
    (hclock : next.clock = session.clock)
    (hdesk : ∀ placing id deadline, next.desk ≠ .awaitQuote placing id deadline) :
    first.Timely next :=
  ⟨hlimit.trans h.limit, hclock.trans h.clock,
    fun placing id deadline hawaits => absurd hawaits (hdesk placing id deadline)⟩

/-- Counting takes no time. -/
theorem count (h : first.Timely session) (meter : Metrics.Meter) (n : Int) :
    first.Timely (session.count meter n) :=
  h.stay rfl rfl rfl

/-- Observing an event takes no time. -/
theorem observe (h : first.Timely session) (event : Event) :
    first.Timely (session.observe event) :=
  (h.count (.events event.kind.name) 1).stay rfl rfl rfl

/-- Announcing an event takes no time. -/
theorem announce (h : first.Timely session) (party : Party) (event : Event) :
    first.Timely (session.announce party event) :=
  (h.observe event).stay rfl rfl rfl

/-- Putting an event takes no time. -/
theorem put (h : first.Timely session) (party : Party) (event : Event) :
    first.Timely (session.put party event) :=
  h.stay rfl rfl rfl

/-- A change of a watcher takes no time. -/
theorem modifyWatcher (h : first.Timely session) (id : WatcherId)
    (change : Watcher → Watcher) : first.Timely (session.modifyWatcher id change) :=
  h.stay rfl rfl rfl

/-! ### Turns of the desk -/

/-- Leaving a stream takes no time. -/
theorem leaveStream (h : first.Timely session) (phase : Watcher.Phase) :
    first.Timely (session.leaveStream phase) := by
  unfold Session.leaveStream
  split
  · exact h
  · exact h.stay rfl rfl rfl

/-- Ending a watcher takes no time. -/
theorem endWatcher (h : first.Timely session) (id : WatcherId) (ending : Watcher.Ending) :
    first.Timely (session.endWatcher id ending) := by
  unfold Session.endWatcher
  split
  · exact h
  · next watcher _ =>
    dsimp only
    split
    · exact h
    · have hcounted : first.Timely
          (if watcher.phase.isLive then session.count .watchers (-1) else session) := by
        split
        · exact h.count _ _
        · exact h
      exact (hcounted.leaveStream watcher.phase).stay rfl rfl rfl

/-- Having an answer to put takes no time. -/
theorem answer (h : first.Timely session) (event : Event) :
    first.Timely (session.answer event) :=
  (h.announce .desk event).turnTo rfl rfl nofun

/-- Rejecting a command takes no time. -/
theorem reject (h : first.Timely session) (command : Command) (rejection : Rejection) :
    first.Timely (session.reject command rejection) :=
  (h.count _ _).answer _

/-- Returning a place takes no time. -/
theorem returnPlace (h : first.Timely session) : first.Timely session.returnPlace :=
  h.stay rfl rfl rfl

/-- A desk that has started a watcher begins to wait for its first quote, for as long as the limit
allows. -/
theorem startWatcher (h : first.Timely session) (placing : Placing) :
    first.Timely (session.startWatcher placing) := by
  refine ⟨h.limit, h.clock, fun _ _ _ hdesk => ?_⟩
  cases hdesk
  exact .inr (by rw [h.limit, h.clock])

/-- A desk that starts a watcher in place of another begins to wait too, unless it awaits the end of
that one first. -/
theorem replaceWatcher (h : first.Timely session) (placing : Placing) :
    first.Timely (session.replaceWatcher placing) := by
  unfold Session.replaceWatcher
  split
  · exact h.startWatcher placing
  · next id _ =>
    have herased : first.Timely { session with
        spawned := session.spawned.erase placing.listing } := h.stay rfl rfl rfl
    dsimp only
    split
    · exact herased.turnTo rfl rfl nofun
    · exact (herased.endWatcher id .aborted).startWatcher placing

/-- Arming an order takes no time. -/
theorem arm (h : first.Timely session) (placing : Placing) (last : Float) :
    first.Timely (session.arm placing last) :=
  h.turnTo rfl rfl nofun

/-- Seeking the feed of a listing takes no time, or the desk begins to wait for its first quote. -/
theorem seekFeed (h : first.Timely session) (placing : Placing) :
    first.Timely (session.seekFeed placing) := by
  unfold Session.seekFeed
  split
  · exact h.arm placing _
  · exact h.replaceWatcher placing

/-- Trying again takes no time, or the desk begins to wait for another first quote. -/
theorem tryAgain (h : first.Timely session) (placing : Placing) :
    first.Timely (session.tryAgain placing) := by
  unfold Session.tryAgain
  split
  · exact h.reject _ _
  · exact h.seekFeed _

/-- Going on after a wait takes no time: the order is armed, or the desk tries again. -/
theorem feedReady (h : first.Timely session) (placing : Placing) :
    first.Timely (session.feedReady placing) := by
  unfold Session.feedReady
  dsimp only
  split
  · exact (h.count _ _).arm placing _
  · exact (h.count _ _).tryAgain placing

/-- Acknowledging a command takes no time. -/
theorem acknowledge (h : first.Timely session) (ack : Event) :
    first.Timely ((session.observe ack).put .desk ack) :=
  (h.observe ack).put .desk ack

/-- Placing an order takes no time. -/
theorem place (h : first.Timely session) (placing : Placing) (last : Float) :
    first.Timely (session.place placing last) := by
  unfold Session.place
  dsimp only
  split
  · have hplaced := h.acknowledge
      (Event.ack placing.command (Trigger.arm placing.command.price last).direction)
    exact (hplaced.count .pending 1).turnTo rfl rfl nofun
  · exact h.returnPlace.reject _ _
  · next book _ =>
    have hbook : first.Timely { session with book } := h.stay rfl rfl rfl
    exact hbook.returnPlace.tryAgain placing

/-- Taking up a command that places an order takes no time. -/
theorem handleOrder (h : first.Timely session) (command : Command) :
    first.Timely (session.handleOrder command) := by
  unfold Session.handleOrder
  split
  · exact h.reject _ _
  · split
    · exact h.reject _ _
    · split
      · exact h.reject _ _
      · exact h.seekFeed _

/-- Cancelling an order takes no time. -/
theorem handleCancel (h : first.Timely session) (command : Command) :
    first.Timely (session.handleCancel command) := by
  unfold Session.handleCancel
  split
  · exact h.reject _ _
  · next order book _ =>
    have hbook : first.Timely { session with book } := h.stay rfl rfl rfl
    exact (hbook.count .pending (-1)).answer _

/-- Taking up a command that moves an order takes no time. -/
theorem handleModify (h : first.Timely session) (command : Command) :
    first.Timely (session.handleModify command) := by
  unfold Session.handleModify
  split
  · exact h.reject _ _
  · exact h.turnTo rfl rfl nofun

/-- Taking up any command takes no time. -/
theorem handle (h : first.Timely session) (command : Command) :
    first.Timely (session.handle command) := by
  have hcounted : first.Timely ((session.count (.commands command.kind.name) 1).write
      (.command command)) := (h.count (.commands command.kind.name) 1).stay rfl rfl rfl
  unfold Session.handle
  dsimp only
  split
  · exact hcounted.handleOrder command
  · exact hcounted.handleOrder command
  · exact hcounted.handleOrder command
  · exact hcounted.handleCancel command
  · exact hcounted.handleModify command

/-- Moving an order takes no time. -/
theorem move (h : first.Timely session) (command : Command) :
    first.Timely (session.move command) := by
  unfold Session.move
  split
  · exact h.returnPlace.reject _ _
  · next moved _ =>
    have hmoved := h.acknowledge
      (Event.ack moved.order.command moved.order.trigger.direction)
    exact hmoved.turnTo rfl rfl nofun

/-- Stopping watchers takes no time. -/
theorem stopWatchers (h : first.Timely session) (ids : List WatcherId) :
    first.Timely (session.stopWatchers ids) := by
  induction ids generalizing session with
  | nil => exact h
  | cons id rest ih => exact ih (h.endWatcher id .aborted)

/-- Shutting down takes no time, and the desk waits for nothing then. -/
theorem shutDown (h : first.Timely session) : first.Timely session.shutDown := by
  have hstopped := (h.count .pending (-session.book.size)).stopWatchers
    (List.range session.watchers.length)
  exact hstopped.turnTo rfl rfl nofun

/-- What is done with a place takes no time if the rest takes none. -/
theorem withPlace {further : Session → Session} (h : first.Timely session)
    (hfurther : first.Timely (further session))
    (hstep : session.withPlace further = some next) : first.Timely next := by
  rcases withPlace_cases hstep with rfl | ⟨_, rfl⟩
  · exact hfurther
  · exact h.shutDown

/-- A turn of the desk takes no time. -/
theorem deskStep (h : first.Timely session) (hstep : session.deskStep = some next) :
    first.Timely next := by
  unfold Session.deskStep at hstep
  split at hstep
  · split at hstep
    · next command inbox _ =>
      cases hstep
      -- A deadline is set where the desk begins to wait for a first quote, and nowhere else.
      have htaken : first.Timely { session with inbox } := h.stay rfl rfl rfl
      exact htaken.handle command
    · split at hstep
      · cases hstep
        exact h.shutDown
      · cases hstep
  · obtain ⟨watcher, _, hstep⟩ := Option.bind_eq_some_iff.1 hstep
    split at hstep
    · cases hstep
      exact h.startWatcher _
    · cases hstep
  · obtain ⟨watcher, _, hstep⟩ := Option.bind_eq_some_iff.1 hstep
    obtain ⟨outcome, _, hstep⟩ := Option.bind_eq_some_iff.1 hstep
    split at hstep
    · cases hstep
      exact h.feedReady _
    · cases hstep
      exact h.reject _ _
  · exact h.withPlace (h.place _ _) hstep
  · exact h.withPlace (h.move _) hstep
  · next event _ =>
    have hput : first.Timely { session.put .desk event with desk := .idle } :=
      (h.put .desk event).turnTo rfl rfl nofun
    exact h.withPlace hput hstep
  · cases hstep

/-! ### Turns of the watchers -/

/-- Reading on in a stream takes no time. -/
theorem advanceStream (h : first.Timely session) (stream : StreamId) :
    first.Timely (session.advanceStream stream) :=
  h.stay rfl rfl rfl

/-- Entering a phase takes no time. -/
theorem setPhase (h : first.Timely session) (id : WatcherId) (phase : Watcher.Phase) :
    first.Timely (session.setPhase id phase) :=
  h.modifyWatcher id _

/-- Giving up takes no time. -/
theorem giveUp (h : first.Timely session) (id : WatcherId) (failure : Failure) :
    first.Timely (session.giveUp id failure) :=
  (h.modifyWatcher id _).endWatcher id .neverLive

/-- Announcing an order that left the book takes no time. -/
theorem announceLeft (h : first.Timely session) (id : WatcherId) (event : Event) :
    first.Timely (session.announceLeft id event) :=
  (h.count .pending (-1)).announce (.watcher id) event

/-- Firing orders takes no time. -/
theorem fire (h : first.Timely session) (id : WatcherId) (stream : StreamId)
    (prices : List Float) (events : List Event) :
    first.Timely (session.fire id stream prices events) := by
  cases events with
  | nil => exact h.setPhase id _
  | cons event rest => exact (h.announceLeft id event).setPhase id _

/-- Draining orders takes no time. -/
theorem drain (h : first.Timely session) (id : WatcherId) (stream : StreamId)
    (events : List Event) : first.Timely (session.drain id stream events) := by
  cases events with
  | nil => exact h.endWatcher id .retired
  | cons event rest => exact (h.announceLeft id event).setPhase id _

/-- Subscribing takes no time. -/
theorem subscribe (h : first.Timely session) (id : WatcherId) (listing : Listing) :
    first.Timely (session.subscribe id listing) := by
  have hread : ∀ source, first.Timely { session with source } := fun _ => h.stay rfl rfl rfl
  unfold Session.subscribe
  split
  · exact (hread _).setPhase id _
  · exact (hread _).giveUp id _

/-- Reading what comes first takes no time. -/
theorem takeFirst (h : first.Timely session) {stream : StreamId} {listing : Listing}
    {reading : Reading} (hstep : session.takeFirst id stream listing reading = some next) :
    first.Timely next := by
  unfold Session.takeFirst at hstep
  split at hstep
  · cases hstep
  · cases hstep
    exact h.giveUp id _
  · cases hstep
    exact (h.advanceStream stream).giveUp id _
  · dsimp only at hstep
    split at hstep
    · cases hstep
      exact h.stay rfl rfl rfl
    · cases hstep
      exact (h.advanceStream stream).giveUp id _

/-- Losing a feed takes no time. -/
theorem loseFeed (h : first.Timely session) (id : WatcherId) (stream : StreamId)
    (listing : Listing) (failure : Failure) :
    first.Timely (session.loseFeed id stream listing failure) := by
  have hretired : ∀ entry book, first.Timely { session.write entry with book } :=
    fun _ _ => h.stay rfl rfl rfl
  exact (hretired _ _).drain id stream _

/-- Taking what comes next takes no time. -/
theorem takeNext (h : first.Timely session) {stream : StreamId} {listing : Listing}
    {reading : Reading} (hstep : session.takeNext id stream listing reading = some next) :
    first.Timely next := by
  unfold Session.takeNext at hstep
  split at hstep
  · cases hstep
  · cases hstep
    exact h.loseFeed id stream listing _
  · cases hstep
    exact (h.advanceStream stream).loseFeed id stream listing _
  · cases hstep
    exact (h.advanceStream stream).setPhase id _

/-- Looking at a price takes no time. -/
theorem lookAt (h : first.Timely session) (id : WatcherId) (watcher : Watcher)
    (stream : StreamId) (price : Float) (prices : List Float) :
    first.Timely (session.lookAt id watcher stream price prices) := by
  have htaken : first.Timely (session.takePrice id watcher.listing price).2 := h.stay rfl rfl rfl
  unfold Session.lookAt
  split
  · exact (h.count _ _).setPhase id _
  · split
    · exact (h.count _ _).setPhase id _
    · exact htaken.fire id stream prices _

/-- Putting an event with a place takes no time if what follows takes none. -/
theorem deliver (h : first.Timely session) {event : Event} {further : Session → Session}
    (hfurther : first.Timely (further (session.put (.watcher id) event)))
    (hstep : session.deliver id event further = some next) : first.Timely next := by
  unfold Session.deliver at hstep
  split at hstep
  · cases hstep
  · cases hstep
    exact h.endWatcher id .clientLeft
  · cases hstep
    exact hfurther

/-- A turn of a watcher takes no time. -/
theorem watcherStep (h : first.Timely session) (hstep : session.watcherStep id = some next) :
    first.Timely next := by
  obtain ⟨watcher, _, hstep⟩ := Option.bind_eq_some_iff.1 hstep
  split at hstep
  · cases hstep
    exact h.subscribe id _
  · exact h.takeFirst hstep
  · exact h.takeNext hstep
  · cases hstep
    exact h.lookAt id watcher _ _ _
  · exact h.deliver ((h.put _ _).fire id _ _ _) hstep
  · exact h.deliver ((h.put _ _).drain id _ _) hstep
  · cases hstep

end Timely

/-- No turn takes time. -/
theorem timely_of_step {actor : Actor} (h : step actor session = some next) :
    session.Timely next := by
  cases actor with
  | desk => exact (Timely.refl session).deskStep h
  | watcher id => exact (Timely.refl session).watcherStep h

/-! ## Runs -/

/-- Time does not go back, and the limit stays. -/
theorem passes_meet (session : Session) (stimulus : Stimulus) :
    (session.meet stimulus).limit = session.limit ∧
      session.clock ≤ (session.meet stimulus).clock := by
  cases stimulus with
  | send command =>
    simp only [meet]
    split <;> exact ⟨rfl, Nat.le_refl _⟩
  | take =>
    simp only [meet]
    split <;> exact ⟨rfl, Nat.le_refl _⟩
  | wait milliseconds => exact ⟨rfl, Nat.le_add_right _ _⟩
  | endCommands | leave | push | breakStream | closeStream | refuse => exact ⟨rfl, Nat.le_refl _⟩

/-- The limit of a session is as given, and the desk does not wait longer for a first quote. -/
structure Punctual (session : Session) (limit : Option Nat) : Prop where
  limit_eq : session.limit = limit
  deadline : ∀ placing id deadline, session.desk = .awaitQuote placing id deadline →
    ∃ since, since ≤ session.clock ∧ deadline = limit.map (since + ·)

namespace Punctual

variable {limit : Option Nat}

/-- A turn leaves the limit, and no wait becomes longer by it. -/
theorem of_step (h : session.Punctual limit) {actor : Actor}
    (hstep : step actor session = some next) : next.Punctual limit := by
  have htimely := timely_of_step hstep
  refine ⟨htimely.limit.trans h.limit_eq, fun placing id deadline hdesk => ?_⟩
  rw [htimely.clock]
  rcases htimely.deadline placing id deadline hdesk with hbefore | hset
  · exact h.deadline placing id deadline hbefore
  · exact ⟨session.clock, Nat.le_refl _, h.limit_eq ▸ hset⟩

/-- A desk that waits on has waited longer when time has passed. -/
theorem pass (h : session.Punctual limit) (hlimit : next.limit = session.limit)
    (hclock : session.clock ≤ next.clock) (hdesk : next.desk = session.desk) :
    next.Punctual limit := by
  refine ⟨hlimit.trans h.limit_eq, fun placing id deadline hawaits => ?_⟩
  obtain ⟨since, hsince, hset⟩ := h.deadline placing id deadline (hdesk ▸ hawaits)
  exact ⟨since, Nat.le_trans hsince hclock, hset⟩

/-- Nothing from outside makes a wait longer than the limit. -/
theorem of_meet (h : session.Punctual limit) (stimulus : Stimulus) :
    (session.meet stimulus).Punctual limit :=
  have ⟨hlimit, hclock⟩ := passes_meet session stimulus
  h.pass hlimit hclock (undisturbed_meet session stimulus).desk

/-- No move does. -/
theorem of_advance (h : session.Punctual limit) (move : Move) :
    (session.advance move).Punctual limit := by
  cases move with
  | turn actor =>
    cases hstep : step actor session with
    | none => rwa [advance_turn_of_waits hstep]
    | some next =>
      rw [advance_turn hstep]
      exact h.of_step hstep
  | stimulus stimulus => exact h.of_meet stimulus
  | feeds source => exact h.pass rfl (Nat.le_refl _) rfl

/-- In a run, the desk never waits longer for a first quote than the limit of the session. -/
theorem run (h : session.Punctual limit) (moves : List Move) :
    (session.run moves).Punctual limit := by
  induction moves generalizing session with
  | nil => exact h
  | cons move rest ih => exact ih (h.of_advance move)

/-- Once the limit has passed, something has come of waiting for a first quote. -/
theorem quoteOutcome?_ne_none {milliseconds : Nat} (h : session.Punctual (some milliseconds))
    {placing : Placing} {deadline : Option Nat}
    (hdesk : session.desk = .awaitQuote placing id deadline) (watcher : Watcher) :
    (session.meet (.wait milliseconds)).quoteOutcome? watcher deadline ≠ none := by
  obtain ⟨since, hsince, rfl⟩ := h.deadline placing id deadline hdesk
  have hover : (Option.map (since + ·) (some milliseconds)).any
      (· ≤ (session.meet (.wait milliseconds)).clock) = true :=
    decide_eq_true (Nat.add_le_add_right hsince milliseconds)
  unfold quoteOutcome?
  split
  · exact Option.some_ne_none _
  · exact Option.some_ne_none _
  · rw [if_pos hover]
    split <;> exact Option.some_ne_none _

end Punctual

/-- At the start nobody waits. -/
theorem punctual_start (source : Source) (limit : Option Nat)
    (inboxCapacity outboxCapacity : Nat) :
    (start source limit inboxCapacity outboxCapacity).Punctual limit :=
  ⟨rfl, nofun⟩

end Session

end TriggerDesk
