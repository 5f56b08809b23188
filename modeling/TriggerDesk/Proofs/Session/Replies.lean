import TriggerDesk.Proofs.Session.Delivery
import TriggerDesk.Proofs.Session.Passage

/-!
# One answer to every command

The desk answers the commands one after the other, each with one event: an acknowledgement, a
cancellation or a rejection (`Command.IsAnsweredBy`). The events of the watchers are never taken for
answers (`Event.isResponse`): a cancellation that a feed brings about has a reason.

`Session.Replies` keeps the account: the commands that came are those that were answered, the one
whose answer the desk has in hand, and those on the docket. Every turn keeps it
(`Replies.of_step`).
-/

namespace TriggerDesk

open Market TriggerDesk.Order Feed

/-- Whether an event answers what a client sent. Feeds make alerts and fills, and cancellations for
a reason. -/
def Order.Event.isResponse (event : Event) : Bool :=
  match event.kind with
  | .ack | .rejected => true
  | .cancelled => event.reason.isNone
  | .alert | .fill => false

/-- What answers a command. -/
inductive Order.Command.IsAnsweredBy (command : Command) : Event → Prop where
  | placed (direction : Direction) :
      command.kind.places = true → IsAnsweredBy command (Event.ack command direction)
  /-- The acknowledgement shows the order that was moved, at its new level. -/
  | moved (order : Command) (direction : Direction) :
      command.kind = .modify → order.oid = command.oid → order.price = command.price →
      IsAnsweredBy command (Event.ack order direction)
  /-- The cancellation shows the order that was cancelled. -/
  | cancelled (order : Command) :
      command.kind = .cancel → order.oid = command.oid →
      IsAnsweredBy command (Event.cancelled order)
  | rejected (rejection : Rejection) :
      IsAnsweredBy command (Event.rejected command rejection.message)

/-- What answers a command is an answer. -/
theorem Order.Command.IsAnsweredBy.isResponse {command : Command} {event : Event}
    (h : command.IsAnsweredBy event) : event.isResponse = true := by
  cases h <;> rfl

/-- The event of an order that fired answers nobody. -/
theorem Order.Event.isResponse_triggered (command : Command) (direction : Direction) (index : Int)
    (price : Float) : (Event.triggered command direction index price).isResponse = false := by
  unfold Event.isResponse Event.triggered Event.triggeredKind Event.ofCommand
  cases command.kind <;> rfl

namespace Session

variable {session next : Session} {id : WatcherId} {watcher after : Watcher} {actor : Actor}
  {commands : List Command} {answered hand : List (Command × Event)}

/-! ## What watchers tell -/

/-- The watchers, the desk and the book are in order, every order is known by the id of its command,
and no watcher holds an answer. -/
structure Regular (session : Session) : Prop where
  sound : session.Sound
  named : ∃ roster : Roster, roster.Describes session.book ∧ WellNamed roster.entries
  news : ∀ id, ∀ event ∈ session.held (.watcher id), event.isResponse = false

/-- A session is regular when it starts. -/
theorem regular_start (source : Source) (limit : Option Nat) (inboxCapacity outboxCapacity : Nat) :
    (start source limit inboxCapacity outboxCapacity).Regular where
  sound := sound_start _ _ _ _
  named := ⟨_, Roster.describes_empty, nofun⟩
  news _ _ h := nomatch h

/-- A regular session is tidy. -/
theorem Regular.tidy (h : session.Regular) : session.Tidy :=
  have ⟨roster, hroster, _⟩ := h.named
  ⟨h.sound, roster, hroster⟩

/-- Channels, feeds, meters and the journal do not matter. -/
theorem Regular.of_same (h : session.Regular) (hdesk : next.desk = session.desk)
    (hwatchers : next.watchers = session.watchers) (hspawned : next.spawned = session.spawned)
    (hbook : next.book = session.book) : next.Regular := by
  have hsame : session.Undisturbed { next with outbox := session.outbox } :=
    ⟨hdesk, hwatchers, hspawned, hbook, rfl⟩
  have hsound := h.sound.of_undisturbed hsame
  refine ⟨⟨{ hsound.staffed with }, hsound.proper⟩, hbook ▸ h.named, fun id => ?_⟩
  rw [held, hwatchers]
  exact h.news id

/-- The events of orders that fire answer nothing. -/
theorem isResponse_of_mem_firedEvents {orders : List Pending} {index : Nat} {price : Float}
    {event : Event} (h : event ∈ firedEvents orders index price) : event.isResponse = false := by
  obtain ⟨order, _, rfl⟩ := List.mem_map.1 h
  exact Event.isResponse_triggered _ _ _ _

/-- The events of orders that are drained with a reason answer nothing. -/
theorem isResponse_of_mem_drainedEvents {orders : List Pending} {reason : String} {event : Event}
    (h : event ∈ drainedEvents orders reason) : event.isResponse = false := by
  obtain ⟨order, _, rfl⟩ := List.mem_map.1 h
  rfl

/-- What a watcher has to put after a turn answers nobody, if that was so before. -/
theorem WatcherTurn.news {deed : Deed} (h : session.WatcherTurn next watcher after deed)
    (hreceiving : session.outbox.receiving = true)
    (hnews : ∀ event ∈ watcher.held, event.isResponse = false) :
    ∀ event ∈ after.held, event.isResponse = false := by
  cases h with
  | quiet _ _ _ hnone | goLive _ _ _ _ hnone =>
    rw [hnone]
    exact fun _ hmem => (List.not_mem_nil hmem).elim
  | tick price orders _ _ _ hheld =>
    rw [hheld]
    exact fun _ => isResponse_of_mem_firedEvents
  | lose reason orders _ _ _ hheld =>
    rw [hheld]
    exact fun _ => isResponse_of_mem_drainedEvents
  | deliver event _ _ hheld =>
    rw [hheld] at hnews
    exact fun other hother => hnews other (List.mem_cons_of_mem _ hother)
  | leave _ hleft =>
    rw [hreceiving] at hleft
    cases hleft

/-- A turn keeps an open session regular. -/
theorem Regular.of_step (h : session.Regular) (hstep : step actor session = some next)
    (hopen : next.IsOpen) : next.Regular := by
  obtain ⟨roster, hroster, hnamed⟩ := h.named
  obtain ⟨later, hlater, heffect⟩ := effect_of_step h.sound hroster hstep hopen
  refine ⟨h.sound.of_step hstep hopen, ⟨later, hlater, hnamed.of_effect heffect⟩, fun id => ?_⟩
  by_cases hactor : Actor.watcher id = actor
  · subst hactor
    obtain ⟨watcher, after, hreplaces, hturn⟩ := watcherTurn_of_watcherStep hstep
    have hnews := h.news id
    rw [held_watcher hreplaces.was] at hnews
    rw [held_watcher hreplaces.becomes]
    exact hturn.news (isOpen_of_step hstep hopen).receiving hnews
  · rw [h.tidy.held_of_ne hstep hopen hactor]
    exact h.news id

/-! ## The account -/

/-- The answers among the events that were put. -/
def responses (session : Session) : List Event := session.outbox.events.filter Event.isResponse

/-- The commands that came: those that were answered, the one whose answer the desk holds, and those
on the docket. -/
structure Replies (session : Session) (commands : List Command)
    (answered hand : List (Command × Event)) : Prop where
  come : commands = (answered ++ hand).map Prod.fst ++ session.docket
  answer : hand.map Prod.snd = session.desk.answer?.toList
  answers : ∀ exchange ∈ answered ++ hand, exchange.1.IsAnsweredBy exchange.2

/-- When a session starts, no command has come and none is answered. -/
theorem replies_start (source : Source) (limit : Option Nat) (inboxCapacity outboxCapacity : Nat) :
    (start source limit inboxCapacity outboxCapacity).Replies [] [] [] :=
  ⟨rfl, rfl, fun _ hmem => (List.not_mem_nil hmem).elim⟩

namespace Replies

/-- Unless the desk has an answer to put, it has no command in hand. -/
theorem hand_eq_nil (h : session.Replies commands answered hand)
    (hnone : session.desk.answer? = none) : hand = [] := by
  have hanswer := h.answer
  rw [hnone] at hanswer
  exact List.map_eq_nil_iff.1 hanswer

/-- Nothing is answered while the docket and what the desk holds stay. -/
theorem of_same (h : session.Replies commands answered hand)
    (hdocket : next.docket = session.docket) (hanswer : next.desk.answer? = session.desk.answer?) :
    next.Replies commands answered hand :=
  ⟨hdocket ▸ h.come, hanswer ▸ h.answer, h.answers⟩

/-- A command more came. -/
theorem send (h : session.Replies commands answered hand) {command : Command}
    (hdocket : next.docket = session.docket ++ [command])
    (hanswer : next.desk.answer? = session.desk.answer?) :
    next.Replies (commands ++ [command]) answered hand :=
  ⟨by rw [hdocket, h.come, List.append_assoc], hanswer ▸ h.answer, h.answers⟩

/-- The next command is answered, and the desk holds the answer. -/
theorem hold (h : session.Replies commands answered []) {command : Command} {event : Event}
    (hdocket : session.docket = command :: next.docket) (hevent : next.desk.answer? = some event)
    (hanswer : command.IsAnsweredBy event) : next.Replies commands answered [(command, event)] where
  come := by
    rw [h.come, hdocket, List.append_nil, List.map_append, List.append_assoc]
    rfl
  answer := by
    rw [hevent]
    rfl
  answers exchange hmem := by
    rcases List.mem_append.1 hmem with hold | hnew
    · exact h.answers exchange (List.mem_append_left _ hold)
    · rw [List.mem_singleton.1 hnew]
      exact hanswer

/-- The next command is answered at once. -/
theorem give (h : session.Replies commands answered []) {command : Command} {event : Event}
    (hdocket : session.docket = command :: next.docket) (hnone : next.desk.answer? = none)
    (hanswer : command.IsAnsweredBy event) :
    next.Replies commands (answered ++ [(command, event)]) [] where
  come := by
    rw [h.come, hdocket, List.append_nil, List.append_nil, List.map_append,
      List.append_assoc]
    rfl
  answer := by
    rw [hnone]
    rfl
  answers exchange hmem := by
    rw [List.append_nil] at hmem
    rcases List.mem_append.1 hmem with hold | hnew
    · exact h.answers exchange (List.mem_append_left _ hold)
    · rw [List.mem_singleton.1 hnew]
      exact hanswer

end Replies

/-- The answers after some events more. -/
theorem responses_append {events : List Event}
    (h : next.outbox.events = session.outbox.events ++ events) :
    next.responses = session.responses ++ events.filter Event.isResponse := by
  rw [responses, h, List.filter_append]
  rfl

/-- With the same events there are the same answers. -/
theorem responses_of_same (h : next.outbox.events = session.outbox.events) :
    next.responses = session.responses :=
  congrArg (List.filter _) h

/-- An order in the book goes by the id of its command. -/
theorem Regular.oid_of_remove (h : session.Regular) {oid : String} {order : Pending} {book : Book}
    (hremove : session.book.remove oid = some (order, book)) : order.command.oid = oid := by
  obtain ⟨roster, hroster, hnamed⟩ := h.named
  obtain ⟨listing, hmem, hoid, _⟩ := hroster.of_remove hremove
  exact (hnamed _ hmem).1.trans hoid

/-- The order that is moved is known by the id that was asked for, and is at the level that was
asked for. -/
theorem Regular.command_of_modify (h : session.Regular) {oid : String} {level : Float}
    {moved : Book.Moved} (hmodify : session.book.modify oid level = some moved) :
    moved.order.command.oid = oid ∧ moved.order.command.price = level := by
  obtain ⟨roster, hroster, hnamed⟩ := h.named
  obtain ⟨listing, old, last, hmem, hoid, _, horder, _⟩ := hroster.of_modify hmodify
  rw [horder]
  exact ⟨(hnamed _ hmem).1.trans hoid, rfl⟩

/-! ## Turns -/

/-- A turn of the desk that leaves the session open answers one command or none. -/
theorem Replies.of_deskTurn (h : session.Replies commands answered hand)
    (hregular : session.Regular) {deed : Deed} (hturn : session.DeskTurn next deed)
    (hopen : next.IsOpen) :
    ∃ given hand', next.Replies commands (answered ++ given) hand' ∧
      next.responses = session.responses ++ given.map Prod.snd := by
  -- While the desk works on a command it holds no answer, and most turns leave it at that.
  have hsilent : next.docket = session.docket → session.desk.answer? = none →
      next.desk.answer? = none → next.outbox.events = session.outbox.events →
      ∃ given hand', next.Replies commands (answered ++ given) hand' ∧
        next.responses = session.responses ++ given.map Prod.snd := by
    intro hdocket hbefore hafter hevents
    refine ⟨[], hand, ?_, ?_⟩
    · rw [List.append_nil]
      exact h.of_same hdocket (hafter.trans hbefore.symm)
    · rw [responses_of_same hevents, List.map_nil, List.append_nil]
  cases hturn with
  | refuse command rejection hstill _ hfree hdocket hdesk =>
    have hnone := h.hand_eq_nil hfree.answer
    subst hnone
    refine ⟨[], [(command, Event.rejected command rejection.message)], ?_, ?_⟩
    · rw [List.append_nil]
      exact h.hold hdocket (by rw [hdesk]; rfl) (.rejected rejection)
    · rw [responses_of_same hstill.events, List.map_nil, List.append_nil]
  | arm _ _ hstill _ hfree hdocket _ _ hdesk =>
    exact hsilent hdocket hfree.answer (by rw [hdesk]; rfl) hstill.events
  | await _ _ hstill _ hfree hdocket _ _ _ _ hdesk =>
    exact hsilent hdocket hfree.answer (by rw [hdesk]; rfl) hstill.events
  | start placing _ hstill hdocket _ hvacant _ _ hdesk =>
    exact hsilent hdocket (answer_of_vacant hvacant) (by rw [hdesk]; rfl) hstill.events
  | restart _ _ _ _ hstill hfree hdocket _ _ _ _ _ _ _ hdesk =>
    exact hsilent hdocket hfree.answer (by rw [hdesk]; rfl) hstill.events
  | prepare _ hstill _ hfree hdocket _ hdesk =>
    exact hsilent hdocket hfree.answer (by rw [hdesk]; rfl) hstill.events
  | cancel command order _ _ hidle hdocket hkind hremove hevents hdesk =>
    have hnone := h.hand_eq_nil (by rw [hidle]; rfl)
    subst hnone
    refine ⟨[], [(command, Event.cancelled order.command)], ?_, ?_⟩
    · rw [List.append_nil]
      exact h.hold hdocket (by rw [hdesk]; rfl)
        (.cancelled _ hkind (hregular.oid_of_remove hremove))
    · rw [responses_of_same hevents, List.map_nil, List.append_nil]
  | place placing last order _ _ hplace hdocket horder _ hevents hdesk =>
    have hnone := h.hand_eq_nil (by rw [hplace]; rfl)
    subst hnone
    have hproper := hregular.sound.proper.placing placing (by rw [hplace]; rfl)
    refine ⟨[(placing.command, Event.ack order.command order.trigger.direction)], [], ?_, ?_⟩
    · refine h.give hdocket (by rw [hdesk]; rfl) ?_
      rw [horder]
      exact .placed _ hproper.places
    · rw [responses_append hevents]
      rfl
  | move command moved _ _ hmove hdocket hmodify _ hevents hdesk =>
    have hnone := h.hand_eq_nil (by rw [hmove]; rfl)
    subst hnone
    have hkind := hregular.sound.proper.moving command (by rw [hmove]; rfl)
    obtain ⟨hoid, hprice⟩ := hregular.command_of_modify hmodify
    refine ⟨[(command, Event.ack moved.order.command moved.order.trigger.direction)], [], ?_, ?_⟩
    · exact h.give hdocket (by rw [hdesk]; rfl) (.moved _ _ hkind hoid hprice)
    · rw [responses_append hevents]
      rfl
  | deliver event _ _ hanswering hdocket _ hevents hdesk =>
    have hhand := h.answer
    rw [hanswering] at hhand
    -- The answer that is put is the one that the desk held.
    obtain ⟨exchange, rfl, hevent⟩ := List.map_eq_singleton_iff.1 hhand
    refine ⟨[exchange], [], ⟨?_, by rw [hdesk]; rfl, ?_⟩, ?_⟩
    · rw [List.append_nil, hdocket]
      exact h.come
    · rw [List.append_nil]
      exact h.answers
    · have hanswer := h.answers exchange
        (List.mem_append_right _ (List.mem_singleton_self exchange))
      rw [responses_append hevents, ← hevent, List.filter_cons, if_pos hanswer.isResponse]
      rfl
  | shutDown _ _ _ hdesk => exact absurd hdesk hopen.running

/-- A turn of a watcher answers nobody. -/
theorem Regular.responses_of_watcherTurn (hregular : session.Regular) {deed : Deed}
    (hreplaces : session.Replaces next id watcher after)
    (hturn : session.WatcherTurn next watcher after deed)
    (hreceiving : session.outbox.receiving = true) : next.responses = session.responses := by
  cases hturn with
  | quiet _ hevents | goLive _ _ hevents | tick _ _ _ hevents | lose _ _ _ hevents =>
    exact responses_of_same hevents
  | deliver event _ hevents hheld =>
    have hnews := hregular.news id event
    rw [held_watcher hreplaces.was, hheld] at hnews
    have hno := hnews List.mem_cons_self
    rw [responses_append hevents, List.filter_cons, if_neg (by rw [hno]; exact Bool.false_ne_true),
      List.filter_nil, List.append_nil]
  | leave _ hleft =>
    rw [hreceiving] at hleft
    cases hleft

/-- A turn that leaves the session open answers one command or none. -/
theorem Replies.of_step (h : session.Replies commands answered hand) (hregular : session.Regular)
    (hstep : step actor session = some next) (hopen : next.IsOpen) :
    ∃ given hand', next.Replies commands (answered ++ given) hand' ∧
      next.responses = session.responses ++ given.map Prod.snd := by
  cases actor with
  | desk => exact h.of_deskTurn hregular (deskTurn_of_deskStep hstep) hopen
  | watcher id =>
    obtain ⟨watcher, after, hreplaces, hturn⟩ := watcherTurn_of_watcherStep hstep
    refine ⟨[], hand, ?_, ?_⟩
    · rw [List.append_nil]
      refine h.of_same ?_ (congrArg Desk.answer? hreplaces.desk)
      rw [docket, docket, hreplaces.desk, hreplaces.inbox]
    · rw [hregular.responses_of_watcherTurn hreplaces hturn (isOpen_of_step hstep hopen).receiving,
        List.map_nil, List.append_nil]

/-- A turn that leaves the session open takes no event. -/
theorem taken_of_step (hstep : step actor session = some next) (hopen : next.IsOpen) :
    next.outbox.taken = session.outbox.taken := by
  cases actor with
  | desk =>
    rcases (deskTurn_of_deskStep hstep).beside_or with ⟨hbeside, _⟩ | ⟨hended, _⟩
    · exact hbeside.taken
    · exact absurd hended hopen.running
  | watcher id =>
    obtain ⟨_, _, hreplaces, _⟩ := watcherTurn_of_watcherStep hstep
    exact hreplaces.taken

/-! ## The end -/

/-- Stopping watchers changes nothing else. -/
theorem bystanders_stopWatchers (session : Session) (ids : List WatcherId) :
    session.Bystanders (session.stopWatchers ids) := by
  induction ids generalizing session with
  | nil => exact .refl session
  | cons id rest ih => exact (bystanders_endWatcher session id .aborted).trans (ih _)

/-- No event is put or taken when the session ends. -/
theorem events_shutDown (session : Session) :
    session.shutDown.outbox.events = session.outbox.events ∧
      session.shutDown.outbox.taken = session.outbox.taken := by
  have hstopped := bystanders_stopWatchers (session.count .pending (-session.book.size))
    (List.range session.watchers.length)
  exact ⟨(Outbox.events_withdraw _ _).trans hstopped.events,
    (Outbox.taken_withdraw _ _).trans hstopped.taken⟩

/-- A desk that leaves for want of commands has answered them all. -/
theorem Replies.shutDown (h : session.Replies commands answered hand)
    (hidle : session.desk = .idle) (hended : session.inbox.isEnded = true) :
    session.shutDown.Replies commands answered hand := by
  have hempty : session.inbox.items = [] := by
    simp only [Channel.isEnded, Bool.and_eq_true, List.isEmpty_iff] at hended
    exact hended.1
  refine h.of_same ?_ (by rw [hidle]; rfl)
  rw [docket_of_idle hidle, hempty]
  rfl

end Session

end TriggerDesk
