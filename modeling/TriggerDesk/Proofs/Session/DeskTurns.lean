import TriggerDesk.Proofs.Session.Deeds

/-!
# Turns of the desk

`DeskTurn` says, kind by kind, what a turn of the desk changes and what it leaves alone;
`deskTurn_of_deskStep` says that every turn is of one of these kinds, with the deed that
`Session.deskDeed` names. What is proved about turns of the desk is proved from there.
-/

namespace TriggerDesk

open Market TriggerDesk.Order Feed

namespace Session

variable {session next : Session}

/-- What a turn of the desk changes, by what it does. -/
inductive DeskTurn (session next : Session) : Deed → Prop where
  /-- A command is rejected. -/
  | refuse (command : Command) (rejection : Rejection) :
      session.Still next → session.SameStaff next → session.desk.IsFree →
      session.docket = command :: next.docket →
      next.desk = .answering (Event.rejected command rejection.message) →
      DeskTurn session next .nothing
  /-- An order is armed at the last price. -/
  | arm (placing : Placing) (last : Float) :
      session.Still next → session.SameStaff next → session.desk.IsFree →
      next.docket = session.docket → (session.desk.IsProper → placing.IsProper) →
      session.book.last? placing.listing = some last →
      next.desk = .awaitPlace placing last →
      DeskTurn session next .nothing
  /-- A watcher that is losing its feed is waited for. -/
  | await (placing : Placing) (id : WatcherId) :
      session.Still next → next.watchers = session.watchers → session.desk.IsFree →
      next.docket = session.docket → (session.desk.IsProper → placing.IsProper) →
      session.spawned.get? placing.listing = some id →
      session.book.isRetiring placing.listing = true →
      next.spawned = session.spawned.erase placing.listing →
      next.desk = .awaitEnd placing id →
      DeskTurn session next .nothing
  /-- A watcher is started where there is none, or where the one before has ended. -/
  | start (placing : Placing) (deadline : Option Nat) :
      session.Still next → next.docket = session.docket →
      (session.desk.IsProper → placing.IsProper) →
      (session.desk.IsFree ∧ session.spawned.get? placing.listing = none ∨
        ∃ id watcher, session.desk = .awaitEnd placing id ∧
          session.watchers[id]? = some watcher ∧ watcher.phase.isEnded = true) →
      next.watchers = session.watchers ++ [Watcher.new placing.listing] →
      next.spawned = session.spawned.set placing.listing session.watchers.length →
      next.desk = .awaitQuote placing session.watchers.length deadline →
      DeskTurn session next .nothing
  /-- A watcher is stopped that has no last price and did not lose its feed, and another one is
  started. -/
  | restart (placing : Placing) (id : WatcherId) (deadline : Option Nat)
      (stopped : List Watcher) :
      session.Still next → session.desk.IsFree → next.docket = session.docket →
      (session.desk.IsProper → placing.IsProper) →
      session.spawned.get? placing.listing = some id →
      session.book.last? placing.listing = none →
      session.book.isRetiring placing.listing = false →
      stopped = (session.endWatcher id .aborted).watchers →
      next.watchers = stopped ++ [Watcher.new placing.listing] →
      next.spawned = (session.spawned.erase placing.listing).set placing.listing stopped.length →
      next.desk = .awaitQuote placing stopped.length deadline →
      DeskTurn session next .nothing
  /-- A place is asked for, to move an order. -/
  | prepare (command : Command) :
      session.Still next → session.SameStaff next → session.desk.IsFree →
      next.docket = session.docket → command.kind = .modify → next.desk = .awaitMove command →
      DeskTurn session next .nothing
  /-- An order is cancelled. -/
  | cancel (command : Command) (order : Pending) :
      session.Beside next → session.SameStaff next → session.desk = .idle →
      session.docket = command :: next.docket → command.kind = .cancel →
      session.book.remove command.oid = some (order, next.book) →
      next.outbox.events = session.outbox.events →
      next.desk = .answering (Event.cancelled order.command) →
      DeskTurn session next (.take [order])
  /-- An order is placed. -/
  | place (placing : Placing) (last : Float) (order : Pending) :
      session.Beside next → session.SameStaff next → session.desk = .awaitPlace placing last →
      session.docket = placing.command :: next.docket →
      order = Pending.ofCommand placing.command last →
      session.book.insert placing.listing order = (.ok (), next.book) →
      next.outbox.events =
        session.outbox.events ++ [Event.ack order.command order.trigger.direction] →
      next.desk = .idle →
      DeskTurn session next (.place placing.listing order)
  /-- An order is moved. -/
  | move (command : Command) (moved : Book.Moved) :
      session.Beside next → session.SameStaff next → session.desk = .awaitMove command →
      session.docket = command :: next.docket →
      session.book.modify command.oid command.price = some moved → next.book = moved.book →
      next.outbox.events =
        session.outbox.events ++ [Event.ack moved.order.command moved.order.trigger.direction] →
      next.desk = .idle →
      DeskTurn session next (.move moved.order)
  /-- An event is put. -/
  | deliver (event : Event) :
      session.Beside next → session.SameStaff next → session.desk = .answering event →
      next.docket = session.docket → next.book = session.book →
      next.outbox.events = session.outbox.events ++ [event] →
      next.desk = .idle →
      DeskTurn session next (.put event)
  /-- The session is over, since the client has left or sends no more commands. -/
  | shutDown (deed : Deed) :
      (session.outbox.receiving = true → session.inbox.isOpen = false) →
      next.outbox.receiving = session.outbox.receiving → next.desk = .ended →
      DeskTurn session next deed

/-- A desk that starts a watcher holds no answer. -/
theorem answer_of_vacant {placing : Placing}
    (h : session.desk.IsFree ∧ session.spawned.get? placing.listing = none ∨
      ∃ id watcher, session.desk = .awaitEnd placing id ∧
        session.watchers[id]? = some watcher ∧ watcher.phase.isEnded = true) :
    session.desk.answer? = none := by
  rcases h with ⟨hfree, _⟩ | ⟨_, _, hawaits, _⟩
  · exact hfree.answer
  · rw [hawaits]
    rfl

/-- The desk has taken up a command and changed no order and no event since. -/
structure Prepared (session ready : Session) (command : Command) : Prop
    extends Still session ready, SameStaff session ready where
  docket : session.docket = command :: ready.inbox.items
  free : session.desk.IsFree

section Prepared

variable {ready : Session} {command : Command} {placing : Placing}

/-- A rejection leaves orders and events. -/
theorem still_reject (session : Session) (command : Command) (rejection : Rejection) :
    session.Still (session.reject command rejection) where
  taken := Outbox.taken_request _ _
  receiving := Outbox.receiving_request _ _
  joined := rfl
  lane _ := rfl
  index := rfl
  events := Outbox.events_request _ _

/-- Arming an order leaves orders and events. -/
theorem still_arm (session : Session) (placing : Placing) (last : Float) :
    session.Still (session.arm placing last) where
  taken := Outbox.taken_request _ _
  receiving := Outbox.receiving_request _ _
  joined := rfl
  lane _ := rfl
  index := rfl
  events := Outbox.events_request _ _

/-- Starting a watcher leaves orders and events. -/
theorem still_startWatcher (session : Session) (placing : Placing) :
    session.Still (session.startWatcher placing) :=
  ⟨⟨rfl, rfl, rfl⟩, fun _ => rfl, rfl, rfl⟩

/-- A desk may reject a command that it has taken up. -/
theorem Prepared.refuse (h : session.Prepared ready command) (rejection : Rejection) :
    DeskTurn session (ready.reject command rejection) .nothing :=
  .refuse command rejection (h.toStill.trans (still_reject _ _ _)) ⟨h.watchers, h.spawned⟩
    h.free h.docket rfl

/-- A desk may arm an order that it has taken up, at the last price of the listing. -/
theorem Prepared.arm (h : session.Prepared ready placing.command)
    (hproper : session.desk.IsProper → placing.IsProper) {last : Float}
    (hlast : ready.book.last? placing.listing = some last) :
    DeskTurn session (ready.arm placing last) .nothing :=
  .arm placing last (h.toStill.trans (still_arm _ _ _)) ⟨h.watchers, h.spawned⟩ h.free
    h.docket.symm hproper ((h.last_eq placing.listing).symm.trans hlast) rfl

/-- A desk may put a watcher in place of another, where there is no last price. -/
theorem Prepared.replaceWatcher (h : session.Prepared ready placing.command)
    (hproper : session.desk.IsProper → placing.IsProper)
    (hlast : ready.book.last? placing.listing = none) :
    DeskTurn session (ready.replaceWatcher placing) .nothing := by
  unfold Session.replaceWatcher
  split
  · next hnone =>
    -- Nobody follows the listing yet.
    refine .start placing _ (h.toStill.trans (still_startWatcher _ _)) h.docket.symm hproper
      (.inl ⟨h.free, h.spawned ▸ hnone⟩) ?_ ?_ (congrArg (Desk.awaitQuote placing · _) ?_)
    · show ready.watchers ++ _ = _
      rw [h.watchers]
    · show ready.spawned.set _ ready.watchers.length = _
      rw [h.watchers, h.spawned]
    · rw [h.watchers]
  · next id hid =>
    dsimp only
    split
    · next hretiring =>
      -- Whoever follows it is retiring, so the desk waits for the end of that watcher.
      have hstill : ready.Still { ready with
          spawned := ready.spawned.erase placing.listing, desk := .awaitEnd placing id } :=
        ⟨⟨rfl, rfl, rfl⟩, fun _ => rfl, rfl, rfl⟩
      exact .await placing id (h.toStill.trans hstill) h.watchers h.free h.docket.symm hproper
        (h.spawned ▸ hid) ((h.isRetiring_eq _).symm.trans hretiring)
        (congrArg (Table.erase · placing.listing) h.spawned) rfl
    · next hretiring =>
      -- Whoever follows it has no price and has lost nothing, so it is stopped and replaced.
      have herased : ready.Still { ready with spawned := ready.spawned.erase placing.listing } :=
        ⟨⟨rfl, rfl, rfl⟩, fun _ => rfl, rfl, rfl⟩
      have hended := bystanders_endWatcher
        { ready with spawned := ready.spawned.erase placing.listing } id .aborted
      refine .restart placing id _ _
        (h.toStill.trans (herased.trans (hended.still.trans (still_startWatcher _ _)))) h.free
        ?_ hproper (h.spawned ▸ hid) ((h.last_eq _).symm.trans hlast)
        ((h.isRetiring_eq _).symm.trans (Bool.not_eq_true _ ▸ hretiring)) ?_ rfl ?_ rfl
      · show placing.command :: (Session.endWatcher _ id .aborted).inbox.items = _
        rw [hended.inbox, h.docket]
      · apply List.ext_getElem?
        intro other
        rw [getElem?_watchers_endWatcher, getElem?_watchers_endWatcher]
        show (if id = other then ready.watchers[other]?.map _ else ready.watchers[other]?) = _
        rw [h.watchers]
      · show (Session.endWatcher _ id .aborted).spawned.set _ _ = _
        rw [hended.spawned]
        exact congrArg (fun spawned => (Table.erase spawned placing.listing).set _ _) h.spawned

/-- Seeking the feed of a listing is a turn of the desk. -/
theorem Prepared.seekFeed (h : session.Prepared ready placing.command)
    (hproper : session.desk.IsProper → placing.IsProper) :
    DeskTurn session (ready.seekFeed placing) .nothing := by
  unfold Session.seekFeed
  split
  · next last hlast => exact h.arm hproper hlast
  · next hlast => exact h.replaceWatcher hproper hlast

/-- Trying again is a turn of the desk. -/
theorem Prepared.tryAgain (h : session.Prepared ready placing.command)
    (hproper : session.desk.IsProper → placing.IsProper) :
    DeskTurn session (ready.tryAgain placing) .nothing := by
  unfold Session.tryAgain
  split
  · exact h.refuse _
  · have hagain : session.desk.IsProper → { placing with again := true }.IsProper :=
      fun hdesk => ⟨(hproper hdesk).places, (hproper hdesk).broker, (hproper hdesk).symbol,
        (hproper hdesk).finite⟩
    have hready : session.Prepared ready { placing with again := true }.command := h
    exact hready.seekFeed hagain

/-- Taking up a command that places an order is a turn of the desk. -/
theorem Prepared.handleOrder (h : session.Prepared ready command)
    (hplaces : command.kind.places = true) :
    DeskTurn session (ready.handleOrder command) .nothing := by
  unfold Session.handleOrder
  split
  · exact h.refuse _
  · next broker hbroker =>
    split
    · exact h.refuse _
    · next hfinite =>
      split
      · exact h.refuse _
      · refine Prepared.seekFeed h fun _ => ?_
        exact ⟨hplaces, hbroker, rfl, by simpa using hfinite⟩

/-- A cancellation that is taken up takes the order out, or is refused. -/
theorem Prepared.handleCancel (h : session.Prepared ready command)
    (hbook : ready.book = session.book) (hidle : session.desk = .idle)
    (hkind : command.kind = .cancel) :
    DeskTurn session (ready.handleCancel command) (session.takeUpDeed command) := by
  unfold Session.handleCancel takeUpDeed
  rw [hbook, hkind]
  dsimp only
  cases hremove : session.book.remove command.oid with
  | none => exact h.refuse _
  | some removed =>
    obtain ⟨order, book⟩ := removed
    -- The order is out of the book at once, its event is put once the desk has a place.
    refine .cancel command order ?_ ⟨h.watchers, h.spawned⟩ hidle h.docket hkind hremove
      ((Outbox.events_request _ _).trans h.events) rfl
    exact {
      taken := (Outbox.taken_request _ _).trans h.taken
      receiving := (Outbox.receiving_request _ _).trans h.receiving
      joined := h.joined }

/-- Taking up a command that moves an order refuses it, or asks for a place first. -/
theorem Prepared.handleModify (h : session.Prepared ready command)
    (hkind : command.kind = .modify) :
    DeskTurn session (ready.handleModify command) .nothing := by
  unfold Session.handleModify
  split
  · exact h.refuse _
  · refine .prepare command ?_ ⟨h.watchers, h.spawned⟩ h.free h.docket.symm hkind rfl
    exact {
      taken := (Outbox.taken_request _ _).trans h.taken
      receiving := (Outbox.receiving_request _ _).trans h.receiving
      joined := h.joined
      lane := h.lane
      index := h.index
      events := (Outbox.events_request _ _).trans h.events }

end Prepared

/-- A desk that has a place, or learns that the client has left, goes on. -/
theorem withPlace_cases {further : Session → Session}
    (h : session.withPlace further = some next) :
    next = further session ∨ session.outbox.receiving = false ∧ next = session.shutDown := by
  unfold withPlace at h
  split at h
  · cases h
  · next hclosed =>
    cases h
    exact .inr ⟨Outbox.receiving_of_closed hclosed, rfl⟩
  · cases h
    exact .inl rfl

/-- Stopping watchers leaves whether the client is there. -/
theorem receiving_stopWatchers (session : Session) (ids : List WatcherId) :
    (session.stopWatchers ids).outbox.receiving = session.outbox.receiving := by
  induction ids generalizing session with
  | nil => rfl
  | cons id rest ih =>
    exact (ih (session.endWatcher id .aborted)).trans
      (bystanders_endWatcher session id .aborted).receiving

/-- A desk shuts down when the client has left, or has closed the inbox. -/
theorem deskTurn_shutDown (deed : Deed)
    (hclosed : session.outbox.receiving = true → session.inbox.isOpen = false) :
    DeskTurn session session.shutDown deed :=
  .shutDown deed hclosed ((Outbox.receiving_withdraw _ _).trans (receiving_stopWatchers _ _)) rfl

/-- A desk shuts down when the client has left. -/
theorem deskTurn_shutDown_of_left (deed : Deed) (hleft : session.outbox.receiving = false) :
    DeskTurn session session.shutDown deed := by
  refine deskTurn_shutDown deed fun hreceiving => ?_
  rw [hleft] at hreceiving
  cases hreceiving

/-- Going on after a first quote is a turn of the desk. -/
theorem deskTurn_feedReady {placing : Placing} (h : session.Prepared session placing.command)
    (hplacing : session.desk.placing? = some placing) :
    DeskTurn session (session.feedReady placing) .nothing := by
  have hproper : session.desk.IsProper → placing.IsProper :=
    fun hdesk => hdesk.placing placing hplacing
  have hcounted : session.Prepared (session.count .firstQuotes 1) placing.command :=
    { h with }
  unfold feedReady
  dsimp only
  split
  · next last hlast => exact hcounted.arm hproper hlast
  · exact hcounted.tryAgain hproper

/-- An idle desk has only the commands in the inbox before it. -/
theorem docket_of_idle (hdesk : session.desk = .idle) : session.docket = session.inbox.items := by
  rw [docket, hdesk]
  rfl

/-- A desk that works on a command has it before those in the inbox. -/
theorem docket_of_command {command : Command} (hdesk : session.desk.command? = some command) :
    session.docket = command :: session.inbox.items := by
  rw [docket, hdesk]
  rfl

/-- While the desk works on a command and nothing has changed, it is prepared. -/
theorem prepared_self {command : Command} (hcommand : session.desk.command? = some command)
    (hawaited : session.desk.awaited? = none) : session.Prepared session command where
  toStill := (Bystanders.refl session).still
  watchers := rfl
  spawned := rfl
  docket := docket_of_command hcommand
  free := Desk.isFree_of_command hcommand hawaited

/-- A desk that works on a command is still prepared when it has given its place back. -/
theorem prepared_returnPlace {command : Command} (hcommand : session.desk.command? = some command)
    (hawaited : session.desk.awaited? = none) :
    session.Prepared session.returnPlace command where
  toStill := (bystanders_withdraw session .desk).still
  watchers := rfl
  spawned := rfl
  docket := docket_of_command hcommand
  free := Desk.isFree_of_command hcommand hawaited

/-- Taking up a command is a turn of the desk. -/
theorem deskTurn_handle {command : Command} {inbox : Channel Command}
    (hdesk : session.desk = .idle) (hreceive : session.inbox.receive? = some (command, inbox)) :
    DeskTurn session ({ session with inbox }.handle command) session.deskDeed := by
  have hitems := Channel.items_of_receive hreceive
  have hready : session.Prepared
      (({ session with inbox }.count (.commands command.kind.name) 1).write (.command command))
      command := {
    taken := rfl
    receiving := rfl
    joined := hitems.2
    lane := fun _ => rfl
    index := rfl
    events := rfl
    watchers := rfl
    spawned := rfl
    docket := (docket_of_idle hdesk).trans hitems.1
    free := by rw [hdesk]; exact ⟨rfl, rfl⟩ }
  have hdeed : session.deskDeed = session.takeUpDeed command := by
    simp only [deskDeed, hdesk, hreceive]
  unfold handle
  rw [hdeed]
  cases hkind : command.kind with
  | alert | buy | sell =>
    rw [hkind] at hready
    rw [takeUpDeed, hkind]
    exact hready.handleOrder (by rw [hkind]; rfl)
  | cancel =>
    have hturn := hready.handleCancel rfl hdesk hkind
    rw [hkind] at hturn
    exact hturn
  | modify =>
    rw [hkind] at hready
    rw [takeUpDeed, hkind]
    exact hready.handleModify hkind

/-- An order that the book does not take leaves the book as it looks. -/
theorem still_of_insert_error {listing : Listing} {order : Pending} {refusal : Book.Refusal}
    {book : Book} (h : session.book.insert listing order = (.error refusal, book)) :
    session.Still { session with book }.returnPlace := by
  have hbook : (∀ other, book.lane other = session.book.lane other) ∧
      book.index = session.book.index := by
    unfold Book.insert at h
    dsimp only at h
    split at h
    · cases h
      exact ⟨fun _ => rfl, rfl⟩
    · split at h
      · cases h
        refine ⟨fun other => ?_, rfl⟩
        rw [Book.lane_setLane]
        split
        · next heq => rw [heq]
        · rfl
      · cases h
  exact {
    taken := Outbox.taken_withdraw _ _
    receiving := Outbox.receiving_withdraw _ _
    joined := rfl
    lane := hbook.1
    index := hbook.2
    events := Outbox.events_withdraw _ _ }

/-- Placing an order with a place for its acknowledgement is a turn of the desk. -/
theorem deskTurn_place {placing : Placing} {last : Float}
    (hdesk : session.desk = .awaitPlace placing last) :
    DeskTurn session (session.place placing last) session.deskDeed := by
  have hcommand : session.desk.command? = some placing.command := by rw [hdesk]; rfl
  have hawaited : session.desk.awaited? = none := by rw [hdesk]; rfl
  have hplacing : session.desk.placing? = some placing := by rw [hdesk]; rfl
  have hdeed : session.deskDeed = session.placeDeed placing last := by
    simp only [deskDeed, hdesk]
  unfold place
  rw [hdeed, placeDeed]
  dsimp only
  cases hinsert : session.book.insert placing.listing (Pending.ofCommand placing.command last) with
  | mk result book =>
    cases result with
    | ok done =>
      exact .place placing last _ ⟨rfl, rfl, rfl⟩ ⟨rfl, rfl⟩ hdesk (docket_of_command hcommand)
        rfl hinsert rfl rfl
    | error refusal =>
      have hready : session.Prepared { session with book }.returnPlace placing.command := {
        toStill := still_of_insert_error hinsert
        watchers := rfl
        spawned := rfl
        docket := docket_of_command hcommand
        free := Desk.isFree_of_command hcommand hawaited }
      cases refusal with
      -- The place is given back in both cases, but only a lost feed is sought again.
      | duplicateOid => exact (prepared_returnPlace hcommand hawaited).refuse _
      | noFeed listing => exact hready.tryAgain fun hdesk => hdesk.placing placing hplacing

/-- Moving an order with a place for its acknowledgement is a turn of the desk. -/
theorem deskTurn_move {command : Command} (hdesk : session.desk = .awaitMove command) :
    DeskTurn session (session.move command) session.deskDeed := by
  have hcommand : session.desk.command? = some command := by rw [hdesk]; rfl
  have hdeed : session.deskDeed = session.moveDeed command := by
    simp only [deskDeed, hdesk]
  unfold move
  rw [hdeed, moveDeed]
  cases hmodify : session.book.modify command.oid command.price with
  | none =>
    exact (prepared_returnPlace hcommand (by rw [hdesk]; rfl)).refuse _
  | some moved =>
    exact .move command moved ⟨rfl, rfl, rfl⟩ ⟨rfl, rfl⟩ hdesk (docket_of_command hcommand)
      hmodify rfl rfl rfl

/-- Every turn of the desk is of one of the kinds, with the deed that it is said to do. -/
theorem deskTurn_of_deskStep (h : session.deskStep = some next) :
    DeskTurn session next session.deskDeed := by
  unfold deskStep at h
  split at h
  · next hdesk =>
    split at h
    · next command inbox hreceive =>
      cases h
      exact deskTurn_handle hdesk hreceive
    · split at h
      · next hended =>
        cases h
        -- An idle desk leaves only when the inbox is empty and nobody can send any more.
        refine deskTurn_shutDown _ fun _ => ?_
        simp only [Channel.isEnded, Bool.and_eq_true, Bool.not_eq_true'] at hended
        rw [Channel.isOpen, hended.2, Bool.false_and]
      · cases h
  · next placing id hdesk =>
    have hdeed : session.deskDeed = .nothing := by simp only [deskDeed, hdesk]
    obtain ⟨watcher, hwatcher, h⟩ := Option.bind_eq_some_iff.1 h
    split at h
    · next hended =>
      cases h
      rw [hdeed]
      have hcommand : session.desk.command? = some placing.command := by rw [hdesk]; rfl
      exact .start placing _ (still_startWatcher _ _) (docket_of_command hcommand).symm
        (fun hproper => hproper.placing placing (by rw [hdesk]; rfl))
        (.inr ⟨id, watcher, hdesk, hwatcher, hended⟩) rfl rfl rfl
    · cases h
  · next placing id deadline hdesk =>
    have hdeed : session.deskDeed = .nothing := by simp only [deskDeed, hdesk]
    have hself : session.Prepared session placing.command :=
      prepared_self (by rw [hdesk]; rfl) (by rw [hdesk]; rfl)
    obtain ⟨watcher, hwatcher, h⟩ := Option.bind_eq_some_iff.1 h
    obtain ⟨outcome, houtcome, h⟩ := Option.bind_eq_some_iff.1 h
    rw [hdeed]
    split at h
    · cases h
      exact deskTurn_feedReady hself (by rw [hdesk]; rfl)
    · cases h
      exact hself.refuse _
  · next placing last hdesk =>
    rcases withPlace_cases h with rfl | ⟨hleft, rfl⟩
    · exact deskTurn_place hdesk
    · exact deskTurn_shutDown_of_left _ hleft
  · next command hdesk =>
    rcases withPlace_cases h with rfl | ⟨hleft, rfl⟩
    · exact deskTurn_move hdesk
    · exact deskTurn_shutDown_of_left _ hleft
  · next event hdesk =>
    rcases withPlace_cases h with rfl | ⟨hleft, rfl⟩
    · have hdeed : session.deskDeed = .put event := by simp only [deskDeed, hdesk]
      have hdocket : session.docket = session.inbox.items := by
        rw [docket, hdesk]
        rfl
      rw [hdeed]
      exact .deliver event ⟨rfl, rfl, rfl⟩ ⟨rfl, rfl⟩ hdesk hdocket.symm rfl rfl rfl
    · exact deskTurn_shutDown_of_left _ hleft
  · cases h

end Session

end TriggerDesk
