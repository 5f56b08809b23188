import TriggerDesk.Proofs.Session.Acts
import TriggerDesk.Proofs.Session.Runs

/-!
# What the desk does to the meter of pending orders

An order that is placed counts as pending, one that is cancelled does not count any more, and
nothing else that the desk does changes the meter (`charges_of_deskStep`), until the session is
over: then the orders in the book are counted off all at once, and every watcher is stopped
(`closes_shutDown`).

What the turns of the watchers do to the meter is said with `Session.Acts`.
-/

namespace TriggerDesk

open Market TriggerDesk.Order Feed Metrics

/-- How a deed of the desk changes the number of pending orders. -/
def Deed.charge : Deed → Int
  | .place .. => 1
  | .take orders => -orders.length
  | .nothing | .move _ | .put _ => 0

namespace Session

variable {first session next : Session} {id : WatcherId}

/-- The session is not over, and the meter of pending orders has moved by a number. -/
structure Charges (first session : Session) (n : Int) : Prop where
  running : session.desk ≠ .ended
  counted : session.pendingCount = first.pendingCount + n

/-- The session is not over, and the meter is as before. -/
theorem charges_zero (hrunning : session.desk ≠ .ended)
    (hcounted : session.pendingCount = first.pendingCount) : Charges first session 0 :=
  ⟨hrunning, hcounted.trans (Int.add_zero _).symm⟩

/-- What happens to the meter does not depend on how else the session was prepared. -/
theorem Charges.of_eq {ready : Session} {n : Int} (h : Charges ready next n)
    (hcounted : ready.pendingCount = session.pendingCount) : Charges session next n :=
  ⟨h.running, hcounted ▸ h.counted⟩

/-- Observing an event leaves the meter of pending orders. -/
theorem pendingCount_observe (session : Session) (event : Event) :
    (session.observe event).pendingCount = session.pendingCount :=
  (pendingCount_count session _ _).trans (if_neg nofun)

/-! ## Commands -/

/-- A rejection changes no number of pending orders. -/
theorem charges_reject (session : Session) (command : Command) (rejection : Rejection) :
    Charges session (session.reject command rejection) 0 := by
  refine charges_zero nofun ?_
  show ((session.count (.rejects rejection.label) 1).observe _).pendingCount = _
  rw [pendingCount_observe, pendingCount_count, if_neg nofun]

/-- Starting a watcher does not. -/
theorem charges_startWatcher (session : Session) (placing : Placing) :
    Charges session (session.startWatcher placing) 0 :=
  charges_zero nofun rfl

/-- Replacing a watcher does not. -/
theorem charges_replaceWatcher (session : Session) (placing : Placing) :
    Charges session (session.replaceWatcher placing) 0 := by
  unfold replaceWatcher
  split
  · exact charges_startWatcher session placing
  · dsimp only
    split
    · exact charges_zero nofun rfl
    · exact (charges_startWatcher _ placing).of_eq (pendingCount_endWatcher _ _ _)

/-- Seeking the feed of a listing does not. -/
theorem charges_seekFeed (session : Session) (placing : Placing) :
    Charges session (session.seekFeed placing) 0 := by
  unfold seekFeed
  split
  · exact charges_zero nofun rfl
  · exact charges_replaceWatcher session placing

/-- Trying again does not. -/
theorem charges_tryAgain (session : Session) (placing : Placing) :
    Charges session (session.tryAgain placing) 0 := by
  unfold tryAgain
  split
  · exact charges_reject session _ _
  · exact charges_seekFeed session _

/-- Going on after a first quote does not. -/
theorem charges_feedReady (session : Session) (placing : Placing) :
    Charges session (session.feedReady placing) 0 := by
  have hcounted : (session.count .firstQuotes 1).pendingCount = session.pendingCount :=
    (pendingCount_count session _ _).trans (if_neg nofun)
  unfold feedReady
  dsimp only
  split
  · exact charges_zero nofun hcounted
  · exact (charges_tryAgain _ placing).of_eq hcounted

/-- Placing an order adds one, if the book takes it. -/
theorem charges_place (session : Session) (placing : Placing) (last : Float) :
    Charges session (session.place placing last) (session.placeDeed placing last).charge := by
  unfold place placeDeed
  dsimp only
  cases session.book.insert placing.listing (Pending.ofCommand placing.command last) with
  | mk result book =>
    cases result with
    | ok done =>
      refine ⟨nofun, ?_⟩
      show (((session.observe _).put .desk _).count .pending 1).pendingCount = _
      rw [pendingCount_count, if_pos rfl]
      exact congrArg (· + 1) (pendingCount_observe session _)
    | error refusal =>
      cases refusal with
      | duplicateOid => exact (charges_reject session.returnPlace _ _).of_eq rfl
      | noFeed listing =>
        show Charges session ({ session with book }.returnPlace.tryAgain placing) 0
        exact (charges_tryAgain _ placing).of_eq rfl

/-- Taking up a command that places an order changes nothing yet. -/
theorem charges_handleOrder (session : Session) (command : Command) :
    Charges session (session.handleOrder command) 0 := by
  unfold handleOrder
  split
  · exact charges_reject session _ _
  · split
    · exact charges_reject session _ _
    · split
      · exact charges_reject session _ _
      · exact charges_seekFeed session _

/-- Taking up a command that moves an order changes nothing. -/
theorem charges_handleModify (session : Session) (command : Command) :
    Charges session (session.handleModify command) 0 := by
  unfold handleModify
  split
  · exact charges_reject session _ _
  · exact charges_zero nofun rfl

/-- Cancelling an order takes one off, if the book has it. -/
theorem charges_handleCancel (session : Session) {command : Command}
    (hkind : command.kind = .cancel) :
    Charges session (session.handleCancel command) (session.takeUpDeed command).charge := by
  unfold handleCancel takeUpDeed
  rw [hkind]
  dsimp only
  cases session.book.remove command.oid with
  | none => exact charges_reject session _ _
  | some removed =>
    refine ⟨nofun, ?_⟩
    show ((session.count .pending (-1)).observe _).pendingCount = _
    rw [pendingCount_observe, pendingCount_count, if_pos rfl]
    rfl

/-- Taking up a command changes the number as its deed says. -/
theorem charges_handle (session : Session) (command : Command) :
    Charges session (session.handle command) (session.takeUpDeed command).charge := by
  have hready : ∀ kind : String, ((session.count (.commands kind) 1).write
      (.command command)).pendingCount = session.pendingCount :=
    fun _ => (pendingCount_count session _ _).trans (if_neg nofun)
  unfold handle
  cases hkind : command.kind with
  | alert | buy | sell =>
    rw [takeUpDeed, hkind]
    exact (charges_handleOrder _ command).of_eq (hready _)
  | modify =>
    rw [takeUpDeed, hkind]
    exact (charges_handleModify _ command).of_eq (hready _)
  | cancel => exact (charges_handleCancel _ hkind).of_eq (hready _)

/-- Moving an order changes the number as its deed says. -/
theorem charges_move (session : Session) (command : Command) :
    Charges session (session.move command) (session.moveDeed command).charge := by
  unfold move moveDeed
  cases session.book.modify command.oid command.price with
  | none => exact (charges_reject session.returnPlace _ _).of_eq rfl
  | some moved => exact charges_zero nofun (pendingCount_observe session _)

/-- Putting an answer changes nothing. -/
theorem charges_putAnswer (session : Session) (event : Event) :
    Charges session { session.put .desk event with desk := .idle } 0 :=
  charges_zero nofun rfl

/-! ## Turns -/

/-- With a place the desk does what it is about to do, or it shuts the session down because the
place is gone. -/
theorem charges_of_withPlace {further : Session → Session} {n : Int}
    (hfurther : Charges session (further session) n)
    (h : session.withPlace further = some next) :
    Charges session next n ∨ next = session.shutDown := by
  rcases withPlace_cases h with rfl | ⟨_, rfl⟩
  · exact .inl hfurther
  · exact .inr rfl

/-- A turn of the desk moves the meter as its deed says, or the session is over after it. -/
theorem charges_of_deskStep (h : session.deskStep = some next) :
    Charges session next session.deskDeed.charge ∨ next = session.shutDown := by
  unfold deskStep at h
  cases hdesk : session.desk with
  | idle =>
    rw [hdesk] at h
    cases hreceive : session.inbox.receive? with
    | none =>
      simp only [hreceive] at h
      split at h
      · cases h
        exact .inr rfl
      · cases h
    | some received =>
      obtain ⟨command, inbox⟩ := received
      simp only [hreceive] at h
      cases h
      simp only [deskDeed, hdesk, hreceive]
      refine .inl ?_
      have htaken := charges_handle { session with inbox } command
      rw [hdesk] at htaken
      exact htaken.of_eq rfl
  | awaitEnd placing id =>
    rw [hdesk] at h
    obtain ⟨watcher, _, h⟩ := Option.bind_eq_some_iff.1 h
    simp only [deskDeed, hdesk]
    split at h
    · cases h
      exact .inl (charges_startWatcher session placing)
    · cases h
  | awaitQuote placing id deadline =>
    rw [hdesk] at h
    obtain ⟨watcher, _, h⟩ := Option.bind_eq_some_iff.1 h
    obtain ⟨outcome, _, h⟩ := Option.bind_eq_some_iff.1 h
    simp only [deskDeed, hdesk]
    split at h
    · cases h
      exact .inl (charges_feedReady session placing)
    · cases h
      exact .inl (charges_reject session _ _)
  | awaitPlace placing last =>
    rw [hdesk] at h
    simp only [deskDeed, hdesk]
    exact charges_of_withPlace (charges_place session placing last) h
  | awaitMove command =>
    rw [hdesk] at h
    simp only [deskDeed, hdesk]
    exact charges_of_withPlace (charges_move session command) h
  | answering event =>
    rw [hdesk] at h
    simp only [deskDeed, hdesk]
    exact charges_of_withPlace (charges_putAnswer session event) h
  | ended =>
    rw [hdesk] at h
    cases h

/-! ## The end of a session -/

/-- Every watcher has come to an end, and the orders in the book are counted off. -/
structure Closes (session next : Session) : Prop where
  ended : next.desk = .ended
  book : next.book = session.book
  counted : next.pendingCount = session.pendingCount - session.book.size
  watchers : next.watchers = session.watchers.map (Watcher.stop .aborted)

/-- Just the watchers that are stopped have come to an end. -/
theorem getElem?_watchers_stopWatchers (session : Session) (ids : List WatcherId)
    (other : WatcherId) : (session.stopWatchers ids).watchers[other]? =
      if other ∈ ids then session.watchers[other]?.map (Watcher.stop .aborted)
      else session.watchers[other]? := by
  have hstopped : ∀ watcher : Watcher,
      (watcher.stop .aborted).stop .aborted = watcher.stop .aborted := fun watcher => by
    rw [Watcher.stop, if_pos (Watcher.isEnded_stop _ watcher)]
  induction ids generalizing session with
  | nil => rfl
  | cons id rest ih =>
    have hrest := ih (session.endWatcher id .aborted)
    rw [getElem?_watchers_endWatcher] at hrest
    rw [show session.stopWatchers (id :: rest) =
      (session.endWatcher id .aborted).stopWatchers rest from rfl, hrest]
    by_cases heq : id = other
    · subst heq
      rw [if_pos rfl, if_pos (List.mem_cons_self ..), Option.map_map]
      -- A watcher that is stopped twice is stopped once.
      rw [show Watcher.stop .aborted ∘ Watcher.stop .aborted = Watcher.stop .aborted from
        funext hstopped, ite_self]
    · rw [if_neg heq]
      simp only [List.mem_cons, Ne.symm heq, false_or]

/-- Stopping watchers leaves the book and the meter of pending orders. -/
theorem stopWatchers_same (session : Session) (ids : List WatcherId) :
    (session.stopWatchers ids).book = session.book ∧
      (session.stopWatchers ids).pendingCount = session.pendingCount := by
  induction ids generalizing session with
  | nil => exact ⟨rfl, rfl⟩
  | cons id rest ih =>
    obtain ⟨hbook, hcount⟩ := ih (session.endWatcher id .aborted)
    exact ⟨hbook.trans (bystanders_endWatcher session id .aborted).book,
      hcount.trans (pendingCount_endWatcher session id .aborted)⟩

/-- Shutting down ends every watcher and counts the orders in the book off. -/
theorem closes_shutDown (session : Session) : Closes session session.shutDown := by
  let counted := session.count .pending (-session.book.size)
  have hcounted : counted.pendingCount = session.pendingCount - session.book.size := by
    rw [pendingCount_count, if_pos rfl]
    rfl
  have hsame := stopWatchers_same counted (List.range counted.watchers.length)
  refine ⟨rfl, hsame.1, ?_, List.ext_getElem? fun other => ?_⟩
  · show ((counted.stopWatchers _).count .sessions (-1)).pendingCount = _
    rw [pendingCount_count, if_neg nofun, hsame.2, hcounted]
  · show (counted.stopWatchers (List.range counted.watchers.length)).watchers[other]? = _
    rw [getElem?_watchers_stopWatchers, List.getElem?_map]
    show (if other ∈ List.range session.watchers.length then
      session.watchers[other]?.map _ else session.watchers[other]?) = _
    split
    · rfl
    · next hout =>
      rw [List.mem_range, Nat.not_lt] at hout
      rw [List.getElem?_eq_none hout]
      rfl

end Session

end TriggerDesk
