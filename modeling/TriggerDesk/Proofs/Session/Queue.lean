import TriggerDesk.Proofs.Outbox.Line
import TriggerDesk.Proofs.Session.Acts
import TriggerDesk.Proofs.Session.Effects

/-!
# Who stands in the line

In an open session those who stand in the line before the outbox are just those whose next turn
needs a place (`Session.Queued`). Whoever takes a turn leaves the line, and stands at its end if
the turn after needs a place again; nobody else comes in. `lined_of_step` says this for every
turn, so nobody is overtaken.
-/

namespace TriggerDesk

open Market TriggerDesk.Order Feed

/-- The party that an actor is. -/
def Session.Actor.party : Session.Actor → Party
  | .desk => .desk
  | .watcher id => .watcher id

/-- Whether the desk needs a place for its next turn. -/
def Desk.needsPlace : Desk → Bool
  | .awaitPlace .. | .awaitMove _ | .answering _ => true
  | .idle | .awaitEnd .. | .awaitQuote .. | .ended => false

namespace Session

variable {first session next : Session} {party : Party} {again refusing : Bool} {id : WatcherId}
  {watcher : Watcher}

/-- Whether a party needs a place for its next turn. A reader of lines does while it is `refusing`
one. -/
def needsPlace (session : Session) (refusing : Bool) : Party → Bool
  | .desk => session.desk.needsPlace
  | .reader => refusing
  | .watcher id => !(session.held (.watcher id)).isEmpty

/-- The line of a session: those in it are those who need a place. A session that no lines come to
has no reader that refuses any. -/
structure Queued (session : Session) (refusing : Bool) : Prop extends IsOpen session where
  orderly : session.outbox.Orderly
  mem : ∀ party, party ∈ session.outbox.line ↔ session.needsPlace refusing party = true

/-- When a session starts, nobody needs a place. -/
theorem queued_start (source : Source) (limit : Option Nat) (inboxCapacity outboxCapacity : Nat) :
    (start source limit inboxCapacity outboxCapacity).Queued false where
  receiving := rfl
  running := nofun
  orderly := Outbox.orderly_new outboxCapacity
  mem party := by
    cases party with
    | desk | reader | watcher => exact ⟨nofun, nofun⟩

/-! ## The line in a turn -/

/-- How the line of a session stands in a turn of a party that the session `first` began: the party
has left its place in it and, if it asks again, stands at the end. -/
structure Lined (first session : Session) (party : Party) (again refusing : Bool) : Prop
    extends IsOpen session where
  orderly : session.outbox.Orderly
  capacity : session.outbox.capacity = first.outbox.capacity
  own : party ∈ session.outbox.line ↔ again = true
  others : ∀ other, other ≠ party →
    (other ∈ session.outbox.line ↔ session.needsPlace refusing other = true)
  /-- Nobody else loses a place that is needed. -/
  granted : ∀ other, other ≠ party → other ∈ first.outbox.granted →
    session.needsPlace refusing other = true → other ∈ session.outbox.granted
  sublist : session.outbox.line.Sublist
    (first.outbox.line.erase party ++ if again then [party] else [])

/-- A party that asks again if it needs a place leaves the session with its line in order. -/
theorem Lined.queued (h : Lined first session party (session.needsPlace refusing party) refusing) :
    session.Queued refusing where
  toIsOpen := h.toIsOpen
  orderly := h.orderly
  mem other := by
    by_cases heq : other = party
    · rw [heq]
      exact h.own
    · exact h.others other heq

/-- When a reader takes a turn, what it needed before does not matter. -/
theorem Lined.of_reader (h : Lined first session .reader again refusing) (needs : Bool) :
    Lined first session .reader again needs where
  toIsOpen := h.toIsOpen
  orderly := h.orderly
  capacity := h.capacity
  own := h.own
  others other hne := by
    cases other with
    | reader => exact absurd rfl hne
    | desk => exact h.others _ hne
    | watcher id => exact h.others _ hne
  granted other hne := by
    cases other with
    | reader => exact absurd rfl hne
    | desk => exact h.granted _ hne
    | watcher id => exact h.granted _ hne
  sublist := h.sublist

/-- A party that needs no place is not in the line. -/
theorem Queued.lined (h : session.Queued refusing)
    (hneeds : session.needsPlace refusing party = false) :
    Lined session session party false refusing := by
  have hnot : party ∉ session.outbox.line := fun hmem => by
    rw [(h.mem party).1 hmem] at hneeds
    cases hneeds
  exact {
    toIsOpen := h.toIsOpen
    orderly := h.orderly
    capacity := rfl
    own := ⟨fun hmem => absurd hmem hnot, nofun⟩
    others := fun other _ => h.mem other
    granted := fun _ _ hgranted _ => hgranted
    sublist := by
      rw [List.erase_of_not_mem hnot, if_neg Bool.false_ne_true, List.append_nil] }

namespace Lined

/-- What a party does beside the outbox does not change the line. -/
theorem of_same (h : Lined first session party again refusing)
    (houtbox : next.outbox = session.outbox) (hrunning : next.desk ≠ .ended)
    (hneeds : ∀ other, other ≠ party →
      next.needsPlace refusing other = session.needsPlace refusing other) :
    Lined first next party again refusing where
  receiving := houtbox ▸ h.receiving
  running := hrunning
  orderly := houtbox ▸ h.orderly
  capacity := houtbox ▸ h.capacity
  own := houtbox ▸ h.own
  others other hne := by
    rw [houtbox, hneeds other hne]
    exact h.others other hne
  granted other hne := by
    rw [houtbox, hneeds other hne]
    exact h.granted other hne
  sublist := houtbox ▸ h.sublist

/-- The desk may change itself. -/
theorem of_desk (h : Lined first session .desk again refusing)
    (houtbox : next.outbox = session.outbox)
    (hheld : ∀ id, next.held (.watcher id) = session.held (.watcher id))
    (hrunning : next.desk ≠ .ended) : Lined first next .desk again refusing := by
  refine h.of_same houtbox hrunning fun other hne => ?_
  cases other with
  | desk => exact absurd rfl hne
  | reader => rfl
  | watcher id => rw [needsPlace, needsPlace, hheld]

/-- Whoever asks for a place stands at the end of the line. -/
theorem request (h : Lined first session party false refusing) :
    Lined first { session with outbox := session.outbox.request party } party true refusing := by
  have hnot : party ∉ session.outbox.line := fun hmem => Bool.false_ne_true (h.own.1 hmem)
  have hline := Outbox.line_request h.receiving party
  have hsublist := h.sublist
  rw [if_neg Bool.false_ne_true, List.append_nil] at hsublist
  exact {
    receiving := (Outbox.receiving_request _ _).trans h.receiving
    running := h.running
    orderly := Outbox.orderly_request h.orderly h.receiving hnot
    capacity := (Outbox.capacity_request _ _).trans h.capacity
    own := by
      rw [hline]
      exact ⟨fun _ => rfl, fun _ => List.mem_append_right _ (List.mem_singleton_self party)⟩
    others := by
      intro other hne
      rw [hline, List.mem_append, List.mem_singleton, or_iff_left hne]
      exact h.others other hne
    granted := fun other hne hgranted hneeds =>
      Outbox.mem_granted_request (h.granted other hne hgranted hneeds)
    sublist := by
      rw [hline, if_pos rfl]
      exact hsublist.append (List.Sublist.refl _) }

/-- A party that announces an event asks for a place again. -/
theorem announce (h : Lined first session party false refusing) (event : Event) :
    Lined first (session.announce party event) party true refusing :=
  have hcounted : Lined first (session.observe event) party false refusing :=
    h.of_same rfl h.running fun _ _ => rfl
  hcounted.request

end Lined

/-- Whoever has a place and puts an event leaves the line. -/
theorem Queued.put (h : session.Queued refusing) (hgranted : party ∈ session.outbox.granted)
    (event : Event) : Lined session (session.put party event) party false refusing where
  receiving := h.receiving
  running := h.running
  orderly := Outbox.orderly_put h.orderly hgranted event
  capacity := rfl
  own := by
    rw [show (session.put party event).outbox.line = _ from Outbox.line_put hgranted event]
    exact ⟨fun hmem => absurd hmem h.orderly.nodup.not_mem_erase, nofun⟩
  others other hne := by
    rw [show (session.put party event).outbox.line = _ from Outbox.line_put hgranted event,
      List.mem_erase_of_ne hne]
    exact h.mem other
  granted _ hne hgranted _ := (List.mem_erase_of_ne hne).2 hgranted
  sublist := by
    rw [show (session.put party event).outbox.line = _ from Outbox.line_put hgranted event,
      if_neg Bool.false_ne_true, List.append_nil]

/-- Whoever gives the place back, or had none, leaves the line. -/
theorem Queued.withdraw (h : session.Queued refusing) (party : Party) :
    Lined session { session with outbox := session.outbox.withdraw party } party false
      refusing where
  receiving := (Outbox.receiving_withdraw _ _).trans h.receiving
  running := h.running
  orderly := Outbox.orderly_withdraw h.orderly party
  capacity := Outbox.capacity_withdraw _ _
  own := by
    rw [Outbox.line_withdraw h.orderly party]
    exact ⟨fun hmem => absurd hmem h.orderly.nodup.not_mem_erase, nofun⟩
  others other hne := by
    rw [Outbox.line_withdraw h.orderly party, List.mem_erase_of_ne hne]
    exact h.mem other
  granted _ hne hgranted _ := Outbox.mem_granted_withdraw hne hgranted
  sublist := by
    rw [Outbox.line_withdraw h.orderly party, if_neg Bool.false_ne_true, List.append_nil]

/-- A desk that returns its place has left the line. -/
theorem Queued.returnPlace (h : session.Queued refusing) :
    Lined session session.returnPlace .desk false refusing :=
  h.withdraw .desk

/-- The line does not change when the client takes an event. -/
theorem Queued.of_take (h : session.Queued refusing) {event : Event} {outbox : Outbox}
    (htake : session.outbox.take? = some (event, outbox)) :
    { session with outbox }.Queued refusing where
  receiving := (Outbox.take?_eq_some htake).2.2.2.trans h.receiving
  running := h.running
  orderly := Outbox.orderly_take? h.orderly htake
  mem party := by
    show party ∈ outbox.line ↔ _
    rw [(Outbox.line_take? htake).1]
    exact h.mem party

/-! ### Watchers that end -/

/-- A watcher that has ended holds no event. -/
theorem held_endWatcher (session : Session) (id : WatcherId) (ending : Watcher.Ending) :
    (session.endWatcher id ending).held (.watcher id) = [] := by
  rw [held, getElem?_watchers_endWatcher, if_pos rfl]
  cases session.watchers[id]? with
  | none => rfl
  | some watcher => exact Watcher.held_of_ended (Watcher.isEnded_stop ending watcher)

/-- A watcher that has ended needs no place, and the others need theirs as before. -/
theorem needsPlace_endWatcher (session : Session) (id : WatcherId) (ending : Watcher.Ending)
    (other : Party) :
    (session.endWatcher id ending).needsPlace refusing other =
      if other = .watcher id then false else session.needsPlace refusing other := by
  cases other with
  | desk => exact congrArg Desk.needsPlace (bystanders_endWatcher session id ending).desk
  | reader => rfl
  | watcher other =>
    by_cases heq : other = id
    · rw [heq, if_pos rfl, needsPlace, held_endWatcher]
      rfl
    · rw [if_neg fun hsame => heq (Party.watcher.inj hsame), needsPlace, needsPlace, held, held,
        getElem?_watchers_endWatcher, if_neg (Ne.symm heq)]

/-- The place of a watcher that is ended is given back, unless it had ended before. -/
theorem outbox_endWatcher (session : Session) (id : WatcherId) (ending : Watcher.Ending) :
    (session.endWatcher id ending).outbox = session.outbox ∧
        session.needsPlace refusing (.watcher id) = false ∨
      (session.endWatcher id ending).outbox = session.outbox.withdraw (.watcher id) := by
  unfold endWatcher
  split
  · next hnone =>
    refine .inl ⟨rfl, ?_⟩
    rw [needsPlace, held, hnone]
    rfl
  · next watcher hwatcher =>
    dsimp only
    split
    · next hended =>
      refine .inl ⟨rfl, ?_⟩
      rw [needsPlace, held_watcher hwatcher, Watcher.held_of_ended hended]
      rfl
    · refine .inr ?_
      have hleft : ∀ (counted : Session) (phase : Watcher.Phase),
          (counted.leaveStream phase).outbox = counted.outbox := by
        intro counted phase
        unfold leaveStream
        split <;> rfl
      have hcounted : (if watcher.phase.isLive then session.count .watchers (-1)
          else session).outbox = session.outbox := by
        split <;> rfl
      show (leaveStream _ _).outbox.withdraw (.watcher id) = _
      rw [hleft, hcounted]

/-- A watcher that ends leaves the line. -/
theorem Lined.endWatcher (h : Lined first session party again refusing) (id : WatcherId)
    (hown : party = .watcher id → again = false) (ending : Watcher.Ending) :
    Lined first (session.endWatcher id ending) party again refusing := by
  have hbystanders := bystanders_endWatcher session id ending
  have hrunning : (session.endWatcher id ending).desk ≠ .ended := hbystanders.desk ▸ h.running
  rcases outbox_endWatcher session id ending with ⟨houtbox, hnone⟩ | houtbox
  · refine h.of_same houtbox hrunning fun other hne => ?_
    rw [needsPlace_endWatcher]
    split
    · next heq => rw [heq, hnone]
    · rfl
  · have hline := houtbox ▸ Outbox.line_withdraw h.orderly (.watcher id)
    exact {
      receiving := hbystanders.receiving.trans h.receiving
      running := hrunning
      orderly := houtbox ▸ Outbox.orderly_withdraw h.orderly _
      capacity := houtbox ▸ (Outbox.capacity_withdraw _ _).trans h.capacity
      own := by
        rw [hline]
        by_cases heq : party = .watcher id
        · rw [hown heq, heq]
          exact ⟨fun hmem => absurd hmem h.orderly.nodup.not_mem_erase, nofun⟩
        · rw [List.mem_erase_of_ne heq]
          exact h.own
      others := by
        intro other hne
        rw [hline, needsPlace_endWatcher]
        by_cases heq : other = .watcher id
        · rw [if_pos heq, heq]
          exact ⟨fun hmem => absurd hmem h.orderly.nodup.not_mem_erase, nofun⟩
        · rw [if_neg heq, List.mem_erase_of_ne heq]
          exact h.others other hne
      granted := by
        intro other hne hgranted hneeds
        rw [needsPlace_endWatcher] at hneeds
        split at hneeds
        · cases hneeds
        · next hother =>
          rw [houtbox]
          exact Outbox.mem_granted_withdraw hother (h.granted other hne hgranted hneeds)
      sublist := by
        rw [hline]
        exact List.erase_sublist.trans h.sublist }

/-! ## Turns of the desk -/

/-- How the line stands after a turn. -/
def LinedUp (first next : Session) (party : Party) (refusing : Bool) : Prop :=
  Lined first next party (next.needsPlace refusing party) refusing

section Desk

variable {command : Command} {placing : Placing}

/-- Counting does not change the line. -/
theorem Lined.count (h : Lined first session party again refusing) (meter : Metrics.Meter)
    (n : Int) : Lined first (session.count meter n) party again refusing :=
  h.of_same rfl h.running fun _ _ => rfl

/-- The desk asks for a place for its answer. -/
theorem Lined.answer (h : Lined first session .desk false refusing) (event : Event) :
    LinedUp first (session.answer event) .desk refusing :=
  (h.announce event).of_desk rfl (fun _ => rfl) nofun

/-- The desk asks for a place for a rejection. -/
theorem Lined.reject (h : Lined first session .desk false refusing) (command : Command)
    (rejection : Rejection) : LinedUp first (session.reject command rejection) .desk refusing :=
  (h.count _ _).answer _

/-- The desk asks for a place for the acknowledgement of an order that it armed. -/
theorem Lined.arm (h : Lined first session .desk false refusing) (placing : Placing)
    (last : Float) : LinedUp first (session.arm placing last) .desk refusing :=
  h.request.of_desk rfl (fun _ => rfl) nofun

/-- A desk that waits for a first quote needs no place. -/
theorem Lined.startWatcher (h : Lined first session .desk false refusing) (placing : Placing) :
    LinedUp first (session.startWatcher placing) .desk refusing :=
  h.of_desk rfl (held_of_append rfl rfl fun _ => rfl) nofun

/-- A desk that puts a watcher in place of another needs no place. -/
theorem Lined.replaceWatcher (h : Lined first session .desk false refusing) (placing : Placing) :
    LinedUp first (session.replaceWatcher placing) .desk refusing := by
  unfold Session.replaceWatcher
  split
  · exact h.startWatcher placing
  · next id _ =>
    dsimp only
    have herased : Lined first { session with
        spawned := session.spawned.erase placing.listing } .desk false refusing :=
      h.of_same rfl h.running fun _ _ => rfl
    split
    · exact herased.of_desk rfl (fun _ => rfl) nofun
    · exact (herased.endWatcher id nofun .aborted).startWatcher placing

/-- After seeking the feed of a listing, the desk stands in the line if it needs a place. -/
theorem Lined.seekFeed (h : Lined first session .desk false refusing) (placing : Placing) :
    LinedUp first (session.seekFeed placing) .desk refusing := by
  unfold Session.seekFeed
  split
  · exact h.arm placing _
  · exact h.replaceWatcher placing

/-- After trying again, the desk stands in the line if it needs a place. -/
theorem Lined.tryAgain (h : Lined first session .desk false refusing) (placing : Placing) :
    LinedUp first (session.tryAgain placing) .desk refusing := by
  unfold Session.tryAgain
  split
  · exact h.reject _ _
  · exact h.seekFeed _

/-- After a wait, the desk stands in the line if it needs a place. -/
theorem Lined.feedReady (h : Lined first session .desk false refusing) (placing : Placing) :
    LinedUp first (session.feedReady placing) .desk refusing := by
  unfold Session.feedReady
  dsimp only
  split
  · exact (h.count _ _).arm placing _
  · exact (h.count _ _).tryAgain placing

/-- After taking up a command that places an order, the desk stands in the line if it needs a
place. -/
theorem Lined.handleOrder (h : Lined first session .desk false refusing) (command : Command) :
    LinedUp first (session.handleOrder command) .desk refusing := by
  unfold Session.handleOrder
  split
  · exact h.reject _ _
  · split
    · exact h.reject _ _
    · split
      · exact h.reject _ _
      · exact h.seekFeed _

/-- After a cancellation, the desk stands in the line for its answer. -/
theorem Lined.handleCancel (h : Lined first session .desk false refusing) (command : Command) :
    LinedUp first (session.handleCancel command) .desk refusing := by
  unfold Session.handleCancel
  split
  · exact h.reject _ _
  · next order book _ =>
    have hremoved : Lined first { session with book } .desk false refusing :=
      h.of_same rfl h.running fun _ _ => rfl
    exact (hremoved.count _ _).answer _

/-- After taking up a command that moves an order, the desk stands in the line if it needs a
place. -/
theorem Lined.handleModify (h : Lined first session .desk false refusing) (command : Command) :
    LinedUp first (session.handleModify command) .desk refusing := by
  unfold Session.handleModify
  split
  · exact h.reject _ _
  · exact h.request.of_desk rfl (fun _ => rfl) nofun

/-- After taking up any command, the desk stands in the line if it needs a place. -/
theorem Lined.handle (h : Lined first session .desk false refusing) (command : Command) :
    LinedUp first (session.handle command) .desk refusing := by
  have hready : Lined first ((session.count (.commands command.kind.name) 1).write
      (.command command)) .desk false refusing := h.of_same rfl h.running fun _ _ => rfl
  unfold Session.handle
  dsimp only
  split
  · exact hready.handleOrder command
  · exact hready.handleOrder command
  · exact hready.handleOrder command
  · exact hready.handleCancel command
  · exact hready.handleModify command

/-- A desk that has a place for an acknowledgement puts it, or gives the place back. -/
theorem Queued.place (h : session.Queued refusing)
    (hgranted : Party.desk ∈ session.outbox.granted) (placing : Placing) (last : Float) :
    LinedUp session (session.place placing last) .desk refusing := by
  have hput : ∀ event,
      Lined session ((session.observe event).put .desk event) .desk false refusing :=
    fun event => (h.put hgranted event).of_same rfl h.running fun _ _ => rfl
  unfold Session.place
  dsimp only
  split
  · exact (hput _).of_desk rfl (fun _ => rfl) nofun
  · exact h.returnPlace.reject _ _
  · next book _ =>
    have hbook : Lined session { session with book }.returnPlace .desk false refusing :=
      h.returnPlace.of_same rfl h.running fun _ _ => rfl
    exact hbook.tryAgain placing

/-- After moving an order with its place, the desk stands in the line if it needs a place. -/
theorem Queued.move (h : session.Queued refusing)
    (hgranted : Party.desk ∈ session.outbox.granted) (command : Command) :
    LinedUp session (session.move command) .desk refusing := by
  have hput : ∀ event,
      Lined session ((session.observe event).put .desk event) .desk false refusing :=
    fun event => (h.put hgranted event).of_same rfl h.running fun _ _ => rfl
  unfold Session.move
  split
  · exact h.returnPlace.reject _ _
  · exact (hput _).of_desk rfl (fun _ => rfl) nofun

end Desk

/-! ## Turns of the watchers -/

section Watchers

variable {stream : StreamId} {listing : Listing}

/-- Other parties do not notice that a watcher changes. -/
theorem needsPlace_modifyWatcher_of_ne {other : Party} (hne : other ≠ .watcher id)
    (change : Watcher → Watcher) :
    (session.modifyWatcher id change).needsPlace refusing other =
      session.needsPlace refusing other := by
  cases other with
  | desk | reader => rfl
  | watcher other =>
    have hdiffer : id ≠ other := fun heq => hne (heq ▸ rfl)
    rw [needsPlace, needsPlace, held, held]
    show (!((Option.map _ (session.watchers.modify id change)[other]?).getD []).isEmpty) = _
    rw [List.getElem?_modify]
    simp [hdiffer]

/-- A change of the watcher whose turn it is does not change the line. -/
theorem Lined.modifyWatcher (h : Lined first session (.watcher id) again refusing)
    (change : Watcher → Watcher) :
    Lined first (session.modifyWatcher id change) (.watcher id) again refusing :=
  h.of_same rfl h.running fun _ hne => needsPlace_modifyWatcher_of_ne hne change

/-- A watcher that enters a phase stands in the line if it holds an event then. -/
theorem Lined.setPhase (h : Lined first session (.watcher id) again refusing)
    (hwatcher : session.watchers[id]? = some watcher) (phase : Watcher.Phase)
    (hagain : again = !(Watcher.held { watcher with phase }).isEmpty) :
    LinedUp first (session.setPhase id phase) (.watcher id) refusing := by
  unfold LinedUp
  rw [needsPlace, held_watcher (watchers_setPhase session hwatcher phase), ← hagain]
  exact h.modifyWatcher _

/-- A watcher that ends in its own turn does not stand in the line. -/
theorem Lined.endOwn (h : Lined first session (.watcher id) false refusing)
    (ending : Watcher.Ending) :
    LinedUp first (session.endWatcher id ending) (.watcher id) refusing := by
  unfold LinedUp
  rw [needsPlace_endWatcher, if_pos rfl]
  exact h.endWatcher id (fun _ => rfl) ending

/-- A watcher that announces an order that left the book asks for a place. -/
theorem Lined.announceLeft (h : Lined first session (.watcher id) false refusing) (event : Event) :
    Lined first (session.announceLeft id event) (.watcher id) true refusing :=
  (h.count _ _).announce event

/-- A watcher whose orders fired stands in the line if there were any. -/
theorem Lined.fire (h : Lined first session (.watcher id) false refusing)
    (hwatcher : session.watchers[id]? = some watcher) (prices : List Float) (events : List Event) :
    LinedUp first (session.fire id stream prices events) (.watcher id) refusing := by
  cases events with
  | nil => exact h.setPhase hwatcher _ rfl
  | cons event rest =>
    have hstill : (session.announceLeft id event).watchers[id]? = some watcher := hwatcher
    exact (h.announceLeft event).setPhase hstill _ rfl

/-- A watcher that drains stands in the line if there are orders. -/
theorem Lined.drain (h : Lined first session (.watcher id) false refusing)
    (hwatcher : session.watchers[id]? = some watcher) (events : List Event) :
    LinedUp first (session.drain id stream events) (.watcher id) refusing := by
  cases events with
  | nil => exact h.endOwn _
  | cons event rest =>
    have hstill : (session.announceLeft id event).watchers[id]? = some watcher := hwatcher
    exact (h.announceLeft event).setPhase hstill _ rfl

/-- A watcher that gives up does not stand in the line. -/
theorem Lined.giveUp (h : Lined first session (.watcher id) false refusing) (failure : Failure) :
    LinedUp first (session.giveUp id failure) (.watcher id) refusing :=
  (h.modifyWatcher _).endOwn _

/-- A watcher that goes live does not stand in the line. -/
theorem Lined.goLive (h : Lined first session (.watcher id) false refusing)
    (hwatcher : session.watchers[id]? = some watcher) (stream : StreamId) (listing : Listing)
    (price : Float) :
    LinedUp first (session.goLive id stream listing price) (.watcher id) refusing := by
  have hlive : Lined first { session.count .watchers 1 with
      book := session.book.setLast listing price } (.watcher id) false refusing :=
    h.of_same rfl h.running fun _ _ => rfl
  unfold LinedUp
  rw [needsPlace, held_watcher (watchers_goLive session hwatcher stream listing price)]
  exact hlive.modifyWatcher _

/-- A watcher that reads what comes first does not stand in the line. -/
theorem Lined.takeFirst (h : Lined first session (.watcher id) false refusing)
    (hwatcher : session.watchers[id]? = some watcher) {reading : Reading}
    (htake : session.takeFirst id stream listing reading = some next) :
    LinedUp first next (.watcher id) refusing := by
  have hadvanced : Lined first (session.advanceStream stream) (.watcher id) false refusing :=
    h.of_same rfl h.running fun _ _ => rfl
  unfold Session.takeFirst at htake
  split at htake
  · cases htake
  · cases htake
    exact h.giveUp _
  · cases htake
    exact hadvanced.giveUp _
  · dsimp only at htake
    split at htake
    · next price _ =>
      cases htake
      exact hadvanced.goLive hwatcher stream listing price
    · cases htake
      exact hadvanced.giveUp _

/-- A watcher that loses its feed stands in the line if orders waited there. -/
theorem Lined.loseFeed (h : Lined first session (.watcher id) false refusing)
    (hwatcher : session.watchers[id]? = some watcher) (failure : Failure) :
    LinedUp first (session.loseFeed id stream listing failure) (.watcher id) refusing := by
  have hlost : ∀ entry, Lined first { session.write entry with
      book := (session.book.retire listing).2 } (.watcher id) false refusing :=
    fun entry => h.of_same rfl h.running fun _ _ => rfl
  exact (hlost _).drain hwatcher _

/-- After taking what comes next, a watcher stands in the line if it needs a place. -/
theorem Lined.takeNext (h : Lined first session (.watcher id) false refusing)
    (hwatcher : session.watchers[id]? = some watcher) {reading : Reading}
    (htake : session.takeNext id stream listing reading = some next) :
    LinedUp first next (.watcher id) refusing := by
  have hadvanced : Lined first (session.advanceStream stream) (.watcher id) false refusing :=
    h.of_same rfl h.running fun _ _ => rfl
  unfold Session.takeNext at htake
  split at htake
  · cases htake
  · cases htake
    exact h.loseFeed hwatcher _
  · cases htake
    exact hadvanced.loseFeed hwatcher _
  · cases htake
    exact hadvanced.setPhase hwatcher _ rfl

/-- After looking at a price, a watcher stands in the line if it needs a place. -/
theorem Lined.lookAt (h : Lined first session (.watcher id) false refusing)
    (hwatcher : session.watchers[id]? = some watcher) (price : Float) (prices : List Float) :
    LinedUp first (session.lookAt id watcher stream price prices) (.watcher id) refusing := by
  unfold Session.lookAt
  split
  · exact (h.count _ _).setPhase hwatcher _ rfl
  · split
    · exact (h.count _ _).setPhase hwatcher _ rfl
    · dsimp only
      have hbook : Lined first { session with book := ((session.book.setLast watcher.listing
          price).evaluate watcher.listing price).2 } (.watcher id) false refusing :=
        h.of_same rfl h.running fun _ _ => rfl
      have hlooked : Lined first (session.takePrice id watcher.listing price).2
          (.watcher id) false refusing := ((hbook.modifyWatcher _).count _ _).count _ _
      exact hlooked.fire (watchers_takePrice hwatcher price) _ _

end Watchers

/-! ## Turns -/

/-- After a turn of the desk, the line has those who need a place. -/
theorem lined_of_deskStep (h : session.Queued refusing) (hstep : session.deskStep = some next)
    (hopen : next.IsOpen) : LinedUp session next .desk refusing := by
  -- With a place the desk goes on; it is not told that the client has left.
  have hplace : ∀ {further : Session → Session}, session.withPlace further = some next →
      Party.desk ∈ session.outbox.granted ∧ next = further session := by
    intro further hnext
    unfold withPlace at hnext
    split at hnext
    · cases hnext
    · next hclosed =>
      have hleft := Outbox.receiving_of_closed hclosed
      rw [h.receiving] at hleft
      cases hleft
    · next hgranted =>
      cases hnext
      exact ⟨Outbox.mem_granted_of_standing hgranted, rfl⟩
  have hlined : session.desk.needsPlace = false → Lined session session .desk false refusing :=
    fun hneeds => h.lined hneeds
  unfold deskStep at hstep
  split at hstep
  · next hdesk =>
    have hidle := hlined (by rw [hdesk]; rfl)
    split at hstep
    · next command inbox _ =>
      cases hstep
      have hreceived : Lined session { session with inbox } .desk false refusing :=
        hidle.of_same rfl hidle.running fun _ _ => rfl
      exact hreceived.handle command
    · split at hstep
      · cases hstep
        exact absurd rfl hopen.running
      · cases hstep
  · next placing id hdesk =>
    obtain ⟨watcher, _, hstep⟩ := Option.bind_eq_some_iff.1 hstep
    split at hstep
    · cases hstep
      exact (hlined (by rw [hdesk]; rfl)).startWatcher placing
    · cases hstep
  · next placing id deadline hdesk =>
    obtain ⟨watcher, _, hstep⟩ := Option.bind_eq_some_iff.1 hstep
    obtain ⟨outcome, _, hstep⟩ := Option.bind_eq_some_iff.1 hstep
    have hwaits := hlined (by rw [hdesk]; rfl)
    split at hstep
    · cases hstep
      exact hwaits.feedReady placing
    · cases hstep
      exact hwaits.reject _ _
  · next placing last _ =>
    obtain ⟨hgranted, rfl⟩ := hplace hstep
    exact h.place hgranted placing last
  · next command _ =>
    obtain ⟨hgranted, rfl⟩ := hplace hstep
    exact h.move hgranted command
  · next event _ =>
    obtain ⟨hgranted, rfl⟩ := hplace hstep
    exact (h.put hgranted event).of_desk rfl (fun _ => rfl) nofun
  · cases hstep

/-- After a turn of a watcher, that watcher stands in the line if it needs a place. -/
theorem lined_of_watcherStep (h : session.Queued refusing)
    (hstep : session.watcherStep id = some next) : LinedUp session next (.watcher id) refusing := by
  obtain ⟨watcher, hwatcher, hstep⟩ := Option.bind_eq_some_iff.1 hstep
  have hlined : watcher.held = [] → Lined session session (.watcher id) false refusing := by
    intro hheld
    refine h.lined ?_
    rw [needsPlace, held_watcher hwatcher, hheld]
    rfl
  -- An open session has its outbox received, so a watcher with an event has a place or waits.
  have hput : ∀ {event : Event} {further : Session → Session},
      session.deliver id event further = some next →
      Lined session (session.put (.watcher id) event) (.watcher id) false refusing ∧
        next = further (session.put (.watcher id) event) := by
    intro event further hnext
    unfold deliver at hnext
    split at hnext
    · cases hnext
    · next hclosed =>
      have hleft := Outbox.receiving_of_closed hclosed
      rw [h.receiving] at hleft
      cases hleft
    · next hgranted =>
      cases hnext
      exact ⟨h.put (Outbox.mem_granted_of_standing hgranted) event, rfl⟩
  cases hphase : watcher.phase with
  | starting =>
    rw [hphase] at hstep
    cases hstep
    have hsource : ∀ source, Lined session { session with source } (.watcher id) false refusing :=
      fun source => (hlined (by rw [Watcher.held, hphase])).of_same rfl h.running fun _ _ => rfl
    unfold subscribe
    split
    · next opened source _ => exact (hsource source).setPhase hwatcher (.opening opened) rfl
    · exact (hsource _).giveUp _
  | opening stream =>
    rw [hphase] at hstep
    exact (hlined (by rw [Watcher.held, hphase])).takeFirst hwatcher hstep
  | following stream prices =>
    have hfollows := hlined (by rw [Watcher.held, hphase])
    rw [hphase] at hstep
    cases prices with
    | nil => exact hfollows.takeNext hwatcher hstep
    | cons price prices =>
      cases hstep
      exact hfollows.lookAt hwatcher price prices
  | firing stream event rest prices =>
    rw [hphase] at hstep
    obtain ⟨hlined, rfl⟩ := hput hstep
    have hstill : (session.put (.watcher id) event).watchers[id]? = some watcher := hwatcher
    exact hlined.fire hstill prices rest
  | retiring stream event rest =>
    rw [hphase] at hstep
    obtain ⟨hlined, rfl⟩ := hput hstep
    have hstill : (session.put (.watcher id) event).watchers[id]? = some watcher := hwatcher
    exact hlined.drain hstill rest
  | ended ending =>
    rw [hphase] at hstep
    cases hstep

/-- In every turn the line stays as it is, but for the party that takes the turn: it leaves the
line, and stands at the end if it needs a place again. -/
theorem lined_of_step {actor : Actor} (h : session.Queued refusing)
    (hstep : step actor session = some next) (hopen : next.IsOpen) :
    LinedUp session next actor.party refusing := by
  cases actor with
  | desk => exact lined_of_deskStep h hstep hopen
  | watcher id => exact lined_of_watcherStep h hstep

end Session

end TriggerDesk
