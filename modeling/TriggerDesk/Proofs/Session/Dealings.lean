import TriggerDesk.Proofs.Session.Replies
import TriggerDesk.Proofs.Session.Service

/-!
# One command, one effect, one answer

The turns of the desk, from the one in which it takes a command up to the one after which it is
idle again, are what it does about the command. In one of them at most it changes an order, in just
one it puts an event, and the event is the answer that tells of the change (`Dealing.IsSettled`). A
command that is rejected has changed nothing, and the desk has given its place back.

`dealt_along` says that the turns of the desk along a run are such dealings, one after the other,
and those of the command at hand; and that no command stays at hand for ever, unless the desk is
stuck (`Stuck`). `unanswered_live` is a run in which it is, although the feed is live again.
-/

namespace TriggerDesk

open Market TriggerDesk.Order Feed

/-- What a command does to the orders of a book, and the answer that tells of it. -/
inductive Order.Command.Changes (command : Command) (before after : Book) : Event → Prop where
  /-- The order comes last at its listing. -/
  | places (listing : Listing) (order : Pending) (last : Float) :
      command.kind.places = true → command.broker? = some listing.broker →
      listing.symbol = command.symbol → order = Pending.ofCommand command last →
      after.pending listing = before.pending listing ++ [order] →
      (∀ other, other ≠ listing → after.pending other = before.pending other) →
      Changes command before after (Event.ack command order.trigger.direction)
  /-- The order comes last at the listing where it waits, armed at the new level. -/
  | moves (listing : Listing) (order moved : Pending) (last : Float) :
      command.kind = .modify → order ∈ before.pending listing →
      order.oid = command.oid → order.command.oid = command.oid →
      before.last? listing = some last → moved = order.moveTo command.price last →
      after.pending listing =
        (before.pending listing).filter (·.oid ≠ command.oid) ++ [moved] →
      (∀ other, other ≠ listing → after.pending other = before.pending other) →
      Changes command before after (Event.ack moved.command moved.trigger.direction)
  /-- The order does not wait any more. -/
  | cancels (listing : Listing) (order : Pending) :
      command.kind = .cancel → order ∈ before.pending listing →
      order.oid = command.oid → order.command.oid = command.oid →
      after.pending listing = (before.pending listing).filter (·.oid ≠ command.oid) →
      (∀ other, other ≠ listing → after.pending other = before.pending other) →
      Changes command before after (Event.cancelled order.command)

/-- The answer to a change is about the order of the command. -/
theorem Order.Command.Changes.oid {command : Command} {before after : Book} {answer : Event}
    (h : command.Changes before after answer) : answer.oid = command.oid := by
  cases h with
  | places => rfl
  | moves listing order moved last _ _ _ hoid _ hmoved =>
    rw [hmoved]
    exact hoid
  | cancels _ _ _ _ _ hoid => exact hoid

namespace Session

/-! ## The book in the turn that changes it -/

section Book

variable {session : Session} {command : Command} {book : Book}

/-- Placing an order that the book takes is a change, and the answer is its acknowledgement. -/
theorem Regular.changes_of_insert (h : session.Regular) {placing : Placing} {last : Float}
    {order : Pending} (hproper : placing.IsProper)
    (horder : order = Pending.ofCommand placing.command last)
    (hinsert : session.book.insert placing.listing order = (.ok (), book)) :
    placing.command.Changes session.book book
      (Event.ack order.command order.trigger.direction) := by
  obtain ⟨roster, hroster, _⟩ := h.named
  have hpending := hroster.pending_of_insert hinsert
  have hsame : order.command = placing.command := horder ▸ rfl
  rw [hsame]
  refine .places placing.listing order last hproper.places hproper.broker hproper.symbol horder
    ?_ fun other hne => ?_
  · rw [hpending, if_pos rfl]
  · rw [hpending, if_neg (Ne.symm hne), List.append_nil]

/-- Taking an order out of the book is a change, and the answer says that it is cancelled. -/
theorem Regular.changes_of_remove (h : session.Regular) {order : Pending}
    (hkind : command.kind = .cancel)
    (hremove : session.book.remove command.oid = some (order, book)) :
    command.Changes session.book book (Event.cancelled order.command) := by
  obtain ⟨roster, hroster, hnamed⟩ := h.named
  obtain ⟨listing, hmem, hoid, _⟩ := hroster.of_remove hremove
  have hpending := hroster.pending_of_remove hremove
  rw [hoid] at hpending
  refine .cancels listing order hkind (hroster.mem_pending.2 hmem) hoid
    ((hnamed _ hmem).1.trans hoid) (hpending listing) fun other hne => ?_
  rw [hpending, hroster.pending_without_of_ne hmem hoid hne]

/-- Moving an order is a change, and the answer is an acknowledgement at its new level and
direction. -/
theorem Regular.changes_of_modify (h : session.Regular) {moved : Book.Moved}
    (hkind : command.kind = .modify)
    (hmodify : session.book.modify command.oid command.price = some moved) :
    command.Changes session.book moved.book
      (Event.ack moved.order.command moved.order.trigger.direction) := by
  obtain ⟨roster, hroster, hnamed⟩ := h.named
  obtain ⟨listing, order, last, hmem, hlast, horder, hpending⟩ := hroster.pending_of_modify hmodify
  have hoid : order.oid = command.oid := by
    have hsame := (h.command_of_modify hmodify).1
    rw [horder] at hsame
    exact (hnamed _ hmem).1.symm.trans hsame
  have hmoved : moved.order.oid = command.oid := horder ▸ hoid
  rw [hmoved] at hpending
  refine .moves listing order moved.order last hkind (hroster.mem_pending.2 hmem) hoid
    ((hnamed _ hmem).1.trans hoid) hlast horder ?_ fun other hne => ?_
  · rw [hpending, if_pos rfl]
  · rw [hpending, if_neg (Ne.symm hne), List.append_nil,
      hroster.pending_without_of_ne hmem hoid hne]

end Book

variable {first session next : Session} {command : Command} {answer : Event} {move : Move}

/-! ## Turns of the desk -/

/-- A turn of the desk: the session before it and the session after it. -/
abbrev Turn := Session × Session

/-- Every order waits where it waited. -/
def Turn.KeepsOrders (turn : Turn) : Prop :=
  ∀ listing, turn.2.book.pending listing = turn.1.book.pending listing

/-- The events that are put in some turns. -/
def told (turns : List Turn) : List Event :=
  turns.flatMap fun turn => turn.2.outbox.events.drop turn.1.outbox.events.length

/-- The turn that the desk takes in a move, if any. -/
def deskTurn? (session : Session) (move : Move) : Option Turn :=
  if move = .turn .desk then session.deskStep.map fun next => (session, next) else none

/-- The turns that the desk takes in some moves. -/
def deskTurns (session : Session) : List Move → List Turn
  | [] => []
  | move :: rest => (session.deskTurn? move).toList ++ (session.advance move).deskTurns rest

/-- A move more adds the turn that the desk takes in it, if any. -/
theorem deskTurns_concat (session : Session) (moves : List Move) (move : Move) :
    session.deskTurns (moves ++ [move]) =
      session.deskTurns moves ++ ((session.run moves).deskTurn? move).toList := by
  induction moves generalizing session with
  | nil => exact List.append_nil _
  | cons head rest ih =>
    rw [List.cons_append, deskTurns, deskTurns, ih, List.append_assoc, run_cons]

/-- A turn more adds the events that it puts to those that were told. -/
theorem told_concat {turns : List Turn} {events : List Event}
    (h : next.outbox.events = session.outbox.events ++ events) :
    told (turns ++ [(session, next)]) = told turns ++ events := by
  rw [told, told, List.flatMap_append, List.flatMap_singleton, h, List.drop_left]

/-! ## What the desk does about a command -/

/-- What came of a command in some turns of the desk: one of them changed an order, or none did and
the command is rejected. -/
inductive Brings (command : Command) (turns : List Turn) : Event → Prop where
  | changes (earlier later : List Turn) (turn : Turn) (answer : Event) :
      turns = earlier ++ turn :: later → (∀ other ∈ earlier ++ later, other.KeepsOrders) →
      command.Changes turn.1.book turn.2.book answer →
      Brings command turns answer
  | rejects (rejection : Rejection) :
      (∀ turn ∈ turns, turn.KeepsOrders) →
      Brings command turns (Event.rejected command rejection.message)

/-- The answer that a command brings is about the order of that command. -/
theorem Brings.oid {turns : List Turn} (h : Brings command turns answer) :
    answer.oid = command.oid := by
  cases h with
  | changes _ _ _ _ _ _ hchanges => exact hchanges.oid
  | rejects => rfl

/-- A turn that keeps the orders takes nothing from what a command brought. -/
theorem Brings.concat {turns : List Turn} {turn : Turn} (h : Brings command turns answer)
    (hkeeps : turn.KeepsOrders) : Brings command (turns ++ [turn]) answer := by
  cases h with
  | changes earlier later changing _ hturns hothers hchanges =>
    refine .changes earlier (later ++ [turn]) changing answer ?_ ?_ hchanges
    · rw [hturns, List.append_assoc, List.cons_append]
    · rw [← List.append_assoc]
      exact List.forall_mem_append.2 ⟨hothers, List.forall_mem_singleton.2 hkeeps⟩
  | rejects rejection hall =>
    exact .rejects rejection (List.forall_mem_append.2 ⟨hall, List.forall_mem_singleton.2 hkeeps⟩)

/-- The last turn changes an order, and the others do not. -/
theorem Brings.of_changes {turns : List Turn} (hkeeps : ∀ turn ∈ turns, turn.KeepsOrders)
    (hchanges : command.Changes session.book next.book answer) :
    Brings command (turns ++ [(session, next)]) answer := by
  refine .changes turns [] _ _ rfl ?_ hchanges
  rwa [List.append_nil]

/-- The first turn is the one in which the idle desk takes the command up. -/
def TakesUp (command : Command) (turns : List Turn) : Prop :=
  ∃ turn, turns.head? = some turn ∧ turn.1.desk = .idle ∧
    turn.1.inbox.receive? = some (command, turn.2.inbox)

/-- The turns that begin with taking a command up still do so when there is one more. -/
theorem TakesUp.concat {turns : List Turn} (h : TakesUp command turns) (turn : Turn) :
    TakesUp command (turns ++ [turn]) := by
  obtain ⟨head, hhead, htakes⟩ := h
  exact ⟨head, List.head?_append_of_ne_nil _ (List.ne_nil_of_mem (List.mem_of_head? hhead)) ▸ hhead,
    htakes⟩

/-- A command, the turns that the desk took about it, and the answer. -/
structure Dealing where
  command : Command
  turns : List Turn
  answer : Event

/-- The desk took the command up when it was idle, put one answer, which tells what came of the
command, and is idle again and neither has nor awaits a place. -/
structure Dealing.IsSettled (dealing : Dealing) : Prop where
  takesUp : TakesUp dealing.command dealing.turns
  told : told dealing.turns = [dealing.answer]
  oid : dealing.answer.oid = dealing.command.oid
  brings : Brings dealing.command dealing.turns dealing.answer
  leaves : ∃ turn, dealing.turns.getLast? = some turn ∧ turn.2.desk = .idle ∧
    Party.desk ∉ turn.2.outbox.line

/-- The turns that a desk took since it took up the command that it has not answered: it put
nothing, and changed an order only if it holds the answer. -/
inductive Engaged : Desk → List Turn → Prop where
  | idle : Engaged .idle []
  | works (command : Command) (desk : Desk) (turns : List Turn) :
      desk.command? = some command → TakesUp command turns → told turns = [] →
      (∀ turn ∈ turns, turn.KeepsOrders) → Engaged desk turns
  | holds (command : Command) (answer : Event) (turns : List Turn) :
      TakesUp command turns → told turns = [] → Brings command turns answer →
      Engaged (.answering answer) turns

/-- Some turns of the desk are dealings, and those of the command at hand. -/
def Dealt (desk : Desk) (turns : List Turn) : Prop :=
  ∃ (dealings : List Dealing) (current : List Turn),
    turns = dealings.flatMap Dealing.turns ++ current ∧
      (∀ dealing ∈ dealings, dealing.IsSettled) ∧ Engaged desk current

/-! ## One turn more -/

section Turn

variable {current : List Turn} (hstep : session.deskStep = some next) (hopen : next.IsOpen)
include hstep hopen

/-- A desk that holds no answer works on the command that comes next, and has done nothing yet. -/
theorem Engaged.exists_command (h : Engaged session.desk current)
    (hnone : session.desk.answer? = none) :
    ∃ command, session.docket.head? = some command ∧
      TakesUp command (current ++ [(session, next)]) ∧
      told current = [] ∧ ∀ turn ∈ current, turn.KeepsOrders := by
  obtain ⟨desk, hdesk⟩ : ∃ desk, session.desk = desk := ⟨_, rfl⟩
  rw [hdesk] at h hnone
  cases h with
  | idle =>
    obtain ⟨command, hreceive⟩ := receive_of_idle hstep hopen hdesk
    refine ⟨command, ?_, ⟨_, rfl, hdesk, hreceive⟩, rfl,
      fun _ hnone => (List.not_mem_nil hnone).elim⟩
    rw [docket_of_idle hdesk, (Channel.items_of_receive hreceive).1]
    rfl
  | works command _ _ hcommand htakes htold hkeeps =>
    refine ⟨command, ?_, htakes.concat _, htold, hkeeps⟩
    rw [docket_of_command (hdesk ▸ hcommand)]
    rfl
  | holds => cases hnone

/-- A desk that is engaged with no answer to put begins with the command that it takes up, and has
changed and told nothing yet. -/
theorem Engaged.takesUp (h : Engaged session.desk current) (hnone : session.desk.answer? = none)
    {rest : List Command} (hdocket : session.docket = command :: rest) :
    TakesUp command (current ++ [(session, next)]) ∧ told current = [] ∧
      ∀ turn ∈ current, turn.KeepsOrders := by
  obtain ⟨taken, hhead, htakes⟩ := h.exists_command hstep hopen hnone
  rw [hdocket] at hhead
  cases hhead
  exact htakes

/-- A turn that changes no order and puts nothing, after which the desk still works on a command. -/
theorem Engaged.still (h : Engaged session.desk current) (hnone : session.desk.answer? = none)
    (hstill : session.Still next) (hdocket : next.docket = session.docket)
    (hcommand : next.desk.command? = some command) :
    Engaged next.desk (current ++ [(session, next)]) := by
  rw [docket_of_command hcommand] at hdocket
  obtain ⟨htakes, htold, hkeeps⟩ := h.takesUp hstep hopen hnone hdocket.symm
  refine .works command _ _ hcommand htakes ?_ (List.forall_mem_append.2
    ⟨hkeeps, List.forall_mem_singleton.2 hstill.pending_eq⟩)
  rw [told_concat (hstill.events.trans (List.append_nil _).symm), htold, List.append_nil]

omit hstep hopen in
/-- The turn that puts the answer is the last one of a dealing. -/
theorem TakesUp.isSettled (h : TakesUp command (current ++ [(session, next)]))
    (htold : told current = []) (hevents : next.outbox.events = session.outbox.events ++ [answer])
    (hbrings : Brings command (current ++ [(session, next)]) answer)
    (hqueued : next.Queued false) (hidle : next.desk = .idle) :
    Dealing.IsSettled ⟨command, current ++ [(session, next)], answer⟩ where
  takesUp := h
  told := by rw [told_concat hevents, htold, List.nil_append]
  oid := hbrings.oid
  brings := hbrings
  leaves := by
    refine ⟨_, List.getLast?_concat, hidle, fun hmem => ?_⟩
    have hneeds := (hqueued.mem .desk).1 hmem
    rw [needsPlace, hidle] at hneeds
    cases hneeds

/-- A turn of the desk is one more about the command at hand, or the last one. -/
theorem Engaged.of_deskTurn (h : Engaged session.desk current) (hregular : session.Regular)
    (hqueued : next.Queued false) :
    Engaged next.desk (current ++ [(session, next)]) ∨
      ∃ dealing : Dealing, dealing.turns = current ++ [(session, next)] ∧ dealing.IsSettled ∧
        next.desk = .idle := by
  have hturn := deskTurn_of_deskStep hstep
  generalize session.deskDeed = deed at hturn
  cases hturn with
  | arm _ _ hstill _ hfree hdocket _ _ hdesk | await _ _ hstill _ hfree hdocket _ _ _ _ hdesk
  | restart _ _ _ _ hstill hfree hdocket _ _ _ _ _ _ _ hdesk
  | prepare _ hstill _ hfree hdocket _ hdesk =>
    exact .inl (h.still hstep hopen hfree.answer hstill hdocket (by rw [hdesk]; rfl))
  | start placing _ hstill hdocket _ hvacant _ _ hdesk =>
    exact .inl (h.still hstep hopen (answer_of_vacant hvacant) hstill hdocket (by rw [hdesk]; rfl))
  | refuse command rejection hstill _ hfree hdocket hdesk =>
    obtain ⟨htakes, htold, hkeeps⟩ := h.takesUp hstep hopen hfree.answer hdocket
    rw [hdesk]
    refine .inl (.holds command _ _ htakes ?_ (.rejects rejection (List.forall_mem_append.2
      ⟨hkeeps, List.forall_mem_singleton.2 hstill.pending_eq⟩)))
    rw [told_concat (hstill.events.trans (List.append_nil _).symm), htold, List.append_nil]
  | cancel command order _ _ hidle hdocket hkind hremove hevents hdesk =>
    obtain ⟨htakes, htold, hkeeps⟩ := h.takesUp hstep hopen (by rw [hidle]; rfl) hdocket
    -- The order is out of the book now, while its answer has still to be put.
    rw [hdesk]
    refine .inl (.holds command _ _ htakes ?_
      (.of_changes hkeeps (hregular.changes_of_remove hkind hremove)))
    rw [told_concat (hevents.trans (List.append_nil _).symm), htold, List.append_nil]
  | place placing last order _ _ hplace hdocket horder hinsert hevents hdesk =>
    -- Here and for a move the change and the answer fall in one turn, which is the last.
    obtain ⟨htakes, htold, hkeeps⟩ := h.takesUp hstep hopen (by rw [hplace]; rfl) hdocket
    have hproper := hregular.sound.proper.placing placing (by rw [hplace]; rfl)
    have hbrings := Brings.of_changes hkeeps (hregular.changes_of_insert hproper horder hinsert)
    exact .inr ⟨_, rfl, htakes.isSettled htold hevents hbrings hqueued hdesk, hdesk⟩
  | move command moved _ _ hmove hdocket hmodify hbook hevents hdesk =>
    obtain ⟨htakes, htold, hkeeps⟩ := h.takesUp hstep hopen (by rw [hmove]; rfl) hdocket
    have hkind := hregular.sound.proper.moving command (by rw [hmove]; rfl)
    have hchanges := hregular.changes_of_modify hkind hmodify
    rw [← hbook] at hchanges
    have hbrings := Brings.of_changes hkeeps hchanges
    exact .inr ⟨_, rfl, htakes.isSettled htold hevents hbrings hqueued hdesk, hdesk⟩
  | deliver event _ _ hanswering hdocket hbook hevents hdesk =>
    rw [hanswering] at h
    cases h with
    | works _ _ _ hcommand => cases hcommand
    | holds command _ _ htakes htold hbrings =>
      have hlater : Brings command (current ++ [(session, next)]) event :=
        hbrings.concat fun listing => by rw [hbook]
      exact .inr ⟨_, rfl, (htakes.concat _).isSettled htold hevents hlater hqueued hdesk, hdesk⟩
  | shutDown _ _ _ hdesk => exact absurd hdesk hopen.running

end Turn

/-! ## Whole runs -/

/-- A turn of the desk continues its dealings, or begins or ends one. -/
theorem Dealt.of_deskTurn {turns : List Turn} (h : Dealt session.desk turns)
    (hregular : session.Regular) (hstep : session.deskStep = some next)
    (hqueued : next.Queued false) : Dealt next.desk (turns ++ [(session, next)]) := by
  obtain ⟨dealings, current, rfl, hsettled, hengaged⟩ := h
  rw [List.append_assoc]
  rcases hengaged.of_deskTurn hstep hqueued.toIsOpen hregular hqueued with
    hmore | ⟨dealing, hturns, hlast, hidle⟩
  · exact ⟨dealings, _, rfl, hsettled, hmore⟩
  · refine ⟨dealings ++ [dealing], [], ?_, List.forall_mem_append.2
      ⟨hsettled, List.forall_mem_singleton.2 hlast⟩, hidle ▸ .idle⟩
    rw [List.flatMap_append, List.flatMap_singleton, hturns, List.append_nil]

/-- A move is a turn that the desk takes, or leaves the desk as it is. -/
theorem deskTurn?_cases (session : Session) (move : Move) :
    session.deskStep = some (session.advance move) ∧
        session.deskTurn? move = some (session, session.advance move) ∨
      (session.advance move).desk = session.desk ∧ session.deskTurn? move = none := by
  have hother : move ≠ .turn .desk → session.deskTurn? move = none := fun hne => if_neg hne
  cases move with
  | turn actor =>
    cases actor with
    | desk =>
      cases hstep : step .desk session with
      | none =>
        rw [advance_turn_of_waits hstep, deskTurn?, if_pos rfl,
          show session.deskStep = none from hstep]
        exact .inr ⟨rfl, rfl⟩
      | some next =>
        rw [advance_turn hstep, deskTurn?, if_pos rfl,
          show session.deskStep = some next from hstep]
        exact .inl ⟨rfl, rfl⟩
    | watcher id =>
      refine .inr ⟨?_, hother nofun⟩
      cases hstep : step (.watcher id) session with
      | none => rw [advance_turn_of_waits hstep]
      | some next =>
        obtain ⟨_, _, hreplaces, _⟩ := watcherTurn_of_watcherStep hstep
        rw [advance_turn hstep]
        exact hreplaces.desk
  | stimulus stimulus => exact .inr ⟨(undisturbed_meet session stimulus).desk, hother nofun⟩
  | feeds source => exact .inr ⟨rfl, hother nofun⟩

/-- A move that leaves a session open keeps it regular. -/
theorem Regular.advance (h : session.Regular) (hopen : (session.advance move).IsOpen) :
    (session.advance move).Regular := by
  rcases advance_cases session move with ⟨actor, _, hstep⟩ | hsame
  · exact h.of_step hstep hopen
  · exact h.of_same hsame.desk hsame.watchers hsame.spawned hsame.book

/-- The turns of the desk along a run are dealings with one command after the other, and those of
the command at hand. -/
theorem dealt_run (hidle : first.desk = .idle) (hregular : first.Regular)
    (hqueued : first.Queued false) {moves : List Move} (hopen : (first.run moves).IsOpen) :
    (first.run moves).Regular ∧ (first.run moves).Queued false ∧
      Dealt (first.run moves).desk (first.deskTurns moves) := by
  induction moves using List.reverseRecOn with
  | nil =>
    exact ⟨hregular, hqueued, [], [], rfl, fun _ hnone => (List.not_mem_nil hnone).elim,
      hidle ▸ .idle⟩
  | append_singleton moves move ih =>
    have hnext : first.run (moves ++ [move]) = (first.run moves).advance move :=
      run_append first moves [move]
    have hbefore := isOpen_of_prefix hopen (List.prefix_append moves [move])
    obtain ⟨hregular, hqueued, hdealt⟩ := ih hbefore
    rw [hnext] at hopen ⊢
    have hlater := hqueued.advance hopen
    refine ⟨hregular.advance hopen, hlater, ?_⟩
    rw [deskTurns_concat]
    rcases deskTurn?_cases (first.run moves) move with ⟨hstep, hturn⟩ | ⟨hdesk, hturn⟩
    · rw [hturn]
      exact hdealt.of_deskTurn hregular hstep hlater
    · rw [hturn, hdesk, Option.toList_none, List.append_nil]
      exact hdealt

/-- From some time on the desk waits for the end of a watcher that has neither lost its feed nor
ended. The first quote of that watcher had not come when the desk began to wait, and the mark of the
listing is not its own. -/
def Stuck (first : Session) (schedule : Nat → Move) : Prop :=
  ∃ n placing id, ∀ m, n ≤ m →
    (first.run (movesOf schedule m)).HeldUp placing id ∧
      ∃ earlier later, movesOf schedule m = earlier ++ later ∧
        AwaitsUnquotedSince first earlier later placing id

/-- Whatever client and feeds do, the desk answers one command after the other: it changes an order
only as the answer tells, and nothing if the command is rejected. Under a fair schedule every
command that it takes up is answered, or the desk is stuck. -/
theorem dealt_along (source : Source) (limit : Option Nat) (inboxCapacity outboxCapacity : Nat) :
    (∀ moves, ((start source limit inboxCapacity outboxCapacity).run moves).IsOpen →
      Dealt ((start source limit inboxCapacity outboxCapacity).run moves).desk
        ((start source limit inboxCapacity outboxCapacity).deskTurns moves)) ∧
    ∀ schedule, 0 < outboxCapacity → Fair schedule →
      (∀ n, ((start source limit inboxCapacity outboxCapacity).run (movesOf schedule n)).IsOpen) →
      (∀ n, ∃ m, n ≤ m ∧ ((start source limit inboxCapacity outboxCapacity).run
        (movesOf schedule m)).quoteSettled = true) →
      (∀ n, ∃ m, n ≤ m ∧ ((start source limit inboxCapacity outboxCapacity).run
        (movesOf schedule m)).desk = .idle) ∨
      Stuck (start source limit inboxCapacity outboxCapacity) schedule := by
  constructor
  · intro moves hopen
    exact (dealt_run rfl (regular_start _ _ _ _) (queued_start _ _ _ _) hopen).2.2
  · intro schedule hcapacity hfair hopen hquotes
    have hcourse := course_of_fair (kept_start source limit inboxCapacity hcapacity) hfair hopen
    refine (hcourse.exists_idle_or_heldUp hquotes).imp_right ?_
    rintro ⟨n, placing, id, hheldUp⟩
    refine ⟨n, placing, id, fun m hm => ⟨hheldUp m hm, ?_⟩⟩
    have hawaits := awaitsLost_or_awaitsUnquotedSince rfl
      (marked_start source limit inboxCapacity outboxCapacity) (hopen m) (hheldUp m hm).desk
    refine hawaits.resolve_left fun ⟨lost, hlost, _, hhasLost⟩ => ?_
    obtain ⟨watcher, hwatcher, hnot, _⟩ := (hheldUp m hm).watcher
    rw [hlost] at hwatcher
    cases hwatcher
    rw [hhasLost] at hnot
    cases hnot

/-! ## Runs that come to rest -/

/-- Nobody can take a turn, and the client has every event. -/
structure Rests (session : Session) : Prop where
  desk : session.deskStep = none
  watchers : ∀ id < session.watchers.length, session.watcherStep id = none
  taken : session.outbox.events.length ≤ session.outbox.taken

/-- Whatever duty comes next, a session at rest stays as it is. -/
theorem Rests.advance_duty (h : session.Rests) (k : Nat) : session.advance (duty k) = session := by
  match k with
  | 0 =>
    have hnone : session.outbox.take? = none := by
      rw [Outbox.take?, List.getElem?_eq_none h.taken]
    simp only [duty, advance, meet, hnone]
  | 1 => exact @advance_turn_of_waits session .desk h.desk
  | id + 2 =>
    refine @advance_turn_of_waits session (.watcher id) ?_
    by_cases hid : id < session.watchers.length
    · exact h.watchers id hid
    · rw [step, watcherStep, List.getElem?_eq_none (Nat.le_of_not_lt hid)]
      rfl

/-- A schedule that makes some moves first, and then every duty again and again. -/
def roundsAfter (moves : List Move) (n : Nat) : Move := moves.getD n (rounds n)

/-- Rounds of every duty are fair, whatever was done before them. -/
theorem fair_roundsAfter (moves : List Move) : Fair (roundsAfter moves) := by
  have hlater : ∀ k n, ∃ m, n ≤ m ∧ roundsAfter moves m = duty k := by
    intro k n
    obtain ⟨m, hm, hround⟩ := exists_rounds k (max n moves.length)
    refine ⟨m, Nat.le_trans (Nat.le_max_left _ _) hm, ?_⟩
    rw [roundsAfter, List.getD,
      List.getElem?_eq_none (Nat.le_trans (Nat.le_max_right _ _) hm), Option.getD_none, hround]
  refine ⟨fun actor n => ?_, hlater 0⟩
  cases actor with
  | desk => exact hlater 1 n
  | watcher id => exact hlater (id + 2) n

/-- Where everything rests after those moves, nothing more happens. -/
theorem Rests.run_roundsAfter {moves : List Move} (h : (first.run moves).Rests) (n : Nat) :
    first.run (movesOf (roundsAfter moves) n) = first.run (moves.take n) := by
  induction n with
  | zero => rfl
  | succ n ih =>
    rw [run_movesOf_succ, ih]
    by_cases hn : n < moves.length
    · rw [roundsAfter, List.getD, List.getElem?_eq_getElem hn, Option.getD_some,
        List.take_succ_eq_append_getElem hn, run_append]
      rfl
    · have hle := Nat.le_of_not_lt hn
      rw [List.take_of_length_le hle, List.take_of_length_le (Nat.le_succ_of_le hle), roundsAfter,
        List.getD, List.getElem?_eq_none hle, Option.getD_none]
      exact h.advance_duty _

/-- An order is placed, and then everything rests. -/
def placedMoves : List Move :=
  [.stimulus (.push ⟨"B", "X"⟩ (.ofPrices "X" [60])),
    .stimulus (.send { kind := .alert, oid := "a", symbol := "X", brokers := ["B"], price := 50 }),
    .turn .desk, .turn (.watcher 0), .turn (.watcher 0), .turn .desk, .turn .desk,
    .stimulus .take]

/-- The order that is placed is dealt with, and the desk is idle again and again. -/
theorem dealt_along_placed :
    0 < 1 ∧ Fair (roundsAfter placedMoves) ∧
      (∀ n, ((start ⟨none, .new⟩ none 4 1).run (movesOf (roundsAfter placedMoves) n)).IsOpen) ∧
      Dealt .idle ((start ⟨none, .new⟩ none 4 1).deskTurns placedMoves) ∧
      ((∀ n, ∃ m, n ≤ m ∧ ((start ⟨none, .new⟩ none 4 1).run
          (movesOf (roundsAfter placedMoves) m)).desk = .idle) ∨
        Stuck (start ⟨none, .new⟩ none 4 1) (roundsAfter placedMoves)) := by
  have hrests : ((start ⟨none, .new⟩ none 4 1).run placedMoves).Rests :=
    ⟨by decide +kernel, by decide +kernel, by decide +kernel⟩
  have hlast : ((start ⟨none, .new⟩ none 4 1).run placedMoves).IsOpen :=
    ⟨by decide +kernel, by decide +kernel⟩
  have hidle : ((start ⟨none, .new⟩ none 4 1).run placedMoves).desk = .idle := by decide +kernel
  have hopen : ∀ n,
      ((start ⟨none, .new⟩ none 4 1).run (movesOf (roundsAfter placedMoves) n)).IsOpen := by
    intro n
    rw [hrests.run_roundsAfter]
    exact isOpen_of_prefix hlast (List.take_prefix n _)
  have hquotes : ∀ n, ∃ m, n ≤ m ∧ ((start ⟨none, .new⟩ none 4 1).run
      (movesOf (roundsAfter placedMoves) m)).quoteSettled = true := by
    intro n
    refine ⟨max n placedMoves.length, Nat.le_max_left _ _, ?_⟩
    rw [hrests.run_roundsAfter, List.take_of_length_le (Nat.le_max_right _ _), quoteSettled, hidle]
  have hdealt := (dealt_along ⟨none, .new⟩ none 4 1).1 placedMoves hlast
  rw [hidle] at hdealt
  exact ⟨Nat.one_pos, fair_roundsAfter _, hopen, hdealt,
    (dealt_along ⟨none, .new⟩ none 4 1).2 _ Nat.one_pos (fair_roundsAfter _) hopen hquotes⟩

/-- A feed is lost, the next order starts another watcher and is rejected when no first quote comes
within the limit, and then there is one more order. Only now the feed goes live. -/
def overdueMoves : List Move :=
  unquotedMoves ++ [.stimulus (.push ⟨"B", "X"⟩ (.ofPrices "X" [70])), .turn (.watcher 1),
    .turn (.watcher 1), .stimulus .take, .stimulus .take, .stimulus .take]

/-- The session at the end of that run. -/
def overdue : Session := (start ⟨none, .new⟩ (some 50) 4 8).run overdueMoves

/-- The desk is never done with that order, although everybody gets turns, the client takes every
event, and no first quote is waited for. -/
theorem unanswered_live :
    Fair (roundsAfter overdueMoves) ∧
      (∀ n, overdueMoves.length ≤ n → (start ⟨none, .new⟩ (some 50) 4 8).run
        (movesOf (roundsAfter overdueMoves) n) = overdue) ∧
      overdue.IsOpen ∧ overdue.quoteSettled = true ∧
      overdue.watchers.map (·.phase) = [.ended .retired, .following 1 []] ∧
      overdue.desk.command?.map Command.oid = some "c" ∧
      ∀ event ∈ overdue.outbox.events, event.oid ≠ "c" := by
  have hrests : ((start ⟨none, .new⟩ (some 50) 4 8).run overdueMoves).Rests :=
    ⟨by decide +kernel, by decide +kernel, by decide +kernel⟩
  refine ⟨fair_roundsAfter _, fun n hn => ?_, ⟨by decide +kernel, by decide +kernel⟩,
    by decide +kernel, by decide +kernel, by decide +kernel, by decide +kernel⟩
  rw [hrests.run_roundsAfter, List.take_of_length_le hn, overdue]

end Session

end TriggerDesk
