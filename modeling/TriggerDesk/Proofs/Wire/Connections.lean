import TriggerDesk.Proofs.Session.Replies
import TriggerDesk.Proofs.Session.Stages
import TriggerDesk.Proofs.Wire.Framing
import TriggerDesk.Wire.Connection

/-!
# Runs of a connection

What happens to a connection whose client takes every line: turns of the session, of the reader and
of the writer in any order, bytes that the client sends, and whatever the feeds do. `Turn` has every
kind of turn of a connection that is not over (`turn_of_step`), and such a connection stays in order
or is over after it (`Turn.isServing_or_isOver`). The session is over only after the reader has
ended and the desk has answered every command.
-/

namespace TriggerDesk

open Market TriggerDesk.Order Feed

/-- Whether a reader waits to put a rejection. -/
def Wire.Reader.isRefusing : Reader → Bool
  | refusing _ => true
  | reading | forwarding _ | ended => false

namespace Wire.Connection

variable {connection next : Connection} {actor : Actor}

/-! ## Moves -/

/-- One thing that happens to a connection. The client takes every line that is written. -/
inductive Move where
  | turn (actor : Actor)
  /-- The client sends bytes. -/
  | write (bytes : List UInt8)
  /-- The client sends no more bytes. -/
  | closeWriting
  /-- The feeds do something: from now on the session reads these. -/
  | feeds (source : Source)
  | wait (milliseconds : Nat)
  deriving DecidableEq, Repr

/-- The connection after a move. Who has to wait does nothing. -/
def advance (connection : Connection) : Move → Connection
  | .turn actor => (step actor connection).getD connection
  | .write bytes => (connection.write bytes).2
  | .closeWriting => connection.closeWriting
  | .feeds source => connection.withSession { connection.session with source }
  | .wait milliseconds => connection.withSession (connection.session.meet (.wait milliseconds))

/-- A turn that can be taken is taken. -/
theorem advance_turn (h : step actor connection = some next) :
    connection.advance (.turn actor) = next := by
  simp only [advance, h, Option.getD_some]

/-- A turn of somebody who has to wait changes nothing. -/
theorem advance_turn_of_waits (h : step actor connection = none) :
    connection.advance (.turn actor) = connection := by
  simp only [advance, h, Option.getD_none]

/-- A move is a turn that somebody takes, or something that the world does: time passes, feeds
change, and bytes come as long as the client may send any. -/
theorem advance_cases (connection : Connection) (move : Move) :
    (∃ actor, move = .turn actor ∧ step actor connection = some (connection.advance move)) ∨
      ∃ source clock incoming,
        connection.advance move = { connection with
          session := { connection.session with source, clock }, incoming } ∧
        (∀ actor, move = .turn actor → step actor connection = none) ∧
        connection.session.clock ≤ clock ∧
        (connection.incoming.isOpen = false → incoming = connection.incoming) := by
  have hclosed : connection.incoming.isOpen = false →
      { connection.incoming with isOpen := false } = connection.incoming :=
    fun hopen => hopen ▸ rfl
  cases move with
  | turn actor =>
    cases hstep : step actor connection with
    | none =>
      rw [advance_turn_of_waits hstep]
      refine .inr ⟨_, _, _, rfl, fun other heq => ?_, Nat.le_refl _, fun _ => rfl⟩
      cases heq
      exact hstep
    | some next =>
      rw [advance_turn hstep]
      exact .inl ⟨actor, rfl, hstep⟩
  | write bytes =>
    simp only [advance, write]
    split
    · exact .inr ⟨_, _, _, rfl, nofun, Nat.le_refl _, hclosed⟩
    · next hopen =>
      refine .inr ⟨_, _, _, rfl, nofun, Nat.le_refl _, fun hended => ?_⟩
      rw [hended, Bool.not_false, Bool.or_true] at hopen
      exact absurd rfl hopen
  | closeWriting => exact .inr ⟨_, _, _, rfl, nofun, Nat.le_refl _, hclosed⟩
  | feeds => exact .inr ⟨_, _, _, rfl, nofun, Nat.le_refl _, fun _ => rfl⟩
  | wait milliseconds =>
    exact .inr ⟨_, _, _, rfl, nofun, Nat.le_add_right _ _, fun _ => rfl⟩

/-- The connection after some moves. -/
def run (connection : Connection) (moves : List Move) : Connection := moves.foldl advance connection

/-- One move more is made at the end of a run. -/
theorem run_concat (connection : Connection) (moves : List Move) (move : Move) :
    connection.run (moves ++ [move]) = (connection.run moves).advance move :=
  List.foldl_append

/-- The bytes that the client sends in a move. -/
def Move.bytes : Move → List UInt8
  | write bytes => bytes
  | turn _ | closeWriting | feeds _ | wait _ => []

/-- The bytes that the client sends before it closes its side. -/
def sent (moves : List Move) : List UInt8 :=
  (moves.takeWhile (· ≠ .closeWriting)).flatMap Move.bytes

/-- The client sends more in one more move, unless it has closed its side. -/
theorem sent_concat (moves : List Move) (move : Move) :
    sent (moves ++ [move]) =
      if Move.closeWriting ∈ moves then sent moves else sent moves ++ move.bytes := by
  unfold sent
  split
  · next hclosed =>
    have hshort : ¬ (moves.takeWhile (· ≠ .closeWriting)).length = moves.length := by
      intro hlength
      have hall := (List.takeWhile_prefix (· ≠ Move.closeWriting)).eq_of_length hlength
      have hkept := List.all_eq_true.1 List.all_takeWhile _ (hall.symm ▸ hclosed)
      simp at hkept
    rw [List.takeWhile_append, if_neg hshort]
  · next hclosed =>
    have hkept : ∀ other ∈ moves, (other ≠ Move.closeWriting : Bool) = true := by
      intro other hother
      simpa using fun heq : other = .closeWriting => hclosed (heq ▸ hother)
    have hself := @List.takeWhile_append_of_pos _ _ _ [] hkept
    rw [List.append_nil, List.takeWhile_nil, List.append_nil] at hself
    rw [List.takeWhile_append_of_pos hkept, List.flatMap_append, hself]
    cases move <;> simp [Move.bytes]

/-! ## Connections in order -/

/-- The session is not over, and all of the connection is in order. -/
structure IsServing (connection : Connection) : Prop where
  listening : connection.listening = true
  regular : connection.session.Regular
  queued : connection.session.Queued connection.reader.isRefusing
  roomy : 0 < connection.session.outbox.capacity
  joined : connection.session.inbox.receiving = true
  sending : connection.session.inbox.sending = true ↔ connection.reader ≠ .ended
  bounded : connection.session.inbox.items.length ≤ connection.session.inbox.capacity
  spacious : 0 < connection.session.inbox.capacity

/-- The session is over, and nobody puts events any more. -/
structure IsOver (connection : Connection) : Prop where
  listening : connection.listening = true
  receiving : connection.session.outbox.receiving = true
  desk : connection.session.desk = .ended
  inbox : connection.session.inbox.items = []
  reader : connection.reader = .ended
  watchers : ∀ (id : WatcherId) (watcher : Watcher),
    connection.session.watchers[id]? = some watcher → watcher.phase.isEnded = true

/-- A connection starts in order. -/
theorem isServing_start (source : Source) (limit : Option Nat) :
    (start source limit).IsServing where
  listening := rfl
  regular := Session.regular_start _ _ _ _
  queued := Session.queued_start _ _ _ _
  roomy := Nat.succ_pos _
  joined := rfl
  sending := ⟨fun _ => nofun, fun _ => rfl⟩
  bounded := Nat.zero_le _
  spacious := Nat.succ_pos _

/-- While all is in order, the session is not over. -/
theorem IsServing.not_isEnded (h : connection.IsServing) : connection.session.isEnded = false := by
  have hrunning := h.queued.running
  unfold Session.isEnded
  cases hdesk : connection.session.desk with
  | ended => exact absurd hdesk hrunning
  | idle | awaitEnd | awaitQuote | awaitPlace | awaitMove | answering => rfl

/-! ## Turns -/

/-- What a turn of the reader does, as long as the session is not over. -/
inductive ReaderTurn (connection next : Connection) : Prop where
  /-- A blank line is passed over. -/
  | skip (text : String) (rest : Lines) :
      connection.reader = .reading → connection.incoming.next = .line text rest →
      Text.isBlankText text = true → next = { connection with incoming := rest } →
      ReaderTurn connection next
  /-- A line is a command. -/
  | take (text : String) (rest : Lines) (command : Command) :
      connection.reader = .reading → connection.incoming.next = .line text rest →
      Text.isBlankText text = false → decodeLine text = .ok command →
      next = { connection with incoming := rest, reader := .forwarding command } →
      ReaderTurn connection next
  /-- A line is none. -/
  | refuse (text : String) (rest : Lines) (event : Event) :
      connection.reader = .reading → connection.incoming.next = .line text rest →
      Text.isBlankText text = false → decodeLine text = .error event →
      next = { connection with
        incoming := rest, reader := .refusing event
        session := (connection.session.count (.rejects "unsupported") 1).announce
          .reader event } →
      ReaderTurn connection next
  /-- A command goes to the desk. -/
  | forward (command : Command) (inbox : Channel Command) :
      connection.reader = .forwarding command →
      connection.session.inbox.send command = .ok inbox →
      next = { connection with
        session := { connection.session with inbox }, reader := .reading } →
      ReaderTurn connection next
  /-- A rejection is put. -/
  | put (event : Event) :
      connection.reader = .refusing event → Party.reader ∈ connection.session.outbox.granted →
      next = { connection with
        session := connection.session.put .reader event, reader := .reading } →
      ReaderTurn connection next
  /-- Nothing more can be read. -/
  | stop :
      connection.reader = .reading →
      (connection.incoming.next = .ended ∨ connection.incoming.next = .unreadable) →
      next = connection.endReading → ReaderTurn connection next

/-- A step of the reader is one of these turns, or it ends because the session is over, or nobody
takes what it holds. -/
theorem readerTurn_or_of_readerStep (hstep : connection.readerStep = some next) :
    ReaderTurn connection next ∨ next = connection.endReading ∧
      (connection.session.isEnded = true ∨ connection.session.inbox.receiving = false ∨
        connection.session.outbox.receiving = false) := by
  unfold readerStep at hstep
  cases hreader : connection.reader with
  | ended =>
    rw [hreader] at hstep
    cases hstep
  | reading =>
    rw [hreader] at hstep
    dsimp only at hstep
    split at hstep
    · next hended =>
      cases hstep
      exact .inr ⟨rfl, .inl hended⟩
    cases hnext : connection.incoming.next with
    | pending =>
      rw [hnext] at hstep
      cases hstep
    | ended =>
      rw [hnext] at hstep
      cases hstep
      exact .inl (.stop hreader (.inl hnext) rfl)
    | unreadable =>
      rw [hnext] at hstep
      cases hstep
      exact .inl (.stop hreader (.inr hnext) rfl)
    | line text rest =>
      rw [hnext] at hstep
      cases hstep
      left
      unfold readLine
      split
      · next hblank => exact .skip text rest hreader hnext hblank (by rw [hreader])
      · next hblank =>
        have hblank := Bool.not_eq_true _ ▸ hblank
        split
        · next command hdecode => exact .take text rest command hreader hnext hblank hdecode rfl
        · next event hdecode => exact .refuse text rest event hreader hnext hblank hdecode rfl
  | forwarding command =>
    rw [hreader] at hstep
    dsimp only at hstep
    split at hstep
    · next inbox hsend =>
      cases hstep
      exact .inl (.forward command inbox hreader hsend rfl)
    · cases hstep
    · next hclosed =>
      cases hstep
      -- A send fails for good only when nobody receives.
      exact .inr ⟨rfl, .inr (.inl (Bool.eq_false_iff.2 fun hjoined =>
        Channel.send_ne_closed hjoined hclosed))⟩
  | refusing event =>
    rw [hreader] at hstep
    dsimp only at hstep
    split at hstep
    · next hended =>
      cases hstep
      exact .inr ⟨rfl, .inl hended⟩
    split at hstep
    · cases hstep
    · next hclosed =>
      cases hstep
      exact .inr ⟨rfl, .inr (.inr (Outbox.receiving_of_closed hclosed))⟩
    · next hgranted =>
      cases hstep
      exact .inl (.put event hreader (Outbox.mem_granted_of_standing hgranted) rfl)

/-- A step of the reader does what its turn may do. -/
theorem IsServing.readerTurn_of_readerStep (h : connection.IsServing)
    (hstep : connection.readerStep = some next) : ReaderTurn connection next := by
  rcases readerTurn_or_of_readerStep hstep with hturn | ⟨_, hended | hinbox | houtbox⟩
  · exact hturn
  · rw [h.not_isEnded] at hended
    cases hended
  · rw [h.joined] at hinbox
    cases hinbox
  · rw [h.queued.receiving] at houtbox
    cases houtbox

/-- The writer writes the next event. -/
def Writes (connection next : Connection) : Prop :=
  ∃ event outbox, connection.session.outbox.take? = some (event, outbox) ∧
    next = { connection with
      session := { connection.session with outbox }
      outgoing := connection.outgoing ++ [eventLine event] }

/-- A step of the writer writes the next event. -/
theorem writes_of_writerStep (hlistening : connection.listening = true)
    (hstep : connection.writerStep = some next) : Writes connection next := by
  unfold writerStep at hstep
  dsimp only at hstep
  split at hstep
  · cases hstep
  · next event outbox htake =>
    rw [if_pos hlistening] at hstep
    cases hstep
    exact ⟨event, outbox, htake, rfl⟩

/-- What a turn does, as long as the session is not over. -/
inductive Turn (connection next : Connection) : Actor → Prop where
  /-- The session goes on. -/
  | session (actor : Session.Actor) (after : Session) :
      Session.step actor connection.session = some after → after.IsOpen →
      next = connection.withSession after → Turn connection next (.session actor)
  /-- The session ends for want of commands. -/
  | finish :
      connection.session.desk = .idle → connection.session.inbox.isEnded = true →
      next = connection.withSession connection.session.shutDown →
      Turn connection next (.session .desk)
  | reader : ReaderTurn connection next → Turn connection next .reader
  | writer : Writes connection next → Turn connection next .writer

/-- A step of anybody does what their turn may do. -/
theorem IsServing.turn_of_step (h : connection.IsServing)
    (hstep : step actor connection = some next) : Turn connection next actor := by
  cases actor with
  | session actor =>
    obtain ⟨after, hafter, rfl⟩ := Option.map_eq_some_iff.1 hstep
    by_cases hended : after.desk = .ended
    · -- Only the desk ends a session, and only when no command is left.
      cases actor with
      | desk =>
        rcases Session.onward_of_deskStep hafter with
          ⟨_, hrunning, _⟩ | honward | ⟨rfl, hleft | ⟨hidle, hno⟩⟩
        · exact absurd hended hrunning
        · exact absurd hended honward.running
        · rw [h.queued.receiving] at hleft
          cases hleft
        · exact .finish hidle hno rfl
      | watcher id =>
        obtain ⟨_, _, hreplaces, _⟩ := Session.watcherTurn_of_watcherStep hafter
        exact absurd (hreplaces.desk ▸ hended) h.queued.running
    · refine .session actor after hafter ⟨?_, hended⟩ rfl
      cases actor with
      | desk => exact (Session.deskTurn_of_deskStep hafter).receiving.trans h.queued.receiving
      | watcher id =>
        obtain ⟨_, _, hreplaces, _⟩ := Session.watcherTurn_of_watcherStep hafter
        exact hreplaces.receiving.trans h.queued.receiving
  | reader => exact .reader (h.readerTurn_of_readerStep hstep)
  | writer => exact .writer (writes_of_writerStep h.listening hstep)

/-- Who takes a turn in the session takes one on the connection. -/
theorem exists_step_of_session {actor : Session.Actor}
    (h : ∃ after, Session.step actor connection.session = some after) :
    ∃ next, step (.session actor) connection = some next := by
  obtain ⟨after, hafter⟩ := h
  exact ⟨_, congrArg (Option.map connection.withSession) hafter⟩

/-! ## Staying in order -/

/-- What comes in is all that a turn changes in the inbox, and it stays within bounds. -/
theorem inbox_of_step {session after : Session} {actor : Session.Actor}
    (hstep : Session.step actor session = some after) (hopen : after.IsOpen) :
    after.inbox = session.inbox ∨
      ∃ command, session.inbox.receive? = some (command, after.inbox) := by
  cases actor with
  | desk =>
    rcases Session.onward_of_open hstep hopen with ⟨_, hreceive⟩ | honward
    · exact .inr hreceive
    · exact .inl honward.inbox
  | watcher id =>
    obtain ⟨_, _, hreplaces, _⟩ := Session.watcherTurn_of_watcherStep hstep
    exact .inl hreplaces.inbox

/-- A session that goes on stays in order. -/
theorem IsServing.of_step (h : connection.IsServing) {actor : Session.Actor} {after : Session}
    (hstep : Session.step actor connection.session = some after) (hopen : after.IsOpen) :
    (connection.withSession after).IsServing := by
  have hlined := Session.lined_of_step h.queued hstep hopen
  have hinbox : after.inbox.receiving = connection.session.inbox.receiving ∧
      after.inbox.sending = connection.session.inbox.sending ∧
      after.inbox.capacity = connection.session.inbox.capacity ∧
      after.inbox.items.length ≤ connection.session.inbox.items.length := by
    -- A turn of the session takes one command out of the inbox at most, and never closes it.
    rcases inbox_of_step hstep hopen with hsame | ⟨command, hreceive⟩
    · rw [hsame]
      exact ⟨rfl, rfl, rfl, Nat.le_refl _⟩
    · obtain ⟨hitems, hrest⟩ := Channel.eq_of_receive hreceive
      rw [hrest, hitems]
      exact ⟨rfl, rfl, rfl, Nat.le_succ _⟩
  obtain ⟨hreceiving, hsending, hcapacity, hlength⟩ := hinbox
  exact {
    listening := h.listening
    regular := h.regular.of_step hstep hopen
    queued := hlined.queued
    roomy := hlined.capacity.symm ▸ h.roomy
    joined := hreceiving.trans h.joined
    sending := by
      show after.inbox.sending = true ↔ _
      rw [hsending]
      exact h.sending
    bounded := by
      show after.inbox.items.length ≤ after.inbox.capacity
      rw [hcapacity]
      exact Nat.le_trans hlength h.bounded
    spacious := by
      show 0 < after.inbox.capacity
      rw [hcapacity]
      exact h.spacious }

/-- A session that shuts down when its commands have ended is over, and puts no event any more. -/
theorem isOver_shutDown (h : connection.IsServing)
    (hended : connection.session.inbox.isEnded = true) :
    (connection.withSession connection.session.shutDown).IsOver where
  listening := h.listening
  receiving := (Outbox.receiving_withdraw _ _).trans
    ((Session.receiving_stopWatchers _ _).trans h.queued.receiving)
  desk := rfl
  inbox := rfl
  reader := by
    by_contra hrunning
    have hsending := h.sending.2 hrunning
    simp [Channel.isEnded, hsending] at hended
  watchers id watcher hwatcher := by
    have hstopped : connection.session.shutDown.watchers[id]? = some watcher := hwatcher
    rw [(Session.closes_shutDown _).watchers, List.getElem?_map] at hstopped
    obtain ⟨old, _, rfl⟩ := Option.map_eq_some_iff.1 hstopped
    exact Watcher.isEnded_stop _ _

/-- What the reader leaves alone. -/
structure Untouched (connection next : Connection) : Prop where
  desk : next.session.desk = connection.session.desk
  watchers : next.session.watchers = connection.session.watchers
  spawned : next.session.spawned = connection.session.spawned
  book : next.session.book = connection.session.book
  clock : next.session.clock = connection.session.clock
  listening : next.listening = connection.listening

/-- The reader leaves the rest of the connection alone. -/
theorem ReaderTurn.untouched (hturn : ReaderTurn connection next) : Untouched connection next := by
  cases hturn with
  | skip _ _ _ _ _ hnext | take _ _ _ _ _ _ _ hnext | refuse _ _ _ _ _ _ _ hnext
  | forward _ _ _ _ hnext | put _ _ _ hnext | stop _ _ hnext =>
    subst hnext
    exact ⟨rfl, rfl, rfl, rfl, rfl, rfl⟩

/-- After a turn of the reader its place in the line is as it should be. -/
theorem IsServing.lined_of_readerTurn (h : connection.IsServing)
    (hturn : ReaderTurn connection next) :
    connection.session.Lined next.session .reader next.reader.isRefusing
      next.reader.isRefusing := by
  have hqueued := h.queued
  -- A reader that needs no place stands nowhere.
  have hnowhere : ∀ {session : Session} {refusing : Bool}, connection.reader.isRefusing = false →
      session.outbox = connection.session.outbox → session.desk = connection.session.desk →
      session.watchers = connection.session.watchers →
      connection.session.Lined session .reader false refusing := by
    intro session refusing hreader houtbox hdesk hwatchers
    rw [hreader] at hqueued
    have hlined : connection.session.Lined connection.session .reader false false :=
      hqueued.lined rfl
    refine (hlined.of_same houtbox (hdesk ▸ h.queued.running) fun other _ => ?_).of_reader _
    cases other with
    | desk => exact congrArg Desk.needsPlace hdesk
    | reader => rfl
    | watcher id =>
      rw [Session.needsPlace, Session.needsPlace, Session.held, Session.held, hwatchers]
  cases hturn with
  | skip text rest hreader _ _ hnext =>
    subst hnext
    have hnone : connection.reader.isRefusing = false := by rw [hreader]; rfl
    show connection.session.Lined connection.session .reader connection.reader.isRefusing _
    rw [hnone]
    exact hnowhere hnone rfl rfl rfl
  | take text rest command hreader _ _ _ hnext =>
    subst hnext
    exact hnowhere (by rw [hreader]; rfl) rfl rfl rfl
  | refuse text rest event hreader _ _ _ hnext =>
    subst hnext
    have hlined : connection.session.Lined connection.session .reader false true :=
      hnowhere (by rw [hreader]; rfl) rfl rfl rfl
    exact (hlined.count _ _).announce event
  | forward command inbox hreader _ hnext =>
    subst hnext
    exact hnowhere (by rw [hreader]; rfl) rfl rfl rfl
  | put event hreader hgranted hnext =>
    subst hnext
    exact (h.queued.put hgranted event).of_reader _
  | stop hreader _ hnext =>
    subst hnext
    have hlined := h.queued.withdraw .reader
    have hended : connection.session.Lined connection.endReading.session .reader false _ :=
      hlined.of_same rfl hlined.running fun _ _ => rfl
    exact hended.of_reader _

/-- A turn of the reader leaves the connection in order. -/
theorem IsServing.of_readerTurn (h : connection.IsServing) (hturn : ReaderTurn connection next) :
    next.IsServing := by
  have hlined := h.lined_of_readerTurn hturn
  have hsame := hturn.untouched
  -- The reader is the only sender, so the inbox has one until the reader ends.
  have hinbox : next.session.inbox.receiving = true ∧
      (next.session.inbox.sending = true ↔ next.reader ≠ .ended) ∧
      next.session.inbox.items.length ≤ next.session.inbox.capacity ∧
      0 < next.session.inbox.capacity := by
    have hsending := h.sending
    cases hturn with
    | skip text rest hreader _ _ hnext =>
      subst hnext
      exact ⟨h.joined, h.sending, h.bounded, h.spacious⟩
    | take text rest command hreader _ _ _ hnext | refuse text rest event hreader _ _ _ hnext =>
      subst hnext
      rw [hreader] at hsending
      exact ⟨h.joined, ⟨fun _ => nofun, fun _ => hsending.2 nofun⟩, h.bounded, h.spacious⟩
    | forward command inbox hreader hsend hnext =>
      subst hnext
      rw [hreader] at hsending
      have hbounded := Channel.length_le_of_send hsend
      obtain ⟨_, rfl⟩ := Channel.eq_of_send hsend
      exact ⟨h.joined, ⟨fun _ => nofun, fun _ => hsending.2 nofun⟩, hbounded, h.spacious⟩
    | put event hreader hgranted hnext =>
      subst hnext
      rw [hreader] at hsending
      exact ⟨h.joined, ⟨fun _ => nofun, fun _ => hsending.2 nofun⟩, h.bounded, h.spacious⟩
    | stop hreader _ hnext =>
      subst hnext
      exact ⟨h.joined, ⟨nofun, fun hrunning => absurd rfl hrunning⟩, h.bounded, h.spacious⟩
  obtain ⟨hjoined, hsending, hbounded, hspacious⟩ := hinbox
  exact {
    listening := hsame.listening.trans h.listening
    regular := h.regular.of_same hsame.desk hsame.watchers hsame.spawned hsame.book
    queued := hlined.queued
    roomy := hlined.capacity.symm ▸ h.roomy
    joined := hjoined
    sending := hsending
    bounded := hbounded
    spacious := hspacious }

/-- Writing an event leaves the connection in order. -/
theorem IsServing.of_writes (h : connection.IsServing) (hwrites : Writes connection next) :
    next.IsServing := by
  obtain ⟨event, outbox, htake, rfl⟩ := hwrites
  exact {
    listening := h.listening
    regular := h.regular.of_same rfl rfl rfl rfl
    queued := h.queued.of_take htake
    roomy := (Outbox.line_take? htake).2.symm ▸ h.roomy
    joined := h.joined
    sending := h.sending
    bounded := h.bounded
    spacious := h.spacious }

/-- What the world does to a connection that it does not end. -/
theorem IsServing.of_same (h : connection.IsServing) (source : Source) (clock : Nat)
    (incoming : Lines) :
    { connection with
      session := { connection.session with source, clock }, incoming }.IsServing where
  listening := h.listening
  regular := h.regular.of_same rfl rfl rfl rfl
  queued := { h.queued with }
  roomy := h.roomy
  joined := h.joined
  sending := h.sending
  bounded := h.bounded
  spacious := h.spacious

/-- A turn leaves the connection in order, or the session is over after it. -/
theorem Turn.isServing_or_isOver (hturn : Turn connection next actor) (h : connection.IsServing) :
    next.IsServing ∨ next.IsOver := by
  cases hturn with
  | session actor after hstep hopen hnext => exact .inl (hnext ▸ h.of_step hstep hopen)
  | finish _ hended hnext => exact .inr (hnext ▸ isOver_shutDown h hended)
  | reader hturn => exact .inl (h.of_readerTurn hturn)
  | writer hwrites => exact .inl (h.of_writes hwrites)

/-- Only the writer takes turns when the session is over. -/
theorem IsOver.writes_of_step (h : connection.IsOver) (hstep : step actor connection = some next) :
    Writes connection next := by
  cases actor with
  | session actor =>
    obtain ⟨after, hafter, _⟩ := Option.map_eq_some_iff.1 hstep
    cases actor with
    | desk =>
      rw [Session.step, Session.deskStep_of_ended h.desk] at hafter
      cases hafter
    | watcher id =>
      obtain ⟨watcher, _, hreplaces, _⟩ := Session.watcherTurn_of_watcherStep hafter
      have hwaits := Session.watcherStep_of_ended hreplaces.was (h.watchers id _ hreplaces.was)
      rw [Session.step, hwaits] at hafter
      cases hafter
  | reader =>
    unfold step readerStep at hstep
    rw [h.reader] at hstep
    cases hstep
  | writer => exact writes_of_writerStep h.listening hstep

/-- Writing an event leaves a session over. -/
theorem IsOver.of_writes (h : connection.IsOver) (hwrites : Writes connection next) :
    next.IsOver := by
  obtain ⟨event, outbox, htake, rfl⟩ := hwrites
  exact { h with receiving := (Outbox.take?_eq_some htake).2.2.2.trans h.receiving }

/-- What the world does to a connection when the session is over. -/
theorem IsOver.of_same (h : connection.IsOver) (source : Source) (clock : Nat)
    (incoming : Lines) :
    { connection with
      session := { connection.session with source, clock }, incoming }.IsOver :=
  { h with }

/-- A move leaves the connection in order, or the session is over after it. -/
theorem IsServing.advance (h : connection.IsServing) (move : Move) :
    (connection.advance move).IsServing ∨ (connection.advance move).IsOver := by
  rcases connection.advance_cases move with
    ⟨actor, _, hstep⟩ | ⟨source, clock, incoming, hnext, _⟩
  · exact (h.turn_of_step hstep).isServing_or_isOver h
  · rw [hnext]
    exact .inl (h.of_same source clock incoming)

/-- A session that is over stays so. -/
theorem IsOver.advance (h : connection.IsOver) (move : Move) :
    (connection.advance move).IsOver := by
  rcases connection.advance_cases move with
    ⟨actor, _, hstep⟩ | ⟨source, clock, incoming, hnext, _⟩
  · exact h.of_writes (h.writes_of_step hstep)
  · rw [hnext]
    exact h.of_same source clock incoming

end Wire.Connection

end TriggerDesk
