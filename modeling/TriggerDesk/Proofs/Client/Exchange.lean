import TriggerDesk.Client.Link
import TriggerDesk.Proofs.Client.Record
import TriggerDesk.Proofs.Session.Passage

/-!
# A client and its session, move by move

A run of a client that is joined to a session is a list of moves: calls of the client, turns of
the forwarder, of the consumer and of everyone in the session, whatever the feeds do, and time
that passes. Who has to wait does nothing in its turn, so every list of moves is a run.

`Link.slip?` finds the moves in which the consumer hears of a command that was rejected, though
it places no order, and the ledger lets go of an order of that id that it had sent: it does not know
the id after that (`absent_of_slip`).
-/

namespace TriggerDesk.Client

open TriggerDesk.Order Feed

namespace Link

variable {link next : Link} {oid : String} {record : Record}

/-- One thing that happens to a client and its session. -/
inductive Move where
  /-- The client asks its ledger for something. -/
  | call (call : Ledger.Call)
  | turn (actor : Actor)
  /-- The feeds do something: from now on the session reads these. -/
  | feeds (source : Source)
  | wait (milliseconds : Nat)
  deriving DecidableEq, Repr

/-- Changes the session. -/
def withSession (link : Link) (change : Session → Session) : Link :=
  match link.carrier with
  | .memory session => { link with carrier := .memory (change session) }
  | .wire connection =>
    { link with carrier := .wire (connection.withSession (change connection.session)) }

/-- The client and its session after a move. A call that is refused changes nothing. -/
def advance (link : Link) : Move → Link
  | .call call =>
    match link.ledger.answer call with
    | .ok ledger => { link with ledger }
    | .error _ => link
  | .turn actor => (step actor link).getD link
  | .feeds source => link.withSession fun session => { session with source }
  | .wait milliseconds => link.withSession (·.meet (.wait milliseconds))

/-- A turn that can be taken is what a move to it makes of the link. -/
theorem advance_turn {actor : Actor} (h : step actor link = some next) :
    link.advance (.turn actor) = next := by
  simp only [advance, h, Option.getD_some]

/-- A turn that cannot be taken changes nothing. -/
theorem advance_turn_of_waits {actor : Actor} (h : step actor link = none) :
    link.advance (.turn actor) = link := by
  simp only [advance, h, Option.getD_none]

/-- The client and its session after some moves. -/
def run (link : Link) (moves : List Move) : Link := moves.foldl advance link

@[simp]
theorem run_nil (link : Link) : link.run [] = link := rfl

@[simp]
theorem run_cons (link : Link) (move : Move) (moves : List Move) :
    link.run (move :: moves) = (link.advance move).run moves := rfl

/-- A run may be cut anywhere. -/
theorem run_append (link : Link) (first second : List Move) :
    link.run (first ++ second) = (link.run first).run second :=
  List.foldl_append

/-! ## Orders that slip -/

/-- The event that the client takes in a move. -/
def heard? (link : Link) : Move → Option Event
  | .turn .consumer => if link.consuming then link.carrier.take?.bind (·.1) else none
  | .turn _ | .call _ | .feeds _ | .wait _ => none

/-- The order that slips in a move: it is sent, and the ledger lets go of it because another
command under its id was rejected. -/
def slip? (link : Link) (move : Move) : Option String :=
  match link.heard? move with
  | some event =>
    if !event.concernsOrder && link.ledger.sent.contains event.oid then some event.oid else none
  | none => none

/-- An order slips when the client hears a rejection that is not about it, while it is only sent. -/
theorem slip?_eq_some {move : Move} :
    link.slip? move = some oid ↔ ∃ event, link.heard? move = some event ∧
      event.concernsOrder = false ∧ event.oid = oid ∧ link.ledger.sent.contains oid = true := by
  unfold slip?
  constructor
  · intro h
    split at h
    · next event hheard =>
      split at h
      · next hslips =>
        cases h
        simp only [Bool.and_eq_true, Bool.not_eq_true'] at hslips
        exact ⟨event, hheard, hslips.1, rfl, hslips.2⟩
      · cases h
    · cases h
  · rintro ⟨event, hheard, hconcerns, rfl, hsent⟩
    simp only [hheard, hconcerns, hsent, Bool.not_false, Bool.and_self, if_true]

/-- The orders that slip in a run. -/
def slips (link : Link) : List Move → List String
  | [] => []
  | move :: rest => (link.slip? move).toList ++ (link.advance move).slips rest

/-- What slips in a run slips in one of its moves. -/
theorem exists_slip_of_mem_slips {moves : List Move} (h : oid ∈ link.slips moves) :
    ∃ earlier move later, moves = earlier ++ move :: later ∧
      (link.run earlier).slip? move = some oid := by
  induction moves generalizing link with
  | nil => cases h
  | cons move rest ih =>
    rcases List.mem_append.1 h with hslip | hrest
    · exact ⟨[], move, rest, rfl, Option.mem_toList.1 hslip⟩
    · obtain ⟨earlier, found, later, rfl, hslip⟩ := ih hrest
      exact ⟨move :: earlier, found, later, rfl, hslip⟩

/-! ## Turns of the client -/

/-- The forwarder takes a command from the queue of the ledger, gives it to the carrier, or ends
because nobody takes commands there. -/
theorem forwarderStep_cases (h : link.forwarderStep = some next) :
    (∃ command queue, link.forwarder = .idle ∧
      link.ledger.queue.receive? = some (command, queue) ∧
      next = { link with
        ledger := { link.ledger with queue }, forwarder := .holding command }) ∨
    ∃ command, link.forwarder = .holding command ∧
      ((∃ carrier, link.carrier.give command = .taken carrier ∧
        next = { link with carrier, forwarder := .idle }) ∨
      link.carrier.give command = .closed ∧ next = link.endForwarding) := by
  unfold forwarderStep at h
  split at h
  · cases h
  · next hidle =>
    obtain ⟨⟨command, queue⟩, hreceive, rfl⟩ := Option.map_eq_some_iff.1 h
    exact .inl ⟨command, queue, hidle, hreceive, rfl⟩
  · next command hholding =>
    refine .inr ⟨command, hholding, ?_⟩
    cases hgive : link.carrier.give command with
    | taken carrier =>
      rw [hgive] at h
      cases h
      exact .inl ⟨carrier, rfl, rfl⟩
    | full =>
      rw [hgive] at h
      cases h
    | closed =>
      rw [hgive] at h
      cases h
      exact .inr ⟨rfl, rfl⟩

/-- The consumer takes what came first, and the client learns of it if it is an event. -/
theorem consumerStep_cases (h : link.consumerStep = some next) :
    ∃ heard carrier, link.carrier.take? = some (heard, carrier) ∧
      link.heard? (.turn .consumer) = heard ∧
      ((∃ event, heard = some event ∧ next = { link with carrier }.consume event) ∨
        heard = none ∧ next = { link with carrier }) := by
  unfold consumerStep at h
  split at h
  · next hconsuming =>
    have hheard : ∀ {heard carrier}, link.carrier.take? = some (heard, carrier) →
        link.heard? (.turn .consumer) = heard := by
      intro heard carrier htake
      simp only [heard?, hconsuming, htake, if_true]
      rfl
    split at h
    · cases h
    · next event carrier htake =>
      cases h
      exact ⟨_, carrier, htake, hheard htake, .inl ⟨event, rfl, rfl⟩⟩
    · next carrier htake =>
      cases h
      exact ⟨_, carrier, htake, hheard htake, .inr ⟨rfl, rfl⟩⟩
  · cases h

/-! ## Kinds of moves -/

/-- What a move changes where the session is in memory and takes commands. -/
inductive Advances (link : Link) (session : Session) (move : Move) : Link → Prop
  | stay : link.heard? move = none → Advances link session move link
  /-- The ledger takes a command. -/
  | submit (command : Command) (ledger : Ledger) :
      link.heard? move = none → link.ledger.submit command = .ok ledger →
      (move = .call (.submit command) ∨ command.kind.places = false) →
      Advances link session move { link with ledger }
  /-- The forwarder takes a command from the queue of the ledger. -/
  | fetch (command : Command) (queue : Channel Command) :
      link.heard? move = none → link.forwarder = .idle →
      link.ledger.queue.receive? = some (command, queue) →
      Advances link session move
        { link with ledger := { link.ledger with queue }, forwarder := .holding command }
  /-- The forwarder gives it to the session. -/
  | forward (command : Command) (inbox : Channel Command) :
      link.heard? move = none → link.forwarder = .holding command →
      session.inbox.send command = .ok inbox →
      Advances link session move
        { link with carrier := .memory { session with inbox }, forwarder := .idle }
  /-- The consumer takes an event. -/
  | hear (event : Event) (outbox : Outbox) :
      link.heard? move = some event → session.outbox.take? = some (event, outbox) →
      Advances link session move
        ({ link with carrier := .memory { session with outbox } }.consume event)
  /-- Somebody in the session takes a turn. -/
  | turn (actor : Session.Actor) (next : Session) :
      link.heard? move = none → Session.step actor session = some next →
      Advances link session move { link with carrier := .memory next }
  /-- The feeds do something, or time passes. -/
  | outside (source : Source) (clock : Nat) :
      link.heard? move = none →
      Advances link session move { link with carrier := .memory { session with source, clock } }

variable {session : Session}

/-- Where a session in memory takes commands, a step of the forwarder advances the link. -/
theorem advances_forwarderStep (hcarrier : link.carrier = .memory session)
    (hjoined : session.inbox.isOpen = true) (h : link.forwarderStep = some next) :
    link.Advances session (.turn .forwarder) next := by
  rcases forwarderStep_cases h with
    ⟨command, queue, hidle, hreceive, rfl⟩ | ⟨command, hholding, hgiven⟩
  · exact .fetch command queue rfl hidle hreceive
  · rw [hcarrier] at hgiven
    simp only [Carrier.give] at hgiven
    cases hsend : session.inbox.send command with
    | ok inbox =>
      rw [hsend] at hgiven
      rcases hgiven with ⟨_, htaken, rfl⟩ | ⟨hclosed, _⟩
      · cases htaken
        exact .forward command inbox rfl hholding hsend
      · cases hclosed
    | error obstacle =>
      rw [hsend] at hgiven
      cases obstacle with
      | full => rcases hgiven with ⟨_, htaken, _⟩ | ⟨hclosed, _⟩ <;> contradiction
      | closed =>
        -- An inbox that somebody receives from refuses a command only when it is full.
        exact absurd hsend (Channel.send_ne_closed (Channel.receiving_of_isOpen hjoined))

/-- Where a session is in memory, a step of the consumer advances the link. -/
theorem advances_consumerStep (hcarrier : link.carrier = .memory session)
    (h : link.consumerStep = some next) : link.Advances session (.turn .consumer) next := by
  obtain ⟨heard, carrier, htake, hheard, hnext⟩ := consumerStep_cases h
  rw [hcarrier, Carrier.take?] at htake
  obtain ⟨⟨event, outbox⟩, htaken, heq⟩ := Option.map_eq_some_iff.1 htake
  cases heq
  rcases hnext with ⟨_, hevent, rfl⟩ | ⟨hnone, _⟩
  · cases hevent
    exact .hear event outbox hheard htaken
  · cases hnone

/-- Who has to wait hears nothing. -/
theorem heard?_of_waits {actor : Actor} (h : step actor link = none) :
    link.heard? (.turn actor) = none := by
  cases actor with
  | carrier | forwarder => rfl
  | consumer =>
    simp only [step, consumerStep] at h
    simp only [heard?]
    split at h
    · next hconsuming =>
      rw [if_pos hconsuming]
      split at h
      · next hnone => rw [hnone]; rfl
      · cases h
      · cases h
    · next hleft => rw [if_neg hleft]

/-- Every move is of one of these kinds. -/
theorem advances_advance (hcarrier : link.carrier = .memory session)
    (hjoined : session.inbox.isOpen = true) (move : Move) :
    link.Advances session move (link.advance move) := by
  cases move with
  | call call =>
    simp only [advance]
    split
    · next ledger hanswer =>
      obtain ⟨command, hsubmit, hkind⟩ := Ledger.exists_submit_of_answer hanswer
      exact .submit command ledger rfl hsubmit (hkind.imp (congrArg Move.call) id)
    · exact .stay rfl
  | turn actor =>
    cases hstep : step actor link with
    | none =>
      rw [advance_turn_of_waits hstep]
      exact .stay (heard?_of_waits hstep)
    | some next =>
      rw [advance_turn hstep]
      cases actor with
      | forwarder => exact advances_forwarderStep hcarrier hjoined hstep
      | consumer => exact advances_consumerStep hcarrier hstep
      | carrier actor =>
        obtain ⟨carrier, hturn, rfl⟩ := Option.map_eq_some_iff.1 hstep
        rw [hcarrier] at hturn
        cases actor with
        -- A session in memory has no connection, so nobody reads or writes one.
        | reader | writer => cases hturn
        | session actor =>
          obtain ⟨next, hnext, rfl⟩ := Option.map_eq_some_iff.1 hturn
          exact .turn actor next rfl hnext
  | feeds source =>
    rw [advance, withSession, hcarrier]
    exact .outside source session.clock rfl
  | wait milliseconds =>
    rw [advance, withSession, hcarrier]
    exact .outside session.source _ rfl

/-! ## Orders that the ledger does not know -/

/-- What the ledger has about an id after a move. -/
theorem has_of_advances {move : Move} (h : link.Advances session move next)
    (hretention : link.ledger.retention = 0) (hhas : link.ledger.Has oid record) :
    ∃ later, next.ledger.Has oid later ∧
      (later = record ∨ (∃ command, move = .call (.submit command) ∧ command.asksFor oid = true) ∨
        ∃ event, link.heard? move = some event ∧ event.oid = oid ∧ later = record.hear event) := by
  cases h with
  | stay | turn | outside => exact ⟨record, hhas, .inl rfl⟩
  | fetch | forward => exact ⟨record, ⟨hhas.sent, hhas.confirmed⟩, .inl rfl⟩
  | submit command ledger _ hsubmit hkind =>
    have hspec := hhas.submit hsubmit
    split at hspec
    · next hasked =>
      refine ⟨.sent command, hspec.2, .inr (.inl ⟨command, ?_, ?_⟩)⟩
      · rcases hkind with hmove | hplaces
        · exact hmove
        · rw [hasked.1] at hplaces
          cases hplaces
      · simp [Command.asksFor, hasked]
    · exact ⟨record, hspec, .inl rfl⟩
  | hear event outbox hheard =>
    have hspec := hhas.observe hretention event
    split at hspec
    · next hoid => exact ⟨record.hear event, hspec, .inr (.inr ⟨event, hheard, hoid, rfl⟩)⟩
    · exact ⟨record, hspec, .inl rfl⟩

/-- An order that slips is not known any more. -/
theorem absent_of_slip {move : Move} (h : link.Advances session move next)
    (hretention : link.ledger.retention = 0) (hhas : link.ledger.Has oid record)
    (hslip : link.slip? move = some oid) : next.ledger.Has oid .absent := by
  obtain ⟨event, hheard, hconcerns, hoid, hsent⟩ := slip?_eq_some.1 hslip
  have hkind := Event.kind_of_concernsOrder hconcerns
  cases h with
  | stay hnone | submit _ _ hnone | fetch _ _ hnone | forward _ _ hnone | turn _ _ hnone
  | outside _ _ hnone =>
    rw [hnone] at hheard
    cases hheard
  | hear found outbox hfound =>
    rw [hfound] at hheard
    cases hheard
    have hspec := hhas.observe hretention event
    rw [if_pos hoid] at hspec
    simp only [Record.hear, hkind] at hspec
    rw [Table.contains, hhas.sent] at hsent
    cases record with
    | sent command => exact hspec
    | absent | confirmed => cases hsent

end Link

end TriggerDesk.Client
