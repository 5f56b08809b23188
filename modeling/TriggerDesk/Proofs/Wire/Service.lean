import TriggerDesk.Proofs.Session.Service
import TriggerDesk.Proofs.Wire.Answers
import TriggerDesk.Proofs.Wire.Schedules

/-!
# What holds up a session that is never over

A session can go on for ever although its client has closed its side, everybody gets turns again
and again, and something comes of every wait for a first quote. Then the desk waits from some time
on for the end of a watcher that has neither lost its feed nor ended (`Unending.exists_heldUp`).

Otherwise the desk is idle again and again, for the session behind a connection takes its course
(`Unending.course`). Then the reader gets room for its commands, reads everything and ends, and the
desk runs out of commands.
-/

namespace TriggerDesk

open Market TriggerDesk.Order Feed

/-- Nothing came into a channel, and what is left in it came last. -/
structure Channel.Drains {α : Type} (channel next : Channel α) : Prop where
  items : next.items <:+ channel.items
  rest : next = { channel with items := next.items }

namespace Wire.Connection

variable {connection : Connection} {move : Move}

/-! ## What others leave alone -/

/-- A turn of the session after which it is not over. -/
theorem IsServing.exists_sessionStep (h : connection.IsServing)
    (hnext : (connection.advance move).IsServing) {actor : Session.Actor}
    (htakes : connection.Takes move (.session actor)) :
    ∃ after, Session.step actor connection.session = some after ∧ after.IsOpen ∧
      connection.advance move = connection.withSession after := by
  obtain ⟨rfl, next, hstep⟩ := htakes
  rw [advance_turn hstep] at hnext ⊢
  cases h.turn_of_step hstep with
  | session _ after hafter hopen hwith => exact ⟨after, hafter, hopen, hwith⟩
  | finish _ _ hwith =>
    rw [hwith] at hnext
    exact absurd rfl hnext.queued.running

/-- What a move that is no turn of the session leaves alone. -/
structure Spares (session next : Session) : Prop where
  desk : next.desk = session.desk
  watchers : next.watchers = session.watchers
  clock : session.clock ≤ next.clock

/-- A move that is no turn of the session leaves it as it is, apart from the inbox and the clock,
and from the inbox too if the reader takes no turn. -/
theorem IsServing.spares (h : connection.IsServing)
    (hother : ∀ actor, ¬ connection.Takes move (.session actor)) :
    Spares connection.session (connection.advance move).session ∧
      (¬ connection.Takes move .reader →
        (connection.advance move).session.inbox = connection.session.inbox) := by
  rcases connection.advance_cases move with
    ⟨actor, rfl, hstep⟩ | ⟨source, clock, incoming, hsame, _, hclock, _⟩
  · cases h.turn_of_step hstep with
    | session acting => exact absurd ⟨rfl, _, hstep⟩ (hother acting)
    | finish => exact absurd ⟨rfl, _, hstep⟩ (hother .desk)
    | reader hturn =>
      have hsame := hturn.untouched
      exact ⟨⟨hsame.desk, hsame.watchers, Nat.le_of_eq hsame.clock.symm⟩,
        fun hreader => absurd ⟨rfl, _, hstep⟩ hreader⟩
    | writer hwrites =>
      obtain ⟨event, outbox, _, hwritten⟩ := hwrites
      rw [hwritten]
      exact ⟨⟨rfl, rfl, Nat.le_refl _⟩, fun _ => rfl⟩
  · rw [hsame]
    exact ⟨⟨rfl, rfl, hclock⟩, fun _ => rfl⟩

/-- What a move that is no turn of the reader leaves of what it reads and of the inbox. -/
theorem IsServing.reader_advance (h : connection.IsServing)
    (hnext : (connection.advance move).IsServing) (hother : ¬ connection.Takes move .reader) :
    (connection.advance move).reader = connection.reader ∧
      (connection.incoming.isOpen = false →
        (connection.advance move).incoming = connection.incoming) := by
  rcases connection.advance_cases move with
    ⟨actor, rfl, hstep⟩ | ⟨source, clock, incoming, hsame, _, _, hclosed⟩
  · cases h.turn_of_step hstep with
    | session _ _ _ _ hwith | finish _ _ hwith =>
      rw [hwith]
      exact ⟨rfl, fun _ => rfl⟩
    | reader => exact absurd ⟨rfl, _, hstep⟩ hother
    | writer hwrites =>
      obtain ⟨event, outbox, _, hwritten⟩ := hwrites
      rw [hwritten]
      exact ⟨rfl, fun _ => rfl⟩
  · rw [hsame]
    exact ⟨rfl, hclosed⟩

/-- A reader waits only for bytes that can come. -/
theorem IsServing.readerStep_of_closed (h : connection.IsServing)
    (hreader : connection.reader = .reading) (hclosed : connection.incoming.isOpen = false) :
    ∃ next, connection.readerStep = some next := by
  unfold readerStep
  simp only [hreader, h.not_isEnded, Bool.false_eq_true, if_false]
  cases hnext : connection.incoming.next with
  | pending => exact absurd hnext (Lines.next_ne_pending hclosed)
  | ended | unreadable | line => exact ⟨_, rfl⟩

/-- What a reader has before it when no more bytes come. -/
def unreadSize (connection : Connection) : Nat :=
  2 * connection.incoming.bytes.length + if connection.reader = .reading then 0 else 1

/-- Every turn of a reader that does not end leaves less before it. -/
theorem ReaderTurn.unreadSize_lt {next : Connection} (hturn : ReaderTurn connection next)
    (hrunning : next.reader ≠ .ended) :
    next.unreadSize < connection.unreadSize ∧
      next.incoming.isOpen = connection.incoming.isOpen := by
  unfold unreadSize
  cases hturn with
  | skip text rest hreader hline _ hnext | take text rest _ hreader hline _ _ hnext
  | refuse text rest _ hreader hline _ _ hnext =>
    subst hnext
    obtain ⟨hlength, hopen⟩ := Lines.length_lt_of_line hline
    refine ⟨?_, hopen⟩
    simp only [hreader, if_true, reduceCtorEq, if_false]
    omega
  | forward _ _ hreader _ hnext | put _ hreader _ hnext =>
    subst hnext
    refine ⟨?_, rfl⟩
    simp only [hreader, if_true, reduceCtorEq, if_false]
    exact Nat.lt_succ_self _
  | stop _ _ hnext =>
    subst hnext
    exact absurd rfl hrunning

/-- What the reader takes as its turn is a turn of the reader. -/
theorem IsServing.readerTurn_of_takes (h : connection.IsServing)
    (htakes : connection.Takes move .reader) : ReaderTurn connection (connection.advance move) := by
  obtain ⟨rfl, next, hstep⟩ := htakes
  rw [advance_turn hstep]
  exact h.readerTurn_of_readerStep hstep

/-- With a command it waits only for room. -/
theorem IsServing.readerStep_of_room (h : connection.IsServing) {command : Command}
    (hreader : connection.reader = .forwarding command)
    (hroom : connection.session.inbox.items.length < connection.session.inbox.capacity) :
    ∃ next, connection.readerStep = some next := by
  have hasRoom : connection.session.inbox.hasRoom = true := decide_eq_true hroom
  unfold readerStep
  simp only [hreader, Channel.send, h.joined, hasRoom, Bool.not_true, Bool.false_eq_true, if_false]
  exact ⟨_, rfl⟩

/-! ## Sessions that are never over -/

/-- Everybody gets turns again and again, and the session is never over. -/
structure Unending (connection : Connection) (schedule : Nat → Move) : Prop where
  turns : ∀ actor n, ∃ m, n ≤ m ∧ schedule m = .turn actor
  serving : ∀ n, (connection.along schedule n).IsServing

namespace Unending

variable {schedule : Nat → Move} (h : Unending connection schedule)
include h

/-- After every move of the schedule the connection serves. -/
theorem next (n : Nat) : ((connection.along schedule n).advance (schedule n)).IsServing :=
  along_succ connection schedule n ▸ h.serving (n + 1)

/-- The session takes its course. -/
theorem course : Session.Course (fun n => (connection.along schedule n).session)
    fun n actor => (connection.along schedule n).Takes (schedule n) (.session actor) where
  isOpen n := (h.serving n).queued.toIsOpen
  staffed n := (h.serving n).regular.sound.staffed
  steps := by
    intro n actor htakes
    obtain ⟨after, hafter, _, hwith⟩ := (h.serving n).exists_sessionStep (h.next n) htakes
    rw [along_succ, hwith]
    exact hafter
  rests := by
    intro n hother
    have hspares := ((h.serving n).spares hother).1
    rw [along_succ]
    exact ⟨hspares.desk, hspares.watchers, hspares.clock⟩
  turns actor n := by
    obtain ⟨m, hm, hturn⟩ := h.turns (.session actor) n
    exact ⟨m, hm, fun hready => ⟨hturn, exists_step_of_session hready⟩⟩
  served actor n hneeds := by
    have hmem : actor.party ∈ (connection.along schedule n).session.outbox.line := by
      rw [(h.serving n).queued.mem]
      cases actor <;> exact hneeds
    rw [← actorOf_party]
    exact exists_takes_of_mem_line h.turns h.serving hmem

/-- Who can take a turn until it does takes one. -/
theorem exists_takes_of_lasting (actor : Actor) {P : Nat → Prop}
    (hready : ∀ m, P m → ∃ after, step actor (connection.along schedule m) = some after)
    (hlasts : ∀ m, P m → ¬ (connection.along schedule m).Takes (schedule m) actor → P (m + 1))
    {n : Nat} (hnow : P n) :
    ∃ m, n ≤ m ∧ P m ∧ (connection.along schedule m).Takes (schedule m) actor := by
  obtain ⟨m, hm, hturn⟩ := h.turns actor n
  exact exists_lasting ⟨m, hm, fun hnow => ⟨hturn, hready m hnow⟩⟩ hlasts hnow

/-! ### The inbox -/

/-- The inbox after a move that is no turn of the reader. -/
theorem inbox_succ {n : Nat}
    (hreader : ¬ (connection.along schedule n).Takes (schedule n) .reader) :
    (connection.along schedule (n + 1)).session.inbox =
        (connection.along schedule n).session.inbox ∨
      ∃ command, (connection.along schedule n).session.inbox.receive? =
        some (command, (connection.along schedule (n + 1)).session.inbox) := by
  by_cases hother : ∀ actor, ¬ (connection.along schedule n).Takes (schedule n) (.session actor)
  · rw [along_succ]
    exact .inl (((h.serving n).spares hother).2 hreader)
  · obtain ⟨actor, htakes⟩ := not_forall_not.1 hother
    exact inbox_of_step (h.course.steps htakes) (h.course.isOpen (n + 1))

/-- As long as the reader takes no turn, nothing comes into the inbox. -/
theorem drains_of_never {n : Nat}
    (hnever : ∀ m, n ≤ m → ¬ (connection.along schedule m).Takes (schedule m) .reader) {m : Nat}
    (hm : n ≤ m) : (connection.along schedule n).session.inbox.Drains
      (connection.along schedule m).session.inbox := by
  induction hm with
  | refl => exact ⟨List.suffix_rfl, rfl⟩
  | step hm ih =>
    rcases h.inbox_succ (hnever _ hm) with hsame | ⟨command, hreceive⟩
    · rw [hsame]
      exact ih
    · obtain ⟨hitems, hrest⟩ := Channel.eq_of_receive hreceive
      refine ⟨List.IsSuffix.trans ⟨[command], hitems.symm⟩ ih.items, hrest.trans ?_⟩
      rw [ih.rest]

/-- An idle desk that need not wait for commands takes one: where none is left and none can come, it
would leave. -/
theorem exists_receive_of_idle {n : Nat}
    (hdesk : (connection.along schedule n).session.desk = .idle)
    (hcommands : ∀ m, n ≤ m → (connection.along schedule m).session.inbox.items ≠ [] ∨
      (connection.along schedule m).session.inbox.sending = false) :
    ∃ m, n ≤ m ∧ ∃ command, (connection.along schedule m).session.inbox.receive? =
      some (command, (connection.along schedule (m + 1)).session.inbox) := by
  obtain ⟨m, hm, ⟨_, hdesk⟩, htakes⟩ := h.exists_takes_of_lasting (.session .desk)
    (P := fun m => n ≤ m ∧ (connection.along schedule m).session.desk = .idle)
    (fun m ⟨hm, hdesk⟩ =>
      exists_step_of_session (Session.deskStep_of_idle hdesk (hcommands m hm)))
    (fun m ⟨hm, hdesk⟩ hother => ⟨Nat.le_succ_of_le hm, (h.course.of_others hother).1.trans hdesk⟩)
    ⟨Nat.le_refl n, hdesk⟩
  obtain ⟨after, hafter, hopen, hwith⟩ := (h.serving m).exists_sessionStep (h.next m) htakes
  obtain ⟨command, hreceive⟩ := Session.receive_of_idle hafter hopen hdesk
  refine ⟨m, hm, command, ?_⟩
  rw [along_succ, hwith]
  exact hreceive

section Reader

variable (hidle : ∀ n, ∃ m, n ≤ m ∧ (connection.along schedule m).session.desk = .idle)
include hidle

/-- The desk takes a command as long as there is any. -/
theorem exists_items_lt {n : Nat}
    (hnever : ∀ m, n ≤ m → ¬ (connection.along schedule m).Takes (schedule m) .reader)
    (hsome : (connection.along schedule n).session.inbox.items ≠ []) :
    ∃ m, n ≤ m ∧ (connection.along schedule m).session.inbox.items.length <
      (connection.along schedule n).session.inbox.items.length := by
  by_contra hnone
  have hsame : ∀ m, n ≤ m → (connection.along schedule m).session.inbox.items =
      (connection.along schedule n).session.inbox.items := fun m hm =>
    (h.drains_of_never hnever hm).items.eq_of_length_le
      (Nat.le_of_not_lt fun hlt => hnone ⟨m, hm, hlt⟩)
  obtain ⟨m, hm, hdesk⟩ := hidle n
  obtain ⟨k, hk, command, hreceive⟩ := h.exists_receive_of_idle hdesk fun k hk =>
    .inl (hsame k (Nat.le_trans hm hk) ▸ hsome)
  have hle := Nat.le_trans hm hk
  have hitems := (Channel.eq_of_receive hreceive).1
  rw [hsame k hle, hsame (k + 1) (Nat.le_succ_of_le hle)] at hitems
  exact absurd (congrArg List.length hitems).symm (Nat.succ_ne_self _)

/-- The desk would leave if there were no commands and none could come. -/
theorem not_empty_of_never {n : Nat}
    (hnever : ∀ m, n ≤ m → ¬ (connection.along schedule m).Takes (schedule m) .reader)
    (hempty : (connection.along schedule n).session.inbox.items = [])
    (hclosed : (connection.along schedule n).session.inbox.sending = false) : False := by
  have hinbox : ∀ m, n ≤ m → (connection.along schedule m).session.inbox.items = [] ∧
      (connection.along schedule m).session.inbox.sending = false := by
    intro m hm
    have hdrains := h.drains_of_never hnever hm
    have hitems := hdrains.items
    rw [hempty, List.suffix_nil] at hitems
    rw [hdrains.rest]
    exact ⟨hitems, hclosed⟩
  obtain ⟨m, hm, hdesk⟩ := hidle n
  obtain ⟨k, hk, command, hreceive⟩ := h.exists_receive_of_idle hdesk fun k hk =>
    .inr (hinbox k (Nat.le_trans hm hk)).2
  have hitems := (Channel.eq_of_receive hreceive).1
  rw [(hinbox k (Nat.le_trans hm hk)).1] at hitems
  cases hitems

/-- A reader does not end as long as the session is never over: the desk would take all commands and
leave. -/
theorem reader_ne_ended (n : Nat) : (connection.along schedule n).reader ≠ .ended := by
  intro hended
  have hnever : ∀ {m}, (connection.along schedule m).reader = .ended →
      ¬ (connection.along schedule m).Takes (schedule m) .reader := by
    rintro m hended ⟨_, next, hstep⟩
    unfold step readerStep at hstep
    rw [hended] at hstep
    cases hstep
  have hstays : ∀ m, n ≤ m → (connection.along schedule m).reader = .ended := fun m hm =>
    lasts_along (P := fun later => later.reader = .ended) hended hm fun k _ hended =>
      ((h.serving k).reader_advance (h.next k) (hnever hended)).1.trans hended
  refine not_of_rank (P := fun m => n ≤ m)
    (fun m => (connection.along schedule m).session.inbox.items.length) (fun m hm => ?_)
    (Nat.le_refl n)
  have hreader := fun k (hk : m ≤ k) => hnever (hstays k (Nat.le_trans hm hk))
  by_cases hempty : (connection.along schedule m).session.inbox.items = []
  · exact (h.not_empty_of_never hidle hreader hempty
      (Bool.eq_false_iff.2 fun hsending => (h.serving m).sending.1 hsending (hstays m hm))).elim
  · obtain ⟨k, hk, hlt⟩ := h.exists_items_lt hidle hreader hempty
    exact ⟨k, hk, Nat.le_trans hm hk, hlt⟩

/-- A reader with a command takes its turn, since the desk makes room. -/
theorem exists_takes_of_forwarding {n : Nat} {command : Command}
    (hreader : (connection.along schedule n).reader = .forwarding command) :
    ∃ m, n ≤ m ∧ (connection.along schedule m).Takes (schedule m) .reader := by
  -- If the reader never took its turn, nothing would come in, and the desk would drain the inbox.
  by_contra hnone
  have hnever : ∀ m, n ≤ m → ¬ (connection.along schedule m).Takes (schedule m) .reader :=
    fun m hm htakes => hnone ⟨m, hm, htakes⟩
  have hstays : ∀ m, n ≤ m → (connection.along schedule m).reader = .forwarding command :=
    fun m hm => lasts_along (P := fun later => later.reader = .forwarding command) hreader hm
      fun k hk hreader => ((h.serving k).reader_advance (h.next k) (hnever k hk)).1.trans hreader
  obtain ⟨m, hm, hroom⟩ : ∃ m, n ≤ m ∧ (connection.along schedule m).session.inbox.items.length <
      (connection.along schedule m).session.inbox.capacity := by
    have hserving := h.serving n
    by_cases hempty : (connection.along schedule n).session.inbox.items = []
    · refine ⟨n, Nat.le_refl n, ?_⟩
      rw [hempty]
      exact hserving.spacious
    · obtain ⟨m, hm, hlt⟩ := h.exists_items_lt hidle hnever hempty
      refine ⟨m, hm, Nat.lt_of_lt_of_le hlt ?_⟩
      rw [(h.drains_of_never hnever hm).rest]
      exact hserving.bounded
  obtain ⟨k, _, ⟨hk, _⟩, htakes⟩ := h.exists_takes_of_lasting .reader
    (P := fun k => n ≤ k ∧ (connection.along schedule k).session.inbox.items.length <
      (connection.along schedule k).session.inbox.capacity)
    (fun k ⟨hk, hroom⟩ => (h.serving k).readerStep_of_room (hstays k hk) hroom)
    (fun k ⟨hk, hroom⟩ hother => by
      refine ⟨Nat.le_succ_of_le hk, ?_⟩
      rcases h.inbox_succ hother with hsame | ⟨command, hreceive⟩
      · rw [hsame]
        exact hroom
      · obtain ⟨hitems, hrest⟩ := Channel.eq_of_receive hreceive
        rw [hitems, List.length_cons] at hroom
        rw [hrest]
        exact Nat.lt_of_succ_lt hroom) ⟨hm, hroom⟩
  exact hnever k hk htakes

/-- A reader takes turns when no more bytes come. -/
theorem exists_takes_of_closed {n : Nat}
    (hclosed : (connection.along schedule n).incoming.isOpen = false) :
    ∃ m, n ≤ m ∧ (connection.along schedule m).Takes (schedule m) .reader := by
  cases hreader : (connection.along schedule n).reader with
  | ended => exact absurd hreader (h.reader_ne_ended hidle n)
  | refusing event =>
    exact @exists_takes_of_mem_line _ .reader _ h.turns h.serving _
      (((h.serving n).queued.mem .reader).2 (by rw [hreader]; rfl))
  | forwarding command => exact h.exists_takes_of_forwarding hidle hreader
  | reading =>
    refine (h.exists_takes_of_lasting .reader
      (P := fun m => (connection.along schedule m).reader = .reading ∧
        (connection.along schedule m).incoming.isOpen = false)
      (fun m ⟨hreader, hclosed⟩ => (h.serving m).readerStep_of_closed hreader hclosed)
      (fun m ⟨hreader, hclosed⟩ hother => ?_) ⟨hreader, hclosed⟩).imp
      fun _ hm => ⟨hm.1, hm.2.2⟩
    obtain ⟨hsame, hincoming⟩ := (h.serving m).reader_advance (h.next m) hother
    rw [along_succ]
    exact ⟨hsame.trans hreader, hincoming hclosed ▸ hclosed⟩

/-- Where the desk is idle again and again, the client has not closed its side: the reader would
read everything and end. -/
theorem isOpen_of_idle (n : Nat) : (connection.along schedule n).incoming.isOpen = true := by
  by_contra hclosed
  refine not_of_rank (P := fun n => (connection.along schedule n).incoming.isOpen = false)
    (fun n => (connection.along schedule n).unreadSize) (fun n hclosed => ?_)
    (Bool.not_eq_true _ ▸ hclosed)
  refine exists_of_move
    (P := fun m => (connection.along schedule m).incoming.isOpen = false ∧
      (connection.along schedule m).unreadSize = (connection.along schedule n).unreadSize)
    (h.exists_takes_of_closed hidle hclosed) (fun m ⟨hclosed, hsize⟩ => ?_) ⟨hclosed, rfl⟩
  have hrunning := h.reader_ne_ended hidle (m + 1)
  rw [along_succ] at hrunning ⊢
  by_cases htakes : (connection.along schedule m).Takes (schedule m) .reader
  · obtain ⟨hlt, hopen⟩ :=
      ((h.serving m).readerTurn_of_takes htakes).unreadSize_lt hrunning
    exact .inl ⟨hopen.trans hclosed, hsize ▸ hlt⟩
  · obtain ⟨hreader, hincoming⟩ := (h.serving m).reader_advance (h.next m) htakes
    refine .inr ⟨⟨hincoming hclosed ▸ hclosed, ?_⟩, htakes⟩
    rw [← hsize, unreadSize, unreadSize, hreader, hincoming hclosed]

end Reader

/-- When the client has closed its side, the desk waits from some time on for the end of a watcher
that has neither lost its feed nor ended. -/
theorem exists_heldUp (hcloses : ∃ n, schedule n = .closeWriting)
    (hquotes : ∀ n, ∃ m, n ≤ m ∧ (connection.along schedule m).session.quoteSettled = true) :
    ∃ n placing id, ∀ m, n ≤ m → (connection.along schedule m).session.HeldUp placing id := by
  refine (h.course.exists_idle_or_heldUp hquotes).resolve_left fun hidle => ?_
  obtain ⟨n, hclose⟩ := hcloses
  have hopen := h.isOpen_of_idle hidle (n + 1)
  rw [along_succ, hclose] at hopen
  cases hopen

end Unending

end Wire.Connection

end TriggerDesk
