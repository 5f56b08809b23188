import TriggerDesk.Proofs.Wire.Answers
import TriggerDesk.Proofs.Wire.Service

/-!
# Every line is answered

A client sends some bytes, closes its side and takes every line that comes. Under a fair schedule
every line before the first one that is not valid UTF-8 is answered once, unless it is blank, and
the client has all answers in the end; or the desk is held up by a watcher whose end it awaits
though it neither lost its feed nor ended (`answered_along`). At no time has a line two answers.

A line that is not valid UTF-8 has no answer, nor has any after it (`unanswered_garbled`).
-/

namespace TriggerDesk

open Market TriggerDesk.Order Feed

namespace Wire.Connection

variable {connection : Connection} {schedule : Nat → Move}

/-! ## Fair schedules -/

/-- Everybody gets turns again and again, the client closes its side, and something comes of every
wait for a first quote. -/
structure Fair (connection : Connection) (schedule : Nat → Move) : Prop where
  turns : ∀ actor n, ∃ m, n ≤ m ∧ schedule m = .turn actor
  closes : ∃ n, schedule n = .closeWriting
  quotes : ∀ n, ∃ m, n ≤ m ∧ (connection.along schedule m).session.quoteSettled = true

/-- The moves that a fair schedule has to make again and again. -/
def duty : Nat → Move
  | 0 => .turn .writer
  | 1 => .turn .reader
  | 2 => .turn (.session .desk)
  | id + 3 => .turn (.session (.watcher id))

/-- Everybody has a turn among the duties. -/
theorem exists_duty (actor : Actor) : ∃ k, duty k = .turn actor := by
  cases actor with
  | writer => exact ⟨0, rfl⟩
  | reader => exact ⟨1, rfl⟩
  | session actor =>
    cases actor with
    | desk => exact ⟨2, rfl⟩
    | watcher id => exact ⟨id + 3, rfl⟩

/-- A schedule that makes some moves first, and then every duty again and again. -/
def rounds (moves : List Move) (n : Nat) : Move := moves.getD n (duty (n - 1 <<< n.log2))

/-- Everybody has a turn again and again. -/
theorem exists_rounds (moves : List Move) (actor : Actor) (n : Nat) :
    ∃ m, n ≤ m ∧ rounds moves m = .turn actor := by
  obtain ⟨k, hk⟩ := exists_duty actor
  obtain ⟨m, hm, hround⟩ := exists_round k (max n moves.length)
  have hlater : moves[m]? = none :=
    List.getElem?_eq_none (Nat.le_trans (Nat.le_max_right _ _) hm)
  refine ⟨m, Nat.le_trans (Nat.le_max_left _ _) hm, ?_⟩
  rw [rounds, hround, hk, List.getD, hlater, Option.getD_none]

/-- The moves that are to come first do. -/
theorem movesOf_rounds (moves : List Move) : movesOf (rounds moves) moves.length = moves := by
  refine List.ext_getElem (by simp [movesOf]) fun n _ hn => ?_
  simp [movesOf, rounds, hn]

/-! ## When the session is over -/

/-- A session that is over stays so under every schedule. -/
theorem IsOver.along {n m : Nat} (h : (connection.along schedule n).IsOver) (hm : n ≤ m) :
    (connection.along schedule m).IsOver :=
  lasts_along h hm fun _ _ hover => hover.advance _

/-- A session that is over waits for no first quote. -/
theorem IsOver.quoteSettled (h : connection.IsOver) : connection.session.quoteSettled = true := by
  rw [Session.quoteSettled, h.desk]

/-- A session that is over has ended. -/
theorem IsOver.isEnded (h : connection.IsOver) : connection.session.isEnded = true := by
  rw [Session.isEnded, h.desk]

/-- A session that has ended in a run is over. -/
theorem isOver_of_isEnded {source : Source} {limit : Option Nat} {moves : List Move}
    (hended : ((start source limit).run moves).session.isEnded = true) :
    ((start source limit).run moves).IsOver := by
  rcases (agrees_run source limit moves).1 with hserving | hover
  · rw [hserving.not_isEnded] at hended
    cases hended
  · exact hover

/-- A session that ends in the first moves of a schedule is over after them. -/
theorem isOver_rounds {source : Source} {limit : Option Nat} {moves : List Move}
    (hended : ((start source limit).run moves).session.isEnded = true) :
    ((start source limit).along (rounds moves) moves.length).IsOver := by
  rw [Connection.along, movesOf_rounds]
  exact isOver_of_isEnded hended

/-- Where a session is over after some moves, in which the client closed its side, a schedule that
makes them first is fair. -/
theorem fair_rounds {source : Source} {limit : Option Nat} {moves : List Move}
    (hcloses : .closeWriting ∈ moves)
    (hended : ((start source limit).run moves).session.isEnded = true) :
    Fair (start source limit) (rounds moves) where
  turns := exists_rounds moves
  closes := by
    obtain ⟨n, hn, hmove⟩ := List.getElem_of_mem hcloses
    exact ⟨n, by simpa [rounds, hn] using hmove⟩
  quotes n := ⟨max n moves.length, Nat.le_max_left _ _,
    ((isOver_rounds hended).along (Nat.le_max_right _ _)).quoteSettled⟩

/-- No more events are put. -/
theorem IsOver.events_along {n m : Nat} (h : (connection.along schedule n).IsOver) (hm : n ≤ m) :
    (connection.along schedule m).session.outbox.events =
      (connection.along schedule n).session.outbox.events := by
  refine lasts_along (P := fun later =>
    later.session.outbox.events = (connection.along schedule n).session.outbox.events) rfl hm
    fun k hk hsame => Eq.trans ?_ hsame
  rcases (connection.along schedule k).advance_cases (schedule k) with
    ⟨actor, _, hstep⟩ | ⟨source, clock, incoming, hnext, _⟩
  · obtain ⟨event, outbox, htake, hwritten⟩ := (h.along hk).writes_of_step hstep
    rw [hwritten]
    exact (Outbox.take?_eq_some htake).2.1
  · rw [hnext]

/-- The writer takes the next event, or a move leaves the events alone. Then no event was left if it
was the turn of the writer. -/
theorem IsOver.underway_advance (h : connection.IsOver) (move : Move) :
    (∃ event, connection.session.outbox.underway =
        event :: (connection.advance move).session.outbox.underway) ∨
      (connection.advance move).session.outbox = connection.session.outbox ∧
        (move = .turn .writer → connection.session.outbox.underway = []) := by
  rcases connection.advance_cases move with
    ⟨actor, _, hstep⟩ | ⟨source, clock, incoming, hnext, hwaits, _⟩
  · obtain ⟨event, outbox, htake, hwritten⟩ := h.writes_of_step hstep
    rw [hwritten]
    exact .inl ⟨event, Outbox.underway_of_take htake⟩
  · rw [hnext]
    refine .inr ⟨rfl, fun hturn => ?_⟩
    have hwaiting := hwaits .writer hturn
    unfold step writerStep Outbox.take? at hwaiting
    simp only [h.receiving, if_true, h.listening] at hwaiting
    rw [Outbox.underway, List.drop_eq_nil_iff, ← List.getElem?_eq_none_iff]
    cases hevent : connection.session.outbox.events[connection.session.outbox.taken]? with
    | none => rfl
    | some event =>
      rw [hevent] at hwaiting
      cases hwaiting

/-- The session is over, and the client has taken every event. -/
structure IsDone (connection : Connection) : Prop extends IsOver connection where
  underway : connection.session.outbox.underway = []

/-- When everything is done, it stays so. -/
theorem IsDone.advance (h : connection.IsDone) (move : Move) :
    (connection.advance move).IsDone := by
  refine ⟨h.toIsOver.advance move, ?_⟩
  rcases h.toIsOver.underway_advance move with ⟨event, hevent⟩ | ⟨hsame, _⟩
  · rw [h.underway] at hevent
    cases hevent
  · rw [hsame]
    exact h.underway

/-- When the session is over, the client takes all events that are left. -/
theorem exists_isDone (hturns : ∀ actor n, ∃ m, n ≤ m ∧ schedule m = .turn actor) {n : Nat}
    (h : (connection.along schedule n).IsOver) :
    ∃ m, n ≤ m ∧ (connection.along schedule m).IsDone := by
  refine exists_of_rank (P := fun n => (connection.along schedule n).IsOver)
    (fun n => (connection.along schedule n).session.outbox.underway.length) (fun n hover => ?_) h
  cases hleft : (connection.along schedule n).session.outbox.underway with
  | nil => exact .inl ⟨n, Nat.le_refl n, hover, hleft⟩
  | cons event rest =>
    refine .inr ?_
    obtain ⟨m, hm, hlater, htaken⟩ := exists_of_move
      (P := fun m => (connection.along schedule m).IsOver ∧
        (connection.along schedule m).session.outbox.underway = event :: rest)
      (Q := fun m => (connection.along schedule m).IsOver ∧
        (connection.along schedule m).session.outbox.underway = rest)
      (hturns .writer n) (fun m ⟨hover, hleft⟩ => by
        rw [along_succ]
        rcases hover.underway_advance (schedule m) with ⟨event, hevent⟩ | ⟨hsame, hwriter⟩
        · rw [hleft] at hevent
          exact .inl ⟨hover.advance _, (List.cons.inj hevent).2.symm⟩
        · refine .inr ⟨⟨hover.advance _, hsame ▸ hleft⟩, fun hturn => ?_⟩
          rw [hwriter hturn] at hleft
          cases hleft) ⟨hover, hleft⟩
    refine ⟨m, hm, hlater, ?_⟩
    rw [htaken]
    exact Nat.lt_succ_self _

/-! ## Every line is answered -/

/-- What was written are the events that the client took. -/
theorem written_run (source : Source) (limit : Option Nat) (moves : List Move) :
    ((start source limit).run moves).outgoing ++
        ((start source limit).run moves).session.outbox.underway.map eventLine =
      ((start source limit).run moves).session.outbox.events.map eventLine := by
  obtain ⟨_, _, _, _, _, _, haccount⟩ := (agrees_run source limit moves).2
  rw [haccount.written, Outbox.underway, ← List.map_append, List.take_append_drop]

/-- The session is over, the client has every event, and every line has its answer. -/
structure Complete (moves : List Move) (connection : Connection) : Prop where
  isEnded : connection.session.isEnded = true
  written : connection.outgoing = connection.session.outbox.events.map eventLine
  answered : ∃ exchanges, Exchanges (asking (sent moves)) connection.session.responses exchanges

/-- When everything is done, every line has its answer. -/
theorem IsDone.complete {source : Source} {limit : Option Nat} {moves : List Move}
    (h : ((start source limit).run moves).IsDone) :
    Complete moves ((start source limit).run moves) where
  isEnded := h.isEnded
  written := by
    have hall := written_run source limit moves
    rwa [h.underway, List.map_nil, List.append_nil] at hall
  answered := exists_exchanges source limit moves h.isEnded

/-- Whatever client, session and feeds do, no line has more than one answer, and nothing else has
any. Under a fair schedule every line that asks for an answer has one in the end and the client has
taken it, or the desk is held up. -/
theorem answered_along (source : Source) (limit : Option Nat) (schedule : Nat → Move) :
    (∀ n, ∃ outcomes, Matching (asking (sent (movesOf schedule n)))
      ((start source limit).along schedule n).session.responses outcomes) ∧
    (Fair (start source limit) schedule →
      (∃ n, ∀ m, n ≤ m →
        Complete (movesOf schedule m) ((start source limit).along schedule m)) ∨
      ∃ n placing id, ∀ m, n ≤ m →
        ((start source limit).along schedule m).session.HeldUp placing id) := by
  refine ⟨fun n => ?_, fun hfair => ?_⟩
  · obtain ⟨outcomes, hmatching, _⟩ := exists_outcomes source limit (movesOf schedule n)
    exact ⟨outcomes, hmatching⟩
  by_cases hover : ∃ n, ((start source limit).along schedule n).IsOver
  · obtain ⟨n, hover⟩ := hover
    obtain ⟨m, _, hdone⟩ := exists_isDone hfair.turns hover
    exact .inl ⟨m, fun k hk =>
      (lasts_along (P := IsDone) hdone hk fun _ _ hnow => hnow.advance _).complete⟩
  · have hserving : ∀ n, ((start source limit).along schedule n).IsServing := fun n =>
      (agrees_run source limit (movesOf schedule n)).1.resolve_right fun hnow => hover ⟨n, hnow⟩
    exact .inr (Unending.exists_heldUp ⟨hfair.turns, hserving⟩ hfair.closes hfair.quotes)

/-- A command that cancels an order. -/
def cancelLine : String :=
  "\x7b\"msg\":\"cancel\",\"oid\":\"o\",\"symbol\":\"X\",\"brokers\":[\"B\"],\"price\":50.0\x7d"

/-- A blank line, a line that is no command, one that is, and one that is not valid UTF-8. All are
read and answered, and the session ends. -/
def mixedMoves : List Move :=
  [.write [32, 10], .write (frame "[]"), .write (frame cancelLine), .write [255], .closeWriting,
    .turn .reader, .turn .reader, .turn .reader, .turn .reader, .turn .reader, .turn .reader,
    .turn (.session .desk), .turn (.session .desk), .turn (.session .desk)]

/-- The two lines that ask for an answer have one, under a schedule that goes on fairly. -/
theorem answered_along_mixed :
    Fair (start ⟨none, .new⟩ none) (rounds mixedMoves) ∧
      ((start ⟨none, .new⟩ none).run mixedMoves).session.responses.length = 2 ∧
      ((∃ n, ∀ m, n ≤ m → Complete (movesOf (rounds mixedMoves) m)
          ((start ⟨none, .new⟩ none).along (rounds mixedMoves) m)) ∨
        ∃ n placing id, ∀ m, n ≤ m →
          ((start ⟨none, .new⟩ none).along (rounds mixedMoves) m).session.HeldUp placing id) :=
  have hfair : Fair (start ⟨none, .new⟩ none) (rounds mixedMoves) :=
    fair_rounds (by decide +kernel) (by decide +kernel)
  ⟨hfair, by decide +kernel, (answered_along _ _ _).2 hfair⟩

/-! ## Lines that cannot be read -/

/-- A line that is not valid UTF-8, and a command after it. -/
def garbledMoves : List Move :=
  [.write [255, 10], .write (frame cancelLine), .closeWriting, .turn .reader,
    .turn (.session .desk)]

/-- A line that is not valid UTF-8 is never answered, and nor is the command after it. -/
theorem unanswered_garbled :
    Fair (start ⟨none, .new⟩ none) (rounds garbledMoves) ∧
      allLines (sent garbledMoves) = [[255], bytesOf cancelLine] ∧
      (commandOf? cancelLine).isSome = true ∧
      ∀ n,
        ((start ⟨none, .new⟩ none).along (rounds garbledMoves) n).session.outbox.events = [] := by
  have hended : ((start ⟨none, .new⟩ none).run garbledMoves).session.isEnded = true := by
    decide +kernel
  have hearly : ∀ n < garbledMoves.length,
      ((start ⟨none, .new⟩ none).along (rounds garbledMoves) n).session.outbox.events = [] := by
    decide +kernel
  refine ⟨fair_rounds (by decide +kernel) hended, ?_, by decide +kernel, fun n => ?_⟩
  · have hsent : sent garbledMoves = [255] ++ lineFeed :: frame cancelLine := by decide +kernel
    have hcancel : splitLine? (frame cancelLine) = some (bytesOf cancelLine, []) := by
      decide +kernel
    rw [hsent, allLines_of_split (splitLine?_append (by decide) _), allLines_of_split hcancel,
      allLines_of_none (by rfl)]
    decide +kernel
  · rcases Nat.lt_or_ge n garbledMoves.length with hlt | hle
    · exact hearly n hlt
    · rw [(isOver_rounds hended).events_along hle]
      decide +kernel

end Wire.Connection

end TriggerDesk
