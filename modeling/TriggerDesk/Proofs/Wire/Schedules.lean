import TriggerDesk.Proofs.Wire.Connections

/-!
# Whoever waits on a connection is served

A schedule says what happens to a connection, without end. As long as the session is not over,
everybody in the line before the outbox takes its turn at some time, if everybody gets turns again
and again (`exists_takes_of_mem_line`): the writer frees places, and nobody is overtaken
(`IsServing.takes_or_keeps`).
-/

namespace TriggerDesk

open Market TriggerDesk.Order Feed

namespace Wire.Connection

variable {connection next : Connection} {move : Move} {party : Party}

/-- The actor that a party is. -/
def actorOf : Party → Actor
  | .desk => .session .desk
  | .reader => .reader
  | .watcher id => .session (.watcher id)

/-- No two parties are the same actor. -/
theorem actorOf_injective : Function.Injective actorOf := by
  intro first second h
  cases first with
  | desk | reader =>
    cases second with
    | desk | reader => first | rfl | cases h
    | watcher => cases h
  | watcher id =>
    cases second with
    | desk | reader => cases h
    | watcher => cases h; rfl

/-- An actor of the session is its party. -/
theorem actorOf_party (actor : Session.Actor) : actorOf actor.party = .session actor := by
  cases actor <;> rfl

/-- An actor takes a turn in a move. -/
def Takes (connection : Connection) (move : Move) (actor : Actor) : Prop :=
  move = .turn actor ∧ ∃ next, step actor connection = some next

/-! ## Places in the line -/

/-- The reader makes nobody else need a place, or no longer need one. -/
theorem ReaderTurn.needsPlace_of_ne (hturn : ReaderTurn connection next) (hne : party ≠ .reader)
    {refusing other : Bool} :
    next.session.needsPlace refusing party = connection.session.needsPlace other party := by
  have hsame := hturn.untouched
  cases party with
  | reader => exact absurd rfl hne
  | desk => exact congrArg Desk.needsPlace hsame.desk
  | watcher id =>
    rw [Session.needsPlace, Session.needsPlace, Session.held, Session.held, hsame.watchers]

/-- A party that is in the line takes its turn or keeps its place. -/
theorem IsServing.takes_or_keeps (h : connection.IsServing)
    (hnext : (connection.advance move).IsServing)
    (hmem : party ∈ connection.session.outbox.line) :
    connection.Takes move (actorOf party) ∨
      Outbox.Keeps party (fun first => connection.Takes move (actorOf first))
        connection.session.outbox (connection.advance move).session.outbox := by
  have hneeds := (h.queued.mem party).1 hmem
  have horderly := h.queued.orderly
  rcases connection.advance_cases move with
    ⟨actor, rfl, hstep⟩ | ⟨source, clock, incoming, hsame, hwaits, _⟩
  · by_cases hown : actor = actorOf party
    · exact .inl ⟨congrArg _ hown, _, hown ▸ hstep⟩
    · refine .inr ?_
      have hacting : ∀ {acting : Party}, actorOf acting = actor → ∀ first,
          connection.Takes (.turn actor) (actorOf first) → first = acting := by
        rintro acting rfl first ⟨hturn, _⟩
        exact (actorOf_injective (Move.turn.inj hturn)).symm
      cases h.turn_of_step hstep with
      | session acting after hafter hopen hwith =>
        -- Another party of the session took the turn, and what it did to the line is known.
        have hother : party ≠ acting.party := fun heq => hown (heq ▸ (actorOf_party acting).symm)
        rw [hwith]
        exact (Session.lined_of_step h.queued hafter hopen).keeps horderly hother
          ((h.regular.tidy.needsPlace_of_ne hafter hopen hother).trans hneeds)
          (hacting (actorOf_party acting))
      | finish _ _ hwith =>
        rw [hwith] at hnext
        exact absurd rfl hnext.queued.running
      | reader hturn =>
        have hother : party ≠ .reader := fun heq => hown (heq ▸ rfl)
        exact (h.lined_of_readerTurn hturn).keeps horderly hother
          ((hturn.needsPlace_of_ne hother).trans hneeds) (hacting rfl)
      | writer hwrites =>
        obtain ⟨event, outbox, htake, hwritten⟩ := hwrites
        rw [hwritten]
        refine Outbox.keeps_of_line hmem (Outbox.line_take? htake).1
          (fun hgranted => Outbox.mem_granted_take? htake hgranted) ?_
        rintro first ⟨hturn, _⟩
        cases first <;> cases hturn
  · rw [hsame]
    refine Or.inr (Outbox.keeps_of_line hmem rfl id ?_)
    rintro first ⟨hturn, next, hstep⟩
    rw [hwaits _ hturn] at hstep
    cases hstep

/-- Whoever has a place takes the next turn. -/
theorem IsServing.takes_of_granted (h : connection.IsServing)
    (hgranted : party ∈ connection.session.outbox.granted) :
    connection.Takes (.turn (actorOf party)) (actorOf party) := by
  refine ⟨rfl, ?_⟩
  have hsession : ∀ actor : Session.Actor, actor.party ∈ connection.session.outbox.granted →
      ∃ next, step (.session actor) connection = some next := by
    intro actor hplace
    exact exists_step_of_session (h.queued.step_of_granted hplace)
  cases party with
  | desk => exact hsession .desk hgranted
  | watcher id => exact hsession (.watcher id) hgranted
  | reader =>
    have hneeds := (h.queued.mem .reader).1 (List.mem_append_left _ hgranted)
    have hstanding := Outbox.standing_eq_granted h.queued.receiving hgranted
    show ∃ next, connection.readerStep = some next
    unfold readerStep
    cases hreader : connection.reader with
    | refusing event =>
      simp only [h.not_isEnded, Bool.false_eq_true, if_false, hstanding]
      exact ⟨_, rfl⟩
    | reading | forwarding | ended =>
      rw [hreader] at hneeds
      cases hneeds

/-- When the writer has taken a turn, the first in the line has a place. -/
theorem IsServing.granted_of_writer (h : connection.IsServing)
    (hhead : connection.session.outbox.line.head? = some party) :
    party ∈ (connection.advance (.turn .writer)).session.outbox.granted := by
  have hwriter : ∀ {event outbox}, connection.session.outbox.take? = some (event, outbox) →
      (connection.advance (.turn .writer)).session.outbox = outbox := by
    intro event outbox htake
    simp only [Connection.advance, step, writerStep, htake, h.listening, if_true, Option.getD_some]
  rcases Outbox.granted_or_take? h.queued.orderly h.queued.receiving h.roomy hhead with
    hgranted | ⟨event, outbox, htake, hgranted⟩
  · cases htake : connection.session.outbox.take? with
    | none =>
      simp only [Connection.advance, step, writerStep, htake, Option.getD_none]
      exact hgranted
    | some taken =>
      obtain ⟨event, outbox⟩ := taken
      rw [hwriter htake]
      exact Outbox.mem_granted_take? htake hgranted
  · rw [hwriter htake]
    exact hgranted

/-! ## Schedules -/

/-- The first moves of a schedule. -/
def movesOf (schedule : Nat → Move) (n : Nat) : List Move := (List.range n).map schedule

/-- The connection after that many moves of a schedule. -/
def along (connection : Connection) (schedule : Nat → Move) (n : Nat) : Connection :=
  connection.run (movesOf schedule n)

/-- One move more of a schedule is made after the others. -/
theorem along_succ (connection : Connection) (schedule : Nat → Move) (n : Nat) :
    connection.along schedule (n + 1) = (connection.along schedule n).advance (schedule n) := by
  rw [along, movesOf, List.range_succ, List.map_append]
  exact run_concat _ _ _

/-- What every move keeps lasts. -/
theorem lasts_along {schedule : Nat → Move} {P : Connection → Prop} {n m : Nat}
    (h : P (connection.along schedule n)) (hm : n ≤ m)
    (hmove : ∀ k, n ≤ k → P (connection.along schedule k) →
      P ((connection.along schedule k).advance (schedule k))) :
    P (connection.along schedule m) := by
  induction hm with
  | refl => exact h
  | step hm ih =>
    rw [along_succ]
    exact hmove _ hm ih

/-- Everybody in the line takes its turn, as long as the session is not over. -/
theorem exists_takes_of_mem_line {schedule : Nat → Move}
    (hturns : ∀ actor n, ∃ m, n ≤ m ∧ schedule m = .turn actor)
    (hserving : ∀ n, (connection.along schedule n).IsServing) {n : Nat}
    (hmem : party ∈ (connection.along schedule n).session.outbox.line) :
    ∃ m, n ≤ m ∧ (connection.along schedule m).Takes (schedule m) (actorOf party) := by
  have hflows : Outbox.Flows (fun n => (connection.along schedule n).session.outbox)
      fun n first => (connection.along schedule n).Takes (schedule n) (actorOf first) := by
    refine ⟨fun n party hmem => ?_, fun n => ?_, fun party n => ?_⟩
    · rw [along_succ]
      exact (hserving n).takes_or_keeps (along_succ _ _ _ ▸ hserving (n + 1)) hmem
    · obtain ⟨m, hm, hturn⟩ := hturns .writer n
      refine ⟨m, hm, fun first hhead => ?_⟩
      rw [along_succ, hturn]
      exact (hserving m).granted_of_writer hhead
    · obtain ⟨m, hm, hturn⟩ := hturns (actorOf party) n
      exact ⟨m, hm, fun hgranted => hturn ▸ (hserving m).takes_of_granted hgranted⟩
  exact hflows.exists_takes hmem

end Wire.Connection

end TriggerDesk
