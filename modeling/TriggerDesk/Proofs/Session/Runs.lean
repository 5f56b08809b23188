import TriggerDesk.Proofs.Session.DeskTurns
import TriggerDesk.Proofs.Session.WatcherTurns

/-!
# Runs of a session

A run is a list of moves: turns of the desk and of the watchers in any order, what the client
does, and whatever the feeds do in between. A turn of an actor that has to wait changes nothing,
so every list of moves is a run; `Reaches.exists_run` says that every interleaving is one.

`Session.IsOpen` says that the client is there and the session is not over. Neither comes back
once it is lost, so a session that is open at the end of a run was open all the way
(`isOpen_of_run`).
-/

namespace TriggerDesk

open Market TriggerDesk.Order Feed

namespace Session

variable {session next : Session}

/-- One thing that happens to a session. -/
inductive Move where
  | turn (actor : Actor)
  | stimulus (stimulus : Stimulus)
  /-- The feeds do something: from now on the session reads these. -/
  | feeds (source : Source)
  deriving DecidableEq, Repr

/-- The session after a move. -/
def advance (session : Session) : Move → Session
  | .turn actor => (step actor session).getD session
  | .stimulus stimulus => session.meet stimulus
  | .feeds source => { session with source }

/-- A turn that can be taken is what a move to it makes of the session. -/
theorem advance_turn {actor : Actor} (h : step actor session = some next) :
    session.advance (.turn actor) = next := by
  simp only [advance, h, Option.getD_some]

/-- Who has to wait does nothing. -/
theorem advance_turn_of_waits {actor : Actor} (h : step actor session = none) :
    session.advance (.turn actor) = session := by
  simp only [advance, h, Option.getD_none]

/-- The session after some moves. -/
def run (session : Session) (moves : List Move) : Session := moves.foldl advance session

@[simp]
theorem run_nil (session : Session) : session.run [] = session := rfl

@[simp]
theorem run_cons (session : Session) (move : Move) (moves : List Move) :
    session.run (move :: moves) = (session.advance move).run moves := rfl

/-- A run may be cut anywhere. -/
theorem run_append (session : Session) (first second : List Move) :
    session.run (first ++ second) = (session.run first).run second :=
  List.foldl_append

/-- Whatever turns and stimuli can lead to is the end of a run. -/
theorem Reaches.exists_run {first last : Session} (h : Reaches first last) :
    ∃ moves, first.run moves = last := by
  induction h with
  | refl session => exact ⟨[], rfl⟩
  | turn actor hstep _ ih =>
    obtain ⟨moves, hmoves⟩ := ih
    refine ⟨.turn actor :: moves, ?_⟩
    rw [run_cons, advance_turn hstep]
    exact hmoves
  | stimulus stimulus _ ih =>
    obtain ⟨moves, hmoves⟩ := ih
    exact ⟨.stimulus stimulus :: moves, hmoves⟩

/-! ## Open sessions -/

/-- The client takes events, and the session is not over. -/
structure IsOpen (session : Session) : Prop where
  receiving : session.outbox.receiving = true
  running : session.desk ≠ .ended

/-- A turn of the desk that changes what no turn changes is the end of a session that the client
has left or sends nothing more to. -/
theorem DeskTurn.beside_or {deed : Deed} (h : session.DeskTurn next deed) :
    session.Beside next ∧ next.desk ≠ .ended ∨ next.desk = .ended ∧
      next.outbox.receiving = session.outbox.receiving ∧
      (session.outbox.receiving = true → session.inbox.isOpen = false) := by
  cases h with
  | refuse _ _ hstill _ _ _ hdesk | arm _ _ hstill _ _ _ _ _ hdesk
  | await _ _ hstill _ _ _ _ _ _ _ hdesk | start _ _ hstill _ _ _ _ _ hdesk
  | restart _ _ _ _ hstill _ _ _ _ _ _ _ _ _ hdesk | prepare _ hstill _ _ _ _ hdesk =>
    refine .inl ⟨hstill.toBeside, ?_⟩
    rw [hdesk]
    exact nofun
  | cancel _ _ hbeside _ _ _ _ _ _ hdesk | place _ _ _ hbeside _ _ _ _ _ _ hdesk
  | move _ _ hbeside _ _ _ _ _ _ hdesk | deliver _ hbeside _ _ _ _ _ hdesk =>
    refine .inl ⟨hbeside, ?_⟩
    rw [hdesk]
    exact nofun
  | shutDown _ hclosed hreceiving hdesk => exact .inr ⟨hdesk, hreceiving, hclosed⟩

/-- No turn of the desk makes the client stop taking events, or take them again. -/
theorem DeskTurn.receiving {deed : Deed} (h : session.DeskTurn next deed) :
    next.outbox.receiving = session.outbox.receiving := by
  rcases h.beside_or with ⟨hbeside, _⟩ | ⟨_, hreceiving, _⟩
  · exact hbeside.receiving
  · exact hreceiving

/-- A desk that has ended takes no turns. -/
theorem deskStep_of_ended (h : session.desk = .ended) : session.deskStep = none := by
  rw [deskStep, h]

/-- Who has ended takes no turns. -/
theorem watcherStep_of_ended {id : WatcherId} {watcher : Watcher}
    (hwatcher : session.watchers[id]? = some watcher) (hended : watcher.phase.isEnded = true) :
    session.watcherStep id = none := by
  cases hphase : watcher.phase with
  | ended => simp only [watcherStep, hwatcher, hphase, Option.bind_eq_bind, Option.bind_some]
  | starting | opening | following | firing | retiring =>
    rw [hphase] at hended
    cases hended

/-- Who takes a turn has not ended. -/
theorem running_of_watcherStep {id : WatcherId} {watcher : Watcher}
    (hwatcher : session.watchers[id]? = some watcher) (hstep : session.watcherStep id = some next) :
    watcher.phase.isEnded = false := by
  refine Bool.eq_false_iff.2 fun hended => ?_
  rw [watcherStep_of_ended hwatcher hended] at hstep
  cases hstep

/-- An open session was open before. -/
theorem isOpen_of_step {actor : Actor} (hstep : step actor session = some next)
    (hopen : next.IsOpen) : session.IsOpen := by
  cases actor with
  | desk =>
    refine ⟨(deskTurn_of_deskStep hstep).receiving.symm.trans hopen.receiving, fun hended => ?_⟩
    rw [step, deskStep_of_ended hended] at hstep
    cases hstep
  | watcher id =>
    obtain ⟨watcher, after, hreplaces, _⟩ := watcherTurn_of_watcherStep hstep
    exact ⟨hreplaces.receiving.symm.trans hopen.receiving, hreplaces.desk ▸ hopen.running⟩

/-- A session stays open as long as the client is there and may send commands. -/
theorem beside_of_step {actor : Actor} (hopen : session.IsOpen)
    (hjoined : session.inbox.isOpen = true) (hstep : step actor session = some next) :
    session.Beside next ∧ next.IsOpen := by
  cases actor with
  | desk =>
    have hturn := deskTurn_of_deskStep hstep
    rcases hturn.beside_or with ⟨hbeside, hrunning⟩ | ⟨_, _, hclosed⟩
    · exact ⟨hbeside, hbeside.receiving.trans hopen.receiving, hrunning⟩
    · rw [hclosed hopen.receiving] at hjoined
      cases hjoined
  | watcher id =>
    obtain ⟨watcher, after, hreplaces, _⟩ := watcherTurn_of_watcherStep hstep
    exact ⟨hreplaces.toBeside, hreplaces.receiving.trans hopen.receiving,
      hreplaces.desk ▸ hopen.running⟩

/-- A command that the inbox takes is all that sending it changes. -/
theorem meet_send {command : Command} {inbox : Channel Command}
    (h : session.inbox.send command = .ok inbox) :
    session.meet (.send command) = { session with inbox } := by
  simp only [meet, h]

/-- A command that the inbox does not take changes nothing. -/
theorem meet_send_error {command : Command} {obstacle : Channel.Obstacle}
    (h : session.inbox.send command = .error obstacle) :
    session.meet (.send command) = session := by
  simp only [meet, h]

/-- An event that is taken leaves the outbox, and nothing else changes. -/
theorem meet_take {event : Event} {outbox : Outbox}
    (h : session.outbox.take? = some (event, outbox)) :
    session.meet .take = { session with outbox } := by
  simp only [meet, h]

/-- Where there is no event to take, nothing changes. -/
theorem meet_take_none (h : session.outbox.take? = none) : session.meet .take = session := by
  simp only [meet, h]

/-- Whoever takes turns, the orders and the events are as before. -/
structure Undisturbed (session next : Session) : Prop where
  desk : next.desk = session.desk
  watchers : next.watchers = session.watchers
  spawned : next.spawned = session.spawned
  book : next.book = session.book
  events : next.outbox.events = session.outbox.events

/-- Nothing that the client or the market does disturbs the orders or the events. -/
theorem undisturbed_meet (session : Session) (stimulus : Stimulus) :
    session.Undisturbed (session.meet stimulus) := by
  cases stimulus with
  | send command =>
    simp only [meet]
    split <;> exact ⟨rfl, rfl, rfl, rfl, rfl⟩
  | take =>
    simp only [meet]
    split
    · next event outbox htake =>
      exact ⟨rfl, rfl, rfl, rfl, (Outbox.take?_eq_some htake).2.1⟩
    · exact ⟨rfl, rfl, rfl, rfl, rfl⟩
  | endCommands | leave | push | breakStream | closeStream | refuse | wait =>
    exact ⟨rfl, rfl, rfl, rfl, rfl⟩

/-- A client that is there was there before. -/
theorem receiving_of_meet {stimulus : Stimulus}
    (h : (session.meet stimulus).outbox.receiving = true) : session.outbox.receiving = true := by
  cases stimulus with
  | send command =>
    simp only [meet] at h
    split at h <;> exact h
  | take =>
    simp only [meet] at h
    split at h
    · next event outbox htake => exact (Outbox.take?_eq_some htake).2.2.2.symm.trans h
    · exact h
  | leave => cases h
  | endCommands | push | breakStream | closeStream | refuse | wait => exact h

/-- A session that is open after the client or the market did something was open before. -/
theorem isOpen_of_meet {stimulus : Stimulus} (hopen : (session.meet stimulus).IsOpen) :
    session.IsOpen :=
  ⟨receiving_of_meet hopen.receiving, (undisturbed_meet session stimulus).desk ▸ hopen.running⟩

/-- A move is a turn that somebody takes, or disturbs nobody. -/
theorem advance_cases (session : Session) (move : Move) :
    (∃ actor, move = .turn actor ∧ step actor session = some (session.advance move)) ∨
      session.Undisturbed (session.advance move) := by
  cases move with
  | turn actor =>
    cases hstep : step actor session with
    | none =>
      rw [advance_turn_of_waits hstep]
      exact .inr ⟨rfl, rfl, rfl, rfl, rfl⟩
    | some next =>
      rw [advance_turn hstep]
      exact .inl ⟨actor, rfl, hstep⟩
  | stimulus stimulus => exact .inr (undisturbed_meet session stimulus)
  | feeds source => exact .inr ⟨rfl, rfl, rfl, rfl, rfl⟩

/-- A session that is open after a move was open before it. -/
theorem isOpen_of_advance {move : Move} (hopen : (session.advance move).IsOpen) :
    session.IsOpen := by
  cases move with
  | turn actor =>
    cases hstep : step actor session with
    | none =>
      rw [advance_turn_of_waits hstep] at hopen
      exact hopen
    | some next =>
      rw [advance_turn hstep] at hopen
      exact isOpen_of_step hstep hopen
  | stimulus stimulus => exact isOpen_of_meet hopen
  | feeds source => exact ⟨hopen.receiving, hopen.running⟩

/-- A session that is open after a run was open before it. -/
theorem isOpen_of_run {moves : List Move} (hopen : (session.run moves).IsOpen) :
    session.IsOpen := by
  induction moves generalizing session with
  | nil => exact hopen
  | cons move rest ih => exact isOpen_of_advance (ih hopen)

/-- A session that is open at the end of a run was open at every point of it. -/
theorem isOpen_of_prefix {moves middle : List Move} (hopen : (session.run moves).IsOpen)
    (hmiddle : middle <+: moves) : (session.run middle).IsOpen := by
  obtain ⟨rest, rfl⟩ := hmiddle
  rw [run_append] at hopen
  exact isOpen_of_run hopen

/-- What every turn of an open session keeps, and what nobody disturbs, holds along its runs. -/
theorem holds_along {P : Session → Prop}
    (hturn : ∀ {session next : Session} {actor : Actor}, P session →
      step actor session = some next → next.IsOpen → P next)
    (hsame : ∀ {session next : Session}, P session → session.Undisturbed next → P next)
    (h : P session) {moves : List Move} (hopen : (session.run moves).IsOpen) :
    P (session.run moves) := by
  induction moves generalizing session with
  | nil => exact h
  | cons move rest ih =>
    refine ih ?_ hopen
    rcases advance_cases session move with ⟨actor, _, hstep⟩ | hundisturbed
    · exact hturn h hstep (isOpen_of_run hopen)
    · exact hsame h hundisturbed

end Session

end TriggerDesk
