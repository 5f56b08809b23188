import TriggerDesk.Schedule
import TriggerDesk.Session.Handling
import TriggerDesk.Session.Watching

/-!
# The session as a machine

The desk and the watchers take turns, and the world around a session acts on it between the
turns: the client sends and takes and leaves, the feeds deliver and fail, time passes.
`Session.Reaches` says what states any interleaving of turns and such stimuli can lead to.
-/

namespace TriggerDesk

open Market TriggerDesk.Order Feed

namespace Session

/-- Who takes turns in a session. -/
inductive Actor where
  | desk
  | watcher (id : WatcherId)
  deriving DecidableEq, Repr

/-- The next step of an actor. -/
def step (actor : Actor) (session : Session) : Option Session :=
  match actor with
  | .desk => session.deskStep
  | .watcher id => session.watcherStep id

/-- Everyone who takes turns. -/
def actors (session : Session) : List Actor :=
  .desk :: (List.range session.watchers.length).map .watcher

/-- Whether an actor is about to take something from a channel or to put something into one. A
watcher that has prices to look at is not. -/
def exchanges (actor : Actor) (session : Session) : Bool :=
  match actor with
  | .desk => true
  | .watcher id =>
    match session.watchers[id]? with
    | none => false
    | some watcher =>
      match watcher.phase with
      | .opening _ | .following _ [] | .firing .. | .retiring .. => true
      | .starting | .following _ (_ :: _) | .ended _ => false

/-- The machine of desk and watchers. -/
def machine : Machine Session Actor := { actors, step, exchanges }

/-- What happens to a session from outside. -/
inductive Stimulus where
  /-- The client sends a command. -/
  | send (command : Command)
  /-- The client sends no more commands. -/
  | endCommands
  /-- The client takes an event. -/
  | take
  /-- The client takes no more events. -/
  | leave
  | push (listing : Listing) (batch : Batch)
  | breakStream (listing : Listing) (reason : String)
  | closeStream (listing : Listing)
  | refuse (listing : Listing) (reason : String)
  /-- Milliseconds pass. -/
  | wait (milliseconds : Nat)
  deriving DecidableEq, Repr

/-- Changes the feed that a session reads. -/
def withReplay (session : Session) (replay : Replay) : Session :=
  { session with source := { session.source with replay } }

/-- What a stimulus does to a session. Commands for which there is no room are lost. -/
def meet (session : Session) : Stimulus → Session
  | .send command =>
    match session.inbox.send command with
    | .ok inbox => { session with inbox }
    | .error _ => session
  | .endCommands => { session with inbox := session.inbox.closeSending }
  | .take =>
    match session.outbox.take? with
    | some (_, outbox) => { session with outbox }
    | none => session
  | .leave => { session with outbox := session.outbox.close }
  | .push listing batch => session.withReplay (session.source.replay.push listing batch).2
  | .breakStream listing reason =>
    session.withReplay (session.source.replay.breakStream listing reason).2
  | .closeStream listing => session.withReplay (session.source.replay.close listing)
  | .refuse listing reason => session.withReplay (session.source.replay.refuse listing reason)
  | .wait milliseconds => { session with clock := session.clock + milliseconds }

/-- Turns and stimuli in any order lead from one session to another. -/
inductive Reaches : Session → Session → Prop where
  | refl (session : Session) : Reaches session session
  | turn {first next last : Session} (actor : Actor) :
      step actor first = some next → Reaches next last → Reaches first last
  | stimulus {first last : Session} (stimulus : Stimulus) :
      Reaches (first.meet stimulus) last → Reaches first last

/-- What is reached from a state that was reached is reached from the first. -/
theorem Reaches.trans {first next last : Session} (before : Reaches first next)
    (after : Reaches next last) : Reaches first last := by
  induction before with
  | refl _ => exact after
  | turn actor h _ ih => exact .turn actor h (ih after)
  | stimulus stimulus _ ih => exact .stimulus stimulus (ih after)

/-- What the scheduled machine reaches is reached by steps of the session. -/
theorem Reaches.of_machine {first last : Session} (h : machine.Reaches first last) :
    Reaches first last := by
  induction h with
  | refl _ => exact .refl _
  | turn actor hstep _ ih => exact .turn actor hstep ih

end Session

end TriggerDesk
