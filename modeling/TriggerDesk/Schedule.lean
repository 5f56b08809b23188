/-!
# Schedules

A machine has actors that take turns on one state. `Machine.step` is what an actor does next, or
`none` while it has to wait. Any order of turns is a run: `Machine.Reaches` says what the turns
can lead to.

`Machine.settle` is the order in which a single thread takes the turns. Actors that can go on
stand in a line; the first one goes on until it has to wait, and whoever can go on because of
what it did joins the line at its end. An actor that has exchanged `patience` things with others
without waiting makes room for them and goes to the end of the line itself.
`Machine.reaches_settle` says that this is a run.
-/

namespace TriggerDesk

/-- Actors on one state. -/
structure Machine (σ α : Type) where
  /-- Everyone who may take a turn. -/
  actors : σ → List α
  /-- What an actor does next; `none` while it waits. -/
  step : α → σ → Option σ
  /-- Whether an actor is about to take something from others or to give something to them. -/
  exchanges : α → σ → Bool

namespace Machine

variable {σ α : Type} (machine : Machine σ α)

/-- Turns of any actors in any order lead from one state to another. -/
inductive Reaches : σ → σ → Prop where
  | refl (state : σ) : Reaches state state
  | turn {first next last : σ} (actor : α) :
      machine.step actor first = some next → Reaches next last → Reaches first last

/-- What is reached from a state that was reached is reached from the first. -/
theorem Reaches.trans {machine : Machine σ α} {first next last : σ}
    (before : machine.Reaches first next) (after : machine.Reaches next last) :
    machine.Reaches first last := by
  induction before with
  | refl _ => exact after
  | turn actor h _ ih => exact .turn actor h (ih after)

/-- A state and the line of the actors that can go on. -/
structure Line (σ α : Type) where
  state : σ
  line : List α
  deriving Repr

variable [DecidableEq α]

/-- Lets everyone who can go on and is not in line join at the end. -/
def join (state : σ) (line : List α) : List α :=
  line ++ (machine.actors state).filter fun actor =>
    !line.contains actor && (machine.step actor state).isSome

/-- The line once everyone who can go on has joined it. -/
def queue (current : Line σ α) : Line σ α :=
  { current with line := machine.join current.state current.line }

/-- How many exchanges an actor may have before it lets others go first. -/
def patience : Nat := 128

/-- Lets the actors take at most `fuel` turns: the first in line goes on until it waits or has
`spent` its patience. -/
def turns : Nat → Nat → Line σ α → Line σ α
  | 0, _, current => current
  | fuel + 1, spent, current =>
    match current.line with
    | [] => current
    | actor :: rest =>
      let exchanges := machine.exchanges actor current.state
      if exchanges && spent == patience then
        turns fuel 0 { current with line := rest ++ [actor] }
      else
        match machine.step actor current.state with
        | some state =>
          turns fuel (spent + exchanges.toNat)
            { state, line := machine.join state (actor :: rest) }
        | none => turns fuel 0 { current with line := rest }

/-- Lets the actors go on until nobody can, for at most `fuel` turns. -/
def settle (fuel : Nat) (current : Line σ α) : Line σ α :=
  machine.turns fuel 0 (machine.queue current)

/-- The turns of a line reach the state that they end in. -/
theorem reaches_turns (fuel spent : Nat) (current : Line σ α) :
    machine.Reaches current.state (machine.turns fuel spent current).state := by
  fun_induction turns machine fuel spent current with
  | case1 _ current => exact .refl _
  | case2 _ _ current => exact .refl _
  | case3 fuel spent current actor rest hline exchanges hspent ih => exact ih
  | case4 fuel spent current actor rest hline exchanges hspent state hstep ih =>
    exact .turn actor hstep ih
  | case5 fuel spent current actor rest hline exchanges hspent hstep ih => exact ih

/-- Settling a line reaches the state that it settles in. -/
theorem reaches_settle (fuel : Nat) (current : Line σ α) :
    machine.Reaches current.state (machine.settle fuel current).state :=
  machine.reaches_turns fuel 0 (machine.queue current)

end Machine

end TriggerDesk
