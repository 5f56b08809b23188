/-!
# Triggers

A trigger is a price level that an order waits for, and the side from which the price has to
reach it. `Trigger.arm` takes the side from the last price: a level at or above it is reached
by a price that rises to it, a level below it by a price that falls to it. So an order does not
fire at the price it was armed at, unless that price is the level itself.
-/

namespace TriggerDesk.Order

/-- From which side the level lies to the price: `down` is a level that the price rises to,
`up` a level that it falls to. -/
inductive Direction where
  | up
  | down
  deriving DecidableEq, Repr

def Direction.name : Direction → String
  | up => "up"
  | down => "down"

def Direction.ofName? : String → Option Direction
  | "up" => some up
  | "down" => some down
  | _ => none

/-- A level with its direction. -/
structure Trigger where
  level : Float
  direction : Direction
  deriving DecidableEq, Repr

/-- The trigger for a level when the last price is known. -/
def Trigger.arm (level last : Float) : Trigger :=
  { level, direction := if last ≤ level then .down else .up }

/-- Two last prices arm a level alike when both are beyond it or neither is. -/
theorem Trigger.arm_eq_arm_iff {level first second : Float} :
    Trigger.arm level first = Trigger.arm level second ↔ (first ≤ level ↔ second ≤ level) := by
  unfold Trigger.arm
  by_cases hfirst : first ≤ level <;> by_cases hsecond : second ≤ level <;>
    simp [hfirst, hsecond]

/-- Whether a price reaches the level. -/
def Trigger.hits (trigger : Trigger) (price : Float) : Bool :=
  match trigger.direction with
  | .down => trigger.level ≤ price
  | .up => price ≤ trigger.level

end TriggerDesk.Order
