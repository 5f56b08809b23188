import TriggerDesk.Table

/-!
# Meters

What is counted about sessions and feeds. A meter is a number with a name; some names have
labels, and each choice of labels is a meter of its own. `Meters.get_add` is all there is to
know about counting.
-/

namespace TriggerDesk.Metrics

/-- A meter: its name with its labels. -/
inductive Meter where
  /-- Valid ticks. -/
  | ticks
  | ticksAt (broker symbol : String)
  /-- Ticks that were passed over, and why. -/
  | badTicks (broker symbol reason : String)
  /-- Watchers with a live feed, at present. -/
  | watchers
  /-- First quotes that a session waited for and got. -/
  | firstQuotes
  /-- Open sessions, at present. -/
  | sessions
  | commands (kind : String)
  | events (kind : String)
  /-- Commands that were refused, and why. -/
  | rejects (reason : String)
  /-- Orders that wait for their trigger, at present. -/
  | pending
  | feedMode (mode : String)
  deriving DecidableEq, Repr

/-- The readings of meters. A meter that was never touched reads zero. -/
structure Meters where
  readings : Table Meter Int
  deriving DecidableEq, Repr

namespace Meters

/-- Meters that were never touched. -/
def zero : Meters := ⟨.empty⟩

/-- What a meter reads. -/
def get (meters : Meters) (meter : Meter) : Int := (meters.readings.get? meter).getD 0

/-- Sets a meter. -/
def set (meters : Meters) (meter : Meter) (n : Int) : Meters :=
  ⟨meters.readings.set meter n⟩

/-- Moves a meter. -/
def add (meters : Meters) (meter : Meter) (n : Int) : Meters :=
  meters.set meter (meters.get meter + n)

/-- What some meters read together with what was counted besides. -/
def combine (meters more : Meters) : Meters :=
  more.readings.entries.foldl (fun meters (meter, n) => meters.add meter n) meters

@[simp]
theorem get_zero (meter : Meter) : zero.get meter = 0 := rfl

/-- Setting a meter changes what it reads, and no other. -/
theorem get_set (meters : Meters) (meter other : Meter) (n : Int) :
    (meters.set meter n).get other = if other = meter then n else meters.get other := by
  simp only [get, set, Table.get?_set]
  split <;> simp

/-- Moving a meter changes what it reads by as much, and no other. -/
theorem get_add (meters : Meters) (meter other : Meter) (n : Int) :
    (meters.add meter n).get other =
      if other = meter then meters.get meter + n else meters.get other :=
  get_set meters meter other _

end Meters

end TriggerDesk.Metrics
