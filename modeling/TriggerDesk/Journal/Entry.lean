import TriggerDesk.Order.Event

/-!
# Journal entries

What is written down of a session: the commands it took, the events it answered with, and notes
about the session itself.
-/

namespace TriggerDesk.Journal

open TriggerDesk.Order

/-- One line of the journal. -/
inductive Entry where
  | command (command : Command)
  | event (event : Event)
  | note (text : String)
  deriving DecidableEq, Repr

end TriggerDesk.Journal
