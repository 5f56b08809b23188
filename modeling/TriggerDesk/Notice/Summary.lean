import TriggerDesk.Decimal.Layout
import TriggerDesk.Order.Event

/-!
# Summaries

One line about an event, for people.
-/

namespace TriggerDesk.Order

/-- The kind and the listing of an event, its direction if it has one, its price and level, its
order id, and its reason if it has one. -/
def Event.summary (event : Event) : String :=
  let plain := Decimal.Layout.plain.write
  let direction := match event.direction with
    | some direction => s!" {direction.name}"
    | none => ""
  let reason := match event.reason with
    | some reason => s!" - {reason}"
    | none => ""
  s!"{event.kind.name}: {event.symbol}.{event.broker}{direction}" ++
    s!" @ {plain event.price} (level {plain event.level}) [{event.oid}]{reason}"

end TriggerDesk.Order
