import TriggerDesk.Decimal.Layout
import TriggerDesk.Metrics.Meter

/-!
# The exposition of meters

The text in which readings are handed to a collector. Meters with one name are a family: two
lines say what it is, and then each meter has a line with its labels and its reading. Families
are in the order of their names, and the meters of a family in the order of the values of their
labels. Labels are in the order of their names. A family without labels is always there; one with
labels only once a meter of it was touched.

The latency of first quotes is kept in buckets elsewhere and has no part in this text.
-/

namespace TriggerDesk.Metrics

/-- What meters with one name are called. -/
inductive Family where
  | badTicks
  | commands
  | events
  | feedMode
  | pending
  | rejects
  | sessions
  | ticks
  | ticksAt
  | watchers
  deriving DecidableEq, Repr

namespace Family

/-- Every family. -/
def all : List Family :=
  [badTicks, feedMode, commands, watchers, pending, rejects, sessions, ticks, ticksAt, events]

def name : Family → String
  | badTicks => "bad_ticks_total"
  | commands => "commands_total"
  | events => "trigger_events_total"
  | feedMode => "config_feed_mode"
  | pending => "pending_orders"
  | rejects => "rejects_total"
  | sessions => "router_sessions_active"
  | ticks => "ticks_total"
  | ticksAt => "ticks_total_by_key"
  | watchers => "feed_workers_active"

/-- What the family counts, for people. -/
def help : Family → String
  | badTicks => "ticks skipped (labels: broker, symbol, reason)"
  | commands => "inbound commands"
  | events => "outbound events"
  | feedMode => "feed mode (label: mode)"
  | pending => "orders waiting for trigger"
  | rejects => "rejected commands"
  | sessions => "connected client sessions"
  | ticks => "valid price ticks evaluated"
  | ticksAt => "valid ticks per broker/symbol"
  | watchers => "live feed workers"

/-- Whether a meter of the family can go down. -/
def isGauge : Family → Bool
  | feedMode | pending | sessions | watchers => true
  | badTicks | commands | events | rejects | ticks | ticksAt => false

/-- The word for the kind of meters in the family. -/
def kindName (family : Family) : String := if family.isGauge then "gauge" else "counter"

/-- The names of the labels, in the order in which their values are given. -/
def labels : Family → List String
  | badTicks => ["broker", "symbol", "reason"]
  | commands | events => ["msg"]
  | feedMode => ["mode"]
  | rejects => ["reason"]
  | ticksAt => ["broker", "symbol"]
  | pending | sessions | ticks | watchers => []

/-- The meter with some values for the labels; there have to be as many values as labels. -/
def meter? : Family → List String → Option Meter
  | badTicks, [broker, symbol, reason] => some (.badTicks broker symbol reason)
  | commands, [kind] => some (.commands kind)
  | events, [kind] => some (.events kind)
  | feedMode, [mode] => some (.feedMode mode)
  | rejects, [reason] => some (.rejects reason)
  | ticksAt, [broker, symbol] => some (.ticksAt broker symbol)
  | pending, [] => some .pending
  | sessions, [] => some .sessions
  | ticks, [] => some .ticks
  | watchers, [] => some .watchers
  | _, _ => none

/-- What is wrong when the number of values is. -/
def countFault (family : Family) (values : List String) : String :=
  s!"Inconsistent label cardinality, expect {family.labels.length} label values, " ++
    s!"but got {values.length}"

end Family

/-- The family of a meter and the values of its labels. First quotes have no family. -/
def Meter.family? : Meter → Option (Family × List String)
  | ticks => some (.ticks, [])
  | ticksAt broker symbol => some (.ticksAt, [broker, symbol])
  | badTicks broker symbol reason => some (.badTicks, [broker, symbol, reason])
  | watchers => some (.watchers, [])
  | firstQuotes => none
  | sessions => some (.sessions, [])
  | commands kind => some (.commands, [kind])
  | events kind => some (.events, [kind])
  | rejects reason => some (.rejects, [reason])
  | pending => some (.pending, [])
  | feedMode mode => some (.feedMode, [mode])

/-- The family of a meter finds the meter by the values of its labels. -/
theorem Family.meter?_of_family? {meter : Meter} {family : Family} {values : List String}
    (h : meter.family? = some (family, values)) : family.meter? values = some meter := by
  cases meter <;> simp_all [Meter.family?] <;> obtain ⟨rfl, rfl⟩ := h <;> rfl

namespace Exposition

/-- A character of a value between its quotes. -/
def escapeChar : Char → List Char
  | '\\' => ['\\', '\\']
  | '"' => ['\\', '"']
  | '\n' => ['\\', 'n']
  | c => [c]

/-- The value of a label between its quotes. -/
def quoted (value : String) : String :=
  "\"" ++ String.ofList (value.toList.flatMap escapeChar) ++ "\""

/-- The labels of a family with their values, by name. -/
def sortedLabels (family : Family) (values : List String) : List (String × String) :=
  (family.labels.zip values).mergeSort fun a b => decide (a.1 ≤ b.1)

/-- One line: a meter and its reading. -/
def line (family : Family) (labels : List (String × String)) (reading : Int) : String :=
  let choice :=
    if labels.isEmpty then ""
    else "\x7b" ++ ",".intercalate (labels.map fun (name, value) => s!"{name}={quoted value}") ++
      "\x7d"
  s!"{family.name}{choice} {Decimal.Layout.plain.write (Float.ofInt reading)}"

/-- Whether some values of labels come no later than others: they are compared one by one. -/
def valuesPrecede (values others : List String) : Bool :=
  !others.lex values fun value other => decide (value < other)

/-- The meters of a family with their readings, in order. -/
def members (meters : Meters) (family : Family) : List (List (String × String) × Int) :=
  let touched := meters.readings.entries.filterMap fun (meter, reading) =>
    match meter.family? with
    | some (found, values) =>
      if found = family then some (sortedLabels family values, reading) else none
    | none => none
  let touched :=
    if touched.isEmpty && family.labels.isEmpty then [([], 0)] else touched
  touched.mergeSort fun a b => valuesPrecede (a.1.map (·.2)) (b.1.map (·.2))

/-- The lines of a family. -/
def familyLines (meters : Meters) (family : Family) : List String :=
  match members meters family with
  | [] => []
  | found =>
    s!"# HELP {family.name} {family.help}" ::
      s!"# TYPE {family.name} {family.kindName}" ::
      found.map fun (labels, reading) => line family labels reading

/-- All lines. -/
def lines (meters : Meters) : List String := Family.all.flatMap (familyLines meters)

/-- The text of some meters. -/
def text (meters : Meters) : String := String.join ((lines meters).map (· ++ "\n"))

/-- The answer to a request for the text, whatever was asked. -/
def answer (meters : Meters) : String :=
  let body := text meters
  "HTTP/1.1 200 OK\r\nContent-Type: text/plain; version=0.0.4; charset=utf-8\r\n" ++
    s!"Content-Length: {body.utf8ByteSize}\r\nConnection: close\r\n\r\n{body}"

end Exposition

end TriggerDesk.Metrics
