import TriggerDesk.Decimal.Reader
import TriggerDesk.Json.Reader
import TriggerDesk.Market.Quote

/-!
# Trades from an exchange

An exchange reports each trade as one frame of text: a JSON object whose member `e` is
`aggTrade`, with the symbol, the price and the quantity as texts. `Trade.ofFrame?` reads such a
frame and nothing else. A quantity that cannot be read counts as zero.
-/

namespace TriggerDesk.Market

open Json

/-- A trade of a symbol. -/
structure Trade where
  symbol : String
  tick : Tick
  deriving DecidableEq, Repr

/-- The text under a name. -/
def textMember? (value : Value) (name : String) : Option String :=
  (value.member? name).bind Value.text?

/-- The trade that a value reports. -/
def Trade.ofValue? (value : Value) : Option Trade := do
  guard (textMember? value "e" = some "aggTrade")
  let symbol ← textMember? value "s"
  let price ← (textMember? value "p").bind Decimal.readFloat?
  let size := ((textMember? value "q").bind Decimal.readFloat?).getD 0
  return { symbol, tick := Tick.trade price size }

/-- The trade that a frame reports. -/
def Trade.ofFrame? (frame : String) : Option Trade :=
  match readValue frame with
  | .ok value => Trade.ofValue? value
  | .error _ => none

/-- A trade as a batch: its price is the last price of its symbol. -/
def Trade.toBatch (trade : Trade) : Batch :=
  [(trade.symbol, { last := trade.tick.price, ticks := [trade.tick] })]

end TriggerDesk.Market
