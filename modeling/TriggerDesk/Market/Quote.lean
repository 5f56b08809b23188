/-!
# Quotes

What a price feed delivers: batches that give, for each symbol in them, the last price and the
trades since the batch before.
-/

namespace TriggerDesk.Market

/-- One trade or price update. -/
structure Tick where
  price : Float
  size : Option Float
  kind : Option String
  deriving DecidableEq, Repr

/-- A tick of a trade. -/
def Tick.trade (price size : Float) : Tick :=
  { price, size := some size, kind := some "trade" }

/-- The last price of a symbol, and its ticks in order. -/
structure Quote where
  last : Float
  ticks : List Tick
  deriving DecidableEq, Repr

/-- The quotes of some symbols. -/
abbrev Batch := List (String × Quote)

/-- A batch for one symbol from its prices: each price is a tick, the last one is the last
price, and without prices the last price is zero. -/
def Batch.ofPrices (symbol : String) (prices : List Float) : Batch :=
  [(symbol, { last := prices.getLast?.getD 0, ticks := prices.map fun p => ⟨p, none, none⟩ })]

/-- Whether two symbols are the same but for the case of ASCII letters. -/
def sameSymbol (a b : String) : Bool :=
  a.map Char.toLower == b.map Char.toLower

/-- The ticks of the quotes for a symbol, in order. -/
def Batch.ticksFor (batch : Batch) (symbol : String) : List Tick :=
  (batch.filter fun (name, _) => sameSymbol name symbol).flatMap fun (_, quote) => quote.ticks

/-- The last price that a batch gives for a symbol. -/
def Batch.lastFor? (batch : Batch) (symbol : String) : Option Float :=
  (batch.find? fun (name, _) => sameSymbol name symbol).map fun (_, quote) => quote.last

/-- A price that an order can be judged by: finite and not negative. -/
def isValidPrice (price : Float) : Bool :=
  price.isFinite && 0 ≤ price

end TriggerDesk.Market
