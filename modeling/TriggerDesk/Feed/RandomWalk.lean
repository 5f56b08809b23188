import TriggerDesk.Market.Quote

/-!
# The random walk

A feed for trying things out: the price starts at `start` and moves every `interval` milliseconds
by between minus three and three steps, but not below one hundredth of its start. The draws come
from outside, so the walk is a function of them.
-/

namespace TriggerDesk.Feed

open Market

/-- A walk of a price. -/
structure RandomWalk where
  start : Float
  step : Float
  /-- Milliseconds between two prices. -/
  interval : Nat
  deriving DecidableEq, Repr

/-- What chance decides for one tick: the steps, from minus three to three, and the size of the
trade, from one to ten. -/
structure Draw where
  steps : Int
  size : Nat
  deriving DecidableEq, Repr

/-- Lets no price fall below a floor. At the floor the floor itself is taken; of a number and a
NaN the number. -/
def atLeast (floor price : Float) : Float :=
  if floor.isNaN || floor < price then price else floor

namespace RandomWalk

/-- The lowest price of the walk. -/
def floor (walk : RandomWalk) : Float := walk.start * 0.01

/-- The price after a draw. -/
def next (walk : RandomWalk) (price : Float) (steps : Int) : Float :=
  atLeast walk.floor (price + Float.ofInt steps * walk.step)

/-- The prices after each of some draws. -/
def prices (walk : RandomWalk) (price : Float) : List Draw → List Float
  | [] => []
  | draw :: rest =>
    let price := walk.next price draw.steps
    price :: prices walk price rest

/-- The first quote: the start, and no tick. -/
def firstQuote (walk : RandomWalk) : Quote := { last := walk.start, ticks := [] }

/-- The quote of a price that a draw led to. -/
def quoteAt (price : Float) (draw : Draw) : Quote :=
  { last := price, ticks := [Tick.trade price (Float.ofNat draw.size)] }

/-- The quote after a draw. -/
def quoteAfter (walk : RandomWalk) (price : Float) (draw : Draw) : Quote :=
  quoteAt (walk.next price draw.steps) draw

/-- The quotes of the walk, one for each draw after the first quote. -/
def quotes (walk : RandomWalk) (draws : List Draw) : List Quote :=
  walk.firstQuote :: ((walk.prices walk.start draws).zip draws).map fun (price, draw) =>
    quoteAt price draw

/-- The milliseconds from the start to the quote of a place. -/
def timeOf (walk : RandomWalk) (place : Nat) : Nat := place * walk.interval

/-- Whether a price can follow another in the walk. -/
def canFollow (walk : RandomWalk) (price next : Float) : Bool :=
  [-3, -2, -1, 0, 1, 2, 3].any fun steps => walk.next price steps = next

/-- Whether the last prices of some quotes follow one another in the walk. -/
def keepsTo (walk : RandomWalk) : List Quote → Bool
  | first :: second :: rest =>
    walk.canFollow first.last second.last && keepsTo walk (second :: rest)
  | _ => true

end RandomWalk

end TriggerDesk.Feed
