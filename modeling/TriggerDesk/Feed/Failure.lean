import TriggerDesk.Market.Quote

/-!
# Feed failures

Why a price feed gives no quotes, and the items that a feed delivers: batches of quotes until it
fails.
-/

namespace TriggerDesk.Feed

/-- Why a feed gives no quotes. -/
inductive Failure where
  | unknownBroker (name : String)
  /-- The broker refused the subscription. -/
  | refused (reason : String)
  /-- The stream of quotes broke. -/
  | broken (reason : String)
  deriving DecidableEq, Repr

def Failure.message : Failure → String
  | unknownBroker name => s!"unknown broker {name}"
  | refused reason => s!"subscription rejected: {reason}"
  | broken reason => s!"stream error: {reason}"

/-- What a stream delivers. -/
inductive Item where
  | batch (batch : Market.Batch)
  | failure (failure : Failure)
  deriving DecidableEq, Repr

end TriggerDesk.Feed
