/-!
# Listings

A listing is a symbol as one broker trades it. Everything that a session keeps about prices and
pending orders is kept per listing.
-/

namespace TriggerDesk.Market

/-- A symbol at a broker. -/
structure Listing where
  broker : String
  symbol : String
  deriving DecidableEq, Repr

/-- The name of a listing: symbol first. -/
def Listing.name (listing : Listing) : String :=
  s!"{listing.symbol}.{listing.broker}"

end TriggerDesk.Market
