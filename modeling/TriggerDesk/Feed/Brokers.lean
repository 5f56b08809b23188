import TriggerDesk.Feed.Replay

/-!
# Feeds by broker

A directory of the brokers that have a feed. The case of ASCII letters in the name of a broker
does not matter. A session reads its quotes through a `Source`: a replay feed, alone or behind a
directory.
-/

namespace TriggerDesk.Feed

open Market

/-- The names of the brokers with a feed, in lower case. -/
structure Brokers where
  names : List String
  deriving DecidableEq, Repr

namespace Brokers

/-- Lower case for the letters of ASCII. -/
def lower (name : String) : String := name.map Char.toLower

/-- The brokers with the given names. -/
def ofNames (names : List String) : Brokers :=
  { names := (names.map lower).foldl (fun found name =>
      if name ∈ found then found else found ++ [name]) [] }

/-- Whether a broker has a feed. -/
def has (brokers : Brokers) (name : String) : Bool :=
  lower name ∈ brokers.names

/-- The names in order. -/
def sorted (brokers : Brokers) : List String :=
  brokers.names.mergeSort fun a b => decide (a ≤ b)

end Brokers

/-- Where the quotes of a session come from. Without a directory every broker is known. -/
structure Source where
  brokers : Option Brokers
  replay : Replay
  deriving DecidableEq, Repr

namespace Source

/-- Whether the directory, if there is one, has a broker. -/
def knows (source : Source) (broker : String) : Bool :=
  match source.brokers with
  | none => true
  | some brokers => brokers.has broker

/-- Subscribes to a listing. A broker that is not in the directory has no stream. -/
def subscribe (source : Source) (listing : Listing) : Except Failure StreamId × Source :=
  if source.knows listing.broker then
    let (result, replay) := source.replay.subscribe listing
    (result, { source with replay })
  else (.error (.unknownBroker listing.broker), source)

end Source

end TriggerDesk.Feed
