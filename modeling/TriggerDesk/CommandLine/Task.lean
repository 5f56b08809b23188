import TriggerDesk.Settings.FeedMode

/-!
# Tasks

What a person asks the program for: to serve as a daemon, or to act as a client of one, for a
single order or for a session.
-/

namespace TriggerDesk.CommandLine

open Settings

/-- Which way an order trades. -/
inductive Side where
  | buy
  | sell
  deriving DecidableEq, Repr

def Side.name : Side → String
  | buy => "buy"
  | sell => "sell"

def Side.ofName? : String → Option Side
  | "buy" => some buy
  | "sell" => some sell
  | _ => none

/-- What an order is to wait for, and where. Without an order id a fresh one is used. -/
structure Target where
  symbol : String
  price : Float
  broker : String
  oid : Option String
  deriving DecidableEq, Repr

/-- What the program is to do. -/
inductive Task where
  | serve (metricsPort : Option Nat) (feedMode : Option FeedMode) (recordFile : Option String)
  | alert (target : Target)
  | order (side : Side) (target : Target)
  | session
  deriving DecidableEq, Repr

/-- A command line that could be read: a task, and the address of the daemon if one is given. -/
structure Invocation where
  address : Option String
  task : Task
  deriving DecidableEq, Repr

end TriggerDesk.CommandLine
