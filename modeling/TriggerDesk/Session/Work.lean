import TriggerDesk.Session.State

/-!
# The work before a session

How much there is to do in a session before everyone in it waits: something for each command and
each event on its way, for each order, and for each price that a watcher has not looked at.
`Session.turnBound` allows several turns for each unit of work; turns after everyone waits change
nothing, so it may be generous.
-/

namespace TriggerDesk

open Feed

/-- The sum of what some items amount to. -/
def totalOf {α : Type} (amount : α → Nat) (items : List α) : Nat :=
  items.foldl (fun total item => total + amount item) 0

/-- The work that an item of a stream makes. -/
def Feed.Item.work : Item → Nat
  | .batch quotes => 2 + totalOf (fun (_, quote) => quote.ticks.length) quotes
  | .failure _ => 2

/-- The work that a watcher has before it. -/
def Watcher.work (watcher : Watcher) : Nat :=
  match watcher.phase with
  | .following _ prices => 2 + prices.length
  | .firing _ _ rest prices => 2 + rest.length + prices.length
  | .retiring _ _ rest => 2 + rest.length
  | .starting | .opening _ | .ended _ => 2

/-- The work that a session has before it. -/
def Session.work (session : Session) : Nat :=
  1 + session.inbox.items.length + session.outbox.underway.length + session.book.size
    + totalOf Watcher.work session.watchers
    + totalOf (fun stream => totalOf Item.work stream.items) session.source.replay.streams

/-- A bound for the turns that some work takes: each unit takes a few. -/
def Session.turnBound (work : Nat) : Nat := 64 * work

end TriggerDesk
