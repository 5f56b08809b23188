import TriggerDesk.Channel
import TriggerDesk.Order.Event
import TriggerDesk.Table
import TriggerDesk.Text.Quoted

/-!
# The client's ledger

A client knows its orders from what it sent and from what it was told. An order is in `sent`
from the moment it is submitted, and in `confirmed` from its first acknowledgement, alert or
fill; a cancellation or a rejection takes it out again. Commands leave through a bounded queue.
What comes of a call is a `Ledger.Outcome`: its answer or why it is refused, and in both cases the
ledger as it is afterwards.

The ledger keeps at most `retention` confirmed orders, if that is not zero: the ones confirmed
first are forgotten first. `history` lists the confirmed ids in that order.
-/

namespace TriggerDesk.Client

open TriggerDesk.Order

/-- Why the client refuses a call. -/
inductive Refusal where
  | queueFull (capacity : Nat)
  | queueClosed
  | unknownOid (oid : String)
  | duplicateOid (oid : String)
  /-- A console line whose words have no known shape. -/
  | badLine (line : String)
  /-- A console line whose price is no finite number. -/
  | badPrice (word : String)
  deriving DecidableEq, Repr

def Refusal.message : Refusal → String
  | queueFull capacity => s!"order queue full (capacity {capacity})"
  | queueClosed => "order queue closed"
  | unknownOid oid => s!"unknown order id {oid}"
  | duplicateOid oid => s!"duplicate order id {oid}"
  | badLine line => s!"bad command line: {line}"
  | badPrice word => s!"bad command line: bad price {Text.quote word}"

/-- The orders of a client and the queue of its commands. -/
structure Ledger where
  /-- Orders that were submitted and not answered yet. -/
  sent : Table String Command
  /-- Orders that were answered, each with its level as price. -/
  confirmed : Table String Command
  /-- The ids of the confirmed orders, the one confirmed first at the head. -/
  history : List String
  /-- The most confirmed orders that are kept; zero keeps all. -/
  retention : Nat
  /-- The commands on their way out. -/
  queue : Channel Command
  deriving DecidableEq, Repr

namespace Ledger

/-- A ledger without orders. A queue holds at least one command. -/
def new (capacity retention : Nat) : Ledger :=
  { sent := .empty, confirmed := .empty, history := [], retention
    queue := .new (max capacity 1) }

/-! ## What the client asks -/

/-- What comes of a call: a refusal, or what the call gives, and the ledger as the call leaves
it. -/
structure Outcome (α : Type) where
  result : Except Refusal α
  ledger : Ledger

namespace Outcome

variable {α β : Type}

/-- A call that is refused and leaves this ledger. -/
def refused (refusal : Refusal) (ledger : Ledger) : Outcome α := ⟨.error refusal, ledger⟩

/-- The same call with something else to give. -/
def map (f : α → β) (outcome : Outcome α) : Outcome β :=
  { outcome with result := outcome.result.map f }

/-- What an accepted call gives, with its ledger. -/
def accepted (outcome : Outcome α) : Except Refusal (α × Ledger) :=
  outcome.result.map (·, outcome.ledger)

end Outcome

/-- Puts a command into the queue. -/
def enqueue (ledger : Ledger) (command : Command) : Except Refusal Ledger :=
  match ledger.queue.send command with
  | .ok queue => .ok { ledger with queue }
  | .error .full => .error (.queueFull ledger.queue.capacity)
  | .error .closed => .error .queueClosed

/-- Whether an order id is in use. -/
def isKnown (ledger : Ledger) (oid : String) : Bool :=
  ledger.sent.contains oid || ledger.confirmed.contains oid

/-- Writes an order down as sent. -/
def noteSent (ledger : Ledger) (command : Command) : Ledger :=
  { ledger with sent := ledger.sent.set command.oid command }

/-- Takes an order that never was live out of the ledger. -/
def discardSent (ledger : Ledger) (oid : String) : Ledger :=
  { ledger with sent := ledger.sent.erase oid }

/-- Submits a command. A command that places an order needs an id that is not in use. It is
written down before the queue is asked to take it, so that an answer finds it there, and taken out
again when the queue refuses. -/
def trySubmit (ledger : Ledger) (command : Command) : Outcome Unit :=
  if command.kind.places && ledger.isKnown command.oid then
    .refused (.duplicateOid command.oid) ledger
  else
    let noted := if command.kind.places then ledger.noteSent command else ledger
    match noted.enqueue command with
    | .ok queued => ⟨.ok (), queued⟩
    | .error refusal =>
      .refused refusal (if command.kind.places then noted.discardSent command.oid else noted)

/-- Places an order. -/
def tryPlace (ledger : Ledger) (kind : Command.Kind) (oid symbol : String) (brokers : List String)
    (price : Float) : Outcome Unit :=
  ledger.trySubmit { kind, oid, symbol, brokers, price }

/-- The order of an id: as confirmed, or else as sent. -/
def known? (ledger : Ledger) (oid : String) : Option Command :=
  match ledger.confirmed.get? oid with
  | some command => some command
  | none => ledger.sent.get? oid

/-- Asks to cancel an order. -/
def tryCancel (ledger : Ledger) (oid : String) : Outcome Unit :=
  match ledger.known? oid with
  | none => .refused (.unknownOid oid) ledger
  | some command => ledger.trySubmit { command with kind := .cancel }

/-- Asks to move an order to another level. -/
def tryModify (ledger : Ledger) (oid : String) (price : Float) : Outcome Unit :=
  match ledger.known? oid with
  | none => .refused (.unknownOid oid) ledger
  | some command => ledger.trySubmit { command with kind := .modify, price }

/-- The ledger after a command that was submitted, unless it is refused. -/
def submit (ledger : Ledger) (command : Command) : Except Refusal Ledger :=
  (ledger.trySubmit command).accepted.map (·.2)

/-- The ledger after an order was asked to be cancelled, unless that is refused. -/
def cancel (ledger : Ledger) (oid : String) : Except Refusal Ledger :=
  (ledger.tryCancel oid).accepted.map (·.2)

/-- The ledger after an order was asked to be moved, unless that is refused. -/
def modify (ledger : Ledger) (oid : String) (price : Float) : Except Refusal Ledger :=
  (ledger.tryModify oid price).accepted.map (·.2)

/-- Submitting refuses an order under an id that is known, and otherwise enqueues the command. -/
theorem submit_eq (ledger : Ledger) (command : Command) :
    ledger.submit command =
      if command.kind.places then
        if ledger.isKnown command.oid then .error (.duplicateOid command.oid)
        else { ledger with sent := ledger.sent.set command.oid command }.enqueue command
      else ledger.enqueue command := by
  unfold submit trySubmit
  cases command.kind.places with
  | false =>
    simp only [Bool.false_and, Bool.false_eq_true, if_false]
    cases ledger.enqueue command <;> rfl
  | true =>
    cases ledger.isKnown command.oid with
    | true => rfl
    | false =>
      simp only [Bool.and_false, Bool.false_eq_true, if_true, if_false]
      show _ = (ledger.noteSent command).enqueue command
      cases (ledger.noteSent command).enqueue command <;> rfl

/-- Cancelling submits a cancellation of the order that is known under an id, or is refused. -/
theorem cancel_eq (ledger : Ledger) (oid : String) :
    ledger.cancel oid =
      match ledger.known? oid with
      | none => .error (.unknownOid oid)
      | some command => ledger.submit { command with kind := .cancel } := by
  unfold cancel tryCancel
  cases ledger.known? oid <;> rfl

/-- Modifying submits the order that is known under an id at its new price, or is refused. -/
theorem modify_eq (ledger : Ledger) (oid : String) (price : Float) :
    ledger.modify oid price =
      match ledger.known? oid with
      | none => .error (.unknownOid oid)
      | some command => ledger.submit { command with kind := .modify, price } := by
  unfold modify tryModify
  cases ledger.known? oid <;> rfl

/-! ## What the client is told -/

/-- Moves an order from sent to confirmed, if it is there. -/
def confirmSent (ledger : Ledger) (oid : String) : Ledger :=
  match ledger.sent.get? oid with
  | none => ledger
  | some command =>
    { ledger with
      sent := ledger.sent.erase oid
      confirmed := ledger.confirmed.set oid command
      history := ledger.history ++ [oid] }

/-- Sets the level of a confirmed order. -/
def setLevel (ledger : Ledger) (oid : String) (command : Command) (level : Float) : Ledger :=
  { ledger with confirmed := ledger.confirmed.set oid { command with price := level } }

/-- Forgets orders from the head of a history until at most `retention` are left. Gives the
history that remains. -/
def forgetFirst (retention : Nat) : List String → Table String Command →
    List String × Table String Command
  | [], confirmed => ([], confirmed)
  | oid :: history, confirmed =>
    if retention < confirmed.size then forgetFirst retention history (confirmed.erase oid)
    else (oid :: history, confirmed)

/-- Forgets the orders that are too many. -/
def trim (ledger : Ledger) : Ledger :=
  if ledger.retention = 0 then ledger
  else
    let (history, confirmed) := forgetFirst ledger.retention ledger.history ledger.confirmed
    { ledger with history, confirmed }

/-- An order is live, at a new level if one is given. -/
def confirm (ledger : Ledger) (oid : String) (level : Option Float) : Ledger :=
  let ledger := ledger.confirmSent oid
  match ledger.confirmed.get? oid with
  | none => ledger
  | some command =>
    match level with
    | none => ledger.trim
    | some level => (ledger.setLevel oid command level).trim

/-- An order is gone. -/
def forget (ledger : Ledger) (oid : String) : Ledger :=
  { ledger with
    sent := ledger.sent.erase oid
    confirmed := ledger.confirmed.erase oid
    history := ledger.history.filter (· ≠ oid) }

/-- Brings the ledger up to date with an event. -/
def observe (ledger : Ledger) (event : Event) : Ledger :=
  match event.kind with
  | .ack => ledger.confirm event.oid (some event.level)
  | .alert | .fill => ledger.confirm event.oid none
  | .cancelled => ledger.forget event.oid
  | .rejected => ledger.discardSent event.oid

end Ledger

end TriggerDesk.Client
