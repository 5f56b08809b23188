import TriggerDesk.Client.Ledger
import TriggerDesk.Decimal.Reader
import TriggerDesk.Text.Blank

/-!
# The console

A person writes one command a line:

* `alert`, `buy` or `sell`, a symbol, a broker, a price, and perhaps an order id;
* `cancel` and an order id;
* `modify`, an order id and a price.

`Request.ofWords?` is this grammar, and `Ledger.tryApply` carries a request out. A line without an
order id uses a fresh one, which `Ledger.tryLineAsking` asks for only then.
-/

namespace TriggerDesk.Client

open TriggerDesk.Order

/-- What a console line asks for. Prices are still words. -/
inductive Request where
  | place (kind : Command.Kind) (symbol broker price : String) (oid : Option String)
  | cancel (oid : String)
  | modify (oid price : String)
  deriving DecidableEq, Repr

/-- The kind of order that a word places. -/
def placingKind? (word : String) : Option Command.Kind :=
  (Command.Kind.ofName? word).filter (·.places)

/-- The request that the words of a line make. -/
def Request.ofWords? : List String → Option Request
  | [word, symbol, broker, price] =>
    (placingKind? word).map fun kind => .place kind symbol broker price none
  | [word, symbol, broker, price, oid] =>
    (placingKind? word).map fun kind => .place kind symbol broker price (some oid)
  | ["cancel", oid] => some (.cancel oid)
  | ["modify", oid, price] => some (.modify oid price)
  | _ => none

/-- Whether a request needs a fresh order id. -/
def Request.needsOid : Request → Bool
  | .place _ _ _ _ none => true
  | _ => false

/-- The request of a line. -/
def Request.ofLine? (line : String) : Option Request :=
  Request.ofWords? (Text.words line)

/-- The price that a word is: a finite number. -/
def readPrice (word : String) : Except Refusal Float :=
  match (Decimal.readFloat? word).filter (·.isFinite) with
  | some price => .ok price
  | none => .error (.badPrice word)

namespace Ledger

/-- Carries a request out, and gives the order id that it was about. -/
def tryApply (ledger : Ledger) (fresh : String) : Request → Outcome String
  | .place kind symbol broker word oid =>
    match readPrice word with
    | .error refusal => .refused refusal ledger
    | .ok price =>
      (ledger.tryPlace kind (oid.getD fresh) symbol [broker] price).map fun _ => oid.getD fresh
  | .cancel oid => (ledger.tryCancel oid).map fun _ => oid
  | .modify oid word =>
    match readPrice word with
    | .error refusal => .refused refusal ledger
    | .ok price => (ledger.tryModify oid price).map fun _ => oid

/-- Carries a console line out. A line of no known shape is refused as it is, without the
blanks around it. -/
def tryLine (ledger : Ledger) (fresh line : String) : Outcome String :=
  match Request.ofLine? line with
  | some request => ledger.tryApply fresh request
  | none => .refused (.badLine (Text.trim line)) ledger

/-- Carries a console line out. A fresh id is asked for if the line needs one, whatever comes of
the line, and only then. -/
def tryLineAsking {m : Type → Type} [Monad m] (ledger : Ledger) (ask : m String) (line : String) :
    m (Outcome String) :=
  match Request.ofLine? line with
  | some request =>
    if request.needsOid then do return ledger.tryApply (← ask) request
    else return ledger.tryApply "" request
  | none => return .refused (.badLine (Text.trim line)) ledger

/-- What a console line gives and the ledger after it, unless it is refused. -/
def applyLine (ledger : Ledger) (fresh line : String) : Except Refusal (String × Ledger) :=
  (ledger.tryLine fresh line).accepted

end Ledger

end TriggerDesk.Client
