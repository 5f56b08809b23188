import TriggerDesk.Feed.Failure
import TriggerDesk.Json.Reader
import TriggerDesk.Market.Trade
import TriggerDesk.Text.Lowercase
import TriggerDesk.Text.Percent

/-!
# The feed of an exchange

An exchange is asked for a last price first, which is the first quote of the feed; then it sends
one frame for each trade. A frame that reports no trade is passed over, so what the feed delivers
is a function of the answer and of the frames (`Exchange.items`).
-/

namespace TriggerDesk.Feed

open Json Market

/-- Where an exchange is found. -/
structure Exchange where
  streamAddress : String
  quoteAddress : String
  deriving DecidableEq, Repr

/-- A text without the slashes at its end. -/
def trimSlashes (text : String) : String :=
  String.ofList (text.toList.reverse.dropWhile (· = '/')).reverse

/-- Upper case for the letters of ASCII. -/
def upperSymbol (symbol : String) : String := symbol.map Char.toUpper

namespace Exchange

/-! ## Asking for a last price -/

/-- The path and the query that ask for the last price of a symbol. `base` is the path of the
address of the exchange. -/
def quoteTarget (base symbol : String) : String :=
  Text.percentEncode Text.isPathChar (trimSlashes base) ++ "/api/v3/ticker/price?symbol=" ++
    Text.percentEncode Text.isQueryChar (upperSymbol symbol)

/-- The reasons that go with status codes. -/
def statusReasons : List (Nat × String) :=
  [(300, "Multiple Choices"), (301, "Moved Permanently"), (302, "Found"), (303, "See Other"),
    (304, "Not Modified"), (305, "Use Proxy"), (307, "Temporary Redirect"),
    (308, "Permanent Redirect"), (400, "Bad Request"), (401, "Unauthorized"),
    (402, "Payment Required"), (403, "Forbidden"), (404, "Not Found"),
    (405, "Method Not Allowed"), (406, "Not Acceptable"),
    (407, "Proxy Authentication Required"), (408, "Request Timeout"), (409, "Conflict"),
    (410, "Gone"), (411, "Length Required"), (412, "Precondition Failed"),
    (413, "Payload Too Large"), (414, "URI Too Long"), (415, "Unsupported Media Type"),
    (416, "Range Not Satisfiable"), (417, "Expectation Failed"), (418, "I'm a teapot"),
    (421, "Misdirected Request"), (422, "Unprocessable Entity"), (423, "Locked"),
    (424, "Failed Dependency"), (425, "Too Early"), (426, "Upgrade Required"),
    (428, "Precondition Required"), (429, "Too Many Requests"),
    (431, "Request Header Fields Too Large"), (451, "Unavailable For Legal Reasons"),
    (500, "Internal Server Error"), (501, "Not Implemented"), (502, "Bad Gateway"),
    (503, "Service Unavailable"), (504, "Gateway Timeout"),
    (505, "HTTP Version Not Supported"), (506, "Variant Also Negotiates"),
    (507, "Insufficient Storage"), (508, "Loop Detected"), (510, "Not Extended"),
    (511, "Network Authentication Required")]

/-- The reason that goes with a status code. -/
def statusReason (status : Nat) : String :=
  (statusReasons.lookup status).getD "<unknown status code>"

/-- The last price in an answer. -/
def lastOf? (answer : Value) : Option Float :=
  (textMember? answer "price").bind Decimal.readFloat?

/-- The last price that an answer gives. -/
def readAnswer (status : Nat) (body : String) : Except Failure Float :=
  if status < 200 || 300 ≤ status then
    .error (.refused s!"{status} {statusReason status}: {body}")
  else
    match readValue body with
    | .error located => .error (.refused s!"error decoding response body: {located.message}")
    | .ok answer =>
      match lastOf? answer with
      | some last => .ok last
      | none => .error (.refused s!"no price in ticker response: {answer.write}")

/-! ## The stream of trades -/

/-- What a symbol's trades are published under. -/
def topic (symbol : String) : String :=
  Text.lowercase (upperSymbol symbol) ++ "@aggTrade"

/-- The address of the trades of a symbol. -/
def topicAddress (exchange : Exchange) (symbol : String) : String :=
  trimSlashes exchange.streamAddress ++ "/" ++ topic symbol

/-- The path that asks for the trades of a symbol. `base` is the path of the address of the
stream. -/
def topicTarget (base symbol : String) : String :=
  Text.percentEncode Text.isPathChar (trimSlashes base ++ "/" ++ topic symbol)

/-- The scheme of an address, and what comes after it. -/
def splitScheme? (address : List Char) : Option (List Char × List Char) :=
  match address.dropWhile (· ≠ ':') with
  | [] => none
  | _ :: rest =>
    let scheme := address.takeWhile (· ≠ ':')
    let isSchemeChar (c : Char) : Bool := c.isAlphanum || c == '+' || c == '-' || c == '.'
    if scheme.head?.any Char.isAlpha && scheme.all isSchemeChar then some (scheme, rest) else none

/-- The host and the port of an address after its scheme. -/
def authorityOf (rest : List Char) : List Char :=
  ((rest.dropWhile (· = '/')).takeWhile fun c => c ≠ '/' && c ≠ '?' && c ≠ '#')

/-- What is wrong with what stands after a host. -/
def portFault? : List Char → Option String
  | [] => none
  | ':' :: digits =>
    if digits.all Char.isDigit && Decimal.digitsValue digits < Nat.pow 2 16 then none
    else some "invalid port number"
  | _ => some "invalid port number"

/-- What is wrong with a host and a port. A host in brackets is made of hexadecimal groups. -/
def authorityFault? : List Char → Option String
  | [] => some "empty host"
  | '[' :: rest =>
    let group := rest.takeWhile (· ≠ ']')
    let isGroupChar (c : Char) : Bool :=
      c.isDigit || ('a' ≤ c.toLower && c.toLower ≤ 'f') || c == ':' || c == '.'
    match rest.dropWhile (· ≠ ']') with
    | _ :: after =>
      if group.all isGroupChar && group.contains ':' then portFault? after
      else some "invalid IPv6 address"
    | [] => some "invalid IPv6 address"
  | ':' :: _ => some "empty host"
  | host => portFault? (host.dropWhile (· ≠ ':'))

/-- What is wrong with an address, if anything is. -/
def addressFault? (address : String) : Option String :=
  match splitScheme? address.toList with
  | none => some "relative URL without a base"
  | some (_, rest) => authorityFault? (authorityOf rest)

/-- The items that frames make: one for each trade. -/
def tradeItems (frames : List String) : List Item :=
  (frames.filterMap Trade.ofFrame?).map fun trade => .batch trade.toBatch

/-- The first quote of a symbol. -/
def firstBatch (symbol : String) (last : Float) : Batch :=
  [(upperSymbol symbol, { last, ticks := [] })]

/-- What the stream delivers after the first quote: the trades, if it has an address to read
them from. -/
def streamItems (exchange : Exchange) (symbol : String) (frames : List String) : List Item :=
  let address := exchange.topicAddress symbol
  match addressFault? address with
  | some fault => [.failure (.broken s!"bad ws url {address}: {fault}")]
  | none => tradeItems frames

/-- Everything that the feed of a symbol delivers, for an answer and some frames; or why there is
no feed. -/
def items (exchange : Exchange) (symbol : String) (status : Nat) (body : String)
    (frames : List String) : Except Failure (List Item) := do
  let last ← readAnswer status body
  return .batch (firstBatch symbol last) :: exchange.streamItems symbol frames

end Exchange

end TriggerDesk.Feed
