import TriggerDesk.Text.Blank

/-!
# Feed modes

Where the daemon gets its quotes from: from a random walk alone, or also from an exchange, in its
trial or in its real market. Each mode has the addresses that are used unless others are given.
-/

namespace TriggerDesk.Settings

/-- A source of quotes. -/
inductive FeedMode where
  | mock
  | sandbox
  | mainnet
  deriving DecidableEq, Repr

namespace FeedMode

/-- Every mode. -/
def all : List FeedMode := [mock, sandbox, mainnet]

def name : FeedMode → String
  | mock => "mock"
  | sandbox => "binance_sandbox"
  | mainnet => "binance_mainnet"

/-- The name on the command line. -/
def optionName : FeedMode → String
  | mock => "mock"
  | sandbox => "binance-sandbox"
  | mainnet => "binance-mainnet"

/-- The mode of a text. Blanks around it and the case of ASCII letters do not matter, and either
name will do. -/
def ofText? (text : String) : Option FeedMode :=
  let word := (Text.trim text).map Char.toLower
  all.find? fun mode => mode.name = word || mode.optionName = word

/-- The mode of a name on the command line. -/
def ofOption? (word : String) : Option FeedMode :=
  all.find? (·.optionName = word)

/-- The address of the stream of trades. -/
def streamAddress : FeedMode → String
  | mock | sandbox => "wss://testnet.binance.vision/ws"
  | mainnet => "wss://stream.binance.com:9443/ws"

/-- The address that is asked for a last price. -/
def quoteAddress : FeedMode → String
  | mock | sandbox => "https://testnet.binance.vision"
  | mainnet => "https://api.binance.com"

/-- The brokers that quotes can be had from. -/
def brokers : FeedMode → List String
  | mock => ["mock"]
  | sandbox | mainnet => ["mock", "binance"]

/-- The list of modes leaves none out. -/
theorem mem_all (mode : FeedMode) : mode ∈ all := by
  cases mode <;> decide

/-- A mode is found by the name of its option. -/
theorem ofOption?_optionName (mode : FeedMode) : ofOption? mode.optionName = some mode := by
  cases mode <;> rfl

end FeedMode

end TriggerDesk.Settings
