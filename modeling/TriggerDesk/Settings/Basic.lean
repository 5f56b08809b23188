import TriggerDesk.CommandLine.Task
import TriggerDesk.Decimal.Reader
import TriggerDesk.Feed.Brokers
import TriggerDesk.Feed.RandomWalk

/-!
# Settings

What the daemon and its clients can be set up with. A setting is given on the command line, or
else by a variable of the environment, or else has a default. A variable that cannot be read
counts as one that is not set.

`Settings.ofEnvironment` reads the variables and `Settings.override` lets a command line prevail.
The two addresses of the exchange depend on the feed mode when no variable sets them, so they
follow the mode that prevails.
-/

namespace TriggerDesk

open Settings CommandLine

/-- The variables that are read. -/
inductive Settings.Variable where
  | listen
  | metricsPort
  | recordFile
  | feedMode
  | streamAddress
  | quoteAddress
  | readyTimeout
  | mockStart
  | mockInterval
  | queueCapacity
  | retention
  | desktopNotices
  deriving DecidableEq, Repr

/-- Every variable. -/
def Settings.Variable.all : List Settings.Variable :=
  [listen, metricsPort, recordFile, feedMode, streamAddress, quoteAddress, readyTimeout, mockStart,
    mockInterval, queueCapacity, retention, desktopNotices]

/-- The list of variables leaves none out. -/
theorem Settings.Variable.mem_all (setting : Settings.Variable) : setting ∈ all := by
  cases setting <;> decide

/-- The name of a variable. -/
def Settings.Variable.name : Settings.Variable → String
  | listen => "EMS_LISTEN"
  | metricsPort => "METRICS_PORT"
  | recordFile => "RECORD_FILE"
  | feedMode => "FEED_MODE"
  | streamAddress => "BINANCE_WS_URL"
  | quoteAddress => "BINANCE_REST_URL"
  | readyTimeout => "FEED_READY_TIMEOUT_MS"
  | mockStart => "MOCK_START_PX"
  | mockInterval => "MOCK_TICK_MS"
  | queueCapacity => "CLIENT_QUEUE_CAP"
  | retention => "CLIENT_HISTORY_CAP"
  | desktopNotices => "DESKTOP_NOTIFY"

/-- What each variable is set to, if it is set. -/
abbrev Settings.Environment := Settings.Variable → Option String

/-- Everything that can be set. -/
structure Settings where
  /-- The address of the daemon. -/
  listen : String
  metricsPort : Nat
  /-- The file that the journal is written to, if it is written at all. -/
  recordFile : Option String
  feedMode : FeedMode
  /-- The address of the stream of trades. -/
  streamAddress : String
  /-- The address that is asked for a last price. -/
  quoteAddress : String
  /-- For how many milliseconds a first quote is waited for. -/
  readyTimeout : Option Nat
  /-- The first price of the random walk. -/
  mockStart : Float
  /-- The milliseconds between two of its prices. -/
  mockInterval : Nat
  /-- The most commands that wait in a client. -/
  queueCapacity : Nat
  /-- The most confirmed orders that a client remembers; zero for all. -/
  retention : Nat
  /-- Whether a client shows notices on the desktop. -/
  desktopNotices : Bool
  deriving DecidableEq, Repr

namespace Settings

/-- The number below a bound that a variable is set to. -/
def natural? (environment : Environment) (setting : Variable) (bound : Nat) : Option Nat :=
  (environment setting).bind fun text => Decimal.readNatural? bound (Text.trim text)

/-- The price that a variable is set to. -/
def float? (environment : Environment) (setting : Variable) : Option Float :=
  (environment setting).bind fun text => Decimal.readFloat? (Text.trim text)

/-- Whether a text says yes. -/
def isYes (text : String) : Bool :=
  (Text.trim text).map Char.toLower ∈ ["1", "true", "yes", "on"]

/-- The number of ports. -/
def portBound : Nat := Nat.pow 2 16

/-- What a machine word can count to. -/
def wordBound : Nat := Nat.pow 2 64

/-- The mode that the environment sets. -/
def feedModeOf (environment : Environment) : FeedMode :=
  ((environment .feedMode).bind FeedMode.ofText?).getD .mock

/-- The settings that the environment and the defaults make. -/
def ofEnvironment (environment : Environment) : Settings :=
  let feedMode := feedModeOf environment
  { listen := (environment .listen).getD "127.0.0.1:6969"
    metricsPort := (natural? environment .metricsPort portBound).getD 9898
    recordFile := (environment .recordFile).filter (!Text.isBlankText ·)
    feedMode
    streamAddress := (environment .streamAddress).getD feedMode.streamAddress
    quoteAddress := (environment .quoteAddress).getD feedMode.quoteAddress
    readyTimeout := (natural? environment .readyTimeout wordBound).filter (0 < ·)
    mockStart := (float? environment .mockStart).getD 100
    mockInterval := (natural? environment .mockInterval wordBound).getD 5
    queueCapacity := (natural? environment .queueCapacity wordBound).getD 1024
    retention := (natural? environment .retention wordBound).getD 0
    desktopNotices := (environment .desktopNotices).any isYes }

/-- Lets a feed mode prevail. An address that no variable sets is that of the mode. -/
def withFeedMode (settings : Settings) (environment : Environment) (mode : FeedMode) : Settings :=
  { settings with
    feedMode := mode
    streamAddress :=
      if (environment .streamAddress).isSome then settings.streamAddress else mode.streamAddress
    quoteAddress :=
      if (environment .quoteAddress).isSome then settings.quoteAddress else mode.quoteAddress }

/-- Lets a task prevail. -/
def withTask (settings : Settings) (environment : Environment) : Task → Settings
  | .serve metricsPort feedMode recordFile =>
    let settings := { settings with metricsPort := metricsPort.getD settings.metricsPort }
    let settings := match feedMode with
      | some mode => settings.withFeedMode environment mode
      | none => settings
    { settings with recordFile := recordFile.or settings.recordFile }
  | .alert _ | .order _ _ | .session => settings

/-- Lets a command line prevail. -/
def override (settings : Settings) (environment : Environment) (invocation : Invocation) :
    Settings :=
  { settings with listen := invocation.address.getD settings.listen }.withTask environment
    invocation.task

/-- The random walk. -/
def walk (settings : Settings) : Feed.RandomWalk :=
  { start := settings.mockStart, step := 0.01, interval := settings.mockInterval }

/-- The brokers that quotes can be had from. -/
def brokers (settings : Settings) : Feed.Brokers := .ofNames settings.feedMode.brokers

end Settings

end TriggerDesk
