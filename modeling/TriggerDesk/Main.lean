import Std.Async.DNS
import Std.Async.Signal
import Std.Async.TCP
import Std.Async.Timer
import Std.Sync.Channel
import TriggerDesk.Client.Terminal
import TriggerDesk.CommandLine.Ending
import TriggerDesk.Daemon.Guest
import TriggerDesk.Journal.File
import TriggerDesk.Metrics.Exposition

/-!
# The program

Sockets, clocks, chance and files around the library. What is to be done is read from the
environment and the command line; the daemon then serves guests, and a client talks to a daemon.
Everything that is decided is decided elsewhere.

The daemon has quotes of the random walk only: a command for any other broker is rejected.
Notices go to standard error.
-/

namespace TriggerDesk.Program

open Std.Async Std.Net
open Client CommandLine Daemon Metrics

/-! ## Addresses and bytes -/

/-- The socket address of a host and a port, written with a colon between them. -/
def resolve (address : String) : Async SocketAddress := do
  let parts := address.splitOn ":"
  let host := ":".intercalate parts.dropLast
  match (parts.getLast?).bind (Decimal.readNatural? Settings.portBound) with
  | none => throw (.userError s!"no port in address {address}")
  | some port =>
    let found ← DNS.getAddrInfo host ""
    match (found : Array IPAddr)[0]? with
    | some (IPAddr.v4 ip) => return .v4 { addr := ip, port := port.toUInt16 }
    | some (IPAddr.v6 ip) => return .v6 { addr := ip, port := port.toUInt16 }
    | none => throw (.userError s!"no such host: {host}")

/-- The most bytes that are read at once. -/
def readSize : UInt64 := 65536

/-- Sends bytes, if there are any. -/
def sendBytes (socket : TCP.Socket.Client) (bytes : List UInt8) : Async Unit :=
  unless bytes.isEmpty do socket.send ⟨bytes.toArray⟩

/-- Writes lines to standard error. -/
def complain (lines : List String) : IO Unit := lines.forM fun line => IO.eprintln line

/-! ## The daemon -/

/-- What a guest is woken up by. -/
inductive Call where
  | tick
  | bytes (bytes : ByteArray)
  | hangUp

/-- Waits for what comes first. -/
def nextCall (socket : TCP.Socket.Client) (isReading : Bool) (interval : Nat) : Async Call := do
  let clock ← Selector.sleep (.ofNat (max interval 1))
  let ticking : Selectable Call := .case clock fun _ => pure .tick
  let reading : Selectable Call := .case (socket.recvSelector readSize) fun found =>
    pure (match found with
      | some bytes => .bytes bytes
      | none => .hangUp)
  Selectable.one (if isReading then #[reading, ticking] else #[ticking])

/-- Draws for some streams. -/
def drawFor (count : Nat) : IO (List Feed.Draw) :=
  (List.range count).mapM fun _ => do
    return { steps := Int.ofNat (← IO.rand 0 6) - 3, size := ← IO.rand 1 10 }

/-- Adds entries to a file, whose directory is made if it is not there. -/
def addEntries (path : String) (entries : List Journal.Entry) : IO Unit := do
  let directory := "/".intercalate (path.splitOn "/").dropLast
  unless directory.isEmpty do IO.FS.createDirAll directory
  let handle ← IO.FS.Handle.mk path .append
  handle.putStr (Journal.addTo "" entries)

/-- Hands on what a guest has for its client, for the journal and for the collector. -/
def handOn (settings : Settings) (readings : IO.Ref Meters) (socket : TCP.Socket.Client)
    (guest : Guest) : Async Guest := do
  let (lines, guest) := guest.takeLines
  sendBytes socket (lines.flatMap Wire.frame)
  let (entries, guest) := guest.takeEntries
  if let some path := settings.recordFile then
    unless entries.isEmpty do addEntries path entries
  let (meters, guest) := guest.takeMeters
  readings.modify (·.combine meters)
  return guest

/-- Serves one client until nothing more can come of it. -/
def serveGuest (settings : Settings) (readings : IO.Ref Meters) (socket : TCP.Socket.Client) :
    Async Unit := do
  let walk := settings.walk
  let mut guest := Guest.start (.ofNames Settings.FeedMode.mock.brokers) settings.readyTimeout
  let mut isReading := true
  while !guest.isOver do
    match ← nextCall socket isReading walk.interval with
    | .tick => guest := guest.tick walk (← drawFor guest.readStreams.length)
    | .bytes bytes => guest := guest.receive bytes.data.toList
    | .hangUp =>
      isReading := false
      guest := guest.hangUp
    guest ← handOn settings readings socket guest
  socket.shutdown

/-- A socket that listens at an address. -/
def listenAt (address : SocketAddress) : IO TCP.Socket.Server := do
  let server ← TCP.Socket.Server.mk
  server.bind address
  server.listen 128
  return server

/-- Answers collectors, one after the other. -/
def serveMeters (readings : IO.Ref Meters) (server : TCP.Socket.Server) : Async Unit := do
  while true do
    let socket ← server.accept
    background (t := AsyncTask) do
      discard <| socket.recv? readSize
      sendBytes socket (Wire.bytesOf (Exposition.answer (← readings.get)))
      socket.shutdown

/-- Serves clients until it is interrupted. -/
def serve (settings : Settings) : Async UInt32 := do
  let readings ← IO.mkRef (Meters.zero.set (.feedMode settings.feedMode.name) 1)
  let everywhere : SocketAddress :=
    .v4 { addr := .ofParts 0 0 0 0, port := settings.metricsPort.toUInt16 }
  let collector ← listenAt everywhere
  background (t := AsyncTask) (serveMeters readings collector)
  let server ← listenAt (← resolve settings.listen)
  let interrupt ← Signal.Waiter.mk .sigint false
  let mut going := true
  while going do
    let coming : Selectable (Option TCP.Socket.Client) :=
      .case server.acceptSelector fun socket => pure (some socket)
    let ending : Selectable (Option TCP.Socket.Client) :=
      .case interrupt.selector fun _ => pure none
    match ← Selectable.one #[coming, ending] with
    | some socket => background (t := AsyncTask) (serveGuest settings readings socket)
    | none => going := false
  return statusDone

/-! ## Clients -/

/-- A fresh order id. -/
def nextOid : IO String := do
  let now ← Std.Time.Timestamp.now
  let milliseconds := now.toMillisecondsSinceUnixEpoch.val.toNat
  return freshOid (milliseconds % 86400000) (← IO.rand 0 65535)

/-- Connects to the daemon. -/
def connect (settings : Settings) : Async TCP.Socket.Client := do
  let socket ← TCP.Socket.Client.mk
  socket.connect (← resolve settings.listen)
  return socket

/-- Sends the commands that wait. -/
def flush (socket : TCP.Socket.Client) (terminal : Terminal) : Async Terminal := do
  let (bytes, terminal) := terminal.takeFrames
  sendBytes socket bytes
  return terminal

/-- Prints the events that came in, and gives them back. -/
def report (terminal : Terminal) : IO (List Order.Event × Terminal) := do
  let (events, terminal) := terminal.takeEvents
  for event in events do
    IO.println (Wire.Connection.eventLine event)
    if Link.isNotified event then complain [event.summary]
  return (events, terminal)

/-- What a client is woken up by. -/
inductive Turn where
  | bytes (bytes : ByteArray)
  | hungUp
  | interrupted
  | line (line : String)
  | inputEnded

/-- Waits for the daemon. -/
def awaitDaemon (socket : TCP.Socket.Client) : Selectable Turn :=
  .case (socket.recvSelector readSize) fun found =>
    pure (match found with
      | some bytes => .bytes bytes
      | none => .hungUp)

/-- Places one order and waits until it is settled. An interrupt asks to cancel it. -/
def placeOne (settings : Settings) (kind : Order.Command.Kind) (target : Target) :
    Async UInt32 := do
  let oid ← match target.oid with
    | some oid => pure oid
    | none => nextOid
  let socket ← connect settings
  let interrupt ← Signal.Waiter.mk .sigint false
  let start := Terminal.start settings.queueCapacity settings.retention
  let command : Order.Command :=
    { kind, oid, symbol := target.symbol, brokers := [target.broker], price := target.price }
  match start.ledger.submit command with
  | .error refusal =>
    complain [refusal.message]
    return statusFailed
  | .ok ledger =>
    let mut terminal ← flush socket { start with ledger }
    let mut status := none
    while status.isNone do
      let stopping : Selectable Turn := .case interrupt.selector fun _ => pure .interrupted
      match ← Selectable.one #[awaitDaemon socket, stopping] with
      | .bytes bytes =>
        let (events, next) ← report (terminal.receive bytes.data.toList)
        terminal := next
        if events.any (settles oid) then status := some statusDone
      | .interrupted =>
        match terminal.ledger.cancel oid with
        | .ok ledger => terminal ← flush socket { terminal with ledger }
        | .error refusal =>
          complain [refusal.message]
          status := some statusFailed
      | .hungUp | .line _ | .inputEnded =>
        complain ["the daemon closed the connection"]
        status := some statusFailed
    return status.getD statusFailed

/-- Passes the lines of standard input on. -/
partial def readInput (input : IO.FS.Stream) (lines : Std.CloseableChannel String) : IO Unit := do
  let line ← input.getLine
  if line.isEmpty then
    discard <| lines.close.toBaseIO
  else
    discard <| lines.send line
    readInput input lines

/-- Carries out the lines of a person, and shows the events that come. -/
def converse (settings : Settings) : Async UInt32 := do
  let socket ← connect settings
  let lines ← Std.CloseableChannel.new
  discard <| IO.asTask (readInput (← IO.getStdin) lines) .dedicated
  let mut terminal := Terminal.start settings.queueCapacity settings.retention
  let mut status := none
  while status.isNone do
    let typing : Selectable Turn := .case lines.recvSelector fun found =>
      pure (match found with
        | some line => .line line
        | none => .inputEnded)
    match ← Selectable.one #[awaitDaemon socket, typing] with
    | .bytes bytes =>
      let (_, next) ← report (terminal.receive bytes.data.toList)
      terminal := next
    | .line line =>
      unless Text.isBlankText line do
        let outcome ← terminal.ledger.tryLineAsking nextOid line
        terminal := { terminal with ledger := outcome.ledger }
        match outcome.result with
        | .ok _ => terminal ← flush socket terminal
        | .error refusal => complain [refusal.message]
    | .inputEnded => status := some statusDone
    | .hungUp | .interrupted =>
      complain ["the daemon closed the connection"]
      status := some statusFailed
  return status.getD statusFailed

/-- Does a task. -/
def run (settings : Settings) : Task → Async UInt32
  | .serve .. => serve settings
  | .alert target => placeOne settings .alert target
  | .order .buy target => placeOne settings .buy target
  | .order .sell target => placeOne settings .sell target
  | .session => converse settings

/-- What the variables are set to. -/
def readEnvironment : IO Settings.Environment := do
  let found ← Settings.Variable.all.mapM fun setting => do
    return (setting, ← IO.getEnv setting.name)
  return fun setting => (found.lookup setting).join

end TriggerDesk.Program

open TriggerDesk TriggerDesk.Program in
/-- The words after the program's name say what to do. -/
def main (words : List String) : IO UInt32 := do
  match CommandLine.Invocation.ofWords words with
  | .error reason =>
    reason.answer.forM fun line => IO.println line
    complain reason.complaint
    return reason.status
  | .ok invocation =>
    let environment ← readEnvironment
    let settings := (Settings.ofEnvironment environment).override environment invocation
    try (run settings invocation.task).block
    catch fault =>
      complain [toString fault]
      return CommandLine.statusFailed
