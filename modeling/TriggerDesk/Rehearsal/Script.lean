import TriggerDesk.Rehearsal.Stage

/-!
# Scripts

A rehearsal plays a session by a script. Each cue does one thing: a feed delivers or fails, the
client sends a command or leaves, or time passes, which it does at no other time. After a cue
everyone takes turns until nobody can go on, unless the next cue is to follow at once. Then
what arrived at the client is shown.
-/

namespace TriggerDesk.Rehearsal

open Client TriggerDesk.Order Market

/-- One thing that a script does. -/
inductive Cue where
  /-- A feed delivers a batch so many times. -/
  | push (listing : Listing) (batch : Batch) (times : Nat)
  | breakStream (listing : Listing) (reason : String)
  | closeStream (listing : Listing)
  | refuse (listing : Listing) (reason : String)
  /-- The client sends a command into the channel of the session. -/
  | send (command : Command)
  /-- The client sends bytes. -/
  | write (bytes : List UInt8)
  /-- The client is given a console line, and a fresh order id in case it needs one. -/
  | line (text fresh : String)
  | submit (command : Command)
  | cancel (oid : String)
  | modify (oid : String) (price : Float)
  | wait (milliseconds : Nat)
  | closeCommands
  | closeEvents
  /-- So many times: the client takes what arrived first, and everyone goes on. -/
  | take (count : Nat)
  | nothing

/-- What a cue is answered with at once. -/
inductive Reply where
  | nothing
  /-- How many batches found room. -/
  | pushed (count : Nat)
  | flag (done : Bool)
  | sent (done : Bool)
  /-- What the ledger says of a call. -/
  | called (result : Except Refusal Unit)
  /-- What the ledger says of a console line, and whether it needed a fresh order id. -/
  | read (result : Except Refusal String) (needed : Bool)

/-- What arrives at a client: an event, or a line that no client reads. -/
inductive Arrival where
  | event (event : Event)
  | line (line : String)
  deriving DecidableEq, Repr

/-- What is shown after a cue. -/
structure Scene where
  ended : Bool
  arrivals : List Arrival
  /-- What the notifier was given since the scene before. -/
  notices : List String
  stage : Stage

/-- A rehearsal at some point of its script. -/
structure Run where
  /-- The stage, and the actors in line. -/
  current : Machine.Line Stage Link.Actor
  /-- Whether the client takes what arrives only when the script says so. -/
  manual : Bool
  /-- How many of the events that the client took have been shown. -/
  shown : Nat
  /-- How many notices have been shown. -/
  noticed : Nat

namespace Run

/-- A rehearsal before its first cue. -/
def start (stage : Stage) (manual : Bool) : Run :=
  { current := { state := stage, line := [] }, manual, shown := 0, noticed := 0 }

/-- The stage. -/
def stage (run : Run) : Stage := run.current.state

/-- Changes the stage. Whoever can go on now joins the line. -/
def withStage (run : Run) (stage : Stage) : Run :=
  { run with current := Stage.machine.queue { run.current with state := stage } }

/-- Everyone takes turns until nobody can go on. -/
def settle (run : Run) : Run :=
  { run with current := Stage.machine.settle run.stage.work run.current }

/-! ## What arrives -/

/-- Takes what arrived first. -/
def takeArrival? (run : Run) : Option (Arrival × Run) :=
  match run.stage with
  | .bare (.memory session) =>
    session.outbox.take?.map fun (event, outbox) =>
      (.event event, run.withStage (.bare (.memory { session with outbox })))
  | .bare (.wire connection) =>
    match connection.outgoing with
    | [] => none
    | line :: rest =>
      some (.line line, run.withStage (.bare (.wire { connection with outgoing := rest })))
  | .client link =>
    link.seen[run.shown]?.map fun event => (.event event, { run with shown := run.shown + 1 })

/-- Takes at most `fuel` arrivals; whenever there is none, everyone goes on. -/
def takeAll : Nat → Run → List Arrival × Run
  | 0, run => ([], run)
  | fuel + 1, run =>
    match run.takeArrival? with
    | some (arrival, run) =>
      let (arrivals, run) := takeAll fuel run
      (arrival :: arrivals, run)
    | none =>
      let run := run.settle
      match run.takeArrival? with
      | none => ([], run)
      | some (arrival, run) =>
        let (arrivals, run) := takeAll fuel run
        (arrival :: arrivals, run)

/-- So many times: takes what arrived first, and everyone goes on. -/
def takeSome : Nat → Run → List Arrival × Run
  | 0, run => ([], run)
  | count + 1, run =>
    match run.takeArrival? with
    | none => takeSome count run.settle
    | some (arrival, run) =>
      let (arrivals, run) := takeSome count run.settle
      (arrival :: arrivals, run)

/-! ## Cues -/

/-- The ledger of the client is called. -/
def call {α : Type} (run : Run) (request : Ledger → Ledger.Outcome α) : Except Refusal α × Run :=
  match run.stage with
  | .client link =>
    let outcome := request link.ledger
    (outcome.result, run.withStage (.client { link with ledger := outcome.ledger }))
  | .bare _ => (.error .queueClosed, run)

/-- A call that gives nothing back. -/
def callFor (run : Run) (request : Ledger → Ledger.Outcome Unit) : Reply × Run :=
  let (result, run) := run.call request
  (.called result, run)

/-- Something happens to the session. -/
def meet (run : Run) (stimulus : Session.Stimulus) : Run :=
  run.withStage (run.stage.withSession (run.stage.session.meet stimulus))

/-- A feed delivers a batch so many times. Gives the number of times there was room. -/
def pushTimes (run : Run) (listing : Listing) (batch : Batch) : Nat → Nat × Run
  | 0 => (0, run)
  | times + 1 =>
    let (done, replay) := run.stage.session.source.replay.push listing batch
    let run := run.withStage (run.stage.withSession (run.stage.session.withReplay replay))
    let (count, run) := pushTimes run listing batch times
    (count + done.toNat, run)

/-- Sends a command into the channel of the session. -/
def send (run : Run) (command : Command) : Bool × Run :=
  match run.stage.carrier with
  | .memory session =>
    match session.inbox.send command with
    | .ok inbox =>
      if session.inbox.sending then
        (true, run.withStage (run.stage.withSession { session with inbox }))
      else (false, run)
    | .error _ => (false, run)
  | .wire _ => (false, run)

/-- Sends bytes to a connection. -/
def write (run : Run) (bytes : List UInt8) : Bool × Run :=
  match run.stage.carrier with
  | .wire connection =>
    let (done, connection) := connection.write bytes
    (done, run.withStage (run.stage.withCarrier (.wire connection)))
  | .memory _ => (false, run)

/-- Carries out a cue, all but the turns that follow it and what it takes. -/
def perform (run : Run) : Cue → Reply × Run
  | .push listing batch times =>
    let (count, run) := run.pushTimes listing batch times
    (.pushed count, run)
  | .breakStream listing reason =>
    let (done, replay) := run.stage.session.source.replay.breakStream listing reason
    (.flag done, run.withStage (run.stage.withSession (run.stage.session.withReplay replay)))
  | .closeStream listing => (.nothing, run.meet (.closeStream listing))
  | .refuse listing reason => (.nothing, run.meet (.refuse listing reason))
  | .send command =>
    let (done, run) := run.send command
    (.sent done, run)
  | .write bytes =>
    let (done, run) := run.write bytes
    (.flag done, run)
  | .line text fresh =>
    let (result, run) := run.call fun ledger => ledger.tryLine fresh text
    (.read result ((Request.ofLine? text).any Request.needsOid), run)
  | .submit command => run.callFor (·.trySubmit command)
  | .cancel oid => run.callFor (·.tryCancel oid)
  | .modify oid price => run.callFor (·.tryModify oid price)
  | .wait milliseconds => (.nothing, run.meet (.wait milliseconds))
  | .closeCommands => (.nothing, run.withStage run.stage.closeCommands)
  | .closeEvents => (.nothing, run.withStage run.stage.closeEvents)
  | .take _ | .nothing => (.nothing, run)

/-! ## Scenes -/

/-- The notices that have not been shown. -/
def takeNotices (run : Run) : List String × Run :=
  match run.stage with
  | .client link =>
    (link.notices.drop run.noticed, { run with noticed := link.notices.length })
  | .bare _ => ([], run)

/-- What is shown once nobody can go on. Whether the session is over is seen before the client
takes what arrived. -/
def reveal (run : Run) (cue : Cue) : Scene × Run :=
  let (arrivals, run) := match cue with
    | .take count => run.takeSome count
    | _ => ([], run)
  let run := run.settle
  let ended := run.stage.carrier.isEnded
  let (more, run) := if run.manual then ([], run) else run.takeAll run.stage.work
  let (notices, run) := run.takeNotices
  ({ ended, arrivals := arrivals ++ more, notices, stage := run.stage }, run)

/-- Plays a script. A cue that is held shows nothing but its reply. -/
def play (run : Run) : List (Cue × Bool) → List (Reply × Option Scene) × Run
  | [] => ([], run)
  | (cue, held) :: rest =>
    let (reply, run) := run.perform cue
    if held then
      let (scenes, run) := run.play rest
      ((reply, none) :: scenes, run)
    else
      let (scene, run) := run.reveal cue
      let (scenes, run) := run.play rest
      ((reply, some scene) :: scenes, run)

/-- The client drops its commands and its events, and everyone goes on. -/
def finish (run : Run) : Run :=
  (run.withStage run.stage.closeCommands.closeEvents).settle

end Run

end TriggerDesk.Rehearsal
