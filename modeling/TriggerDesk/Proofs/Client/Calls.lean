import TriggerDesk.Client.Console

/-!
# Calls of the client

A client asks its ledger to submit, cancel or move an order, directly or by a console line. A call
asks for one command to be sent (`Ledger.Asks`), unless it names an order that is not known or is a
line that cannot be read. `Ledger.Takes` says when a ledger sends a command. Then the command is
last in the queue, and an order is the only new one that is sent; else the call is refused and the
ledger is what it was, although an order is written down before the queue is asked
(`Ledger.sends_or_keeps`).
-/

namespace TriggerDesk

namespace Table

variable {α β : Type} [DecidableEq α]

/-- To set the value of a new key and to remove it again changes nothing. -/
theorem erase_set_of_not_contains {table : Table α β} {key : α}
    (h : table.contains key = false) (value : β) : (table.set key value).erase key = table := by
  have hkept : table.entries.filter (·.1 ≠ key) = table.entries := by
    refine List.filter_eq_self.2 fun entry hentry => ?_
    rw [contains_eq_any] at h
    simpa using List.any_eq_false.1 h entry hentry
  rw [erase, entries_set_of_not_contains h, List.filter_append, hkept]
  simp

end Table

namespace Client

open TriggerDesk.Order

namespace Ledger

variable {ledger : Ledger} {command : Command}

/-- What can be asked of a ledger. -/
inductive Errand where
  | submit (command : Command)
  /-- To place an order with these parts. -/
  | place (kind : Command.Kind) (oid symbol : String) (brokers : List String) (price : Float)
  | cancel (oid : String)
  | modify (oid : String) (price : Float)
  /-- To carry a console line out, with an id that is fresh. -/
  | line (fresh text : String)
  deriving DecidableEq, Repr

/-- What comes of an errand. -/
def perform (ledger : Ledger) : Errand → Outcome Unit
  | .submit command => ledger.trySubmit command
  | .place kind oid symbol brokers price => ledger.tryPlace kind oid symbol brokers price
  | .cancel oid => ledger.tryCancel oid
  | .modify oid price => ledger.tryModify oid price
  | .line fresh text => (ledger.tryLine fresh text).map fun _ => ()

/-! ## Submitting -/

/-- The ledger sends a command: an order under an id that is not in use, and any other command; and
somebody takes commands from the queue, which has room. -/
structure Takes (ledger : Ledger) (command : Command) : Prop where
  fresh : command.kind.places = true →
    ledger.sent.get? command.oid = none ∧ ledger.confirmed.get? command.oid = none
  receiving : ledger.queue.receiving = true
  room : ledger.queue.items.length < ledger.queue.capacity

/-- The ledger after it has sent a command: the command is last in the queue, and an order is also
last of what is sent. -/
def sending (ledger : Ledger) (command : Command) : Ledger :=
  { ledger with
    sent :=
      if command.kind.places then ⟨ledger.sent.entries ++ [(command.oid, command)]⟩
      else ledger.sent
    queue := { ledger.queue with items := ledger.queue.items ++ [command] } }

/-- An id that is not known is neither sent nor confirmed. -/
theorem isKnown_eq_false {oid : String} :
    ledger.isKnown oid = false ↔
      ledger.sent.get? oid = none ∧ ledger.confirmed.get? oid = none := by
  simp only [isKnown, Table.contains, Bool.or_eq_false_iff, Option.isSome_eq_false_iff,
    Option.isNone_iff_eq_none]

/-- The queue takes a command where there is room and somebody to take it out, and is as before
otherwise. -/
theorem enqueue_cases (ledger : Ledger) (command : Command) :
    (ledger.queue.receiving = true ∧ ledger.queue.items.length < ledger.queue.capacity) ∧
        ledger.enqueue command =
          .ok { ledger with queue :=
            { ledger.queue with items := ledger.queue.items ++ [command] } } ∨
      ¬(ledger.queue.receiving = true ∧ ledger.queue.items.length < ledger.queue.capacity) ∧
        ∃ refusal, ledger.enqueue command = .error refusal := by
  cases hreceiving : ledger.queue.receiving with
  | false =>
    refine .inr ⟨fun h => Bool.false_ne_true h.1, .queueClosed, ?_⟩
    simp [enqueue, Channel.send, hreceiving]
  | true =>
    by_cases hroom : ledger.queue.items.length < ledger.queue.capacity
    · refine .inl ⟨⟨rfl, hroom⟩, ?_⟩
      simp [enqueue, Channel.send, Channel.hasRoom, hreceiving, hroom]
    · refine .inr ⟨fun h => hroom h.2, .queueFull ledger.queue.capacity, ?_⟩
      simp [enqueue, Channel.send, Channel.hasRoom, hreceiving, hroom]

/-- A command is sent, or the ledger is what it was. -/
theorem trySubmit_cases (ledger : Ledger) (command : Command) :
    ledger.Takes command ∧ ledger.trySubmit command = ⟨.ok (), ledger.sending command⟩ ∨
      ¬ledger.Takes command ∧ ∃ refusal, ledger.trySubmit command = ⟨.error refusal, ledger⟩ := by
  unfold trySubmit sending
  cases hplaces : command.kind.places with
  | false =>
    simp only [Bool.false_and, Bool.false_eq_true, if_false]
    rcases enqueue_cases ledger command with
      ⟨⟨hreceiving, hroom⟩, hqueued⟩ | ⟨hfull, refusal, hrefused⟩
    · refine .inl ⟨⟨fun h => ?_, hreceiving, hroom⟩, by rw [hqueued]⟩
      rw [hplaces] at h
      cases h
    · exact .inr ⟨fun h => hfull ⟨h.receiving, h.room⟩, refusal, by rw [hrefused]; rfl⟩
  | true =>
    cases hknown : ledger.isKnown command.oid with
    | true =>
      refine .inr ⟨fun h => ?_, _, rfl⟩
      rw [isKnown_eq_false.2 (h.fresh hplaces)] at hknown
      cases hknown
    | false =>
      -- An order is noted as sent before it is enqueued.
      obtain ⟨hsent, hconfirmed⟩ := isKnown_eq_false.1 hknown
      have hnew : ledger.sent.contains command.oid = false := by
        rw [Table.contains, hsent]
        rfl
      simp only [Bool.and_false, Bool.false_eq_true, if_true, if_false]
      rcases enqueue_cases (ledger.noteSent command) command with
        ⟨⟨hreceiving, hroom⟩, hqueued⟩ | ⟨hfull, refusal, hrefused⟩
      · refine .inl ⟨⟨fun _ => ⟨hsent, hconfirmed⟩, hreceiving, hroom⟩, ?_⟩
        rw [hqueued, noteSent, ← Table.entries_set_of_not_contains hnew]
      · -- The order was written down, and taking it out again gives the ledger back.
        have hback : (ledger.noteSent command).discardSent command.oid = ledger := by
          rw [discardSent, noteSent, Table.erase_set_of_not_contains hnew]
        refine .inr ⟨fun h => hfull ⟨h.receiving, h.room⟩, refusal, ?_⟩
        rw [hrefused]
        exact congrArg (Outcome.mk _) hback

/-! ## Every call -/

/-- The order that a ledger knows under an id: the confirmed one, or else the one that is sent. -/
def Knows (ledger : Ledger) (oid : String) (command : Command) : Prop :=
  ledger.confirmed.get? oid = some command ∨
    ledger.confirmed.get? oid = none ∧ ledger.sent.get? oid = some command

/-- The order that is looked up under an id is the one that the ledger knows. -/
theorem known?_eq_some {oid : String} :
    ledger.known? oid = some command ↔ ledger.Knows oid command := by
  unfold known? Knows
  cases ledger.confirmed.get? oid with
  | none => simp
  | some found => simp

/-- An order that a ledger knows is the only one it knows under its id. -/
theorem Knows.eq {oid : String} {first second : Command} (hfirst : ledger.Knows oid first)
    (hsecond : ledger.Knows oid second) : first = second :=
  Option.some.inj ((known?_eq_some.2 hfirst).symm.trans (known?_eq_some.2 hsecond))

/-- What a request of the console stands for, if its price is one. -/
def Errand.ofRequest? (fresh : String) : Request → Option Errand
  | .place kind symbol broker word oid =>
    (readPrice word).toOption.map fun price =>
      .place kind (oid.getD fresh) symbol [broker] price
  | .cancel oid => some (.cancel oid)
  | .modify oid word => (readPrice word).toOption.map fun price => .modify oid price

/-- The command that an errand asks a ledger to send. -/
inductive Asks (ledger : Ledger) : Errand → Command → Prop where
  | submit (command : Command) : Asks ledger (.submit command) command
  | place (kind : Command.Kind) (oid symbol : String) (brokers : List String) (price : Float) :
      Asks ledger (.place kind oid symbol brokers price) { kind, oid, symbol, brokers, price }
  | cancel {oid : String} {order : Command} : ledger.Knows oid order →
      Asks ledger (.cancel oid) { order with kind := .cancel }
  | modify {oid : String} {order : Command} (price : Float) : ledger.Knows oid order →
      Asks ledger (.modify oid price) { order with kind := .modify, price }
  | line {fresh text : String} {request : Request} {errand : Errand} {command : Command} :
      Request.ofLine? text = some request → Errand.ofRequest? fresh request = some errand →
      Asks ledger errand command → Asks ledger (.line fresh text) command

/-- An errand comes to submitting the only command that it asks for, or it asks for none and is
refused. -/
inductive Carried (ledger : Ledger) (errand : Errand) (outcome : Outcome Unit) : Prop where
  | submitted (command : Command) : ledger.Asks errand command →
      (∀ other, ledger.Asks errand other → other = command) →
      outcome = ledger.trySubmit command → Carried ledger errand outcome
  | refused (refusal : Refusal) : (∀ command, ¬ledger.Asks errand command) →
      outcome = ⟨.error refusal, ledger⟩ → Carried ledger errand outcome

/-- A cancellation is carried to the only command that it asks for, or refused. -/
theorem carried_cancel (ledger : Ledger) (oid : String) :
    ledger.Carried (.cancel oid) (ledger.tryCancel oid) := by
  unfold tryCancel
  cases hknown : ledger.known? oid with
  | none =>
    refine .refused _ (fun command hasks => ?_) rfl
    cases hasks with
    | cancel hknows =>
      rw [known?_eq_some.2 hknows] at hknown
      cases hknown
  | some order =>
    refine .submitted _ (.cancel (known?_eq_some.1 hknown)) (fun other hasks => ?_) rfl
    cases hasks with
    | cancel hother => rw [hother.eq (known?_eq_some.1 hknown)]

/-- A modification is carried to the only command that it asks for, or refused. -/
theorem carried_modify (ledger : Ledger) (oid : String) (price : Float) :
    ledger.Carried (.modify oid price) (ledger.tryModify oid price) := by
  unfold tryModify
  cases hknown : ledger.known? oid with
  | none =>
    refine .refused _ (fun command hasks => ?_) rfl
    cases hasks with
    | modify _ hknows =>
      rw [known?_eq_some.2 hknows] at hknown
      cases hknown
  | some order =>
    refine .submitted _ (.modify price (known?_eq_some.1 hknown)) (fun other hasks => ?_) rfl
    cases hasks with
    | modify _ hother => rw [hother.eq (known?_eq_some.1 hknown)]

/-- What is asked directly is carried out so. -/
theorem carried_submit (ledger : Ledger) (command : Command) :
    ledger.Carried (.submit command) (ledger.trySubmit command) :=
  .submitted _ (.submit _) (fun other hasks => by cases hasks; rfl) rfl

/-- A placement is carried to the only command that it asks for, or refused. -/
theorem carried_place (ledger : Ledger) (kind : Command.Kind) (oid symbol : String)
    (brokers : List String) (price : Float) :
    ledger.Carried (.place kind oid symbol brokers price)
      (ledger.tryPlace kind oid symbol brokers price) :=
  .submitted _ (.place ..) (fun other hasks => by cases hasks; rfl) rfl

/-- A request is refused before anything is asked, or carried out as what it stands for. -/
theorem tryApply_cases (ledger : Ledger) (fresh : String) (request : Request) :
    (Errand.ofRequest? fresh request = none ∧
        ∃ refusal, (ledger.tryApply fresh request).map (fun _ => ()) = ⟨.error refusal, ledger⟩) ∨
      ∃ errand, Errand.ofRequest? fresh request = some errand ∧
        ledger.Carried errand ((ledger.tryApply fresh request).map fun _ => ()) := by
  -- The id that a line is told is left out here: what counts is whether it went well.
  have hmap : ∀ {β : Type} (outcome : Outcome Unit) (f : Unit → β),
      (outcome.map f).map (fun _ => ()) = outcome := by
    rintro β ⟨result, after⟩ f
    cases result <;> rfl
  cases request with
  | place kind symbol broker word oid =>
    simp only [Errand.ofRequest?, tryApply]
    cases readPrice word with
    | error refusal => exact .inl ⟨rfl, refusal, rfl⟩
    | ok price =>
      refine .inr ⟨_, rfl, ?_⟩
      rw [hmap]
      exact carried_place ..
  | cancel oid =>
    refine .inr ⟨_, rfl, ?_⟩
    rw [tryApply, hmap]
    exact carried_cancel ledger oid
  | modify oid word =>
    simp only [Errand.ofRequest?, tryApply]
    cases readPrice word with
    | error refusal => exact .inl ⟨rfl, refusal, rfl⟩
    | ok price =>
      refine .inr ⟨_, rfl, ?_⟩
      rw [hmap]
      exact carried_modify ledger oid price

/-- A line of the console is carried to the only command that it asks for, or refused. -/
theorem carried_line (ledger : Ledger) (fresh text : String) :
    ledger.Carried (.line fresh text) ((ledger.tryLine fresh text).map fun _ => ()) := by
  unfold tryLine
  cases hrequest : Request.ofLine? text with
  | none =>
    refine .refused _ (fun command hasks => ?_) rfl
    cases hasks with
    | line hfound =>
      rw [hrequest] at hfound
      cases hfound
  | some request =>
    rcases tryApply_cases ledger fresh request with
      ⟨hnone, refusal, hrefused⟩ | ⟨errand, herrand, hcarried⟩
    · refine .refused refusal (fun command hasks => ?_) hrefused
      cases hasks with
      | line hfound herrand =>
        rw [hrequest] at hfound
        cases hfound
        rw [hnone] at herrand
        cases herrand
    · -- The line asks for exactly what the errand asks for.
      have hsame : ∀ command, ledger.Asks (.line fresh text) command →
          ledger.Asks errand command := by
        intro command hasks
        cases hasks with
        | line hfound hother hasks =>
          rw [hrequest] at hfound
          cases hfound
          rw [herrand] at hother
          cases hother
          exact hasks
      cases hcarried with
      | submitted command hasks honly houtcome =>
        exact .submitted command (.line hrequest herrand hasks)
          (fun other hother => honly other (hsame other hother)) houtcome
      | refused refusal hnone houtcome =>
        exact .refused refusal (fun command hasks => hnone command (hsame command hasks)) houtcome

/-- Every errand is carried to the only command that it asks for, or refused. -/
theorem carried_perform (ledger : Ledger) (errand : Errand) :
    ledger.Carried errand (ledger.perform errand) := by
  cases errand with
  | submit command => exact carried_submit ledger command
  | place kind oid symbol brokers price => exact carried_place ..
  | cancel oid => exact carried_cancel ledger oid
  | modify oid price => exact carried_modify ledger oid price
  | line fresh text => exact carried_line ledger fresh text

/-- A call asks for a command that the ledger sends, and then the queue and what is sent have
gained that command and nothing else is different; or the call is refused, and nothing is
different. -/
theorem sends_or_keeps (ledger : Ledger) (errand : Errand) :
    (∃ command, ledger.Asks errand command ∧ ledger.Takes command ∧
        ledger.perform errand = ⟨.ok (), ledger.sending command⟩) ∨
      (∀ command, ledger.Asks errand command → ¬ledger.Takes command) ∧
        ∃ refusal, ledger.perform errand = ⟨.error refusal, ledger⟩ := by
  cases carried_perform ledger errand with
  | submitted command hasks honly houtcome =>
    rw [houtcome]
    rcases trySubmit_cases ledger command with ⟨htakes, hsent⟩ | ⟨hrefuses, hrefused⟩
    · exact .inl ⟨command, hasks, htakes, hsent⟩
    · refine .inr ⟨fun other hother => ?_, hrefused⟩
      rw [honly other hother]
      exact hrefuses
  | refused refusal hnone houtcome =>
    exact .inr ⟨fun command hasks => absurd hasks (hnone command), refusal, houtcome⟩

end Ledger

end Client

end TriggerDesk
