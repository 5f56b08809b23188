import TriggerDesk.Client.Link
import TriggerDesk.Proofs.Session.Service
import TriggerDesk.Proofs.Wire.Flight

/-!
# What carriers carry

A client is joined to its session in memory or through a connection. `Carrier.Carries` says that a
carrier is in order, and which ids are in flight there: no turn loses one, a command that is given
to a carrier adds its own, and only what is taken is gone. Where a carrier is quiet, only the
command at the desk is in flight (`Carrier.IsQuiet.oids_eq`). If the desk can not go on with it
although it waits for no first quote, then it is held up by a watcher that has neither lost its feed
nor ended (`Carrier.IsQuiet.heldUp`).
-/

namespace TriggerDesk

open Market TriggerDesk.Order Feed Wire

namespace Session

variable {session next : Session} {actor : Actor} {command : Command} {event : Event}

/-! ## Sessions in memory -/

/-- All of a session is in order, commands can come, and all are accounted for. -/
structure IsJoined (session : Session) : Prop where
  regular : session.Regular
  queued : session.Queued false
  roomy : 0 < session.outbox.capacity
  joined : session.inbox.isOpen = true
  accountable : session.IsAccountable

/-- A session starts in order, with nothing in flight. -/
theorem isJoined_start (source : Source) (limit : Option Nat) (inboxCapacity : Nat)
    {outboxCapacity : Nat} (hcapacity : 0 < outboxCapacity) :
    (start source limit inboxCapacity outboxCapacity).IsJoined where
  regular := regular_start _ _ _ _
  queued := queued_start _ _ _ _
  roomy := hcapacity
  joined := rfl
  accountable := isAccountable_start _ _ _ _

namespace IsJoined

variable (h : session.IsJoined)
include h

/-- A step leaves a session in order, and in flight what was. -/
theorem of_step (hstep : step actor session = some next) :
    next.IsJoined ∧ next.flight = session.flight := by
  obtain ⟨hbeside, hopen⟩ := beside_of_step h.queued.toIsOpen h.joined hstep
  have hlined := lined_of_step h.queued hstep hopen
  obtain ⟨haccountable, hflight⟩ := h.accountable.of_step h.regular hstep hopen
  exact ⟨⟨h.regular.of_step hstep hopen, hlined.queued, hlined.capacity.symm ▸ h.roomy,
    hbeside.joined.trans h.joined, haccountable⟩, hflight⟩

/-- A command that is sent is in flight. -/
theorem send {inbox : Channel Command} (hsend : session.inbox.send command = .ok inbox) :
    { session with inbox }.IsJoined ∧
      { session with inbox }.flight = session.flight ++ [command.oid] := by
  obtain ⟨haccountable, hflight⟩ := h.accountable.send hsend
  exact ⟨⟨h.regular.of_same rfl rfl rfl rfl, { h.queued with }, h.roomy,
    (Channel.isOpen_of_send hsend).trans h.joined, haccountable⟩, hflight⟩

/-- Taking an event takes no other id out of flight. -/
theorem take {outbox : Outbox} (htake : session.outbox.take? = some (event, outbox)) :
    { session with outbox }.IsJoined ∧
      ∀ oid ∈ session.flight, oid ∈ { session with outbox }.flight ∨ event.oid = oid := by
  obtain ⟨haccountable, hflight⟩ := h.accountable.take htake
  refine ⟨⟨h.regular.of_same rfl rfl rfl rfl, h.queued.of_take htake,
    (Outbox.line_take? htake).2.symm ▸ h.roomy, h.joined, haccountable⟩, fun oid hoid => ?_⟩
  rw [hflight] at hoid
  rcases List.mem_append.1 hoid with htaken | hrest
  · obtain ⟨taken, hmem, hsame⟩ := List.mem_map.1 htaken
    rw [List.mem_singleton.1 (List.mem_of_mem_filter hmem)] at hsame
    exact .inr hsame
  · exact .inl hrest

/-- Other feeds and the passing of time leave in flight what was. -/
theorem of_same (source : Source) (clock : Nat) :
    { session with source, clock }.IsJoined ∧
      { session with source, clock }.flight = session.flight := by
  have hsame : { session with source, clock }.IsAccountable ∧
      { session with source, clock }.flight = session.flight :=
    h.accountable.of_same rfl rfl rfl rfl
  exact ⟨⟨h.regular.of_same rfl rfl rfl rfl, { h.queued with }, h.roomy, h.joined, hsame.1⟩,
    hsame.2⟩

end IsJoined

/-! ## Quiet sessions -/

/-- The channels are empty, and nobody has an event to put. -/
structure IsQuiet (session : Session) : Prop where
  inbox : session.inbox.items = []
  underway : session.outbox.underway = []
  answer : session.desk.answer? = none
  watchers : ∀ watcher ∈ session.watchers, watcher.held = []

instance (session : Session) : Decidable session.IsQuiet :=
  decidable_of_iff (session.inbox.items = [] ∧ session.outbox.underway = [] ∧
      session.desk.answer? = none ∧ ∀ watcher ∈ session.watchers, watcher.held = [])
    ⟨fun h => ⟨h.1, h.2.1, h.2.2.1, h.2.2.2⟩, fun h => ⟨h.1, h.2, h.3, h.4⟩⟩

namespace IsQuiet

variable (h : session.IsQuiet)
include h

/-- Only the command at the desk is in flight. -/
theorem flight_eq : session.flight = session.desk.command?.toList.map (·.oid) := by
  rw [flight, h.underway, h.answer, docket, h.inbox, List.append_nil]
  rfl

/-- In a quiet session no watcher holds an event. -/
theorem held_eq_nil (id : WatcherId) : session.held (.watcher id) = [] := by
  rw [held]
  cases hwatcher : session.watchers[id]? with
  | none => rfl
  | some watcher => exact h.watchers watcher (List.mem_of_getElem? hwatcher)

/-- A desk that needs a place has it, since nobody stands before it and all events are taken. -/
theorem deskStep_of_needsPlace (hqueued : session.Queued false)
    (hroomy : 0 < session.outbox.capacity) (hneeds : session.desk.needsPlace = true) :
    ∃ next, session.deskStep = some next := by
  have hline : Party.desk ∈ session.outbox.line := (hqueued.mem .desk).2 hneeds
  have hhead : session.outbox.line.head? = some .desk := by
    cases hparties : session.outbox.line with
    | nil =>
      rw [hparties] at hline
      cases hline
    | cons party rest =>
      have hparty := (hqueued.mem party).1 (hparties ▸ List.mem_cons_self)
      cases party with
      | desk => rfl
      | reader => cases hparty
      | watcher id =>
        rw [needsPlace, h.held_eq_nil] at hparty
        cases hparty
  rcases Outbox.granted_or_take? hqueued.orderly hqueued.receiving hroomy hhead with
    hgranted | ⟨event, outbox, htake, _⟩
  · exact @Queued.step_of_granted session .desk _ hqueued hgranted
  · have hunderway := Outbox.underway_of_take htake
    rw [h.underway] at hunderway
    cases hunderway

/-- A desk that works on a command and can not go on is held up, unless it waits for a first quote
of which nothing has come. -/
theorem heldUp (hregular : session.Regular) (hqueued : session.Queued false)
    (hroomy : 0 < session.outbox.capacity) (hquotes : session.quoteSettled = true)
    (hwaits : session.deskStep = none) (hcommand : session.desk.command? = some command) :
    ∃ placing id, session.HeldUp placing id ∧ placing.command = command := by
  have hcannot : ¬ ∃ next, session.deskStep = some next := by
    rintro ⟨next, hstep⟩
    rw [hwaits] at hstep
    cases hstep
  cases hdesk : session.desk with
  | idle | answering | ended =>
    rw [hdesk] at hcommand
    cases hcommand
  | awaitPlace | awaitMove =>
    have hneeds : session.desk.needsPlace = true := by rw [hdesk]; rfl
    exact absurd (h.deskStep_of_needsPlace hqueued hroomy hneeds) hcannot
  | awaitQuote placing id deadline =>
    obtain ⟨watcher, hwatcher, houtcome⟩ := exists_outcome_of_quoteSettled hdesk hquotes
    exact absurd (deskStep_of_quote hdesk hwatcher houtcome) hcannot
  | awaitEnd placing id =>
    obtain ⟨_, watcher, hwatcher, _⟩ := hregular.sound.staffed.awaited placing id hdesk
    have hrunning : watcher.phase.isEnded = false := by
      by_contra hended
      exact hcannot (deskStep_of_isEnded hdesk hwatcher (Bool.not_eq_false _ ▸ hended))
    refine ⟨placing, id, ⟨hdesk, watcher, hwatcher, ?_, hrunning⟩, ?_⟩
    · by_contra hlost
      -- It has no cancellation left to put, so it has ended.
      have hended := Watcher.isEnded_of_hasLost (Bool.not_eq_false _ ▸ hlost)
        (h.watchers watcher (List.mem_of_getElem? hwatcher))
      rw [hrunning] at hended
      cases hended
    · rw [hdesk] at hcommand
      exact Option.some.inj hcommand

end IsQuiet

end Session

/-! ## Quiet connections -/

/-- Only from no commands come no frames. -/
theorem Wire.framesOf_eq_nil {commands : List Command} (h : framesOf commands = []) :
    commands = [] := by
  cases commands with
  | nil => rfl
  | cons command rest =>
    rw [framesOf, List.flatMap_cons, frame] at h
    simp at h

/-- The session is quiet, everything is read, and every line is taken. -/
structure Wire.Connection.IsQuiet (connection : Connection) : Prop where
  session : connection.session.IsQuiet
  incoming : connection.incoming.bytes = []
  reader : connection.reader.oids = []
  outgoing : connection.outgoing = []

instance (connection : Connection) : Decidable connection.IsQuiet :=
  decidable_of_iff (connection.session.IsQuiet ∧ connection.incoming.bytes = [] ∧
      connection.reader.oids = [] ∧ connection.outgoing = [])
    ⟨fun h => ⟨h.1, h.2.1, h.2.2.1, h.2.2.2⟩, fun h => ⟨h.1, h.2, h.3, h.4⟩⟩

/-- In a quiet connection, only the command of the desk is in flight. -/
theorem Wire.Connection.IsQuiet.flight_eq {connection : Connection} {unread : List Command}
    (h : connection.IsQuiet) (hcarries : connection.Carries unread) :
    connection.flight unread = connection.session.desk.command?.toList.map (·.oid) := by
  have hbytes := h.incoming
  rw [hcarries.incoming] at hbytes
  rw [framesOf_eq_nil hbytes, flight, h.outgoing, h.reader, h.session.flight_eq]
  exact List.append_nil _

/-- The line of a quiet connection has those who need a place. -/
theorem Wire.Connection.IsQuiet.queued {connection : Connection} (h : connection.IsQuiet)
    (hserving : connection.IsServing) : connection.session.Queued false := by
  have hqueued := hserving.queued
  have hreader := h.reader
  cases hholds : connection.reader with
  | reading | ended =>
    rw [hholds] at hqueued
    exact hqueued
  | forwarding | refusing =>
    rw [hholds] at hreader
    cases hreader

namespace Client

/-! ## Carriers -/

namespace Carrier

variable {carrier next : Carrier} {oids : List String}

/-- A client opens a session, in memory or through a connection. In memory there is room for
events. -/
inductive IsOpened : Carrier → Prop where
  | memory (source : Source) (limit : Option Nat) (inboxCapacity outboxCapacity : Nat) :
      0 < outboxCapacity →
      IsOpened (.memory (Session.start source limit inboxCapacity outboxCapacity))
  | wire (source : Source) (limit : Option Nat) : IsOpened (.wire (Connection.start source limit))

/-- A carrier in order, and the ids of what it has in flight. -/
inductive Carries : Carrier → List String → Prop where
  | memory (session : Session) : session.IsJoined → Carries (.memory session) session.flight
  | wire (connection : Connection) (unread : List Command) :
      connection.Carries unread → Carries (.wire connection) (connection.flight unread)

/-- When a session is opened, nothing is in flight. -/
theorem IsOpened.carries (h : carrier.IsOpened) : carrier.Carries [] := by
  cases h with
  | memory source limit inboxCapacity outboxCapacity hcapacity =>
    exact .memory _ (Session.isJoined_start source limit inboxCapacity hcapacity)
  | wire source limit => exact .wire _ [] (Connection.carries_start source limit)

namespace Carries

/-- Whoever takes a turn, nothing in flight is lost. -/
theorem of_step (h : carrier.Carries oids) {actor : Connection.Actor}
    (hstep : Link.carrierStep actor carrier = some next) :
    ∃ later, next.Carries later ∧ oids ⊆ later := by
  cases h with
  | memory session hjoined =>
    cases actor with
    | reader | writer => cases hstep
    | session actor =>
      obtain ⟨after, hafter, rfl⟩ := Option.map_eq_some_iff.1 hstep
      obtain ⟨hlater, hflight⟩ := hjoined.of_step hafter
      exact ⟨_, .memory after hlater, hflight ▸ List.Subset.refl _⟩
  | wire connection unread hcarries =>
    obtain ⟨after, hafter, rfl⟩ := Option.map_eq_some_iff.1 hstep
    obtain ⟨later, hlater, hsubset⟩ := hcarries.of_step hafter
    exact ⟨_, .wire after later hlater, hsubset⟩

/-- A command that is given to a carrier is in flight, unless there is no room for it. -/
theorem of_give (h : carrier.Carries oids) (command : Command) :
    give command carrier = .full ∨ ∃ next later, give command carrier = .taken next ∧
      next.Carries later ∧ oids ++ [command.oid] ⊆ later := by
  cases h with
  | memory session hjoined =>
    simp only [give]
    cases hsend : session.inbox.send command with
    | ok inbox =>
      obtain ⟨hlater, hflight⟩ := hjoined.send hsend
      exact .inr ⟨_, _, rfl, .memory _ hlater, hflight ▸ List.Subset.refl _⟩
    | error obstacle =>
      cases obstacle with
      | full => exact .inl rfl
      | closed =>
        have hreceiving := Channel.receiving_of_isOpen hjoined.joined
        exact absurd hsend (Channel.send_ne_closed hreceiving)
  | wire connection unread hcarries =>
    have hopen : connection.incoming.isOpen = true := by rw [hcarries.incoming]
    obtain ⟨hlater, hflight⟩ := hcarries.write command
    refine .inr ⟨_, _, if_pos hopen, .wire _ _ hlater, hflight ▸ List.Subset.refl _⟩

/-- What is taken from a carrier is in flight no more. -/
theorem of_take (h : carrier.Carries oids) {heard : Option Event}
    (htake : carrier.take? = some (heard, next)) :
    ∃ later, next.Carries later ∧
      ∀ oid ∈ oids, oid ∈ later ∨ ∃ event, heard = some event ∧ event.oid = oid := by
  cases h with
  | memory session hjoined =>
    obtain ⟨⟨event, outbox⟩, htaken, heq⟩ := Option.map_eq_some_iff.1 htake
    cases heq
    obtain ⟨hlater, hflight⟩ := hjoined.take htaken
    exact ⟨_, .memory _ hlater, fun oid hoid =>
      (hflight oid hoid).imp_right fun hsame => ⟨event, rfl, hsame⟩⟩
  | wire connection unread hcarries =>
    rw [take?] at htake
    cases hlines : connection.outgoing with
    | nil =>
      rw [hlines] at htake
      cases htake
    | cons line rest =>
      rw [hlines] at htake
      cases htake
      obtain ⟨hlater, hflight⟩ := hcarries.take hlines
      exact ⟨_, .wire _ _ hlater, hflight⟩

end Carries

/-- Nothing is on its way, and nobody holds an event. -/
def IsQuiet : Carrier → Prop
  | memory session => session.IsQuiet
  | wire connection => connection.IsQuiet

instance (carrier : Carrier) : Decidable carrier.IsQuiet :=
  match carrier with
  | memory session => inferInstanceAs (Decidable session.IsQuiet)
  | wire connection => inferInstanceAs (Decidable connection.IsQuiet)

/-- Where a carrier is quiet, only the command at the desk is in flight. -/
theorem IsQuiet.oids_eq (h : carrier.IsQuiet) (hcarries : carrier.Carries oids) :
    oids = carrier.session.desk.command?.toList.map (·.oid) := by
  cases hcarries with
  | memory session hjoined => exact Session.IsQuiet.flight_eq h
  | wire connection unread hcarries => exact Connection.IsQuiet.flight_eq h hcarries

/-- Where everything is quiet, a desk that works on a command awaits a watcher that does not end. -/
theorem IsQuiet.heldUp (h : carrier.IsQuiet) (hcarries : carrier.Carries oids)
    (hquotes : carrier.session.quoteSettled = true) (hwaits : carrier.session.deskStep = none)
    {command : Command} (hcommand : carrier.session.desk.command? = some command) :
    ∃ placing id, carrier.session.HeldUp placing id ∧ placing.command = command := by
  cases hcarries with
  | memory session hjoined =>
    exact Session.IsQuiet.heldUp h hjoined.regular hjoined.queued hjoined.roomy hquotes hwaits
      hcommand
  | wire connection unread hcarries =>
    have hserving := hcarries.serving
    exact Session.IsQuiet.heldUp (Connection.IsQuiet.session h) hserving.regular
      (Connection.IsQuiet.queued h hserving) hserving.roomy hquotes hwaits hcommand

end Carrier

end Client

end TriggerDesk
