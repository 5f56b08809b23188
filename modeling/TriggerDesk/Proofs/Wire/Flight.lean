import TriggerDesk.Proofs.Wire.Answers
import TriggerDesk.Proofs.Wire.Finiteness

/-!
# Commands in flight

A command is in flight from the time it is sent until its answer is taken. In a session it is on the
docket, or in the hands of the desk as an answer, or an answer underway; on a connection also among
the bytes that nobody read, with the reader, or a line that the client has not taken. What is in
flight goes by the id of the command, since the answer bears that id too.

No turn loses what is in flight: not in a session (`Session.IsAccountable.of_step`), and not on a
connection that gets nothing but lines of commands (`Wire.Connection.Carries.of_step`). The price
of a command does not matter: if it can not be written, the line is rejected under the id of the
command (`Wire.conveys_oid`).
-/

namespace TriggerDesk

open Market TriggerDesk.Order Feed Json

/-- An answer bears the id of the command. -/
theorem Order.Command.IsAnsweredBy.oid {command : Command} {event : Event}
    (h : command.IsAnsweredBy event) : event.oid = command.oid := by
  cases h with
  | placed | rejected => rfl
  | moved _ _ _ hoid => exact hoid
  | cancelled _ _ hoid => exact hoid

/-- What answers a command has no index of a tick. -/
theorem Order.Command.IsAnsweredBy.index {command : Command} {event : Event}
    (h : command.IsAnsweredBy event) : event.index = none := by
  cases h <;> rfl

namespace Session

variable {session next : Session} {actor : Actor} {command : Command} {event : Event}

/-- The ids of the answers that are underway or in hand, and of the commands on the docket. -/
def flight (session : Session) : List String :=
  (session.outbox.underway.filter Event.isResponse ++ session.desk.answer?.toList).map (·.oid) ++
    session.docket.map (·.oid)

/-- There is an account of every command that came and of every answer. -/
structure IsAccountable (session : Session) : Prop where
  taken : session.outbox.taken ≤ session.outbox.events.length
  plain : ∀ event ∈ session.responses, event.index = none
  replies : ∃ commands answered hand, session.Replies commands answered hand

/-- When a session starts, there is nothing to account for. -/
theorem isAccountable_start (source : Source) (limit : Option Nat)
    (inboxCapacity outboxCapacity : Nat) :
    (start source limit inboxCapacity outboxCapacity).IsAccountable where
  taken := Nat.le_refl 0
  plain _ hmem := (List.not_mem_nil hmem).elim
  replies := ⟨_, _, _, replies_start _ _ _ _⟩

/-- Answers are about the ids of the commands that they answer. -/
theorem map_oid_of_answers {exchanges : List (Command × Event)}
    (h : ∀ exchange ∈ exchanges, exchange.1.IsAnsweredBy exchange.2) :
    (exchanges.map Prod.snd).map (·.oid) = (exchanges.map Prod.fst).map (·.oid) := by
  rw [List.map_map, List.map_map]
  exact List.map_congr_left fun exchange hexchange => (h exchange hexchange).oid

/-- A turn that leaves the session open leaves in flight what was in flight. -/
theorem IsAccountable.of_step (h : session.IsAccountable) (hregular : session.Regular)
    (hstep : step actor session = some next) (hopen : next.IsOpen) :
    next.IsAccountable ∧ next.flight = session.flight := by
  obtain ⟨commands, answered, hand, hreplies⟩ := h.replies
  obtain ⟨given, hand', hlater, hresponses⟩ := hreplies.of_step hregular hstep hopen
  have hevents := events_of_step hstep hopen
  have htaken := taken_of_step hstep hopen
  -- What was given and what is in hand now was in hand, or was on the docket under the same ids.
  have hgiven : ∀ exchange ∈ given ++ hand', exchange.1.IsAnsweredBy exchange.2 :=
    fun exchange hexchange => hlater.answers exchange (by
      rw [List.append_assoc]
      exact List.mem_append_right _ hexchange)
  have hanswers : session.outbox.underway.filter Event.isResponse ++ given.map Prod.snd =
      next.outbox.underway.filter Event.isResponse := by
    have hadded := (responses_append hevents).symm.trans hresponses
    rw [Outbox.underway_append hevents htaken h.taken, List.filter_append,
      List.append_cancel_left hadded]
  have hcommands : (given ++ hand').map Prod.fst ++ next.docket =
      hand.map Prod.fst ++ session.docket := by
    have hcome := hlater.come.symm.trans hreplies.come
    simp only [List.map_append, List.append_assoc] at hcome ⊢
    exact List.append_cancel_left hcome
  refine ⟨⟨?_, ?_, _, _, _, hlater⟩, ?_⟩
  · rw [htaken, hevents, List.length_append]
    exact Nat.le_add_right_of_le h.taken
  · rw [hresponses]
    refine List.forall_mem_append.2 ⟨h.plain, fun event hevent => ?_⟩
    obtain ⟨exchange, hexchange, rfl⟩ := List.mem_map.1 hevent
    exact (hgiven exchange (List.mem_append_left _ hexchange)).index
  · have hhand := map_oid_of_answers fun exchange hexchange =>
      hreplies.answers exchange (List.mem_append_right _ hexchange)
    have hoids : (given.map Prod.snd ++ hand'.map Prod.snd).map (·.oid) ++
        next.docket.map (·.oid) =
          (hand.map Prod.snd).map (·.oid) ++ session.docket.map (·.oid) := by
      rw [← List.map_append, map_oid_of_answers hgiven, hhand, ← List.map_append, hcommands,
        List.map_append]
    rw [flight, flight, ← hanswers, ← hlater.answer, ← hreplies.answer, List.append_assoc,
      List.map_append, List.append_assoc, hoids, List.map_append, List.append_assoc]

/-- What does not concern commands and events. -/
theorem IsAccountable.of_same (h : session.IsAccountable)
    (hevents : next.outbox.events = session.outbox.events)
    (htaken : next.outbox.taken = session.outbox.taken) (hdesk : next.desk = session.desk)
    (hinbox : next.inbox = session.inbox) : next.IsAccountable ∧ next.flight = session.flight := by
  obtain ⟨commands, answered, hand, hreplies⟩ := h.replies
  have hdocket : next.docket = session.docket := by rw [docket, docket, hdesk, hinbox]
  have hanswer := congrArg Desk.answer? hdesk
  refine ⟨⟨?_, ?_, _, _, _, hreplies.of_same hdocket hanswer⟩, ?_⟩
  · rw [htaken, hevents]
    exact h.taken
  · rw [responses_of_same hevents]
    exact h.plain
  · rw [flight, flight, Outbox.underway, hevents, htaken, hdocket, hanswer]
    rfl

/-- A command comes. -/
theorem IsAccountable.send (h : session.IsAccountable) {inbox : Channel Command}
    (hsend : session.inbox.send command = .ok inbox) :
    { session with inbox }.IsAccountable ∧
      { session with inbox }.flight = session.flight ++ [command.oid] := by
  obtain ⟨commands, answered, hand, hreplies⟩ := h.replies
  have hdocket : { session with inbox }.docket = session.docket ++ [command] := by
    rw [docket, docket, Channel.items_of_send hsend, List.append_assoc]
  have hids : { session with inbox }.docket.map Command.oid =
      session.docket.map Command.oid ++ [command.oid] := by
    rw [hdocket, List.map_append, List.map_singleton]
  refine ⟨⟨h.taken, h.plain, _, _, _, hreplies.send hdocket rfl⟩, ?_⟩
  rw [flight, flight, hids, List.append_assoc]

/-- An event is taken. -/
theorem IsAccountable.take (h : session.IsAccountable) {outbox : Outbox}
    (htake : session.outbox.take? = some (event, outbox)) :
    { session with outbox }.IsAccountable ∧
      session.flight =
        ([event].filter Event.isResponse).map (·.oid) ++ { session with outbox }.flight := by
  obtain ⟨commands, answered, hand, hreplies⟩ := h.replies
  obtain ⟨hevent, hevents, htaken, _⟩ := Outbox.take?_eq_some htake
  refine ⟨⟨?_, ?_, _, _, _, hreplies.of_same rfl rfl⟩, ?_⟩
  · show outbox.taken ≤ outbox.events.length
    rw [htaken, hevents]
    exact (List.getElem?_eq_some_iff.1 hevent).1
  · rw [responses_of_same hevents]
    exact h.plain
  · rw [flight, Outbox.underway_of_take htake, ← List.singleton_append, List.filter_append,
      List.append_assoc, List.map_append, List.append_assoc]
    rfl

/-- Somebody counts an event and asks for a place. -/
theorem IsAccountable.announce (h : session.IsAccountable) (meter : Metrics.Meter) (party : Party)
    (event : Event) :
    ((session.count meter 1).announce party event).IsAccountable ∧
      ((session.count meter 1).announce party event).flight = session.flight :=
  h.of_same (Outbox.events_request _ _) (Outbox.taken_request _ _) rfl rfl

/-- An answer is put that does not come from the desk. -/
theorem IsAccountable.put (h : session.IsAccountable) (party : Party)
    (hresponse : event.isResponse = true) (hindex : event.index = none) :
    (session.put party event).IsAccountable ∧
      (session.put party event).flight.Perm (event.oid :: session.flight) := by
  obtain ⟨commands, answered, hand, hreplies⟩ := h.replies
  have hevents : (session.put party event).outbox.events = session.outbox.events ++ [event] := rfl
  have hanswer : [event].filter Event.isResponse = [event] := by
    rw [List.filter_cons, if_pos hresponse, List.filter_nil]
  refine ⟨⟨?_, ?_, _, _, _, hreplies.of_same rfl rfl⟩, ?_⟩
  · rw [hevents, List.length_append]
    exact Nat.le_add_right_of_le h.taken
  · rw [responses_append hevents, hanswer]
    exact List.forall_mem_append.2 ⟨h.plain, List.forall_mem_singleton.2 hindex⟩
  · rw [flight, flight, Outbox.underway_append hevents rfl h.taken, List.filter_append, hanswer,
      List.map_append, List.map_append, List.map_append, List.append_assoc, List.append_assoc,
      List.append_assoc]
    exact List.perm_middle

end Session

namespace Wire

/-- The line of a command is read as the command, perhaps at another price, or it is rejected under
the id of the command. -/
theorem conveys_oid (command : Command) :
    (∃ price, Conveys command.toJson.write decodeLine (.ok { command with price })) ∨
      ∃ reason, Conveys command.toJson.write decodeLine
        (.error (Event.rejectedLine command.oid reason)) := by
  cases hfinite : command.price.isFinite with
  | true =>
    obtain ⟨_, _, _, price, _, hconveys⟩ := conveys_finite hfinite
    exact .inl ⟨price, hconveys⟩
  | false => exact .inr ⟨_, conveys_nonfinite hfinite⟩

/-- The command that is read from a written one has its id. -/
theorem oid_of_decodeLine {command read : Command}
    (h : decodeLine command.toJson.write = .ok read) : read.oid = command.oid := by
  rcases conveys_oid command with ⟨price, hconveys⟩ | ⟨reason, hconveys⟩
  · rw [hconveys.reads] at h
    cases h
    rfl
  · rw [hconveys.reads] at h
    cases h

/-- A written command that cannot be read is rejected under its id. -/
theorem exists_rejectedLine_of_decodeLine {command : Command} {event : Event}
    (h : decodeLine command.toJson.write = .error event) :
    ∃ reason, event = Event.rejectedLine command.oid reason := by
  rcases conveys_oid command with ⟨price, hconveys⟩ | ⟨reason, hconveys⟩
  · rw [hconveys.reads] at h
    cases h
  · rw [hconveys.reads] at h
    cases h
    exact ⟨reason, rfl⟩

/-- A command is written on one line that is not blank. -/
theorem oneLine_command (command : Command) :
    IsOneLine command.toJson.write ∧ Text.isBlankText command.toJson.write = false := by
  rcases conveys_oid command with ⟨_, hconveys⟩ | ⟨_, hconveys⟩ <;>
  exact ⟨hconveys.oneLine, hconveys.notBlank⟩

/-- The bytes of the lines of some commands. -/
def framesOf (commands : List Command) : List UInt8 :=
  commands.flatMap fun command => frame command.toJson.write

/-- The first line of some commands is that of the first one. -/
theorem next_framesOf_cons (command : Command) (commands : List Command) :
    Lines.next ⟨framesOf (command :: commands), true⟩ =
      .line command.toJson.write ⟨framesOf commands, true⟩ :=
  next_frame (oneLine_command command).1 _ _

/-- Whatever the reader finds is the line of the next command. -/
theorem exists_cons_of_next {commands : List Command} {found : Lines.Next}
    (h : Lines.next ⟨framesOf commands, true⟩ = found) (hfound : found ≠ .pending) :
    ∃ command rest, commands = command :: rest ∧
      found = .line command.toJson.write ⟨framesOf rest, true⟩ := by
  cases commands with
  | nil => exact absurd h.symm hfound
  | cons command rest => exact ⟨command, rest, rfl, h.symm.trans (next_framesOf_cons _ _)⟩

/-- The id of what a reader holds. -/
def Reader.oids : Reader → List String
  | forwarding command => [command.oid]
  | refusing event => [event.oid]
  | reading | ended => []

namespace Connection

variable {connection next : Connection} {actor : Actor} {unread : List Command}

/-- The ids of what is in flight, where these commands are not read yet. -/
def flight (connection : Connection) (unread : List Command) : List String :=
  (connection.outgoing.filterMap Event.ofLine?).map (·.oid) ++
    (connection.session.flight ++ (connection.reader.oids ++ unread.map (·.oid)))

/-- While no line is written or taken. -/
theorem flight_subset {later : List Command} (houtgoing : next.outgoing = connection.outgoing)
    (hrest : connection.session.flight ++ (connection.reader.oids ++ unread.map (·.oid)) ⊆
      next.session.flight ++ (next.reader.oids ++ later.map (·.oid))) :
    connection.flight unread ⊆ next.flight later := by
  rw [flight, flight, houtgoing]
  exact List.append_subset.2 ⟨List.subset_append_left _ _,
    List.Subset.trans hrest (List.subset_append_right _ _)⟩

/-- The client has sent nothing but lines of commands, and these are not read yet. -/
structure Carries (connection : Connection) (unread : List Command) : Prop where
  serving : connection.IsServing
  finite : connection.IsFinite
  accountable : connection.session.IsAccountable
  reading : connection.reader ≠ .ended
  refusing : ∀ event, connection.reader = .refusing event →
    ∃ oid reason, event = Event.rejectedLine oid reason
  incoming : connection.incoming = ⟨framesOf unread, true⟩

/-- When a connection starts, it carries no command. -/
theorem carries_start (source : Source) (limit : Option Nat) : (start source limit).Carries [] where
  serving := isServing_start source limit
  finite := isFinite_start source limit
  accountable := Session.isAccountable_start _ _ _ _
  reading := nofun
  refusing := nofun
  incoming := rfl

namespace Carries

/-! ## Turns -/

/-- A turn of the reader keeps all ids in flight, with the command that it reads now read. -/
theorem of_readerTurn (h : connection.Carries unread) (hfinite : next.IsFinite)
    (hturn : ReaderTurn connection next) :
    ∃ later, next.Carries later ∧ connection.flight unread ⊆ next.flight later := by
  have hserving := h.serving.of_readerTurn hturn
  have hincoming := h.incoming
  have hline : ∀ {text rest}, connection.incoming.next = .line text rest →
      ∃ command later, unread = command :: later ∧ text = command.toJson.write ∧
        rest = ⟨framesOf later, true⟩ := by
    intro text rest hnext
    rw [h.incoming] at hnext
    obtain ⟨command, later, hunread, hfound⟩ := exists_cons_of_next hnext nofun
    cases hfound
    exact ⟨command, later, hunread, rfl, rfl⟩
  cases hturn with
  | skip text rest hreader hfound hblank hnext =>
    obtain ⟨command, later, rfl, rfl, rfl⟩ := hline hfound
    rw [(oneLine_command command).2] at hblank
    cases hblank
  | take text rest command hreader hfound _ hdecode hnext =>
    obtain ⟨sent, later, rfl, rfl, rfl⟩ := hline hfound
    subst hnext
    refine ⟨later, ⟨hserving, hfinite, h.accountable, nofun, nofun, rfl⟩, flight_subset rfl ?_⟩
    rw [hreader, Reader.oids, Reader.oids, oid_of_decodeLine hdecode]
    exact List.Subset.refl _
  | refuse text rest event hreader hfound _ hdecode hnext =>
    obtain ⟨sent, later, rfl, rfl, rfl⟩ := hline hfound
    subst hnext
    obtain ⟨reason, rfl⟩ := exists_rejectedLine_of_decodeLine hdecode
    obtain ⟨haccountable, hflight⟩ := h.accountable.announce (.rejects "unsupported") .reader
      (Event.rejectedLine sent.oid reason)
    refine ⟨later, ⟨hserving, hfinite, haccountable, nofun, fun event hevent => ?_, rfl⟩,
      flight_subset rfl ?_⟩
    · cases hevent
      exact ⟨_, _, rfl⟩
    · show _ ⊆ Session.flight _ ++ _
      rw [hflight, hreader]
      exact List.Subset.refl _
  | forward command inbox hreader hsend hnext =>
    subst hnext
    obtain ⟨haccountable, hflight⟩ := h.accountable.send hsend
    refine ⟨unread, ⟨hserving, hfinite, haccountable, nofun, nofun, h.incoming⟩,
      flight_subset rfl ?_⟩
    show _ ⊆ Session.flight _ ++ _
    rw [hflight, hreader, List.append_assoc]
    exact List.Subset.refl _
  | put event hreader _ hnext =>
    subst hnext
    obtain ⟨oid, reason, rfl⟩ := h.refusing event hreader
    -- The id leaves the reader's hand and is underway to the client instead.
    have hresponse : (Event.rejectedLine oid reason).isResponse = true := rfl
    obtain ⟨haccountable, hflight⟩ := h.accountable.put .reader hresponse rfl
    refine ⟨unread, ⟨hserving, hfinite, haccountable, nofun, nofun, h.incoming⟩,
      flight_subset rfl ?_⟩
    rw [hreader]
    exact ((hflight.append_right _).trans List.perm_middle.symm).symm.subset
  | stop _ hfound hnext =>
    rw [h.incoming] at hfound
    rcases hfound with hfound | hfound <;>
    · obtain ⟨_, _, _, hline⟩ := exists_cons_of_next hfound nofun
      cases hline

/-- A turn of the session keeps all ids in flight. -/
theorem of_sessionStep (h : connection.Carries unread) {actor : Session.Actor} {after : Session}
    (hstep : Session.step actor connection.session = some after) (hopen : after.IsOpen)
    (hfinite : (connection.withSession after).IsFinite) :
    (connection.withSession after).Carries unread ∧
      connection.flight unread ⊆ (connection.withSession after).flight unread := by
  obtain ⟨haccountable, hflight⟩ := h.accountable.of_step h.serving.regular hstep hopen
  refine ⟨⟨h.serving.of_step hstep hopen, hfinite, haccountable, h.reading, h.refusing,
    h.incoming⟩, flight_subset rfl ?_⟩
  show _ ⊆ Session.flight after ++ _
  rw [hflight]
  exact List.Subset.refl _

/-- The client understands the line of an answer. -/
theorem understood_of_isResponse (h : connection.Carries unread) {event : Event} {outbox : Outbox}
    (htake : connection.session.outbox.take? = some (event, outbox))
    (hresponse : event.isResponse = true) :
    ∃ price level, Event.ofLine? (eventLine event) = some { event with price, level } := by
  have hmem := List.mem_of_getElem? (Outbox.take?_eq_some htake).1
  have hnone := h.accountable.plain event (List.mem_filter.2 ⟨hmem, hresponse⟩)
  have hnumbers := h.finite.session.events event hmem
  obtain ⟨price, level, hconveys⟩ :=
    understood_of_isFinite hnumbers.price hnumbers.level fun i hi => by
      rw [hnone] at hi
      cases hi
  exact ⟨price, level, hconveys.reads⟩

/-- A turn of the writer keeps all ids in flight. -/
theorem of_writes (h : connection.Carries unread) (hwrites : Writes connection next)
    (hfinite : next.IsFinite) :
    next.Carries unread ∧ connection.flight unread ⊆ next.flight unread := by
  have hserving := h.serving.of_writes hwrites
  obtain ⟨event, outbox, htake, rfl⟩ := hwrites
  obtain ⟨haccountable, hflight⟩ := h.accountable.take htake
  refine ⟨⟨hserving, hfinite, haccountable, h.reading, h.refusing, h.incoming⟩, ?_⟩
  -- An answer that is written is heard under its id; any other event is in nobody's way.
  have hwritten : ([event].filter Event.isResponse).map (·.oid) ⊆
      ([eventLine event].filterMap Event.ofLine?).map (·.oid) := by
    cases hresponse : event.isResponse with
    | false =>
      rw [List.filter_cons, hresponse]
      exact List.nil_subset _
    | true =>
      obtain ⟨price, level, hline⟩ := h.understood_of_isResponse htake hresponse
      rw [List.filter_cons, if_pos hresponse, List.filterMap_cons_some hline]
      exact List.Subset.refl _
  show connection.flight unread ⊆
    ((connection.outgoing ++ [eventLine event]).filterMap Event.ofLine?).map (·.oid) ++ _
  rw [flight, hflight, List.filterMap_append, List.map_append, List.append_assoc,
    List.append_assoc]
  exact List.append_subset.2 ⟨List.subset_append_left _ _, List.append_subset.2
    ⟨fun oid hoid => List.mem_append_right _ (List.mem_append_left _ (hwritten hoid)),
      fun oid hoid => List.mem_append_right _ (List.mem_append_right _ hoid)⟩⟩

/-- No turn loses what is in flight. -/
theorem of_step (h : connection.Carries unread) (hstep : step actor connection = some next) :
    ∃ later, next.Carries later ∧ connection.flight unread ⊆ next.flight later := by
  have hfinite := h.finite.of_step hstep
  cases h.serving.turn_of_step hstep with
  | session actor after hafter hopen hnext =>
    subst hnext
    exact ⟨unread, h.of_sessionStep hafter hopen hfinite⟩
  | finish _ hended =>
    have hsending := h.serving.sending.2 h.reading
    simp [Channel.isEnded, hsending] at hended
  | reader hturn => exact h.of_readerTurn hfinite hturn
  | writer hwrites => exact ⟨unread, h.of_writes hwrites hfinite⟩

/-! ## The client -/

/-- The client sends a command. -/
theorem write (h : connection.Carries unread) (command : Command) :
    (connection.write (frame command.toJson.write)).2.Carries (unread ++ [command]) ∧
      (connection.write (frame command.toJson.write)).2.flight (unread ++ [command]) =
        connection.flight unread ++ [command.oid] := by
  have hopen : ¬ (connection.reader = .ended || !connection.incoming.isOpen) = true := by
    simp [h.reading, h.incoming]
  rw [Connection.write, if_neg hopen]
  refine ⟨⟨h.serving.of_same _ _ _, ⟨h.finite.session, h.finite.forwarding, h.finite.refusing,
    h.finite.lines⟩, h.accountable, h.reading, h.refusing, ?_⟩, ?_⟩
  · show connection.incoming.append _ = _
    rw [h.incoming, framesOf, framesOf, List.flatMap_append, List.flatMap_singleton]
    rfl
  · rw [flight, flight, List.map_append, List.append_assoc, List.append_assoc, List.append_assoc]
    rfl

/-- The client takes a line. -/
theorem take (h : connection.Carries unread) {line : String} {rest : List String}
    (hline : connection.outgoing = line :: rest) :
    { connection with outgoing := rest }.Carries unread ∧
      ∀ oid ∈ connection.flight unread, oid ∈ { connection with outgoing := rest }.flight unread ∨
        ∃ event, Event.ofLine? line = some event ∧ event.oid = oid := by
  refine ⟨⟨⟨h.serving.listening, h.serving.regular, h.serving.queued, h.serving.roomy,
    h.serving.joined, h.serving.sending, h.serving.bounded, h.serving.spacious⟩,
    ⟨h.finite.session, h.finite.forwarding, h.finite.refusing, fun other hother =>
      h.finite.lines other (hline ▸ List.mem_cons_of_mem _ hother)⟩, h.accountable, h.reading,
    h.refusing, h.incoming⟩, fun oid hoid => ?_⟩
  rw [flight, hline] at hoid
  cases hevent : Event.ofLine? line with
  | none =>
    rw [List.filterMap_cons_none hevent] at hoid
    exact .inl hoid
  | some event =>
    rw [List.filterMap_cons_some hevent] at hoid
    rcases List.mem_cons.1 hoid with heq | hrest
    · exact .inr ⟨event, rfl, heq.symm⟩
    · exact .inl hrest

/-- The feeds do something, or time passes. -/
theorem of_same (h : connection.Carries unread) (source : Source) (clock : Nat) :
    (connection.withSession { connection.session with source, clock }).Carries unread ∧
      (connection.withSession { connection.session with source, clock }).flight unread =
        connection.flight unread := by
  have hsame : { connection.session with source, clock }.IsAccountable ∧
      { connection.session with source, clock }.flight = connection.session.flight :=
    h.accountable.of_same rfl rfl rfl rfl
  exact ⟨⟨h.serving.of_same source clock _, ⟨h.finite.session.of_others rfl rfl rfl
    (fun _ => .inl) fun _ => .inl, h.finite.forwarding, h.finite.refusing, h.finite.lines⟩,
    hsame.1, h.reading, h.refusing, h.incoming⟩, rfl⟩

end Carries

end Connection

end Wire

end TriggerDesk
