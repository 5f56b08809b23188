import TriggerDesk.Proofs.Client.Agreement
import TriggerDesk.Proofs.Client.Carriers

/-!
# Orders in doubt

An order that the client has sent is in doubt until the client hears an event about it. Whether the
client is joined to a session in memory or through a connection, as long as an order is in doubt its
id is on the way (`Link.IsTracked`): in the queue, with the forwarder, or in flight on the carrier.
Where all queues are empty and nobody holds an event (`Link.IsQuiet`) the only order in doubt is the
one that the desk works on, and if the desk can not go on then it is held up by a watcher that has
neither lost its feed nor ended (`Link.undoubted_along`).

`Link.doubtful_order` is about a run that ends so: everybody waits, and an order is in doubt.
-/

namespace TriggerDesk

open Market TriggerDesk.Order Feed Wire

namespace Client

namespace Link

variable {link next : Link} {oid : String} {move : Move}

/-- Every id that is sent and not answered is on its way to the carrier or in flight there. -/
def IsTracked (link : Link) : Prop :=
  ∃ oids, link.carrier.Carries oids ∧
    ∀ oid, link.ledger.sent.contains oid = true → oid ∈ link.upstream.map (·.oid) ++ oids

/-- A client that starts has sent nothing, so all that is sent is tracked. -/
theorem isTracked_start {carrier : Carrier} (h : carrier.IsOpened)
    (queueCapacity retention : Nat) :
    (start (.new queueCapacity retention) carrier).IsTracked :=
  ⟨[], h.carries, fun _ hsent => by cases hsent⟩

/-- A call that is not refused puts its command last of all, and sends at most its id. -/
theorem IsTracked.submit (h : link.IsTracked) {command : Command} {ledger : Ledger}
    (hsubmit : link.ledger.submit command = .ok ledger) : { link with ledger }.IsTracked := by
  obtain ⟨oids, hcarries, htracked⟩ := h
  have hupstream : { link with ledger }.upstream = link.upstream ++ [command] := by
    rw [upstream, upstream, Channel.items_of_send (Ledger.queue_of_submit hsubmit).1,
      List.append_assoc]
  refine ⟨oids, hcarries, fun oid hsent => ?_⟩
  rw [hupstream, List.map_append, List.append_assoc]
  rw [Table.contains, Ledger.sent_submit hsubmit] at hsent
  split at hsent
  · next hasked =>
    rw [← hasked.2]
    exact List.mem_append_right _ (List.mem_append_left _ (List.mem_singleton_self _))
  · rcases List.mem_append.1 (htracked oid hsent) with hwaits | hflies
    · exact List.mem_append_left _ hwaits
    · exact List.mem_append_right _ (List.mem_append_right _ hflies)

/-- A step of the forwarder loses track of no id. -/
theorem IsTracked.of_forwarderStep (h : link.IsTracked) (hstep : link.forwarderStep = some next) :
    next.IsTracked := by
  obtain ⟨oids, hcarries, htracked⟩ := h
  rcases forwarderStep_cases hstep with
    ⟨command, queue, hidle, hreceive, rfl⟩ | ⟨command, hholding, hgiven⟩
  · refine ⟨oids, hcarries, fun oid hsent => ?_⟩
    have hmem := htracked oid hsent
    rw [upstream, hidle, (Channel.items_of_receive hreceive).1] at hmem
    exact hmem
  · rcases hcarries.of_give command with hfull | ⟨carrier, later, htaken, hlater, hsubset⟩
    · rw [hfull] at hgiven
      rcases hgiven with ⟨_, htaken, _⟩ | ⟨hclosed, _⟩ <;> contradiction
    · rw [htaken] at hgiven
      rcases hgiven with ⟨_, heq, rfl⟩ | ⟨hclosed, _⟩
      · cases heq
        refine ⟨later, hlater, fun oid hsent => ?_⟩
        have hmem := htracked oid hsent
        rw [upstream, hholding] at hmem
        -- The command was first of all that waited, and is in flight now.
        rcases List.mem_append.1 hmem with hwaits | hflies
        · rcases List.mem_cons.1 hwaits with heq | hqueued
          · exact List.mem_append_right _ (hsubset (heq ▸ List.mem_append_right _
              (List.mem_singleton_self _)))
          · exact List.mem_append_left _ hqueued
        · exact List.mem_append_right _ (hsubset (List.mem_append_left _ hflies))
      · cases hclosed

/-- A step of the consumer loses track of no id. -/
theorem IsTracked.of_consumerStep (h : link.IsTracked) (hstep : link.consumerStep = some next) :
    next.IsTracked := by
  obtain ⟨oids, hcarries, htracked⟩ := h
  obtain ⟨heard, carrier, htake, _, hnext⟩ := consumerStep_cases hstep
  obtain ⟨later, hlater, hflight⟩ := hcarries.of_take htake
  -- What is still sent was sent before, and is not what was taken.
  suffices hkept : next.carrier = carrier ∧ next.upstream = link.upstream ∧
      ∀ oid, next.ledger.sent.contains oid = true → link.ledger.sent.contains oid = true ∧
        ∀ event, heard = some event → event.oid ≠ oid by
    obtain ⟨hcarrier, hupstream, hsents⟩ := hkept
    refine ⟨later, hcarrier ▸ hlater, fun oid hsent => ?_⟩
    obtain ⟨hbefore, hother⟩ := hsents oid hsent
    rw [hupstream]
    rcases List.mem_append.1 (htracked oid hbefore) with hwaits | hflies
    · exact List.mem_append_left _ hwaits
    · refine List.mem_append_right _ ((hflight oid hflies).resolve_right ?_)
      rintro ⟨event, hevent, hsame⟩
      exact hother event hevent hsame
  rcases hnext with ⟨event, rfl, rfl⟩ | ⟨rfl, rfl⟩
  · have hqueue := (Ledger.queue_observe link.ledger event).1
    refine ⟨rfl, ?_, fun oid hsent => ?_⟩
    · show _ ++ (link.ledger.observe event).queue.items = _
      rw [hqueue]
      rfl
    · have hobserved : (link.ledger.observe event).sent.contains oid = true := hsent
      rw [Table.contains, Ledger.sent_observe] at hobserved
      split at hobserved
      · cases hobserved
      · next hother =>
        refine ⟨hobserved, fun _ heard => ?_⟩
        cases heard
        exact Ne.symm hother
  · exact ⟨rfl, rfl, fun oid hsent => ⟨hsent, fun _ hheard => by cases hheard⟩⟩

/-- The feeds do something, or time passes. -/
theorem IsTracked.outside (h : link.IsTracked) (source : Session → Source)
    (clock : Session → Nat) :
    (link.withSession fun session =>
      { session with source := source session, clock := clock session }).IsTracked := by
  obtain ⟨oids, hcarries, htracked⟩ := h
  obtain ⟨ledger, carrier, forwarder, consuming, seen, notices⟩ := link
  cases hcarries with
  | memory session hjoined =>
    obtain ⟨hlater, hflight⟩ := hjoined.of_same (source session) (clock session)
    exact ⟨_, .memory _ hlater, hflight ▸ htracked⟩
  | wire connection unread hcarries =>
    obtain ⟨hlater, hflight⟩ :=
      hcarries.of_same (source connection.session) (clock connection.session)
    exact ⟨_, .wire _ _ hlater, hflight ▸ htracked⟩

/-- Whatever happens, every id that is sent and not answered stays on its way. -/
theorem IsTracked.advance (h : link.IsTracked) (move : Move) : (link.advance move).IsTracked := by
  cases move with
  | call call =>
    simp only [Link.advance]
    split
    · next ledger hanswer =>
      obtain ⟨command, hsubmit, _⟩ := Ledger.exists_submit_of_answer hanswer
      exact h.submit hsubmit
    · exact h
  | turn actor =>
    cases hstep : step actor link with
    | none =>
      rw [advance_turn_of_waits hstep]
      exact h
    | some next =>
      rw [advance_turn hstep]
      cases actor with
      | forwarder => exact h.of_forwarderStep hstep
      | consumer => exact h.of_consumerStep hstep
      | carrier actor =>
        obtain ⟨oids, hcarries, htracked⟩ := h
        obtain ⟨carrier, hcarrier, rfl⟩ := Option.map_eq_some_iff.1 hstep
        obtain ⟨later, hlater, hsubset⟩ := hcarries.of_step hcarrier
        refine ⟨later, hlater, fun oid hsent => ?_⟩
        rcases List.mem_append.1 (htracked oid hsent) with hwaits | hflies
        · exact List.mem_append_left _ hwaits
        · exact List.mem_append_right _ (hsubset hflies)
  | feeds source => exact h.outside (fun _ => source) (·.clock)
  | wait milliseconds => exact h.outside (·.source) (·.clock + milliseconds)

/-- Along a run the client loses track of no id. -/
theorem IsTracked.run (h : link.IsTracked) (moves : List Move) : (link.run moves).IsTracked := by
  induction moves generalizing link with
  | nil => exact h
  | cons move rest ih => exact ih (h.advance move)

/-! ## Hearing of an order -/

/-- What the client hears is what its ledger learns. -/
theorem ledger_of_heard {event : Event} (h : link.heard? move = some event) :
    (link.advance move).ledger = link.ledger.observe event := by
  cases move with
  | call | feeds | wait => cases h
  | turn actor =>
    cases actor with
    | carrier | forwarder => cases h
    | consumer =>
      cases hstep : step .consumer link with
      | none =>
        rw [heard?_of_waits hstep] at h
        cases h
      | some next =>
        rw [advance_turn hstep]
        obtain ⟨heard, carrier, _, hheard, hnext⟩ := consumerStep_cases hstep
        cases hheard.symm.trans h
        rcases hnext with ⟨_, hevent, rfl⟩ | ⟨hnone, _⟩
        · cases hevent
          rfl
        · cases hnone

/-- A turn of the forwarder changes nothing in what is sent. -/
theorem sent_of_forwarderStep (h : link.forwarderStep = some next) :
    next.ledger.sent = link.ledger.sent := by
  rcases forwarderStep_cases h with
    ⟨_, _, _, _, rfl⟩ | ⟨_, _, ⟨_, _, rfl⟩ | ⟨_, rfl⟩⟩ <;> rfl

/-- What is sent stays so until the client hears of it. -/
theorem sent_or_heard (hsent : link.ledger.sent.contains oid = true) (move : Move) :
    (link.advance move).ledger.sent.contains oid = true ∨
      ∃ event, link.heard? move = some event ∧ event.oid = oid := by
  cases move with
  | call call =>
    refine .inl ?_
    simp only [advance]
    split
    · next ledger hanswer =>
      obtain ⟨command, hsubmit, _⟩ := Ledger.exists_submit_of_answer hanswer
      show ledger.sent.contains oid = true
      rw [Table.contains, Ledger.sent_submit hsubmit]
      split
      · rfl
      · exact hsent
    · exact hsent
  | feeds | wait =>
    refine .inl ?_
    simp only [advance, withSession]
    cases link.carrier <;> exact hsent
  | turn actor =>
    cases hstep : step actor link with
    | none =>
      rw [advance_turn_of_waits hstep]
      exact .inl hsent
    | some next =>
      rw [advance_turn hstep]
      cases actor with
      | carrier actor =>
        obtain ⟨carrier, _, rfl⟩ := Option.map_eq_some_iff.1 hstep
        exact .inl hsent
      | forwarder => exact .inl (sent_of_forwarderStep hstep ▸ hsent)
      | consumer =>
        obtain ⟨heard, carrier, _, hheard, ⟨event, rfl, rfl⟩ | ⟨rfl, rfl⟩⟩ :=
          consumerStep_cases hstep
        -- An event moves or drops the order of its own id only.
        · by_cases hoid : oid = event.oid
          · exact .inr ⟨event, hheard, hoid.symm⟩
          · refine .inl ?_
            show (link.ledger.observe event).sent.contains oid = true
            rw [Table.contains, Ledger.sent_observe, if_neg hoid]
            exact hsent
        · exact .inl hsent

/-- In one of the moves the client hears an event about an id, and its ledger learns of it. -/
def Hears (link : Link) (moves : List Move) (oid : String) : Prop :=
  ∃ earlier move later event, moves = earlier ++ move :: later ∧
    (link.run earlier).heard? move = some event ∧ event.oid = oid ∧
    ((link.run earlier).advance move).ledger = (link.run earlier).ledger.observe event

/-- An id that is sent stays sent until the client hears of it. -/
theorem sent_or_hears (hsent : link.ledger.sent.contains oid = true) (moves : List Move) :
    (link.run moves).ledger.sent.contains oid = true ∨ link.Hears moves oid := by
  induction moves generalizing link with
  | nil => exact .inl hsent
  | cons move rest ih =>
    rcases sent_or_heard hsent move with hstill | ⟨event, hheard, hoid⟩
    · refine (ih hstill).imp_right ?_
      rintro ⟨earlier, found, later, event, rfl, hheard⟩
      exact ⟨move :: earlier, found, later, event, rfl, hheard⟩
    · exact .inr ⟨[], move, rest, event, rfl, hheard, hoid, ledger_of_heard hheard⟩

/-! ## Quiet clients -/

/-- All queues are empty, and nobody holds a command on the way or an event. -/
structure IsQuiet (link : Link) : Prop where
  queue : link.ledger.queue.items = []
  forwarder : link.forwarder.held? = none
  carrier : link.carrier.IsQuiet

instance (link : Link) : Decidable link.IsQuiet :=
  decidable_of_iff (link.ledger.queue.items = [] ∧ link.forwarder.held? = none ∧
      link.carrier.IsQuiet)
    ⟨fun h => ⟨h.1, h.2.1, h.2.2⟩, fun h => ⟨h.1, h.2, h.3⟩⟩

/-- Where all is quiet, only the order that the desk works on is in doubt. -/
theorem IsQuiet.at_desk (h : link.IsQuiet) (htracked : link.IsTracked)
    (hsent : link.ledger.sent.contains oid = true) :
    ∃ command, link.session.desk.command? = some command ∧ command.oid = oid := by
  obtain ⟨oids, hcarries, htracked⟩ := htracked
  have hmem := htracked oid hsent
  rw [upstream, h.queue, h.forwarder, h.carrier.oids_eq hcarries] at hmem
  obtain ⟨command, hcommand, hoid⟩ := List.mem_map.1 hmem
  exact ⟨command, Option.mem_toList.1 hcommand, hoid⟩

/-- If the desk can not go on either, no order is in doubt, or the desk is held up. -/
theorem IsQuiet.empty_or_heldUp (h : link.IsQuiet) (htracked : link.IsTracked)
    (hquotes : link.session.quoteSettled = true) (hwaits : link.session.deskStep = none) :
    link.ledger.sent = .empty ∨ ∃ placing id, link.session.HeldUp placing id ∧
      ∀ oid, link.ledger.sent.contains oid = true → oid = placing.command.oid := by
  cases hcommand : link.session.desk.command? with
  | none =>
    refine .inl (Table.eq_empty_of_get? fun oid => ?_)
    by_contra hsome
    obtain ⟨command, hdesk, _⟩ := h.at_desk htracked (Option.isSome_iff_ne_none.2 hsome)
    rw [hcommand] at hdesk
    cases hdesk
  | some command =>
    obtain ⟨_, hcarries, _⟩ := id htracked
    obtain ⟨placing, id, hheldUp, hplacing⟩ := h.carrier.heldUp hcarries hquotes hwaits hcommand
    refine .inr ⟨placing, id, hheldUp, fun oid hsent => ?_⟩
    obtain ⟨found, hfound, hoid⟩ := h.at_desk htracked hsent
    rw [hcommand] at hfound
    cases hfound
    rw [hplacing, hoid]

/-- Whatever client, carrier, session and feeds do and in whichever order, and whatever is
submitted: where all is quiet, only the order that the desk works on is in doubt. If the desk can
not go on although it waits for no first quote, no order is in doubt, or the desk is held up with
the only one. Every order that was submitted and is not in doubt was heard of under its id. -/
theorem undoubted_along {carrier : Carrier} (hopened : carrier.IsOpened)
    (queueCapacity retention : Nat) (moves : List Move) {last : Link}
    (hlast : (start (.new queueCapacity retention) carrier).run moves = last) :
    (last.IsQuiet →
      (∀ oid, last.ledger.sent.contains oid = true →
        ∃ command, last.session.desk.command? = some command ∧ command.oid = oid) ∧
      (last.session.quoteSettled = true → last.session.deskStep = none →
        last.ledger.sent = .empty ∨ ∃ placing id, last.session.HeldUp placing id ∧
          ∀ oid, last.ledger.sent.contains oid = true → oid = placing.command.oid)) ∧
    ∀ earlier command later ledger, moves = earlier ++ .call (.submit command) :: later →
      command.kind.places = true →
      ((start (.new queueCapacity retention) carrier).run earlier).ledger.submit command =
        .ok ledger →
      last.ledger.sent.contains command.oid = true ∨
        ((start (.new queueCapacity retention) carrier).run
          (earlier ++ [.call (.submit command)])).Hears later command.oid := by
  have htracked := (isTracked_start hopened queueCapacity retention).run moves
  rw [hlast] at htracked
  refine ⟨fun hquiet => ⟨fun oid => hquiet.at_desk htracked, hquiet.empty_or_heldUp htracked⟩,
    fun earlier command later ledger hmoves hplaces hsubmit => ?_⟩
  have hthen : (start (.new queueCapacity retention) carrier).run
      (earlier ++ [.call (.submit command)]) =
        { (start (.new queueCapacity retention) carrier).run earlier with ledger } := by
    rw [run_append, run_cons, run_nil]
    simp only [advance, Ledger.answer, hsubmit]
  have hsent : ledger.sent.contains command.oid = true := by
    rw [Table.contains, Ledger.sent_submit hsubmit, if_pos ⟨hplaces, rfl⟩]
    rfl
  have hall : moves = (earlier ++ [.call (.submit command)]) ++ later := by
    rw [hmoves, List.append_assoc]
    rfl
  rw [← hlast, hall, run_append, hthen]
  exact sent_or_hears hsent later

/-- An order without a price is sent over a connection. -/
def pricelessMoves : List Move :=
  [.call (.submit { kind := .alert, oid := "o", symbol := "X", brokers := [], price := 0 / 0 }),
    .turn .forwarder, .turn .forwarder, .turn (.carrier .reader), .turn (.carrier .reader),
    .turn (.carrier .writer), .turn .consumer]

/-- The client at the end of that run. -/
def priceless : Link := (start (.new 4 1) (.wire (.start ⟨none, .new⟩ none))).run pricelessMoves

/-- The client hears that the order is rejected. -/
theorem undoubted_along_priceless :
    priceless.IsQuiet ∧ priceless.session.quoteSettled = true ∧
      priceless.session.deskStep = none ∧ priceless.ledger.sent = .empty ∧
      ((start (.new 4 1) (.wire (.start ⟨none, .new⟩ none))).run (pricelessMoves.take 1)).Hears
        (pricelessMoves.drop 1) "o" := by
  have hopened : Carrier.IsOpened (.wire (.start ⟨none, .new⟩ none)) := .wire _ _
  have hlast : (start (.new 4 1) (.wire (.start ⟨none, .new⟩ none))).run pricelessMoves =
      priceless := rfl
  obtain ⟨hquiet, hquotes, hidle, hwaits⟩ : priceless.IsQuiet ∧
      priceless.session.quoteSettled = true ∧ priceless.session.desk = .idle ∧
      priceless.session.deskStep = none := by
    decide +kernel
  obtain ⟨hdoubt, hheard⟩ := undoubted_along hopened 4 1 pricelessMoves hlast
  have hsent : priceless.ledger.sent = .empty := by
    refine ((hdoubt hquiet).2 hquotes hwaits).resolve_right ?_
    rintro ⟨placing, id, hheldUp, _⟩
    cases hidle.symm.trans hheldUp.desk
  refine ⟨hquiet, hquotes, hwaits, hsent, ?_⟩
  refine (hheard [] _ _ _ rfl rfl rfl).resolve_left ?_
  rw [hsent]
  exact nofun

/-- A feed that is lost after one quote. -/
def brokenFeed : Source :=
  { brokers := none
    replay :=
      ((Replay.new.push ⟨"B", "X"⟩ (.ofPrices "X" [60])).2.breakStream ⟨"B", "X"⟩ "down").2 }

/-- An order is placed and its feed is lost. The next one is rejected when no first quote comes
within the limit, and then there is one more. -/
def doubtMoves : List Move :=
  let alert (oid : String) (price : Float) : List Move :=
    [.call (.submit { kind := .alert, oid, symbol := "X", brokers := ["B"], price }),
      .turn .forwarder, .turn .forwarder]
  let desk : Move := .turn (.carrier (.session .desk))
  let watcher (id : WatcherId) : Move := .turn (.carrier (.session (.watcher id)))
  alert "a" 500 ++ [desk, watcher 0, watcher 0, desk, desk, .turn .consumer] ++
    [watcher 0, watcher 0, .turn .consumer] ++
    alert "b" 65 ++ [desk, desk, watcher 1, .wait 50, desk, desk, .turn .consumer] ++
    alert "c" 65 ++ [desk]

/-- Client and session then. -/
def beforeQuote : Link := (opened brokenFeed (some 50) 4 4 8).run doubtMoves

/-- Now a first quote comes, and the feed is live. -/
def lateQuote : List Move :=
  let source := beforeQuote.session.source
  [.feeds { source with replay := (source.replay.push ⟨"B", "X"⟩ (.ofPrices "X" [70])).2 },
    .turn (.carrier (.session (.watcher 1)))]

/-- Client and session at the end. -/
def doubtful : Link := beforeQuote.run lateQuote

/-- All is quiet, nobody can take a turn, every first quote has come or was given up, and the feed
of the listing is live; yet an order is in doubt. -/
theorem doubtful_order :
    doubtful = (opened brokenFeed (some 50) 4 4 8).run (doubtMoves ++ lateQuote) ∧
      doubtful.IsQuiet ∧ (∀ actor ∈ doubtful.actors, step actor doubtful = none) ∧
      doubtful.session.quoteSettled = true ∧
      doubtful.session.watchers.map (·.phase) = [.ended .retired, .following 1 []] ∧
      doubtful.ledger.sent.contains "c" = true :=
  ⟨(run_append _ _ _).symm, by decide +kernel⟩

end Link

end Client

end TriggerDesk
