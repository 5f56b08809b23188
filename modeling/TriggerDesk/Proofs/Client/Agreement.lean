import TriggerDesk.Proofs.Client.Exchange

/-!
# Agreement of client and session

Take a client that keeps all confirmed orders and a session in memory. What the client will have
about an id once it has heard of all events underway is what the standing of the order in the
session calls for: an order that was asked for is sent, a live one is confirmed as it waits in
the book. `Informs` says this together with what makes it last: a client that does not know an id
has no news about it underway, so an order that it submits under this id is the only one.

A rejection breaks this when it takes an order out of the ledger that it says nothing about.
`agrees_along` says that nothing else does: a pending order that has not slipped since there was
nothing about its id anywhere is confirmed once the events are heard, and one that has slipped
and was not submitted again is not known. There is no third case but that of an order that is
submitted again after it slipped (`kept_or_lost_or_submitted`). `slipped_order` is about a run in
which an order slips and goes live.
-/

namespace TriggerDesk

open Market TriggerDesk.Order Feed Client

namespace Client

section Records

variable {record : Record} {news added : List Event} {standing after : Standing} {event : Event}

/-! ## Records and standings -/

/-- What a client has that has heard all that there is to hear about an order. -/
def Record.Matches (record : Record) : Standing → Prop
  | .absent => record.sent? = none
  | .asked command => record = .sent command
  | .live _ order => record = .confirmed order.command
  | .held _ _ => record ≠ .absent

/-- A client that hears the news underway will have what the standing calls for, and hears no news
about an order that it does not know. -/
structure Informs (record : Record) (news : List Event) (standing : Standing) : Prop where
  timely : ∀ heard, heard <+: news → heard.foldl Record.hear record = .absent → heard = news
  shown : (news.foldl Record.hear record).Matches standing

/-- Nobody has an order as sent after an event about it. -/
theorem Record.sent?_hear (record : Record) (event : Event) :
    (record.hear event).sent? = none := by
  unfold Record.hear
  split <;> cases record <;> rfl

/-- Hearing the next news brings the record nearer to the standing. -/
theorem Informs.hear (h : Informs record (event :: news) standing) :
    Informs (record.hear event) news standing where
  timely heard hprefix habsent := by
    have hall := h.timely (event :: heard) (List.cons_prefix_cons.2 ⟨rfl, hprefix⟩) habsent
    exact (List.cons.inj hall).2
  shown := h.shown

/-- A client that asks for an order does so where it has nothing and there is no news. -/
theorem Informs.ask (h : Informs .absent news standing) (command : Command) :
    standing = .absent ∧ Informs (.sent command) news (.asked command) := by
  have hnone : news = [] := (h.timely [] (List.nil_prefix) rfl).symm
  subst hnone
  refine ⟨?_, ?_, rfl⟩
  · have hshown := h.shown
    cases standing with
    | absent => rfl
    | asked command => cases hshown
    | live listing order => cases hshown
    | held actor event => exact absurd rfl hshown
  · intro heard hprefix _
    exact List.prefix_nil.1 hprefix

/-- A turn has at most one piece of news, for somebody who knows the order, and it makes of the
record what the new standing calls for. -/
theorem Record.Matches.pass (h : record.Matches standing) (hpass : standing.Passes added after) :
    (added.foldl Record.hear record).Matches after ∧
      (added = [] ∨ record ≠ .absent ∧ ∃ event, added = [event]) := by
  cases hpass with
  | stay => exact ⟨h, .inl rfl⟩
  | refuse command reason =>
    refine ⟨?_, .inl rfl⟩
    cases h
    exact nofun
  | place listing order =>
    cases h
    exact ⟨rfl, .inr ⟨nofun, _, rfl⟩⟩
  | move listing order level last =>
    cases h
    exact ⟨rfl, .inr ⟨nofun, _, rfl⟩⟩
  | leave listing order actor event hconcludes =>
    refine ⟨?_, .inl rfl⟩
    cases h
    exact nofun
  | tell actor event => exact ⟨Record.sent?_hear record event, .inr ⟨h, event, rfl⟩⟩

/-- When the standing changes, the news of that come last, and the record is still informed. -/
theorem Informs.pass (h : Informs record news standing) (hpass : standing.Passes added after) :
    Informs record (news ++ added) after := by
  obtain ⟨hshown, hknown⟩ := h.shown.pass hpass
  refine ⟨fun heard hprefix habsent => ?_, ?_⟩
  · rcases hknown with rfl | ⟨hknown, event, rfl⟩
    · rw [List.append_nil] at hprefix ⊢
      exact h.timely heard hprefix habsent
    · rcases List.prefix_concat_iff.1 hprefix with hall | hbefore
      · exact hall
      · -- The order was forgotten before the news, so nobody knew it when they came.
        rw [h.timely heard hbefore habsent] at habsent
        exact absurd habsent hknown
  · rw [List.foldl_append]
    exact hshown

end Records

/-! ## Clients that are served -/

/-- The command that the forwarder holds. -/
def Forwarder.held? : Forwarder → Option Command
  | .holding command => some command
  | .idle | .ended => none

namespace Link

variable {link next : Link} {oid : String} {roster : Roster} {standing : Standing}
  {record : Record}

/-- The session at the other end. -/
def session (link : Link) : Session := link.carrier.session

/-- The commands on their way to the session. -/
def upstream (link : Link) : List Command :=
  link.forwarder.held?.toList ++ link.ledger.queue.items

/-- The news underway about an order. -/
def news (link : Link) (oid : String) : List Event :=
  link.session.outbox.underway.filter (·.isNews oid)

/-- A client that keeps all confirmed orders and has just been joined to a session in memory. -/
def opened (source : Source) (limit : Option Nat)
    (queueCapacity inboxCapacity outboxCapacity : Nat) : Link :=
  start (Ledger.new queueCapacity 0)
    (.memory (Session.start source limit inboxCapacity outboxCapacity))

/-- The client keeps all that is confirmed, and an open session in memory takes its commands. -/
structure Served (link : Link) : Prop where
  carrier : link.carrier = .memory link.session
  sound : link.session.Sound
  isOpen : link.session.IsOpen
  joined : link.session.inbox.isOpen = true
  taken : link.session.outbox.taken ≤ link.session.outbox.events.length
  listed : ∃ roster : Roster, roster.Describes link.session.book ∧ Session.WellNamed roster.entries
  retention : link.ledger.retention = 0
  recorded : ∀ oid, ∃ record, link.ledger.Has oid record

/-- A client that has just been joined to a session is served. -/
theorem served_opened (source : Source) (limit : Option Nat)
    (queueCapacity inboxCapacity outboxCapacity : Nat) :
    (opened source limit queueCapacity inboxCapacity outboxCapacity).Served where
  carrier := rfl
  sound := Session.sound_start _ _ _ _
  isOpen := ⟨rfl, nofun⟩
  joined := rfl
  taken := Nat.le_refl 0
  listed := ⟨.empty, Roster.describes_empty, nofun⟩
  retention := rfl
  recorded _ := ⟨.absent, rfl, rfl⟩

/-- While the client is served, every move advances the link. -/
theorem Served.advances (h : link.Served) (move : Move) :
    link.Advances link.session move (link.advance move) :=
  advances_advance h.carrier h.joined move

/-- A client that is served is served after a move. -/
theorem Served.advance (h : link.Served) (move : Move) : (link.advance move).Served := by
  have hadvances := h.advances move
  generalize link.advance move = next at hadvances
  have hrecorded : ∀ oid, ∃ record, next.ledger.Has oid record := by
    intro oid
    obtain ⟨record, hhas⟩ := h.recorded oid
    obtain ⟨later, hlater, _⟩ := has_of_advances hadvances h.retention hhas
    exact ⟨later, hlater⟩
  cases hadvances with
  | stay => exact h
  | submit command ledger _ hsubmit =>
    exact { h with
      retention := (Ledger.queue_of_submit hsubmit).2.trans h.retention
      recorded := hrecorded }
  | fetch => exact { h with recorded := hrecorded }
  | forward command inbox _ _ hsend =>
    refine { h with carrier := rfl, sound := h.sound.of_undisturbed ⟨rfl, rfl, rfl, rfl, rfl⟩
                    isOpen := ⟨h.isOpen.receiving, h.isOpen.running⟩, joined := ?_ }
    exact (Channel.isOpen_of_send hsend).trans h.joined
  | hear event outbox _ htake =>
    obtain ⟨hevent, hevents, htaken, hreceiving⟩ := Outbox.take?_eq_some htake
    refine { h with
      carrier := rfl
      sound := h.sound.of_undisturbed ⟨rfl, rfl, rfl, rfl, hevents⟩
      isOpen := ⟨hreceiving.trans h.isOpen.receiving, h.isOpen.running⟩
      taken := ?_
      retention := (Ledger.queue_observe link.ledger event).2.trans h.retention
      recorded := hrecorded }
    -- The event that was taken is one of those that were put.
    have hlength := (List.getElem?_eq_some_iff.1 hevent).1
    show outbox.taken ≤ outbox.events.length
    rw [hevents, htaken]
    omega
  | turn actor session _ hstep =>
    obtain ⟨hbeside, hopen⟩ := Session.beside_of_step h.isOpen h.joined hstep
    obtain ⟨roster, hroster, hnamed⟩ := h.listed
    obtain ⟨later, hlater, heffect⟩ := Session.effect_of_step h.sound hroster hstep hopen
    obtain ⟨news, hevents⟩ := heffect.exists_news
    refine { carrier := rfl
             sound := h.sound.of_step hstep hopen
             isOpen := hopen
             joined := hbeside.joined.trans h.joined
             taken := ?_
             listed := ⟨later, hlater, hnamed.of_effect heffect⟩
             retention := h.retention
             recorded := hrecorded }
    have htaken := h.taken
    show session.outbox.taken ≤ session.outbox.events.length
    rw [hevents, hbeside.taken, List.length_append]
    omega
  | outside source clock =>
    exact { h with carrier := rfl, sound := h.sound.of_undisturbed ⟨rfl, rfl, rfl, rfl, rfl⟩
                   isOpen := ⟨h.isOpen.receiving, h.isOpen.running⟩ }

/-- Along a run a client stays served. -/
theorem Served.run (h : link.Served) (moves : List Move) : (link.run moves).Served := by
  induction moves generalizing link with
  | nil => exact h
  | cons move rest ih => exact ih (h.advance move)

/-! ## Orders that are followed -/

/-- Client and session agree on an order, up to what is on its way between them. -/
structure Follows (link : Link) (oid : String) (roster : Roster) (standing : Standing)
    (record : Record) : Prop where
  describes : roster.Describes link.session.book
  named : Session.WellNamed roster.entries
  stands : link.session.Stands roster.entries link.upstream oid standing
  has : link.ledger.Has oid record
  informs : Informs record (link.news oid) standing

namespace Follows

/-- The client submits a command. -/
theorem submit (h : link.Follows oid roster standing record) {command : Command}
    {ledger : Ledger} (hsubmit : link.ledger.submit command = .ok ledger) :
    ∃ standing record, Follows { link with ledger } oid roster standing record := by
  have hspec := h.has.submit hsubmit
  have hitems : ledger.queue.items = link.ledger.queue.items ++ [command] :=
    Channel.items_of_send (Ledger.queue_of_submit hsubmit).1
  have hasks : ∀ asked : List Command, asked = [command].filter (·.asksFor oid) →
      (link.session.docket ++ (link.forwarder.held?.toList ++ ledger.queue.items)).filter
        (·.asksFor oid) = standing.asks ++ asked := by
    intro asked hasked
    rw [hitems, hasked, ← h.stands.asks, upstream, ← List.filter_append]
    simp only [List.append_assoc]
  split at hspec
  · next hasked =>
    obtain ⟨habsent, hsent⟩ := hspec
    have hinforms := h.informs
    rw [habsent] at hinforms
    obtain ⟨hstanding, hasking⟩ := hinforms.ask command
    subst hstanding
    refine ⟨.asked command, .sent command, h.describes, h.named, ⟨?_, ?_, ?_⟩, hsent, hasking⟩
    · refine hasks [command] ?_
      simp [Command.asksFor, hasked]
    · exact h.stands.entries
    · exact h.stands.unsent
  · next hother =>
    refine ⟨standing, record, h.describes, h.named, ⟨?_, ?_, ?_⟩, hspec, h.informs⟩
    · refine (hasks [] ?_).trans (List.append_nil _)
      simpa [Command.asksFor] using hother
    · exact h.stands.entries
    · exact h.stands.unsent

/-- The consumer takes an event, and the order does not slip. -/
theorem hear (h : link.Follows oid roster standing record) (hretention : link.ledger.retention = 0)
    {event : Event} {outbox : Outbox} (htake : link.session.outbox.take? = some (event, outbox))
    (hslip : event.concernsOrder = false → event.oid = oid → link.ledger.sent.get? oid = none) :
    ∃ record, Follows ({ link with
      carrier := .memory { link.session with outbox } }.consume event) oid roster standing
      record := by
  have hhas := h.has.observe hretention event
  have hinforms := h.informs
  -- The event that is taken is the first one underway.
  rw [news, Outbox.underway_of_take htake, List.filter_cons] at hinforms
  have hstands : Session.Stands { link.session with outbox } roster.entries
      (link.forwarder.held?.toList ++ (link.ledger.observe event).queue.items) oid standing := by
    rw [(Ledger.queue_observe link.ledger event).1]
    exact h.stands.of_same rfl fun actor => by cases actor <;> rfl
  cases hnews : event.isNews oid with
  | true =>
    have hoid : event.oid = oid := by
      simp only [Event.isNews, Bool.and_eq_true, decide_eq_true_eq] at hnews
      exact hnews.2
    rw [if_pos hoid] at hhas
    rw [if_pos hnews] at hinforms
    exact ⟨record.hear event, h.describes, h.named, hstands, hhas, hinforms.hear⟩
  | false =>
    rw [hnews, if_neg Bool.false_ne_true] at hinforms
    refine ⟨record, h.describes, h.named, hstands, ?_, hinforms⟩
    split at hhas
    · next hoid =>
      -- A rejection that says nothing about the order, and finds nothing to take away.
      have hconcerns : event.concernsOrder = false := by
        simpa [Event.isNews, hoid] using hnews
      have hkind := Event.kind_of_concernsOrder hconcerns
      have hsent := h.has.sent.symm.trans (hslip hconcerns hoid)
      rw [Record.hear, hkind] at hhas
      rw [← Record.discardSent_of_sent?_eq_none hsent]
      exact hhas
    · exact hhas

/-- Somebody in the session takes a turn. -/
theorem turn (h : link.Follows oid roster standing record) (hserved : link.Served)
    {actor : Session.Actor} {session : Session}
    (hstep : Session.step actor link.session = some session) :
    ∃ roster standing, Follows { link with carrier := .memory session } oid roster standing
      record := by
  obtain ⟨hbeside, hopen⟩ := Session.beside_of_step hserved.isOpen hserved.joined hstep
  obtain ⟨later, hlater, hnamed, added, after, hevents, hstands, hpass⟩ :=
    Session.passes_of_step hserved.sound h.describes h.named hstep hopen h.stands
  refine ⟨later, after, hlater, hnamed, hstands, h.has, ?_⟩
  have hunderway := Outbox.underway_append hevents hbeside.taken hserved.taken
  show Informs record (session.outbox.underway.filter (·.isNews oid)) after
  rw [hunderway, List.filter_append]
  exact h.informs.pass hpass

/-- An order that is followed is followed after a move in which it does not slip. -/
theorem advance (h : link.Follows oid roster standing record) (hserved : link.Served)
    {move : Move} (hslip : link.slip? move ≠ some oid) :
    ∃ roster standing record, (link.advance move).Follows oid roster standing record := by
  have hadvances := hserved.advances move
  generalize link.advance move = next at hadvances
  cases hadvances with
  | stay => exact ⟨roster, standing, record, h⟩
  | submit command ledger _ hsubmit =>
    obtain ⟨standing, record, h⟩ := h.submit hsubmit
    exact ⟨roster, standing, record, h⟩
  | fetch command queue _ hidle hreceive =>
    refine ⟨roster, standing, record, h.describes, h.named, ?_, ⟨h.has.sent, h.has.confirmed⟩,
      h.informs⟩
    refine h.stands.of_same ?_ fun _ => rfl
    rw [upstream, upstream, hidle, (Channel.items_of_receive hreceive).1]
    rfl
  | forward command inbox _ hholding hsend =>
    refine ⟨roster, standing, record, h.describes, h.named, ?_, h.has, h.informs⟩
    refine h.stands.of_same ?_ fun actor => by cases actor <;> rfl
    show (link.session.desk.command?.toList ++ inbox.items) ++ link.ledger.queue.items = _
    rw [Channel.items_of_send hsend, upstream, hholding, Session.docket]
    simp [Forwarder.held?]
  | hear event outbox hheard htake =>
    obtain ⟨record, h⟩ := h.hear hserved.retention htake fun hconcerns hoid => by
      by_contra hsent
      refine hslip (slip?_eq_some.2 ⟨event, hheard, hconcerns, hoid, ?_⟩)
      rw [Table.contains, Option.isSome_iff_ne_none]
      exact hsent
    exact ⟨roster, standing, record, h⟩
  | turn actor session _ hstep =>
    obtain ⟨roster, standing, h⟩ := h.turn hserved hstep
    exact ⟨roster, standing, record, h⟩
  | outside source clock =>
    refine ⟨roster, standing, record, h.describes, h.named, ?_, h.has, h.informs⟩
    exact h.stands.of_same rfl fun actor => by cases actor <;> rfl

/-- An order that is followed is followed to the end of a run in which it does not slip. -/
theorem run (h : link.Follows oid roster standing record) (hserved : link.Served)
    {moves : List Move} (hslips : oid ∉ link.slips moves) :
    ∃ roster standing record, (link.run moves).Follows oid roster standing record := by
  induction moves generalizing link roster standing record with
  | nil => exact ⟨roster, standing, record, h⟩
  | cons move rest ih =>
    -- Neither the first move is a slip of the order nor any of the others.
    rw [slips, List.mem_append, not_or] at hslips
    have hslip : link.slip? move ≠ some oid := by
      intro heq
      rw [heq] at hslips
      exact hslips.1 (List.mem_singleton.2 rfl)
    obtain ⟨roster, standing, record, h⟩ := h.advance hserved hslip
    exact ih h (hserved.advance move) hslips.2

/-- Once everything underway is heard, a live order that is followed is confirmed as it waits. -/
theorem confirmed (h : link.Follows oid roster standing record)
    (hunderway : link.session.outbox.underway = []) {listing : Listing} {order : Pending}
    (hlive : order ∈ link.session.book.pending listing) (hoid : order.oid = oid) :
    link.ledger.confirmed.get? oid = some order.command ∧
      order.command.price = order.trigger.level := by
  have hmem : (listing, order) ∈ roster.entries := by
    rw [h.describes.pending_eq] at hlive
    exact Roster.mem_ordersAt.1 hlive
  have hstanding := h.stands.eq_live hmem hoid
  subst hstanding
  have hshown := h.informs.shown
  rw [news, hunderway] at hshown
  have hrecord : record = .confirmed order.command := hshown
  refine ⟨?_, (h.named _ hmem).2⟩
  rw [h.has.confirmed, hrecord]
  rfl

end Follows

/-! ## Orders that are kept and orders that are lost -/

/-- There is nothing about an id anywhere. -/
structure IsClear (link : Link) (oid : String) : Prop where
  unasked : ∀ command ∈ link.session.docket ++ link.upstream, command.asksFor oid = false
  unlisted : link.session.book.contains oid = false
  unsent : ∀ actor, ∀ event ∈ link.session.unsent actor, event.isNews oid = false
  unheard : link.news oid = []
  unknown : link.ledger.isKnown oid = false

/-- When client and session have just been joined, there is nothing about any id. -/
theorem isClear_opened (source : Source) (limit : Option Nat)
    (queueCapacity inboxCapacity outboxCapacity : Nat) (oid : String) :
    (opened source limit queueCapacity inboxCapacity outboxCapacity).IsClear oid where
  unasked _ hcommand := by cases hcommand
  unlisted := rfl
  unsent actor _ hevent := by cases actor <;> cases hevent
  unheard := rfl
  unknown := rfl

/-- From a moment on at which there is nothing about an id, an order under it is followed. -/
theorem IsClear.follows (h : link.IsClear oid) (hserved : link.Served) :
    ∃ roster, link.Follows oid roster .absent .absent := by
  obtain ⟨roster, hroster, hnamed⟩ := hserved.listed
  obtain ⟨record, hhas⟩ := hserved.recorded oid
  have habsent : record = .absent := by
    -- An id that the ledger does not know has no record.
    have hunknown := h.unknown
    by_contra hne
    rw [hhas.isKnown.2 hne] at hunknown
    cases hunknown
  subst habsent
  have hentries : roster.entries.filter (·.2.oid = oid) = [] := by
    have hunlisted := h.unlisted
    rw [hroster.contains_eq] at hunlisted
    refine List.filter_eq_nil_iff.2 fun entry hentry => ?_
    exact List.any_eq_false.1 hunlisted entry hentry
  refine ⟨roster, hroster, hnamed, ⟨?_, hentries, fun actor => ?_⟩, hhas, ⟨?_, ?_⟩⟩
  · exact List.filter_eq_nil_iff.2 fun command hcommand => by
      rw [h.unasked command hcommand]
      exact Bool.false_ne_true
  · exact List.filter_eq_nil_iff.2 fun event hevent => by
      rw [h.unsent actor event hevent]
      exact Bool.false_ne_true
  · rw [h.unheard]
    intro heard hprefix _
    exact List.prefix_nil.1 hprefix
  · rw [h.unheard]
    rfl

/-- In a run, the order of an id has not slipped since there was nothing about the id anywhere. -/
def Kept (first : Link) (moves : List Move) (oid : String) : Prop :=
  ∃ earlier later, moves = earlier ++ later ∧ (first.run earlier).IsClear oid ∧
    oid ∉ (first.run earlier).slips later

/-- What never slips is kept. -/
theorem kept_of_not_slips {source : Source} {limit : Option Nat}
    {queueCapacity inboxCapacity outboxCapacity : Nat} {moves : List Move}
    (h : oid ∉ (opened source limit queueCapacity inboxCapacity outboxCapacity).slips moves) :
    (opened source limit queueCapacity inboxCapacity outboxCapacity).Kept moves oid :=
  ⟨[], moves, rfl, isClear_opened _ _ _ _ _ _, h⟩

/-- In a run, the order of an id has slipped, and none was submitted under the id since. -/
def Lost (first : Link) (moves : List Move) (oid : String) : Prop :=
  ∃ earlier move later, moves = earlier ++ move :: later ∧
    (first.run earlier).slip? move = some oid ∧
    ∀ command, .call (.submit command) ∈ later → command.asksFor oid = false

/-- An order is kept or lost, or it has slipped and was submitted again. -/
theorem kept_or_lost_or_submitted (source : Source) (limit : Option Nat)
    (queueCapacity inboxCapacity outboxCapacity : Nat) (moves : List Move) (oid : String) :
    (opened source limit queueCapacity inboxCapacity outboxCapacity).Kept moves oid ∨
      (opened source limit queueCapacity inboxCapacity outboxCapacity).Lost moves oid ∨
      ∃ earlier move later command, moves = earlier ++ move :: later ∧
        ((opened source limit queueCapacity inboxCapacity outboxCapacity).run earlier).slip? move =
          some oid ∧
        .call (.submit command) ∈ later ∧ command.asksFor oid = true := by
  by_cases hslips :
      oid ∈ (opened source limit queueCapacity inboxCapacity outboxCapacity).slips moves
  · obtain ⟨earlier, move, later, hmoves, hslip⟩ := exists_slip_of_mem_slips hslips
    by_cases hagain : ∃ command, .call (.submit command) ∈ later ∧ command.asksFor oid = true
    · obtain ⟨command, hsubmit, hasked⟩ := hagain
      exact .inr (.inr ⟨earlier, move, later, command, hmoves, hslip, hsubmit, hasked⟩)
    · refine .inr (.inl ⟨earlier, move, later, hmoves, hslip, fun command hsubmit => ?_⟩)
      rw [← Bool.not_eq_true]
      exact fun hasked => hagain ⟨command, hsubmit, hasked⟩
  · exact .inl (kept_of_not_slips hslips)

/-- An id that is not known stays so until an order is submitted under it. -/
theorem has_absent_run (hserved : link.Served) (hhas : link.ledger.Has oid .absent)
    {moves : List Move}
    (hunasked : ∀ command, .call (.submit command) ∈ moves → command.asksFor oid = false) :
    (link.run moves).ledger.Has oid .absent := by
  induction moves generalizing link with
  | nil => exact hhas
  | cons move rest ih =>
    obtain ⟨later, hlater, hcause⟩ :=
      has_of_advances (hserved.advances move) hserved.retention hhas
    have habsent : later = .absent := by
      rcases hcause with hsame | ⟨command, hmove, hasked⟩ | ⟨event, _, _, hheard⟩
      · exact hsame
      · rw [hunasked command (hmove ▸ List.mem_cons_self)] at hasked
        cases hasked
      · exact hheard.trans (Record.hear_absent event)
    subst habsent
    exact ih (hserved.advance move) hlater fun command hcommand =>
      hunasked command (List.mem_cons_of_mem _ hcommand)

/-- After a run in which an order is lost, its id is not known to the ledger. -/
theorem isKnown_of_lost (hserved : link.Served) {moves : List Move} (hlost : link.Lost moves oid) :
    (link.run moves).ledger.isKnown oid = false := by
  obtain ⟨earlier, move, later, rfl, hslip, hunasked⟩ := hlost
  have hthen := hserved.run earlier
  obtain ⟨record, hhas⟩ := hthen.recorded oid
  have habsent := absent_of_slip (hthen.advances move) hthen.retention hhas hslip
  have hfinal := has_absent_run (hthen.advance move) habsent hunasked
  rw [run_append, run_cons]
  by_contra hknown
  exact hfinal.isKnown.1 (Bool.of_not_eq_false hknown) rfl

/-- Whatever client, session and feeds do and in whichever order, once everything underway is
heard: a pending order that is kept is confirmed, with its command and at its level, and one that
is lost is not known. -/
theorem agrees_along (source : Source) (limit : Option Nat)
    (queueCapacity inboxCapacity outboxCapacity : Nat) (moves : List Move) {last : Link}
    (hlast : (opened source limit queueCapacity inboxCapacity outboxCapacity).run moves = last)
    (hunderway : last.session.outbox.underway = []) {listing : Listing} {order : Pending}
    (hlive : order ∈ last.session.book.pending listing) :
    ((opened source limit queueCapacity inboxCapacity outboxCapacity).Kept moves order.oid →
      last.ledger.confirmed.get? order.oid = some order.command ∧
        order.command.price = order.trigger.level) ∧
    ((opened source limit queueCapacity inboxCapacity outboxCapacity).Lost moves order.oid →
      last.ledger.isKnown order.oid = false) := by
  have hserved := served_opened source limit queueCapacity inboxCapacity outboxCapacity
  subst hlast
  refine ⟨fun hkept => ?_, isKnown_of_lost hserved⟩
  obtain ⟨earlier, later, rfl, hclear, hslips⟩ := hkept
  have hthen := hserved.run earlier
  obtain ⟨roster, hfollows⟩ := hclear.follows hthen
  obtain ⟨roster, standing, record, hfollows⟩ := hfollows.run hthen hslips
  rw [← run_append] at hfollows
  exact hfollows.confirmed hunderway hlive rfl

/-- An alert under `o` is placed and cancelled twice, and placed again when the first
cancellation has come. In between the session waits for a first quote, to place another alert, so
that the second cancellation is rejected after the client has submitted `o` again. -/
def slippingMoves : List Move :=
  let alert (oid symbol : String) : Move :=
    .call (.submit { kind := .alert, oid, symbol, brokers := ["B"], price := 50 })
  let desk : Move := .turn (.carrier (.session .desk))
  let watcher (id : WatcherId) : Move := .turn (.carrier (.session (.watcher id)))
  let forward : List Move := [.turn .forwarder, .turn .forwarder]
  [alert "o" "X"] ++ forward ++ [desk, watcher 0, watcher 0, desk, desk, .turn .consumer] ++
    [.call (.cancel "o"), alert "z" "Z", .call (.cancel "o")] ++ forward ++ forward ++ forward ++
    [desk, desk, .turn .consumer] ++
    [alert "o" "X"] ++ forward ++
    [desk, watcher 1, watcher 1, desk, desk, desk, desk, .turn .consumer, .turn .consumer] ++
    [desk, desk, .turn .consumer]

/-- The source of that run: there is a first quote for each of two listings. -/
def twoQuotes : Source :=
  { brokers := none
    replay := ((Replay.new.push ⟨"B", "X"⟩ (.ofPrices "X" [60])).2.push ⟨"B", "Z"⟩
      (.ofPrices "Z" [60])).2 }

/-- Client and session at the end of that run. -/
def afterSlip : Link := (opened twoQuotes none 4 4 4).run slippingMoves

/-- An alert of that run, as it waits. -/
def waitingAlert (oid symbol : String) : Pending :=
  Pending.ofCommand { kind := .alert, oid, symbol, brokers := ["B"], price := 50 } 60

/-- In that run, the other alert is kept. -/
theorem agrees_along_slip :
    afterSlip.session.outbox.underway = [] ∧
      waitingAlert "z" "Z" ∈ afterSlip.session.book.pending ⟨"B", "Z"⟩ ∧
      (opened twoQuotes none 4 4 4).Kept slippingMoves (waitingAlert "z" "Z").oid ∧
      afterSlip.ledger.confirmed.get? (waitingAlert "z" "Z").oid =
        some (waitingAlert "z" "Z").command := by
  have hlast : (opened twoQuotes none 4 4 4).run slippingMoves = afterSlip := rfl
  have hunderway : afterSlip.session.outbox.underway = [] := by decide +kernel
  have hlive : waitingAlert "z" "Z" ∈ afterSlip.session.book.pending ⟨"B", "Z"⟩ := by
    decide +kernel
  have hkept : (opened twoQuotes none 4 4 4).Kept slippingMoves (waitingAlert "z" "Z").oid :=
    kept_of_not_slips (by decide +kernel)
  have hagrees := agrees_along twoQuotes none 4 4 4 slippingMoves hlast hunderway hlive
  exact ⟨hunderway, hlive, hkept, (hagrees.1 hkept).1⟩

/-- At the end of that run nothing is on its way and nobody holds an event, and an alert waits in
the book that slipped and that the client does not know. -/
theorem slipped_order :
    (opened twoQuotes none 4 4 4).Lost slippingMoves "o" ∧
    afterSlip.ledger.queue.items = [] ∧ afterSlip.forwarder = .idle ∧
      afterSlip.session.inbox.items = [] ∧ afterSlip.session.desk = .idle ∧
      (∀ watcher ∈ afterSlip.session.watchers, watcher.held = []) ∧
      afterSlip.session.outbox.underway = [] ∧
      waitingAlert "o" "X" ∈ afterSlip.session.book.pending ⟨"B", "X"⟩ ∧
      afterSlip.ledger.isKnown "o" = false := by
  refine ⟨⟨slippingMoves.take 32, .turn .consumer, slippingMoves.drop 33, by decide,
    by decide +kernel, fun command hcommand => ?_⟩, by decide +kernel⟩
  have hnone : ∀ call, Move.call call ∉ slippingMoves.drop 33 := by
    intro call
    simp [slippingMoves]
  exact absurd hcommand (hnone _)

end Link

end Client

end TriggerDesk
