import TriggerDesk.Proofs.Session.Effects

/-!
# The passage of one order id

Through a session, the order of an id passes from one standing to the next: a command asks for
it, it waits in the book, it leaves the book or is refused, and then somebody holds the event
that says so until there is a place. `Session.Stands` says that all of a session agrees with one
standing: the commands that ask for the id, the pending orders and the events that are held show
this one and no other. As long as that is so, `Standing.Passes` has every way in which a turn
changes the standing, with the event that it puts meanwhile (`passes_of_step`).

A rejection of a command that places no order says nothing about the order of its id, so it has
no part in this.
-/

namespace TriggerDesk

open Market TriggerDesk.Order Feed

/-- Whether the event says something about the order of its id. A rejection does only when the
command that was rejected places an order. -/
def Order.Event.concernsOrder (event : Event) : Bool :=
  event.kind ≠ .rejected || (Command.Kind.ofName? event.name).any (·.places)

/-- A rejection concerns the order when the rejected command places one. -/
theorem Order.Event.concernsOrder_rejected (command : Command) (reason : String) :
    (Event.rejected command reason).concernsOrder = command.kind.places := by
  show (false || (Command.Kind.ofName? command.kind.name).any (·.places)) = _
  rw [Command.Kind.ofName?_name, Option.any_some, Bool.false_or]

/-- Whatever is no rejection concerns the order. -/
theorem Order.Event.concernsOrder_of_kind {event : Event} (h : event.kind ≠ .rejected) :
    event.concernsOrder = true := by
  simp [Event.concernsOrder, h]

/-- Only a rejection can say nothing about the order of its id. -/
theorem Order.Event.kind_of_concernsOrder {event : Event} (h : event.concernsOrder = false) :
    event.kind = .rejected := by
  by_contra hne
  rw [Event.concernsOrder_of_kind hne] at h
  cases h

/-- Whether an event says something about the order of this id. -/
def Order.Event.isNews (oid : String) (event : Event) : Bool :=
  event.concernsOrder && event.oid = oid

/-- Whether a command asks for an order under this id. -/
def Order.Command.asksFor (oid : String) (command : Command) : Bool :=
  command.kind.places && command.oid = oid

/-- A rejection is news for an id when the rejected command asks for an order under it. -/
theorem Order.Event.isNews_rejected (oid : String) (command : Command) (reason : String) :
    (Event.rejected command reason).isNews oid = command.asksFor oid := by
  show ((Event.rejected command reason).concernsOrder && decide (command.oid = oid)) = _
  rw [Event.concernsOrder_rejected, Command.asksFor]

theorem Order.Event.isNews_ack (oid : String) (command : Command) (direction : Direction) :
    (Event.ack command direction).isNews oid = decide (command.oid = oid) := rfl

/-- The event of an order that left the book says so. -/
theorem Order.Pending.Concludes.isNews {order : Pending} {event : Event}
    (h : order.Concludes event) (oid : String) :
    event.isNews oid = decide (order.command.oid = oid) := by
  have hconcerns : event.concernsOrder = true := by
    refine Event.concernsOrder_of_kind ?_
    cases h with
    | triggered index price =>
      show Event.triggeredKind order.command.kind ≠ .rejected
      cases order.command.kind <;> decide
    | cancelled | drained reason => exact nofun
  rw [Event.isNews, hconcerns, Bool.true_and]
  cases h <;> rfl

/-- Where the order of an id stands. -/
inductive Standing where
  | absent
  /-- A command that asks for it has not been answered. -/
  | asked (command : Command)
  | live (listing : Listing) (order : Pending)
  /-- An actor holds the event that says what became of it. -/
  | held (actor : Session.Actor) (event : Event)
  deriving DecidableEq, Repr

namespace Standing

/-- The commands that ask for the order. -/
def asks : Standing → List Command
  | asked command => [command]
  | absent | live .. | held .. => []

/-- The entry of the order among the pending ones. -/
def entries : Standing → List (Listing × Pending)
  | live listing order => [(listing, order)]
  | absent | asked _ | held .. => []

/-- What an actor holds about the order. -/
def unsent (standing : Standing) (actor : Session.Actor) : List Event :=
  match standing with
  | held holder event => if actor = holder then [event] else []
  | absent | asked _ | live .. => []

/-- How a turn changes the standing of an order, and what it puts about the order meanwhile. -/
inductive Passes : Standing → List Event → Standing → Prop
  | stay (standing : Standing) : Passes standing [] standing
  | refuse (command : Command) (reason : String) :
      Passes (.asked command) [] (.held .desk (Event.rejected command reason))
  | place (listing : Listing) (order : Pending) :
      Passes (.asked order.command) [Event.ack order.command order.trigger.direction]
        (.live listing order)
  | move (listing : Listing) (order : Pending) (level last : Float) :
      Passes (.live listing order)
        [Event.ack (order.moveTo level last).command (order.moveTo level last).trigger.direction]
        (.live listing (order.moveTo level last))
  | leave (listing : Listing) (order : Pending) (actor : Session.Actor) (event : Event) :
      order.Concludes event → Passes (.live listing order) [] (.held actor event)
  | tell (actor : Session.Actor) (event : Event) : Passes (.held actor event) [event] .absent

end Standing

namespace Session

/-- The events that an actor has to put. -/
def unsent (session : Session) : Actor → List Event
  | .desk => session.desk.answer?.toList
  | .watcher id => session.held (.watcher id)

/-- Every order is known by the id of its command, and waits at the price of its command. -/
def WellNamed (entries : List (Listing × Pending)) : Prop :=
  ∀ entry ∈ entries,
    entry.2.command.oid = entry.2.oid ∧ entry.2.command.price = entry.2.trigger.level

/-- All of a session, its pending orders and the commands on their way to it agree on the standing
of an order. -/
structure Stands (session : Session) (entries : List (Listing × Pending))
    (upstream : List Command) (oid : String) (standing : Standing) : Prop where
  asks : (session.docket ++ upstream).filter (·.asksFor oid) = standing.asks
  entries : entries.filter (·.2.oid = oid) = standing.entries
  unsent : ∀ actor, (session.unsent actor).filter (·.isNews oid) = standing.unsent actor

variable {session next : Session} {entries later : List (Listing × Pending)}
  {upstream : List Command} {oid : String} {standing : Standing} {command : Command}

namespace Stands

/-! ## What is read off the standing -/

/-- A command that is taken off the docket is the one that asks for the order, or has nothing to
do with it. -/
theorem of_docket (h : session.Stands entries upstream oid standing)
    (hdocket : session.docket = command :: next.docket) :
    if command.asksFor oid then
      standing = .asked command ∧ (next.docket ++ upstream).filter (·.asksFor oid) = []
    else (next.docket ++ upstream).filter (·.asksFor oid) = standing.asks := by
  have hasks := h.asks
  rw [hdocket, List.cons_append, List.filter_cons] at hasks
  split
  · next hasked =>
    rw [if_pos hasked] at hasks
    cases standing with
    | asked found =>
      obtain ⟨rfl, hrest⟩ := List.cons.inj hasks
      exact ⟨rfl, hrest⟩
    | absent | live | held => cases hasks
  · next hother =>
    rw [if_neg hother] at hasks
    exact hasks

/-- An entry under the id is the one that the standing shows. -/
theorem eq_live (h : session.Stands entries upstream oid standing) {listing : Listing}
    {order : Pending} (hmem : (listing, order) ∈ entries) (hoid : order.oid = oid) :
    standing = .live listing order := by
  have hshown : (listing, order) ∈ standing.entries := by
    rw [← h.entries]
    exact List.mem_filter.2 ⟨hmem, by simpa using hoid⟩
  cases standing with
  | live listing' order' =>
    cases List.mem_singleton.1 hshown
    rfl
  | absent | asked | held => cases hshown

/-- News that an actor holds are those that the standing shows. -/
theorem eq_held (h : session.Stands entries upstream oid standing) {actor : Actor} {event : Event}
    (hmem : event ∈ session.unsent actor) (hnews : event.isNews oid = true) :
    standing = .held actor event := by
  have hshown : event ∈ standing.unsent actor := by
    rw [← h.unsent]
    exact List.mem_filter.2 ⟨hmem, hnews⟩
  cases standing with
  | held holder found =>
    simp only [Standing.unsent] at hshown
    split at hshown
    · next hactor =>
      rw [hactor, List.mem_singleton.1 hshown]
    · cases hshown
  | absent | asked | live => cases hshown

end Stands

/-- The order is in the standing that a turn leads to. -/
def Passes (session next : Session) (later : List (Listing × Pending)) (upstream : List Command)
    (oid : String) (standing : Standing) : Prop :=
  ∃ (news : List Event) (after : Standing),
    next.outbox.events = session.outbox.events ++ news ∧
      next.Stands later upstream oid after ∧ standing.Passes (news.filter (·.isNews oid)) after

/-- Whatever a turn does, orders keep their names and wait at the prices of their commands. -/
theorem WellNamed.of_effect (h : WellNamed entries) {actor : Actor} {deed : Deed}
    (heffect : Effect session next actor entries later deed) : WellNamed later := by
  cases heffect with
  | nothing hlater | refuse _ hlater | conclude _ hlater => exact hlater ▸ h
  | place placing last order _ horder _ hlater =>
    intro entry hentry
    rw [hlater] at hentry
    rcases List.mem_append.1 hentry with hold | hnew
    · exact h entry hold
    · rw [List.mem_singleton.1 hnew, horder]
      exact ⟨rfl, rfl⟩
  | move listing old order level last hmem horder hlater =>
    intro entry hentry
    rw [hlater] at hentry
    rcases List.mem_append.1 hentry with hold | hnew
    · exact h entry (List.mem_filter.1 hold).1
    · rw [List.mem_singleton.1 hnew, horder]
      exact ⟨(h _ hmem).1, rfl⟩
  | take orders test _ hlater =>
    intro entry hentry
    rw [hlater] at hentry
    exact h entry (List.mem_filter.1 hentry).1

/-- What changes neither the desk's answer nor what watchers hold changes nothing that is unsent. -/
theorem unsent_eq (hanswer : next.desk.answer? = session.desk.answer?)
    (hheld : ∀ id, next.held (.watcher id) = session.held (.watcher id)) (actor : Actor) :
    next.unsent actor = session.unsent actor := by
  cases actor with
  | desk => rw [unsent, unsent, hanswer]
  | watcher id => exact hheld id

/-- The news among the events of orders that left the book are those of the orders under the
id. -/
theorem filter_isNews {orders : List Pending} {events : List Event}
    (h : List.Forall₂ Pending.Concludes orders events)
    (hnamed : ∀ order ∈ orders, order.command.oid = order.oid) (oid : String) :
    List.Forall₂ Pending.Concludes (orders.filter (·.oid = oid))
      (events.filter (·.isNews oid)) := by
  induction h with
  | nil => exact .nil
  | @cons order event orders events hconcludes _ ih =>
    have hrest := ih fun other hother => hnamed other (List.mem_cons_of_mem _ hother)
    have hnews : event.isNews oid = decide (order.oid = oid) := by
      rw [hconcludes.isNews, hnamed order List.mem_cons_self]
    rw [List.filter_cons, List.filter_cons, hnews]
    split
    · exact .cons hconcludes hrest
    · exact hrest

namespace Stands

/-- Where a command on its way is does not matter. -/
theorem of_same (h : session.Stands entries upstream oid standing) {upstream' : List Command}
    (hasks : next.docket ++ upstream' = session.docket ++ upstream)
    (hunsent : ∀ actor, next.unsent actor = session.unsent actor) :
    next.Stands entries upstream' oid standing where
  asks := by
    rw [hasks]
    exact h.asks
  entries := h.entries
  unsent actor := by
    rw [hunsent]
    exact h.unsent actor

/-! ## What turns do to a standing -/

/-- Where nothing changes, the standing stays. -/
theorem quiet (h : session.Stands entries upstream oid standing)
    (hdocket : next.docket = session.docket) (hlater : later = entries)
    (hevents : next.outbox.events = session.outbox.events)
    (hunsent : ∀ actor, next.unsent actor = session.unsent actor) :
    session.Passes next later upstream oid standing := by
  refine ⟨[], standing, by rw [hevents, List.append_nil], ⟨?_, ?_, ?_⟩, .stay standing⟩
  · rw [hdocket]
    exact h.asks
  · rw [hlater]
    exact h.entries
  · intro actor
    rw [hunsent]
    exact h.unsent actor

/-- A command is rejected: an order that was asked for is refused. -/
theorem refuse (h : session.Stands entries upstream oid standing)
    (hdocket : session.docket = command :: next.docket) (hlater : later = entries)
    (hevents : next.outbox.events = session.outbox.events)
    (hfree : session.desk.answer? = none) {reason : String}
    (hdesk : next.desk = .answering (Event.rejected command reason))
    (hheld : ∀ id, next.held (.watcher id) = session.held (.watcher id)) :
    session.Passes next later upstream oid standing := by
  have hasks := h.of_docket hdocket
  have hbefore := h.unsent .desk
  rw [Session.unsent, hfree] at hbefore
  have hafter : next.unsent .desk = [Event.rejected command reason] := by
    rw [Session.unsent, hdesk]
    rfl
  split at hasks
  · next hasked =>
    obtain ⟨hstanding, hrest⟩ := hasks
    subst hstanding
    -- The command asked for the order, so there is nothing else about it yet.
    refine ⟨[], .held .desk (Event.rejected command reason), by rw [hevents, List.append_nil],
      ⟨hrest, ?_, ?_⟩, .refuse command reason⟩
    · rw [hlater]
      exact h.entries
    · intro actor
      cases actor with
      | desk =>
        rw [hafter, List.filter_cons, Event.isNews_rejected, if_pos hasked]
        rfl
      | watcher id => exact (congrArg _ (hheld id)).trans (h.unsent (.watcher id))
  · next hother =>
    refine ⟨[], standing, by rw [hevents, List.append_nil], ⟨hasks, ?_, ?_⟩, .stay standing⟩
    · rw [hlater]
      exact h.entries
    · intro actor
      cases actor with
      | desk =>
        rw [hafter, List.filter_cons, Event.isNews_rejected, if_neg hother]
        exact hbefore
      | watcher id => exact (congrArg _ (hheld id)).trans (h.unsent (.watcher id))

/-- An order is placed: it was asked for, and is live. -/
theorem place (h : session.Stands entries upstream oid standing)
    (hdocket : session.docket = command :: next.docket) (hplaces : command.kind.places = true)
    {listing : Listing} {last : Float} {order : Pending}
    (horder : order = Pending.ofCommand command last)
    (hlater : later = entries ++ [(listing, order)])
    (hevents : next.outbox.events =
      session.outbox.events ++ [Event.ack order.command order.trigger.direction])
    (hunsent : ∀ actor, next.unsent actor = session.unsent actor) :
    session.Passes next later upstream oid standing := by
  have hasks := h.of_docket hdocket
  have hasked : command.asksFor oid = decide (order.oid = oid) := by
    rw [Command.asksFor, hplaces, Bool.true_and, horder]
    rfl
  have hcommand : order.command = command := by rw [horder]; rfl
  have hnamed : command.oid = order.oid := by rw [horder]; rfl
  rw [hasked] at hasks
  by_cases hoid : order.oid = oid
  · rw [if_pos (decide_eq_true hoid)] at hasks
    obtain ⟨hstanding, hrest⟩ := hasks
    subst hstanding
    refine ⟨_, .live listing order, hevents, ⟨hrest, ?_, fun actor => ?_⟩, ?_⟩
    · rw [hlater, List.filter_append, h.entries]
      simp [hoid, Standing.entries]
    · rw [hunsent]
      exact h.unsent actor
    · rw [List.filter_cons, Event.isNews_ack, hcommand, hnamed, if_pos (decide_eq_true hoid)]
      rw [← hcommand]
      exact .place listing order
  · rw [if_neg (by simpa using hoid)] at hasks
    refine ⟨_, standing, hevents, ⟨hasks, ?_, fun actor => ?_⟩, ?_⟩
    · rw [hlater, List.filter_append, h.entries]
      simp [hoid]
    · rw [hunsent]
      exact h.unsent actor
    · rw [List.filter_cons, Event.isNews_ack, hcommand, hnamed, if_neg (by simpa using hoid)]
      exact .stay standing

/-- An order is moved, and stays live. -/
theorem move (h : session.Stands entries upstream oid standing) (hnamed : WellNamed entries)
    (hdocket : session.docket = command :: next.docket) (hplaces : command.kind.places = false)
    {listing : Listing} {old order : Pending} {level last : Float}
    (hmem : (listing, old) ∈ entries) (horder : order = old.moveTo level last)
    (hlater : later = entries.filter (·.2.oid ≠ old.oid) ++ [(listing, order)])
    (hevents : next.outbox.events =
      session.outbox.events ++ [Event.ack order.command order.trigger.direction])
    (hunsent : ∀ actor, next.unsent actor = session.unsent actor) :
    session.Passes next later upstream oid standing := by
  have hasks := h.of_docket hdocket
  rw [if_neg (by rw [Command.asksFor, hplaces]; exact nofun)] at hasks
  have hnews : (Event.ack order.command order.trigger.direction).isNews oid =
      decide (old.oid = oid) := by
    rw [Event.isNews_ack, horder]
    show decide (old.command.oid = oid) = _
    rw [(hnamed _ hmem).1]
  have hoid' : order.oid = old.oid := by rw [horder]; rfl
  by_cases hoid : old.oid = oid
  · have hstanding := h.eq_live hmem hoid
    subst hstanding
    refine ⟨_, .live listing order, hevents, ⟨hasks, ?_, fun actor => ?_⟩, ?_⟩
    · rw [hlater, List.filter_append, List.filter_filter]
      simp [hoid, hoid', Standing.entries]
    · rw [hunsent]
      exact h.unsent actor
    · rw [List.filter_cons, hnews, if_pos (decide_eq_true hoid), horder]
      exact .move listing old level last
  · refine ⟨_, standing, hevents, ⟨hasks, ?_, fun actor => ?_⟩, ?_⟩
    · -- What has another id than the order that moves is not filtered out.
      have hstays : ∀ entry ∈ entries,
          (decide (entry.2.oid = oid) && decide (entry.2.oid ≠ old.oid)) =
            decide (entry.2.oid = oid) := by
        intro entry _
        by_cases hentry : entry.2.oid = oid
        · have hother : oid ≠ old.oid := fun heq => hoid heq.symm
          simp [hentry, hother]
        · simp [hentry]
      rw [hlater, List.filter_append, List.filter_filter, List.filter_congr hstays, h.entries]
      simp [hoid, hoid']
    · rw [hunsent]
      exact h.unsent actor
    · rw [List.filter_cons, hnews, if_neg (by simpa using hoid)]
      exact .stay standing

/-- Orders leave the book: whoever took them out holds the event of each. -/
theorem take (h : session.Stands entries upstream oid standing) (hnamed : WellNamed entries)
    (hasks : (next.docket ++ upstream).filter (·.asksFor oid) = standing.asks) {actor : Actor}
    {orders : List Pending} {test : Listing × Pending → Bool}
    (horders : orders = (entries.filter test).map (·.2))
    (hlater : later = entries.filter fun entry => !test entry)
    (hevents : next.outbox.events = session.outbox.events)
    (hfree : session.unsent actor = []) (htaken : List.Forall₂ Pending.Concludes orders
      (next.unsent actor))
    (hothers : ∀ other, other ≠ actor → next.unsent other = session.unsent other) :
    session.Passes next later upstream oid standing := by
  have hknown : ∀ order ∈ orders, order.command.oid = order.oid := by
    intro order horder
    rw [horders] at horder
    obtain ⟨entry, hentry, rfl⟩ := List.mem_map.1 horder
    exact (hnamed entry (List.mem_filter.1 hentry).1).1
  have hnews := filter_isNews htaken hknown oid
  -- Of the orders under the id, the standing shows which are taken and which stay.
  have hmine : orders.filter (·.oid = oid) = (standing.entries.filter test).map (·.2) := by
    rw [horders, List.filter_map, List.filter_filter, ← h.entries, List.filter_filter]
    exact congrArg _ (List.filter_congr fun _ _ => Bool.and_comm _ _)
  have hleft : later.filter (·.2.oid = oid) =
      standing.entries.filter fun entry => !test entry := by
    rw [hlater, List.filter_filter, ← h.entries, List.filter_filter]
    exact List.filter_congr fun _ _ => Bool.and_comm _ _
  have hactor := h.unsent actor
  rw [hfree] at hactor
  rw [hmine] at hnews
  -- The standing shows one entry at most, so it is taken or nothing is.
  by_cases hstay : standing.entries.filter test = []
  · rw [hstay] at hnews
    refine ⟨[], standing, by rw [hevents, List.append_nil], ⟨hasks, ?_, fun other => ?_⟩,
      .stay standing⟩
    · rw [hleft, List.filter_eq_self]
      intro entry hentry
      simpa using List.filter_eq_nil_iff.1 hstay entry hentry
    · by_cases hother : other = actor
      · rw [hother, List.forall₂_nil_left_iff.1 hnews]
        exact hactor
      · rw [hothers other hother]
        exact h.unsent other
  · cases standing with
    | absent | asked | held => exact absurd rfl hstay
    | live listing order =>
      have htest : test (listing, order) = true := by
        by_contra hno
        exact hstay (List.filter_eq_nil_iff.2 fun entry hentry => List.mem_singleton.1 hentry ▸ hno)
      simp only [Standing.entries, List.filter_cons, htest, if_true, List.filter_nil,
        List.map_cons, List.map_nil] at hnews
      obtain ⟨event, rest, hconcludes, hrest, hunsent⟩ := List.forall₂_cons_left_iff.1 hnews
      rw [List.forall₂_nil_left_iff.1 hrest] at hunsent
      refine ⟨[], .held actor event, by rw [hevents, List.append_nil], ⟨hasks, ?_, fun other => ?_⟩,
        .leave listing order actor event hconcludes⟩
      · rw [hleft]
        simp [Standing.entries, htest]
      · by_cases hother : other = actor
        · rw [hother, hunsent, Standing.unsent, if_pos rfl]
        · rw [hothers other hother, h.unsent other, Standing.unsent, Standing.unsent,
            if_neg hother]

/-- An event that was held is put. -/
theorem tell (h : session.Stands entries upstream oid standing)
    (hasks : (next.docket ++ upstream).filter (·.asksFor oid) = standing.asks)
    (hlater : later = entries) {actor : Actor} {event : Event}
    (hevents : next.outbox.events = session.outbox.events ++ [event])
    (hput : session.unsent actor = event :: next.unsent actor)
    (hothers : ∀ other, other ≠ actor → next.unsent other = session.unsent other) :
    session.Passes next later upstream oid standing := by
  have hactor := h.unsent actor
  rw [hput, List.filter_cons] at hactor
  by_cases hnews : event.isNews oid = true
  · -- What the actor puts is the one thing that there was about the order.
    have hstanding := h.eq_held (hput ▸ List.mem_cons_self) hnews
    subst hstanding
    simp only [hnews, if_true, Standing.unsent, List.cons.injEq, true_and] at hactor
    refine ⟨_, .absent, hevents, ⟨hasks, ?_, fun other => ?_⟩, ?_⟩
    · rw [hlater]
      exact h.entries
    · by_cases hother : other = actor
      · rw [hother, hactor]
        rfl
      · rw [hothers other hother, h.unsent other, Standing.unsent, if_neg hother]
        rfl
    · rw [List.filter_cons, if_pos hnews]
      exact .tell actor event
  · rw [if_neg hnews] at hactor
    refine ⟨_, standing, hevents, ⟨hasks, ?_, fun other => ?_⟩, ?_⟩
    · rw [hlater]
      exact h.entries
    · by_cases hother : other = actor
      · rw [hother]
        exact hactor
      · rw [hothers other hother]
        exact h.unsent other
    · rw [List.filter_cons, if_neg hnews]
      exact .stay standing

end Stands

/-! ## Turns -/

/-- Every turn of the desk passes the order on. -/
theorem passes_of_deskTurn {deed : Deed} (hsound : session.Sound) (hnamed : WellNamed entries)
    (hturn : session.DeskTurn next deed) (heffect : Effect session next .desk entries later deed)
    (hopen : next.IsOpen) (h : session.Stands entries upstream oid standing) :
    session.Passes next later upstream oid standing := by
  -- Neither before nor after a turn that only works on a command has the desk an event.
  have hquiet : ∀ {desk : Desk}, session.desk.IsFree → next.desk = desk → desk.answer? = none →
      (∀ other, next.held other = session.held other) →
      ∀ actor, next.unsent actor = session.unsent actor := by
    intro desk hfree hdesk hanswer hheld
    refine unsent_eq ?_ fun id => hheld (.watcher id)
    rw [hdesk, hanswer, hfree.answer]
  cases hturn with
  | refuse command rejection _ _ hfree hdocket hdesk =>
    cases heffect with
    | nothing hlater hevents hheld =>
      exact h.refuse hdocket hlater hevents hfree.answer hdesk fun id => hheld (.watcher id)
  | arm _ _ _ _ hfree hdocket _ _ hdesk | await _ _ _ _ hfree hdocket _ _ _ _ hdesk
  | restart _ _ _ _ _ hfree hdocket _ _ _ _ _ _ _ hdesk | prepare _ _ _ hfree hdocket _ hdesk =>
    cases heffect with
    | nothing hlater hevents hheld =>
      exact h.quiet hdocket hlater hevents (hquiet hfree hdesk rfl hheld)
  | start placing deadline _ hdocket _ hvacant _ _ hdesk =>
    cases heffect with
    | nothing hlater hevents hheld =>
      refine h.quiet hdocket hlater hevents (unsent_eq ?_ fun id => hheld (.watcher id))
      rw [hdesk, answer_of_vacant hvacant]
      rfl
  | cancel command order _ hstaff hidle hdocket hkind _ hevents hdesk =>
    have hasks := h.of_docket hdocket
    rw [if_neg (by rw [Command.asksFor, hkind]; exact nofun)] at hasks
    cases heffect with
    | take _ test horders hlater _ _ htaken _ =>
      have hheld : next.unsent .desk = next.held .desk := by
        rw [unsent, held, hdesk]
        rfl
      refine h.take hnamed hasks horders hlater hevents ?_ (hheld ▸ htaken) fun other hother => ?_
      · rw [unsent, hidle]
        rfl
      · cases other with
        | desk => exact absurd rfl hother
        | watcher id => exact hstaff.held_eq id
  | place placing last order _ _ hplace hdocket horder _ _ hdesk =>
    have hproper := hsound.proper.placing placing (by rw [hplace]; rfl)
    -- As a variable, the listing of the deed does not stand in the way of the case split.
    generalize placing.listing = listing at heffect
    cases heffect with
    | place _ _ _ _ _ _ hlater hevents hheld =>
      refine h.place hdocket hproper.places horder hlater hevents
        (unsent_eq ?_ fun id => hheld (.watcher id))
      rw [hdesk, hplace]
      rfl
  | move command moved _ _ hmove hdocket _ _ _ hdesk =>
    have hkind := hsound.proper.moving command (by rw [hmove]; rfl)
    cases heffect with
    | move listing old _ level last hmem horder hlater hevents hheld =>
      refine h.move hnamed hdocket (by rw [hkind]; rfl) hmem horder hlater hevents
        (unsent_eq ?_ fun id => hheld (.watcher id))
      rw [hdesk, hmove]
      rfl
  | deliver event _ hstaff hanswering hdocket _ hevents hdesk =>
    have hput : session.unsent .desk = event :: next.unsent .desk := by
      rw [unsent, unsent, hanswering, hdesk]
      rfl
    have hothers : ∀ other, other ≠ Actor.desk → next.unsent other = session.unsent other := by
      intro other hother
      cases other with
      | desk => exact absurd rfl hother
      | watcher id => exact hstaff.held_eq id
    have hasks : (next.docket ++ upstream).filter (·.asksFor oid) = standing.asks := by
      rw [hdocket]
      exact h.asks
    cases heffect with
    | refuse _ hlater => exact h.tell hasks hlater hevents hput hothers
    | conclude _ hlater => exact h.tell hasks hlater hevents hput hothers
  | shutDown _ _ _ hdesk => exact absurd hdesk hopen.running

/-- Every turn of a watcher passes the order on. -/
theorem passes_of_watcherTurn {id : WatcherId} {watcher after : Watcher} {deed : Deed}
    (hnamed : WellNamed entries) (hreplaces : session.Replaces next id watcher after)
    (hturn : session.WatcherTurn next watcher after deed)
    (heffect : Effect session next (.watcher id) entries later deed) (hopen : next.IsOpen)
    (h : session.Stands entries upstream oid standing) :
    session.Passes next later upstream oid standing := by
  have hdocket : next.docket = session.docket := by
    rw [docket, docket, hreplaces.desk, hreplaces.inbox]
  have hasks : (next.docket ++ upstream).filter (·.asksFor oid) = standing.asks := by
    rw [hdocket]
    exact h.asks
  have hanswer : next.desk.answer? = session.desk.answer? := by rw [hreplaces.desk]
  have hothers : ∀ other, other ≠ Actor.watcher id → next.unsent other = session.unsent other := by
    intro other hother
    cases other with
    | desk => rw [unsent, unsent, hanswer]
    | watcher found => exact hreplaces.held_of_ne hother
  cases hturn with
  | quiet | goLive =>
    cases heffect with
    | nothing hlater hevents hheld =>
      exact h.quiet hdocket hlater hevents (unsent_eq hanswer fun id => hheld (.watcher id))
  | tick _ orders | lose _ orders =>
    cases heffect with
    | take _ test horders hlater hevents hfree htaken _ =>
      have hempty : session.unsent (.watcher id) = [] := hfree
      exact h.take hnamed hasks horders hlater hevents hempty htaken hothers
  | deliver event _ hevents hheld =>
    have hput : session.unsent (.watcher id) = event :: next.unsent (.watcher id) := by
      rw [unsent, unsent, held_watcher hreplaces.was, held_watcher hreplaces.becomes]
      exact hheld
    cases heffect with
    | refuse _ hlater => exact h.tell hasks hlater hevents hput hothers
    -- An event with no order and one that concludes an order are put alike.
    | conclude _ hlater => exact h.tell hasks hlater hevents hput hothers
  | leave _ hleft =>
    rw [← hreplaces.receiving, hopen.receiving] at hleft
    cases hleft

/-- In an open session, every turn passes the order on. -/
theorem passes_of_step {actor : Actor} {roster : Roster} (hsound : session.Sound)
    (hroster : roster.Describes session.book) (hnamed : WellNamed roster.entries)
    (hstep : step actor session = some next) (hopen : next.IsOpen)
    (h : session.Stands roster.entries upstream oid standing) :
    ∃ later : Roster, later.Describes next.book ∧ WellNamed later.entries ∧
      session.Passes next later.entries upstream oid standing := by
  cases actor with
  | desk =>
    have hturn := deskTurn_of_deskStep hstep
    obtain ⟨later, hlater, heffect⟩ := effect_of_deskTurn hsound hroster hturn hopen
    exact ⟨later, hlater, hnamed.of_effect heffect,
      passes_of_deskTurn hsound hnamed hturn heffect hopen h⟩
  | watcher id =>
    obtain ⟨watcher, after, hreplaces, hturn⟩ := watcherTurn_of_watcherStep hstep
    obtain ⟨later, hlater, heffect⟩ := effect_of_watcherTurn hsound hroster hreplaces hturn hopen
    exact ⟨later, hlater, hnamed.of_effect heffect,
      passes_of_watcherTurn hnamed hreplaces hturn heffect hopen h⟩

end Session

end TriggerDesk
