import TriggerDesk.Proofs.Book.Entries
import TriggerDesk.Proofs.Session.Staff

/-!
# Effects of turns

What a turn does to the list of pending orders, to the events in the outbox, and to the events
that actors hold because they took an order out of the book and wait for a place. `Effect` has one
case for each deed, and `effect_of_step` says that in an open session every turn has the effect of
its deed. Here lanes, index and the phases of watchers are left behind.
-/

namespace TriggerDesk

open Market TriggerDesk.Order Feed

/-- The event of an order that left the book: it fired, or it was cancelled. -/
inductive Order.Pending.Concludes (order : Pending) : Event → Prop where
  | triggered (index : Int) (price : Float) :
      Concludes order (Event.triggered order.command order.trigger.direction index price)
  | cancelled : Concludes order (Event.cancelled order.command)
  | drained (reason : String) :
      Concludes order ((Event.cancelled order.command).withReason reason)

namespace Session

variable {session next : Session} {id : WatcherId} {watcher after : Watcher} {roster : Roster}

/-- The events that an actor holds, of orders that it took out of the book. -/
def held (session : Session) : Actor → List Event
  | .desk => session.desk.held
  | .watcher id => (session.watchers[id]?.map Watcher.held).getD []

/-- A watcher holds the events that its phase has left. -/
theorem held_watcher (h : session.watchers[id]? = some watcher) :
    session.held (.watcher id) = watcher.held := by
  rw [held, h]
  rfl

/-- What changes no watcher and not the desk leaves everybody the events that they held. -/
theorem Undisturbed.held_eq (h : session.Undisturbed next) (actor : Actor) :
    next.held actor = session.held actor := by
  cases actor with
  | desk => rw [held, held, h.desk]
  | watcher id => rw [held, held, h.watchers]

/-- The effect of a deed on the pending orders, the events and the events that actors hold. -/
inductive Effect (session next : Session) (actor : Actor)
    (entries later : List (Listing × Pending)) : Deed → Prop where
  | nothing :
      later = entries → next.outbox.events = session.outbox.events →
      (∀ other, next.held other = session.held other) →
      Effect session next actor entries later .nothing
  | place (placing : Placing) (last : Float) (order : Pending) :
      placing.IsProper → order = Pending.ofCommand placing.command last →
      (∀ entry ∈ entries, entry.2.oid ≠ order.oid) →
      later = entries ++ [(placing.listing, order)] →
      next.outbox.events =
        session.outbox.events ++ [Event.ack order.command order.trigger.direction] →
      (∀ other, next.held other = session.held other) →
      Effect session next actor entries later (.place placing.listing order)
  | move (listing : Listing) (old order : Pending) (level last : Float) :
      (listing, old) ∈ entries → order = old.moveTo level last →
      later = entries.filter (·.2.oid ≠ old.oid) ++ [(listing, order)] →
      next.outbox.events =
        session.outbox.events ++ [Event.ack order.command order.trigger.direction] →
      (∀ other, next.held other = session.held other) →
      Effect session next actor entries later (.move order)
  | take (orders : List Pending) (test : Listing × Pending → Bool) :
      orders = (entries.filter test).map (·.2) →
      later = entries.filter (fun entry => !test entry) →
      next.outbox.events = session.outbox.events →
      session.held actor = [] → List.Forall₂ Pending.Concludes orders (next.held actor) →
      (∀ other, other ≠ actor → next.held other = session.held other) →
      Effect session next actor entries later (.take orders)
  | refuse (event : Event) :
      later = entries → event.kind = .rejected →
      next.outbox.events = session.outbox.events ++ [event] →
      (∀ other, next.held other = session.held other) →
      Effect session next actor entries later (.put event)
  | conclude (event : Event) :
      later = entries → next.outbox.events = session.outbox.events ++ [event] →
      session.held actor = event :: next.held actor →
      (∀ other, other ≠ actor → next.held other = session.held other) →
      Effect session next actor entries later (.put event)

/-- Events that were put stay. -/
theorem Effect.exists_news {actor : Actor} {entries later : List (Listing × Pending)} {deed : Deed}
    (h : Effect session next actor entries later deed) :
    ∃ news, next.outbox.events = session.outbox.events ++ news := by
  cases h with
  | nothing _ hevents | take _ _ _ _ hevents => exact ⟨[], by rw [hevents, List.append_nil]⟩
  | place _ _ _ _ _ _ _ hevents | move _ _ _ _ _ _ _ _ hevents | refuse _ _ _ hevents
  | conclude _ _ hevents => exact ⟨_, hevents⟩

/-! ## Effects of the desk -/

/-- Who holds what is told by the desk and the watchers. -/
theorem held_eq_of (hdesk : next.desk.held = session.desk.held)
    (hwatchers : ∀ id, next.held (.watcher id) = session.held (.watcher id)) (other : Actor) :
    next.held other = session.held other := by
  cases other with
  | desk => exact hdesk
  | watcher id => exact hwatchers id

/-- With the same watchers, each holds the same events. -/
theorem SameStaff.held_eq (h : session.SameStaff next) (id : WatcherId) :
    next.held (.watcher id) = session.held (.watcher id) := by
  rw [held, held, h.watchers]

/-- Starting a watcher changes nothing in what watchers hold. -/
theorem held_of_append {kept : List Watcher} {fresh : Watcher} (hfresh : fresh.held = [])
    (hwatchers : next.watchers = kept ++ [fresh])
    (hkept : ∀ id, (kept[id]?.map Watcher.held).getD [] = session.held (.watcher id))
    (id : WatcherId) : next.held (.watcher id) = session.held (.watcher id) := by
  rw [← hkept, held, hwatchers, List.getElem?_append]
  split
  · rfl
  · next hlength =>
    have hnone : kept[id]? = none := List.getElem?_eq_none (Nat.le_of_not_lt hlength)
    rw [hnone]
    cases hfound : [fresh][id - kept.length]? with
    | none => rfl
    | some found =>
      have hmem := List.mem_of_getElem? hfound
      rw [List.mem_singleton.1 hmem]
      exact hfresh

/-- A turn of the desk that leaves orders, events and what anybody holds alone. -/
theorem effect_of_still {actor : Actor} (hroster : roster.Describes session.book)
    (hstill : session.Still next) (hheld : ∀ other, next.held other = session.held other) :
    ∃ later : Roster, later.Describes next.book ∧
      Effect session next actor roster.entries later.entries .nothing := by
  obtain ⟨later, hlater, hentries⟩ := hroster.of_alike hstill.lane hstill.index
  exact ⟨later, hlater, .nothing hentries hstill.events hheld⟩

/-- In an open session, every turn of the desk has the effect of its deed. -/
theorem effect_of_deskTurn {deed : Deed} (hsound : session.Sound)
    (hroster : roster.Describes session.book) (hturn : session.DeskTurn next deed)
    (hopen : next.IsOpen) :
    ∃ later : Roster, later.Describes next.book ∧
      Effect session next .desk roster.entries later.entries deed := by
  have hsilent : ∀ {desk : Desk}, session.desk.IsFree → next.desk = desk → desk.held = [] →
      next.desk.held = session.desk.held := by
    intro desk hfree hdesk hnone
    rw [Desk.held_of_answer hfree.answer, hdesk, hnone]
  cases hturn with
  | refuse command rejection hstill hstaff hfree _ hdesk =>
    exact effect_of_still hroster hstill (held_eq_of (hsilent hfree hdesk rfl) hstaff.held_eq)
  | arm placing last hstill hstaff hfree _ _ _ hdesk =>
    exact effect_of_still hroster hstill (held_eq_of (hsilent hfree hdesk rfl) hstaff.held_eq)
  | prepare command hstill hstaff hfree _ _ hdesk =>
    exact effect_of_still hroster hstill (held_eq_of (hsilent hfree hdesk rfl) hstaff.held_eq)
  | await placing id hstill hwatchers hfree _ _ _ _ _ hdesk =>
    refine effect_of_still hroster hstill (held_eq_of (hsilent hfree hdesk rfl) fun id => ?_)
    rw [held, held, hwatchers]
  | start placing deadline hstill _ _ hvacant hwatchers _ hdesk =>
    refine effect_of_still hroster hstill
      (held_eq_of ?_ (held_of_append rfl hwatchers fun _ => rfl))
    rw [Desk.held_of_answer (answer_of_vacant hvacant), hdesk]
    rfl
  | restart placing id deadline stopped hstill hfree _ _ hid hlast hretiring hstopped hwatchers
      _ hdesk =>
    refine effect_of_still hroster hstill (held_eq_of (hsilent hfree hdesk rfl)
      (held_of_append rfl hwatchers fun other => ?_))
    obtain ⟨watcher, hwatcher, hlisting⟩ := hsound.staffed.followed placing.listing id hid
    -- The watcher that is stopped is not live, so it holds nothing.
    have hnothing := hsound.staffed.held_of_stopped hwatcher (hlisting ▸ hlast)
      (hlisting ▸ hretiring)
    subst hstopped
    rw [getElem?_watchers_endWatcher]
    split
    · next heq =>
      subst heq
      rw [hwatcher, held_watcher hwatcher, hnothing]
      exact Watcher.held_stop hnothing
    · rfl
  -- From here on the pending orders change. Who is cancelled is held until it is answered.
  | cancel command order hbeside hstaff hidle _ _ hremove hevents hdesk =>
    obtain ⟨listing, hmem, hoid, later, hlater, hentries⟩ := hroster.of_remove hremove
    refine ⟨later, hlater, .take [order] (decide <| ·.2.oid = command.oid) ?_ ?_ hevents ?_ ?_ ?_⟩
    · rw [hroster.filter_oid hmem hoid]
      rfl
    · rw [hentries, Roster.without]
      simp only [ne_eq, decide_not]
    · rw [held, hidle]
      rfl
    · rw [held, hdesk]
      exact .cons .cancelled .nil
    · intro other hother
      cases other with
      | desk => exact absurd rfl hother
      | watcher id => exact hstaff.held_eq id
  | place placing last order hbeside hstaff hplace _ horder hinsert hevents hdesk =>
    obtain ⟨hfree, later, hlater, hentries⟩ := hroster.of_insert hinsert
    refine ⟨later, hlater, .place placing last order (hsound.proper.placing placing ?_) horder ?_
      hentries hevents (held_eq_of ?_ hstaff.held_eq)⟩
    · rw [hplace]
      rfl
    · intro entry hentry hoid
      have hno := List.any_eq_false.1 hfree entry hentry
      simp [hoid] at hno
    · rw [hdesk, hplace]
      rfl
  | move command moved hbeside hstaff hmove _ hmodify hbook hevents hdesk =>
    obtain ⟨listing, old, last, hmem, hoid, _, horder, later, hlater, hentries⟩ :=
      hroster.of_modify hmodify
    refine ⟨later, hbook ▸ hlater, .move listing old moved.order command.price last hmem horder ?_
      hevents (held_eq_of ?_ hstaff.held_eq)⟩
    · rw [hentries, Roster.without, hoid]
    · rw [hdesk, hmove]
      rfl
  | deliver event hbeside hstaff hanswering _ hbook hevents hdesk =>
    refine ⟨roster, hbook ▸ hroster, ?_⟩
    -- A rejection is about no order, and any other answer that is held concludes one.
    by_cases hkind : event.kind = .rejected
    · refine .refuse event rfl hkind hevents (held_eq_of ?_ hstaff.held_eq)
      rw [hdesk, hanswering, Desk.held, Desk.held, if_pos hkind]
    · refine .conclude event rfl hevents ?_ ?_
      · rw [held, held, hdesk, hanswering, Desk.held, Desk.held, if_neg hkind]
      · intro other hother
        cases other with
        | desk => exact absurd rfl hother
        | watcher id => exact hstaff.held_eq id
  | shutDown deed _ _ hdesk => exact absurd hdesk hopen.running

/-! ## Effects of the watchers -/

/-- The events of orders that fire conclude these orders, one by one. -/
theorem concludes_firedEvents (orders : List Pending) (index : Nat) (price : Float) :
    List.Forall₂ Pending.Concludes orders (firedEvents orders index price) := by
  rw [firedEvents, List.forall₂_map_right_iff, List.forall₂_same]
  exact fun _ _ => .triggered _ _

/-- The events of orders that are drained conclude these orders, one by one. -/
theorem concludes_drainedEvents (orders : List Pending) (reason : String) :
    List.Forall₂ Pending.Concludes orders (drainedEvents orders reason) := by
  rw [drainedEvents, List.forall₂_map_right_iff, List.forall₂_same]
  exact fun _ _ => .drained _

/-- When a watcher is replaced, all others hold the same events. -/
theorem Replaces.held_of_ne (h : session.Replaces next id watcher after) {other : Actor}
    (hother : other ≠ .watcher id) : next.held other = session.held other := by
  cases other with
  | desk => rw [held, held, h.desk]
  | watcher found =>
    have hne : found ≠ id := fun heq => hother (heq ▸ rfl)
    rw [held, held, h.others found hne]

/-- A watcher that is replaced by one with the same events changes what nobody holds. -/
theorem Replaces.held_eq (h : session.Replaces next id watcher after)
    (hheld : after.held = watcher.held) (other : Actor) :
    next.held other = session.held other := by
  by_cases hother : other = .watcher id
  · rw [hother, held_watcher h.becomes, held_watcher h.was, hheld]
  · exact h.held_of_ne hother

/-- In an open session, every turn of a watcher has the effect of its deed. -/
theorem effect_of_watcherTurn {deed : Deed} (hsound : session.Sound)
    (hroster : roster.Describes session.book) (hreplaces : session.Replaces next id watcher after)
    (hturn : session.WatcherTurn next watcher after deed) (hopen : next.IsOpen) :
    ∃ later : Roster, later.Describes next.book ∧
      Effect session next (.watcher id) roster.entries later.entries deed := by
  cases hturn with
  | quiet hbook hevents hheld hheld' =>
    exact ⟨roster, hbook ▸ hroster, .nothing rfl hevents
      (hreplaces.held_eq (hheld'.trans hheld.symm))⟩
  | goLive price hbook hevents hheld hheld' =>
    refine ⟨roster.setLast watcher.listing price, ?_, .nothing rfl hevents
      (hreplaces.held_eq (hheld'.trans hheld.symm))⟩
    rw [hbook]
    exact hroster.setLast watcher.listing price
  | tick price orders hevaluate hevents hheld hheld' =>
    obtain ⟨horders, later, hlater, hentries⟩ :=
      (hroster.setLast watcher.listing price).of_evaluate hevaluate
    refine ⟨later, hlater, .take orders (Roster.isHit watcher.listing price) horders hentries
      hevents ?_ ?_ fun other => hreplaces.held_of_ne⟩
    · rw [held_watcher hreplaces.was, hheld]
    · rw [held_watcher hreplaces.becomes, hheld']
      exact concludes_firedEvents _ _ _
  | lose reason orders hretire hevents hheld hheld' htracks =>
    obtain ⟨horders, later, hlater, hentries⟩ :=
      hroster.of_retire (hsound.staffed.live id watcher hreplaces.was htracks) hretire
    refine ⟨later, hlater, .take orders (decide <| ·.1 = watcher.listing) horders hentries
      hevents ?_ ?_ fun other => hreplaces.held_of_ne⟩
    · rw [held_watcher hreplaces.was, hheld]
    · rw [held_watcher hreplaces.becomes, hheld']
      exact concludes_drainedEvents _ _
  | deliver event hbook hevents hheld =>
    refine ⟨roster, hbook ▸ hroster, .conclude event rfl hevents ?_
      fun other => hreplaces.held_of_ne⟩
    rw [held_watcher hreplaces.was, held_watcher hreplaces.becomes, hheld]
  | leave deed hleft =>
    rw [← hreplaces.receiving, hopen.receiving] at hleft
    cases hleft

/-- In an open session, every turn has the effect of its deed. -/
theorem effect_of_step {actor : Actor} (hsound : session.Sound)
    (hroster : roster.Describes session.book) (hstep : step actor session = some next)
    (hopen : next.IsOpen) :
    ∃ later : Roster, later.Describes next.book ∧
      Effect session next actor roster.entries later.entries (session.deed actor) := by
  cases actor with
  | desk => exact effect_of_deskTurn hsound hroster (deskTurn_of_deskStep hstep) hopen
  | watcher id =>
    obtain ⟨watcher, after, hreplaces, hturn⟩ := watcherTurn_of_watcherStep hstep
    exact effect_of_watcherTurn hsound hroster hreplaces hturn hopen

end Session

end TriggerDesk
