import TriggerDesk.Proofs.Session.Delivery
import TriggerDesk.Proofs.Session.Handshakes

/-!
# What becomes of the orders of a lost feed

When the feed of a listing is lost, its watcher takes all orders of the listing out of the book
and puts a cancellation for each, which may take long where the client is slow. `settles_along`
says that each of them is put, in the order in which they waited, and what nobody does before the
last one is put: no other watcher follows the listing, and no order is placed there. An order that
was taken out is unknown from then on, until another one is accepted under its id.

That may be before the last cancellation is put, at another listing, and then that order can be
moved and cancelled like any other: `reused_moves` is such a run.
-/

namespace TriggerDesk

open Market TriggerDesk.Order Feed

namespace Book

variable {book : Book} {listing : Listing} {oid : String}

/-- An id that is not in use is that of no order. -/
theorem find?_of_not_contains (h : book.contains oid = false) : book.find? oid = none := by
  have hnone : book.index.get? oid = none := by
    rw [contains, Table.contains, Option.isSome_eq_false_iff, Option.isNone_iff_eq_none] at h
    exact h
  rw [find?, hnone]
  rfl

/-- While the orders of a lost feed have left their lane and their ids are still in use, nobody
finds them, and nobody can use their ids. -/
structure Hides (book : Book) (oid : String) : Prop where
  remove : book.remove oid = none
  modify : ∀ level, book.modify oid level = none
  insert : ∀ listing order, order.oid = oid → (book.insert listing order).1 = .error .duplicateOid

/-- When the orders of a lane are taken, each leaves an id that is still in use and that nobody
finds. -/
theorem hides_takeAll {roster : Roster} (h : roster.Describes book) {order : Pending}
    (hmem : order ∈ book.pending listing) : (book.takeAll listing).2.Hides order.oid := by
  have hentry := h.mem_pending.1 hmem
  have hget : (book.takeAll listing).2.index.get? order.oid = some listing :=
    index_takeAll book listing ▸ h.index_eq_some.2 ⟨order, hentry, rfl⟩
  have hpending : (book.takeAll listing).2.pending listing = [] :=
    (pending_retire book listing listing).trans (if_pos rfl)
  have hfind : (book.takeAll listing).2.find? order.oid = none := by
    simp only [find?, hget, hpending, Option.bind_eq_bind, Option.bind_some, List.find?_nil,
      Option.bind_none]
  refine ⟨remove_of_find? hfind, modify_of_find? hfind, fun other placed hoid => ?_⟩
  have hused : (book.takeAll listing).2.contains placed.oid = true := by
    rw [contains, Table.contains, hoid, hget, Option.isSome_some]
  unfold insert
  dsimp only
  rw [if_pos hused]

end Book

/-- A watcher that has lost its feed and has nothing to put has ended. -/
theorem Watcher.isEnded_of_hasLost {watcher : Watcher} (hlost : watcher.phase.hasLost = true)
    (hheld : watcher.held = []) : watcher.phase.isEnded = true := by
  unfold Watcher.held at hheld
  cases hphase : watcher.phase with
  | retiring =>
    rw [hphase] at hheld
    cases hheld
  | ended => rfl
  | starting | opening | following | firing =>
    rw [hphase] at hlost
    cases hlost

namespace Session

variable {session next lost : Session} {id : WatcherId} {watcher : Watcher} {listing : Listing}
  {actor : Actor} {oid : String} {events : List Event} {done : List (Actor × Deed)}

/-! ## The loss -/

/-- A watcher that reads that its feed is lost takes out all orders of the listing. -/
theorem step_of_failure {stream : StreamId} (hwatcher : session.watchers[id]? = some watcher)
    (hphase : watcher.phase = .following stream []) {failure : Failure}
    (hfailure : (session.source.replay.peek stream).failure? = some failure) :
    ∃ next, step (.watcher id) session = some next ∧
      next.book = (session.book.retire watcher.listing).2 ∧
      next.watchers[id]? = some (watcher.drains stream
        (drainedEvents (session.book.pending watcher.listing) failure.reason)) := by
  have hrunning : watcher.phase.isEnded = false := by rw [hphase]; rfl
  have hlose : ∀ ready : Session, ready.watchers = session.watchers → ready.book = session.book →
      (ready.loseFeed id stream watcher.listing failure).book =
          (session.book.retire watcher.listing).2 ∧
        (ready.loseFeed id stream watcher.listing failure).watchers[id]? =
          some (watcher.drains stream
            (drainedEvents (session.book.pending watcher.listing) failure.reason)) := by
    intro ready hwatchers hbook
    rw [← Book.retire_fst, ← hbook]
    refine ⟨(bystanders_drain _ _ _ _).book, watchers_drain ?_ hrunning _ _⟩
    show ready.watchers[id]? = some watcher
    rw [hwatchers]
    exact hwatcher
  simp only [step, watcherStep, hwatcher, hphase, Option.bind_eq_bind, Option.bind_some]
  cases hreading : session.source.replay.peek stream with
  | pending =>
    rw [hreading] at hfailure
    cases hfailure
  | ended =>
    rw [hreading] at hfailure
    cases hfailure
    exact ⟨_, rfl, hlose session rfl rfl⟩
  | item item =>
    rw [hreading] at hfailure
    cases item with
    | batch => cases hfailure
    | failure failure =>
      cases hfailure
      exact ⟨_, rfl, hlose (session.advanceStream stream) rfl rfl⟩

/-! ## The cancellations -/

/-- A watcher that lost its feed has put some events since, and holds the rest of them. -/
structure Settles (id : WatcherId) (listing : Listing) (events : List Event) (session : Session)
    (done : List (Actor × Deed)) : Prop extends Tidy session where
  watcher : ∃ watcher : Watcher, session.watchers[id]? = some watcher ∧
    watcher.listing = listing ∧ watcher.phase.hasLost = true
  told : putBy (.watcher id) done ++ session.held (.watcher id) = events

namespace Settles

/-- A turn adds what it puts to what the watcher put, and the watcher holds the rest. -/
theorem of_step (h : Settles id listing events session done)
    (hstep : step actor session = some next) (hopen : next.IsOpen) :
    Settles id listing events next (done ++ [(actor, session.deed actor)]) where
  toTidy := h.toTidy.of_step hstep hopen
  watcher := by
    obtain ⟨watcher, hwatcher, hlisting, hlost⟩ := h.watcher
    obtain ⟨after, hafter, hsame, hstill⟩ :=
      h.sound.staffed.hasLost_of_step hstep hopen hwatcher hlost
    exact ⟨after, hafter, hsame.trans hlisting, hstill⟩
  told := by
    have htold := h.told
    rw [putBy_append]
    by_cases hown : actor = .watcher id
    · subst hown
      have hholds : session.held (.watcher id) ≠ [] := by
        intro hheld
        obtain ⟨watcher, hwatcher, _, hlost⟩ := h.watcher
        rw [held_watcher hwatcher] at hheld
        have hended := Watcher.isEnded_of_hasLost hlost hheld
        rw [step, watcherStep_of_ended hwatcher hended] at hstep
        cases hstep
      rw [List.append_assoc, putBy_of_held hstep hopen hholds]
      exact htold
    · rw [putBy_of_ne hown, List.append_nil, h.held_of_ne hstep hopen (Ne.symm hown)]
      exact htold

/-- What changes no event and no watcher leaves the cancellations as they were. -/
theorem of_undisturbed (h : Settles id listing events session done)
    (hsame : session.Undisturbed next) : Settles id listing events next done where
  toTidy := h.toTidy.of_undisturbed hsame
  watcher := hsame.watchers ▸ h.watcher
  told := by
    rw [hsame.held_eq]
    exact h.told

/-- Along a run the watcher puts the cancellations that it holds, one after the other. -/
theorem run (h : Settles id listing events session []) {moves : List Move}
    (hopen : (session.run moves).IsOpen) :
    Settles id listing events (session.run moves) (session.history moves) :=
  holds_along_history (fun h hstep hopen => h.of_step hstep hopen)
    (fun h hsame => h.of_undisturbed hsame) h hopen

/-- Everything is put once the watcher has ended. -/
theorem putBy_of_ended (h : Settles id listing events session done)
    (hended : ∀ watcher : Watcher, session.watchers[id]? = some watcher →
      watcher.phase.isEnded = true) : putBy (.watcher id) done = events := by
  obtain ⟨watcher, hwatcher, _, _⟩ := h.watcher
  have htold := h.told
  rwa [held_watcher hwatcher, Watcher.held_of_ended (hended watcher hwatcher),
    List.append_nil] at htold

/-- Until then nobody else follows the listing. -/
theorem putBy_of_other (h : Settles id listing events session done) {other : WatcherId}
    (hne : other ≠ id) (hother : session.watchers[other]? = some watcher)
    (hlisting : watcher.listing = listing) (hrunning : watcher.phase.isEnded = false) :
    putBy (.watcher id) done = events := by
  refine h.putBy_of_ended fun own hown => ?_
  obtain ⟨found, hfound, hsame, _⟩ := h.watcher
  rw [hown] at hfound
  cases hfound
  by_contra hended
  exact hne (h.sound.staffed.eq_of_listing hother hown hrunning
    (Bool.not_eq_true _ ▸ hended) (hlisting.trans hsame.symm))

/-- Until then the listing has no last price. -/
theorem putBy_of_last (h : Settles id listing events session done)
    (hlast : session.book.last? listing ≠ none) : putBy (.watcher id) done = events := by
  refine h.putBy_of_ended fun own hown => ?_
  obtain ⟨found, hfound, hsame, hlost⟩ := h.watcher
  rw [hown] at hfound
  cases hfound
  rcases Watcher.Phase.retiring_or_ended_of_hasLost hlost with hlosing | hended
  · exact absurd (hsame ▸ (h.sound.staffed.losing id own hown hlosing).1) hlast
  · rw [hended]
    rfl

end Settles

/-- Where an order is placed there is a last price. -/
theorem last?_of_place {order : Pending} (h : session.deed .desk = .place listing order) :
    session.book.last? listing ≠ none := by
  unfold deed deskDeed at h
  dsimp only at h
  split at h
  · split at h
    · unfold takeUpDeed at h
      split at h
      · split at h <;> cases h
      all_goals cases h
    · cases h
  · next placing last _ =>
    unfold placeDeed at h
    split at h
    · next book hinsert =>
      cases h
      obtain ⟨⟨last, hlast⟩, _⟩ := Book.lane_of_insert hinsert
      rw [hlast]
      exact Option.some_ne_none last
    · cases h
  · unfold moveDeed at h
    split at h <;> cases h
  all_goals cases h

/-! ## The ids -/

/-- Ids come into use only when orders are placed. -/
theorem Effect.oid_of_mem {entries later : List (Listing × Pending)} {deed : Deed}
    (h : Effect session next actor entries later deed) {entry : Listing × Pending}
    (hentry : entry ∈ later) :
    (∃ old ∈ entries, old.2.oid = entry.2.oid) ∨
      ∃ order, deed = .place entry.1 order ∧ order.oid = entry.2.oid := by
  cases h with
  | nothing hlater | refuse _ hlater | conclude _ hlater => exact .inl ⟨entry, hlater ▸ hentry, rfl⟩
  | place placing last order _ _ _ hlater =>
    rw [hlater] at hentry
    rcases List.mem_append.1 hentry with hold | hnew
    · exact .inl ⟨entry, hold, rfl⟩
    · rw [List.mem_singleton.1 hnew]
      exact .inr ⟨order, rfl, rfl⟩
  | move listing old order level last hold horder hlater =>
    rw [hlater] at hentry
    rcases List.mem_append.1 hentry with hkept | hnew
    · exact .inl ⟨entry, (List.mem_filter.1 hkept).1, rfl⟩
    · rw [List.mem_singleton.1 hnew, horder]
      exact .inl ⟨_, hold, rfl⟩
  | take orders test _ hlater =>
    rw [hlater] at hentry
    exact .inl ⟨entry, (List.mem_filter.1 hentry).1, rfl⟩

/-- No order was accepted under an id. -/
def Unplaced (oid : String) (done : List (Actor × Deed)) : Prop :=
  ∀ actor listing order, (actor, Deed.place listing order) ∈ done → order.oid ≠ oid

/-- An id that is free stays free in a turn in which no order is accepted under it. -/
theorem contains_of_step (h : session.Tidy) (hstep : step actor session = some next)
    (hopen : next.IsOpen) (hfree : session.book.contains oid = false)
    (hunplaced : Unplaced oid [(actor, session.deed actor)]) :
    next.book.contains oid = false := by
  obtain ⟨roster, hroster⟩ := h.described
  obtain ⟨later, hlater, heffect⟩ := effect_of_step h.sound hroster hstep hopen
  rw [hroster.contains_eq, Roster.contains, List.any_eq_false] at hfree
  rw [hlater.contains_eq, Roster.contains, List.any_eq_false]
  intro entry hentry
  rcases heffect.oid_of_mem hentry with ⟨old, hold, hoid⟩ | ⟨order, hdeed, hoid⟩
  · rw [← hoid]
    exact hfree old hold
  · have hne := hunplaced actor entry.1 order (hdeed ▸ List.mem_singleton_self _)
    simpa [hoid] using hne

/-- An id that nobody uses stays free until an order is accepted under it. -/
theorem contains_run (h : session.Tidy) (hfree : session.book.contains oid = false)
    {moves : List Move} (hopen : (session.run moves).IsOpen)
    (hunplaced : Unplaced oid (session.history moves)) :
    (session.run moves).book.contains oid = false := by
  have hfirst : session.Tidy ∧ (Unplaced oid [] → session.book.contains oid = false) :=
    ⟨h, fun _ => hfree⟩
  have hall := holds_along_history
    (P := fun session done =>
      session.Tidy ∧ (Unplaced oid done → session.book.contains oid = false))
    (fun {before next done actor} h hstep hopen => by
      refine ⟨h.1.of_step hstep hopen, fun hnone => ?_⟩
      refine contains_of_step h.1 hstep hopen (h.2 ?_) ?_
      · exact fun actor listing order hmem =>
          hnone actor listing order (List.mem_append_left _ hmem)
      · exact fun actor listing order hmem =>
          hnone actor listing order (List.mem_append_right _ hmem))
    (fun h hsame => ⟨h.1.of_undisturbed hsame, fun hnone => hsame.book ▸ h.2 hnone⟩)
    hfirst hopen
  exact hall.2 hunplaced

/-- The ids of the orders of a lost feed are free again. -/
theorem contains_of_retire {roster : Roster} (h : roster.Describes session.book)
    (hlast : session.book.last? listing ≠ none) {order : Pending}
    (hmem : order ∈ session.book.pending listing) :
    (session.book.retire listing).2.contains order.oid = false := by
  have hentry := h.mem_pending.1 hmem
  obtain ⟨_, later, hlater, hentries⟩ := h.of_retire hlast
    (show session.book.retire listing = ((session.book.retire listing).1,
      (session.book.retire listing).2) from rfl)
  rw [hlater.contains_eq, Roster.contains, List.any_eq_false, hentries]
  intro entry hkept
  obtain ⟨hold, helsewhere⟩ := List.mem_filter.1 hkept
  -- Another order with the id would be this one, which is at the listing.
  intro hsame
  have heq := h.eq_of_oid hold hentry (of_decide_eq_true hsame)
  rw [heq] at helsewhere
  simp at helsewhere

/-- Whoever cancels or moves the order with an id is told that there is none. A move to a price
that is not finite is refused for its price. -/
structure Refuses (session : Session) (oid : String) : Prop where
  cancel : ∀ command inbox, session.desk = .idle →
    session.inbox.receive? = some (command, inbox) → command.kind = .cancel → command.oid = oid →
    ∃ next, step .desk session = some next ∧ next.book = session.book ∧
      next.desk = .answering (Event.rejected command "unknown order id")
  prepare : ∀ command inbox, session.desk = .idle →
    session.inbox.receive? = some (command, inbox) → command.kind = .modify →
    ∃ next, step .desk session = some next ∧ next.book = session.book ∧
      next.desk = if command.price.isFinite then .awaitMove command
        else .answering (Event.rejected command (Rejection.badPrice command.price).message)
  move : ∀ command, session.desk = .awaitMove command → command.oid = oid →
    session.outbox.standing .desk = .granted →
    ∃ next, step .desk session = some next ∧ next.book = session.book ∧
      next.desk = .answering (Event.rejected command "unknown order id")

/-- An id that is not in use is refused by cancel and by modify. -/
theorem refuses_of_not_contains (hfree : session.book.contains oid = false) :
    session.Refuses oid where
  cancel command inbox hdesk hreceive hkind hoid := by
    have hremove := Book.remove_of_find? (Book.find?_of_not_contains (hoid ▸ hfree))
    refine ⟨{ session with inbox }.handle command, ?_, ?_⟩
    · simp only [step, deskStep, hdesk, hreceive]
    · simp only [handle, hkind, handleCancel, write, count, hremove]
      exact ⟨rfl, rfl⟩
  prepare command inbox hdesk hreceive hkind := by
    refine ⟨{ session with inbox }.handle command, ?_, ?_⟩
    · simp only [step, deskStep, hdesk, hreceive]
    · simp only [handle, hkind, handleModify]
      cases command.price.isFinite <;> exact ⟨rfl, rfl⟩
  move command hdesk hoid hgranted := by
    have hmodify := Book.modify_of_find? (Book.find?_of_not_contains (hoid ▸ hfree)) command.price
    refine ⟨session.move command, ?_, ?_⟩
    · simp only [step, deskStep, hdesk, withPlace, hgranted]
    · simp only [Session.move, hmodify]
      exact ⟨rfl, rfl⟩

/-! ## Who cancels orders for a lost feed -/

/-- No event of an order that fires is a cancellation. -/
theorem kind_of_firedEvents {orders : List Pending} {index : Nat} {price : Float} {event : Event}
    (h : event ∈ firedEvents orders index price) : event.kind ≠ .cancelled := by
  obtain ⟨order, _, rfl⟩ := List.mem_map.1 h
  show Event.triggeredKind order.command.kind ≠ .cancelled
  cases order.command.kind with
  | alert | buy | sell | cancel | modify => exact nofun

/-- Cancellations that have a reason are put by watchers that lost their feeds, and by nobody
else. -/
structure Attests (session : Session) (done : List (Actor × Deed)) : Prop
    extends Tidy session where
  desk : ∀ event, session.desk.answer? = some event → event.kind = .cancelled → event.reason = none
  live : ∀ (id : WatcherId) (watcher : Watcher), session.watchers[id]? = some watcher →
    watcher.phase.hasLost = false → ∀ event ∈ watcher.held, event.kind ≠ .cancelled
  put : ∀ actor event, event ∈ putBy actor done → event.kind = .cancelled → event.reason ≠ none →
    ∃ (id : WatcherId) (watcher : Watcher), actor = .watcher id ∧
      session.watchers[id]? = some watcher ∧ watcher.phase.hasLost = true

/-- A session starts with no events, so there is no cancellation to attest. -/
theorem attests_start (source : Source) (limit : Option Nat) (inboxCapacity outboxCapacity : Nat) :
    (start source limit inboxCapacity outboxCapacity).Attests [] where
  toTidy := tidy_start _ _ _ _
  desk _ h := nomatch h
  live _ _ h := nomatch h
  put _ _ h := nomatch h

namespace Attests

/-- A cancellation that the desk has to answer with gives no reason. -/
theorem desk_of_deskTurn {deed : Deed} (hturn : session.DeskTurn next deed) (hopen : next.IsOpen)
    {event : Event} (hanswer : next.desk.answer? = some event) (hkind : event.kind = .cancelled) :
    event.reason = none := by
  cases hturn with
  | refuse command rejection _ _ _ _ hdesk =>
    rw [hdesk] at hanswer
    cases hanswer
    cases hkind
  | cancel command order _ _ _ _ _ _ _ hdesk =>
    rw [hdesk] at hanswer
    cases hanswer
    rfl
  | arm _ _ _ _ _ _ _ _ hdesk | await _ _ _ _ _ _ _ _ _ _ hdesk
  | start _ _ _ _ _ _ _ _ hdesk | restart _ _ _ _ _ _ _ _ _ _ _ _ _ _ hdesk
  | prepare _ _ _ _ _ _ hdesk | place _ _ _ _ _ _ _ _ _ _ hdesk | move _ _ _ _ _ _ _ _ _ hdesk
  | deliver _ _ _ _ _ _ _ hdesk =>
    rw [hdesk] at hanswer
    cases hanswer
  | shutDown _ _ _ hdesk => exact absurd hdesk hopen.running

/-- What the desk puts is no cancellation with a reason. -/
theorem reason_of_deskTurn (h : session.Attests done) {deed : Deed}
    (hturn : session.DeskTurn next deed) (hopen : next.IsOpen) {event : Event}
    (hevent : deed.event? = some event) (hkind : event.kind = .cancelled) :
    event.reason = none := by
  cases hturn with
  | refuse | arm | await | start | restart | prepare | cancel => cases hevent
  | place | move =>
    cases hevent
    cases hkind
  | deliver event _ _ hanswering =>
    cases hevent
    exact h.desk event (by rw [hanswering]; rfl) hkind
  | shutDown _ _ _ hdesk => exact absurd hdesk hopen.running

/-- A watcher that has not lost its feed holds no cancellation. -/
theorem live_of_acts (h : session.Attests done) {after : Watcher}
    (hwatcher : session.watchers[id]? = some watcher) (hacts : Acts session next id watcher after)
    (hreceiving : session.outbox.receiving = true) (hlost : after.phase.hasLost = false)
    {event : Event} (hevent : event ∈ after.held) : event.kind ≠ .cancelled := by
  cases hacts with
  | subscribe | giveUp | goLive | read | skip => cases hevent
  | look stream price prices orders =>
    rw [Watcher.held_fires] at hevent
    exact kind_of_firedEvents hevent
  | fired stream put rest prices hphase =>
    rw [Watcher.held_fires] at hevent
    refine h.live id watcher hwatcher (by rw [hphase]; rfl) event ?_
    rw [Watcher.held, hphase]
    exact List.mem_cons_of_mem put hevent
  | lose | drained =>
    rw [Watcher.hasLost_drains] at hlost
    cases hlost
  | leave hleft =>
    rw [hreceiving] at hleft
    cases hleft

/-- A turn keeps the cancellations with a reason to the watchers that lost their feeds. -/
theorem of_step (h : session.Attests done) (hstep : step actor session = some next)
    (hopen : next.IsOpen) : next.Attests (done ++ [(actor, session.deed actor)]) := by
  have hreceiving := (isOpen_of_step hstep hopen).receiving
  -- What was put before is still explained by a watcher that lost its feed.
  have hput : ∀ (other : Actor) (event : Event), event ∈ putBy other done →
      event.kind = .cancelled → event.reason ≠ none →
      ∃ (id : WatcherId) (watcher : Watcher), other = .watcher id ∧
        next.watchers[id]? = some watcher ∧ watcher.phase.hasLost = true := by
    intro other event hevent hkind hreason
    obtain ⟨id, watcher, hother, hwatcher, hlost⟩ := h.put other event hevent hkind hreason
    obtain ⟨after, hafter, _, hstill⟩ :=
      h.sound.staffed.hasLost_of_step hstep hopen hwatcher hlost
    exact ⟨id, after, hother, hafter, hstill⟩
  cases actor with
  | desk =>
    have hturn := deskTurn_of_deskStep hstep
    refine ⟨h.toTidy.of_step hstep hopen, fun _ => desk_of_deskTurn hturn hopen, ?_, ?_⟩
    · intro id watcher hwatcher hlost event hevent
      rcases h.sound.staffed.watchers_of_deskTurn hturn hopen hwatcher with
        hold | hnew | ⟨old, _, rfl, _⟩
      · exact h.live id watcher hold hlost event hevent
      · rw [hnew] at hevent
        cases hevent
      · rw [Watcher.held_of_ended (Watcher.isEnded_stop _ _)] at hevent
        cases hevent
    · intro other event hevent hkind hreason
      rw [putBy_append] at hevent
      rcases List.mem_append.1 hevent with hbefore | hnow
      · exact hput other event hbefore hkind hreason
      · by_cases hother : .desk = other
        · subst hother
          rw [putBy_self, Option.mem_toList] at hnow
          exact absurd (h.reason_of_deskTurn hturn hopen hnow hkind) hreason
        · rw [putBy_of_ne hother] at hnow
          cases hnow
  | watcher id =>
    obtain ⟨watcher, after, hreplaces, hturn⟩ := watcherTurn_of_watcherStep hstep
    obtain ⟨acted, hacted, hacts⟩ := acts_of_watcherStep hreplaces.was hstep
    rw [hreplaces.becomes] at hacted
    cases hacted
    refine ⟨h.toTidy.of_step hstep hopen, hreplaces.desk ▸ h.desk, ?_, ?_⟩
    · intro other found hfound hlost event hevent
      by_cases heq : other = id
      · subst heq
        rw [hreplaces.becomes] at hfound
        cases hfound
        exact h.live_of_acts hreplaces.was hacts hreceiving hlost hevent
      · rw [hreplaces.others other heq] at hfound
        exact h.live other found hfound hlost event hevent
    · intro other event hevent hkind hreason
      rw [putBy_append] at hevent
      rcases List.mem_append.1 hevent with hbefore | hnow
      · exact hput other event hbefore hkind hreason
      · by_cases hother : .watcher id = other
        · subst hother
          rw [putBy_self, Option.mem_toList] at hnow
          have hheld := hturn.held_of_event hreceiving hnow
          refine ⟨id, after, rfl, hreplaces.becomes, hacts.hasLost ?_ hreceiving⟩
          by_contra hlost
          exact h.live id watcher hreplaces.was (Bool.not_eq_true _ ▸ hlost) event
            (hheld ▸ List.mem_cons_self) hkind
        · rw [putBy_of_ne hother] at hnow
          cases hnow

/-- What changes no event and no watcher keeps the cancellations with a reason to their watchers. -/
theorem of_undisturbed (h : session.Attests done) (hsame : session.Undisturbed next) :
    next.Attests done where
  toTidy := h.toTidy.of_undisturbed hsame
  desk := hsame.desk ▸ h.desk
  live := hsame.watchers ▸ h.live
  put := hsame.watchers ▸ h.put

/-- Along a run the cancellations with a reason stay with the watchers that lost their feeds. -/
theorem run (h : session.Attests done) {moves : List Move} (hopen : (session.run moves).IsOpen) :
    (session.run moves).Attests (done ++ session.history moves) :=
  holds_along_history (fun h hstep hopen => h.of_step hstep hopen)
    (fun h hsame => h.of_undisturbed hsame) h hopen

/-- What was put so far may be forgotten. -/
theorem forget (h : session.Attests done) : session.Attests [] where
  toTidy := h.toTidy
  desk := h.desk
  live := h.live
  put _ _ h := nomatch h

end Attests

/-! ## Everything is settled -/

/-- What has become of the orders of a listing at the end of a run. Before it began, in the
session `first`, they waited; then the watcher read that the feed was lost. -/
structure Settled (first lost : Session) (id : WatcherId) (listing : Listing) (reason : String)
    (later : List Move) : Prop where
  /-- The watcher puts one cancellation for each order, in the order in which they waited, and
  nothing else. Those that it has not put it holds. -/
  told : putBy (.watcher id) (lost.history later) ++ (lost.run later).held (.watcher id) =
    drainedEvents (first.book.pending listing) reason
  /-- What is put comes into the outbox, and nothing else does. -/
  enqueued : (lost.run later).outbox.events =
    lost.outbox.events ++ (lost.history later).filterMap (·.2.event?)
  /-- Whoever else puts a cancellation with a reason is a watcher that lost a feed as well. -/
  alone : ∀ actor event, event ∈ putBy actor (lost.history later) → event.kind = .cancelled →
    event.reason ≠ none → ∃ (other : WatcherId) (watcher : Watcher), actor = .watcher other ∧
      (lost.run later).watchers[other]? = some watcher ∧ watcher.phase.hasLost = true
  /-- Under any fair schedule, all of them are put. -/
  delivered : ∀ schedule, Fair schedule →
    (∀ n, ((lost.run later).run (movesOf schedule n)).IsOpen) →
    ∃ n, putBy (.watcher id) (lost.history (later ++ movesOf schedule n)) =
      drainedEvents (first.book.pending listing) reason
  /-- Another watcher follows the listing only after that. -/
  deserted : ∀ (other : WatcherId) (watcher : Watcher), other ≠ id →
    (lost.run later).watchers[other]? = some watcher → watcher.listing = listing →
    watcher.phase.isEnded = false →
    putBy (.watcher id) (lost.history later) = drainedEvents (first.book.pending listing) reason
  /-- An order is placed at the listing only after that. -/
  vacant : ∀ order, (lost.run later).deed .desk = .place listing order →
    putBy (.watcher id) (lost.history later) = drainedEvents (first.book.pending listing) reason
  /-- While the orders have left their lane and their ids are still in use, nobody finds them. -/
  hidden : ∀ order ∈ first.book.pending listing,
    (first.book.takeAll listing).2.Hides order.oid
  /-- And nobody finds them later, unless another order was accepted under the same id. -/
  unknown : ∀ order ∈ first.book.pending listing, Unplaced order.oid (lost.history later) →
    (lost.run later).Refuses order.oid

/-- In whichever order things happen, and however small the outbox is: when the feed of a listing
is lost, the orders that wait there are settled before anybody follows the listing again. -/
theorem settles_along (source : Source) (limit : Option Nat) (inboxCapacity outboxCapacity : Nat)
    (hcapacity : 0 < outboxCapacity) (moves : List Move) {id : WatcherId} {watcher : Watcher}
    {stream : StreamId} {failure : Failure} {first : Session}
    (hfirst : first = (start source limit inboxCapacity outboxCapacity).run moves)
    (hwatcher : first.watchers[id]? = some watcher)
    (hphase : watcher.phase = .following stream [])
    (hfailure : (first.source.replay.peek stream).failure? = some failure) (later : List Move)
    (hopen : (first.run (.turn (.watcher id) :: later)).IsOpen) :
    Settled first (first.advance (.turn (.watcher id))) id watcher.listing failure.reason
      later := by
  obtain ⟨lost, hstep, hbook, hlost⟩ := step_of_failure hwatcher hphase hfailure
  rw [run_cons, advance_turn hstep] at hopen
  rw [advance_turn hstep]
  have hnext : lost.IsOpen := isOpen_of_run hopen
  have hbefore : first.IsOpen := isOpen_of_step hstep hnext
  rw [hfirst] at hbefore
  have hkept : first.Kept := hfirst ▸ (kept_start _ _ _ hcapacity).run hbefore
  -- What was put before the loss is forgotten: the account begins with the turn that finds it.
  have hattests : first.Attests [] := hfirst ▸ ((attests_start _ _ _ _).run hbefore).forget
  have hkeptLost := hkept.of_step hstep hnext
  have hsettles : Settles id watcher.listing
      (drainedEvents (first.book.pending watcher.listing) failure.reason) lost [] :=
    ⟨hkeptLost.toTidy, ⟨_, hlost, Watcher.listing_drains _ _ _, Watcher.hasLost_drains _ _ _⟩,
      by rw [held_watcher hlost, Watcher.held_drains]; rfl⟩
  have hthen := hsettles.run hopen
  obtain ⟨roster, hroster⟩ := hkept.described
  have hlast := hkept.sound.staffed.live id watcher hwatcher (by rw [hphase]; rfl)
  exact {
    told := hthen.told
    enqueued := events_run hopen
    alone := ((hattests.of_step hstep hnext).forget.run hopen).put
    delivered := by
      intro schedule hfair hstays
      obtain ⟨n, hnone⟩ := exists_held_eq_nil_of_fair (hkeptLost.run hopen) hfair hstays id
      rw [← run_append] at hnone
      have htold := (hsettles.run (run_append lost later _ ▸ hstays n)).told
      rw [hnone, List.append_nil] at htold
      exact ⟨n, htold⟩
    deserted := fun other found hne hother hlisting hrunning =>
      hthen.putBy_of_other hne hother hlisting hrunning
    vacant := fun order hplace => hthen.putBy_of_last (last?_of_place hplace)
    hidden := fun order hmem => Book.hides_takeAll hroster hmem
    unknown := fun order hmem hunplaced => refuses_of_not_contains <|
      contains_run hkeptLost.toTidy (hbook ▸ contains_of_retire hroster hlast hmem) hopen
        hunplaced }

/-- The command of an alert at a listing of one broker. -/
def alertAt (oid symbol : String) : Command :=
  { kind := .alert, oid, symbol, brokers := ["B"], price := 50 }

/-- One alert waits at `Y` and three at `X`, and the client has not taken the last
acknowledgement. Then the feed of `X` breaks. -/
def breakMoves : List Move :=
  [.stimulus (.push ⟨"B", "X"⟩ (.ofPrices "X" [60])),
    .stimulus (.push ⟨"B", "Y"⟩ (.ofPrices "Y" [60])),
    .stimulus (.send (alertAt "z" "Y")), .turn .desk, .turn (.watcher 0), .turn (.watcher 0),
    .turn .desk, .turn .desk, .stimulus .take,
    .stimulus (.send (alertAt "a" "X")), .turn .desk, .turn (.watcher 1), .turn (.watcher 1),
    .turn .desk, .turn .desk, .stimulus .take,
    .stimulus (.send (alertAt "b" "X")), .turn .desk, .turn .desk, .stimulus .take,
    .stimulus (.send (alertAt "c" "X")), .turn .desk, .turn .desk,
    .stimulus (.breakStream ⟨"B", "X"⟩ "down")]

/-- The session before the watcher reads that. -/
def broken : Session := (start ⟨none, .new⟩ none 4 1).run breakMoves

/-- The id of the first alert is used again, at `Y`, and the desk is about to move that alert. The
watcher has put two cancellations. -/
def reuseMoves : List Move :=
  [.stimulus (.send (alertAt "a" "Y")), .turn .desk, .stimulus .take, .turn (.watcher 1),
    .stimulus .take, .turn .desk,
    .stimulus (.send { alertAt "a" "Y" with kind := .modify, price := 55 }), .turn .desk,
    .stimulus .take, .turn (.watcher 1), .stimulus .take]

/-- In that run the first alert is cancelled and its id used again, and everything is settled as
stated. -/
theorem settles_along_reuse :
    broken.watchers[1]? = some { Watcher.new ⟨"B", "X"⟩ with
        phase := .following 0 [], outcome := some (.live 60) } ∧
      (broken.run (.turn (.watcher 1) :: reuseMoves)).IsOpen ∧
      Settled broken (broken.advance (.turn (.watcher 1))) 1 ⟨"B", "X"⟩
        (Failure.broken "down").reason reuseMoves := by
  have hwatcher : broken.watchers[1]? = some { Watcher.new ⟨"B", "X"⟩ with
      phase := .following 0 [], outcome := some (.live 60) } := by decide +kernel
  have hopen : (broken.run (.turn (.watcher 1) :: reuseMoves)).IsOpen :=
    ⟨by decide +kernel, by decide +kernel⟩
  exact ⟨hwatcher, hopen, settles_along ⟨none, .new⟩ none 4 1 (by decide) breakMoves rfl hwatcher
    rfl (by decide +kernel) reuseMoves hopen⟩

/-- An alert is moved under the id of one that was cancelled with a lost feed, while the watcher
has yet to put the last cancellation. -/
theorem reused_moves :
    (broken.book.pending ⟨"B", "X"⟩).map (·.oid) = ["a", "b", "c"] ∧
      (broken.run (.turn (.watcher 1) :: reuseMoves)).IsOpen ∧
      (broken.run (.turn (.watcher 1) :: reuseMoves)).held (.watcher 1) =
        [(Event.cancelled (alertAt "c" "X")).withReason "feed failed: stream error: down"] ∧
      ∃ order, (broken.run (.turn (.watcher 1) :: reuseMoves)).deed .desk = .move order ∧
        order.oid = "a" ∧
        (step .desk (broken.run (.turn (.watcher 1) :: reuseMoves))).isSome = true := by
  refine ⟨by decide +kernel, ⟨by decide +kernel, by decide +kernel⟩, by decide +kernel,
    (Pending.ofCommand (alertAt "a" "Y") 60).moveTo 55 60, ?_, rfl, ?_⟩ <;> decide +kernel

end Session

end TriggerDesk
