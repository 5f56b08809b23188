import TriggerDesk.Proofs.Session.Delivery
import TriggerDesk.Proofs.Session.Handshakes

/-!
# What a watcher finds when its feed goes live

In an open session a listing has a last price only as long as a watcher keeps it up to date
(`Posted`). So when the first quote of a watcher comes, no order waits at its listing
(`Posted.pending_of_opening`), and the watcher has looked at no price.
-/

namespace TriggerDesk

open Market TriggerDesk.Order Feed

/-- Whether the first quote of a watcher is still to come. -/
def Watcher.Phase.awaitsQuote : Watcher.Phase → Bool
  | starting | opening _ => true
  | following .. | firing .. | retiring .. | ended _ => false

/-- A watcher that awaits a quote has a feed that is not live and was not lost, and has not
ended. -/
theorem Watcher.Phase.of_awaitsQuote {phase : Watcher.Phase} (h : phase.awaitsQuote = true) :
    phase.tracks = false ∧ phase.hasLost = false ∧ phase.isEnded = false := by
  cases phase with
  | starting | opening => exact ⟨rfl, rfl, rfl⟩
  | following | firing | retiring | ended => cases h

/-- A listing whose feed is lost has no last price. -/
theorem Book.last?_retire_self (book : Book) (listing : Listing) :
    (book.retire listing).2.last? listing = none := by
  by_cases hlast : book.last? listing = none
  · show ((book.takeAll listing).2.lane listing).last = none
    unfold takeAll
    split
    · exact hlast
    · simp
  · rw [last?, lane_retire_self book hlast]

namespace Session

variable {session next : Session} {id : WatcherId} {watcher after : Watcher} {listing : Listing}
  {actor : Actor}

/-! ## What stays -/

/-- A turn of a watcher leaves the other listings alone. -/
theorem WatcherTurn.lane_of_ne {deed : Deed} (h : session.WatcherTurn next watcher after deed)
    (hreceiving : session.outbox.receiving = true) (hne : listing ≠ watcher.listing) :
    next.book.lane listing = session.book.lane listing := by
  cases h with
  | quiet hbook | deliver _ hbook => rw [hbook]
  | goLive price hbook => rw [hbook, Book.lane_setLast, if_neg hne]
  | tick price orders hevaluate =>
    have hlane := Book.lane_evaluate (session.book.setLast watcher.listing price)
      watcher.listing listing price
    rwa [hevaluate, if_neg hne, Book.lane_setLast, if_neg hne] at hlane
  | lose reason orders hretire =>
    have hlane := Book.lane_retire_of_ne session.book hne
    rwa [hretire] at hlane
  | leave _ hleft =>
    rw [hreceiving] at hleft
    cases hleft

/-- A watcher whose feed is live is not stopped. -/
theorem Staffed.tracks_of_deskTurn (h : session.Staffed) {deed : Deed}
    (hturn : session.DeskTurn next deed) (hopen : next.IsOpen)
    (hwatcher : session.watchers[id]? = some watcher) (htracks : watcher.phase.tracks = true) :
    next.watchers[id]? = some watcher := by
  rcases h.stays_of_deskTurn hturn hopen hwatcher with hkept | ⟨_, hlast, _⟩
  · exact hkept
  · exact absurd hlast (h.live id watcher hwatcher htracks)

/-- A watcher whose feed is live keeps it, unless it is lost and the listing has no last price. -/
theorem Acts.tracks_or (h : Acts session next id watcher after)
    (hreceiving : session.outbox.receiving = true) (htracks : watcher.phase.tracks = true) :
    after.phase.tracks = true ∨
      after.phase.hasLost = true ∧ next.book = (session.book.retire watcher.listing).2 := by
  cases h with
  | subscribe _ hphase | goLive _ _ hphase | drained _ _ _ hphase =>
    rw [hphase] at htracks
    cases htracks
  | giveUp _ hphase =>
    rcases hphase with hphase | ⟨_, hphase⟩ <;>
    · rw [hphase] at htracks
      cases htracks
  | read | skip => exact .inl rfl
  | look | fired => exact .inl (Watcher.tracks_fires _ _ _ _)
  | lose stream failure orders _ _ hretire =>
    exact .inr ⟨Watcher.hasLost_drains _ _ _, by rw [hretire]⟩
  | leave hleft =>
    rw [hreceiving] at hleft
    cases hleft

/-! ## Who keeps a last price up to date -/

/-- Last prices are kept up to date, and who awaits its first quote has looked at no price. -/
structure Posted (session : Session) : Prop where
  unlooked : ∀ (id : WatcherId) (watcher : Watcher), session.watchers[id]? = some watcher →
    watcher.phase.awaitsQuote = true → watcher.index = 0
  attended : ∀ listing, session.book.last? listing ≠ none →
    ∃ (id : WatcherId) (watcher : Watcher), session.watchers[id]? = some watcher ∧
      watcher.listing = listing ∧ watcher.phase.tracks = true

/-- When a session starts, there are no last prices to keep up. -/
theorem posted_start (source : Source) (limit : Option Nat) (inboxCapacity outboxCapacity : Nat) :
    (start source limit inboxCapacity outboxCapacity).Posted where
  unlooked _ _ h := nomatch h
  attended _ h := absurd rfl h

namespace Posted

/-- What the client and the market do leaves the last prices and their watchers as they are. -/
theorem of_undisturbed (h : session.Posted) (hsame : session.Undisturbed next) : next.Posted where
  unlooked := hsame.watchers ▸ h.unlooked
  attended := hsame.watchers ▸ hsame.book ▸ h.attended

/-- A turn of the desk keeps the last prices with their watchers. -/
theorem of_deskTurn (h : session.Posted) (hstaffed : session.Staffed) {deed : Deed}
    (hturn : session.DeskTurn next deed) (hopen : next.IsOpen) : next.Posted where
  unlooked id watcher hwatcher hawaits := by
    rcases hstaffed.watchers_of_deskTurn hturn hopen hwatcher with
      hold | hnew | ⟨old, _, rfl, _⟩
    · exact h.unlooked id watcher hold hawaits
    · rw [hnew]
      rfl
    · have hrunning := (Watcher.Phase.of_awaitsQuote hawaits).2.2
      rw [Watcher.isEnded_stop] at hrunning
      cases hrunning
  attended listing hlast := by
    rw [(hturn.sameFeeds hopen.running listing).1] at hlast
    obtain ⟨id, watcher, hwatcher, hlisting, htracks⟩ := h.attended listing hlast
    exact ⟨id, watcher, hstaffed.tracks_of_deskTurn hturn hopen hwatcher htracks, hlisting,
      htracks⟩

/-- A watcher that still awaits its first quote has looked at no price. -/
theorem unlooked_of_acts (hacts : Acts session next id watcher after)
    (hbefore : watcher.phase.awaitsQuote = true → watcher.index = 0)
    (hawaits : after.phase.awaitsQuote = true) : after.index = 0 := by
  obtain ⟨htracks, hlost, hrunning⟩ := Watcher.Phase.of_awaitsQuote hawaits
  cases hacts with
  | subscribe stream hphase => exact hbefore (by rw [hphase]; rfl)
  | giveUp | goLive | read | skip => cases hawaits
  | look | fired =>
    rw [Watcher.tracks_fires] at htracks
    cases htracks
  | lose | drained =>
    rw [Watcher.hasLost_drains] at hlost
    cases hlost
  | leave =>
    rw [Watcher.isEnded_stop] at hrunning
    cases hrunning

/-- A last price that was not there is kept up to date by the watcher that sets it. -/
theorem tracks_of_acts (hacts : Acts session next id watcher after)
    (hlast : session.book.last? watcher.listing = none)
    (hnext : next.book.last? watcher.listing ≠ none) : after.phase.tracks = true := by
  cases hacts with
  | goLive => rfl
  | look => exact Watcher.tracks_fires _ _ _ _
  | subscribe _ _ hbook | giveUp _ _ hbook | read _ _ _ hbook | skip _ _ _ _ _ hbook
  | fired _ _ _ _ _ _ hbook | drained _ _ _ _ _ hbook | leave _ _ hbook =>
    rw [hbook] at hnext
    exact absurd hlast hnext
  | lose stream failure orders _ _ hretire =>
    have hnone := Book.last?_retire_self session.book watcher.listing
    rw [hretire] at hnone
    exact absurd hnone hnext

/-- A turn of a watcher keeps the last prices up to date. -/
theorem of_watcherStep (h : session.Posted) (hstep : step (.watcher id) session = some next)
    (hopen : next.IsOpen) : next.Posted := by
  obtain ⟨watcher, after, hreplaces, hturn⟩ := watcherTurn_of_watcherStep hstep
  obtain ⟨acted, hacted, hacts⟩ := acts_of_watcherStep hreplaces.was hstep
  rw [hreplaces.becomes] at hacted
  cases hacted
  have hreceiving := (isOpen_of_step hstep hopen).receiving
  refine ⟨fun other found hfound hawaits => ?_, fun listing hlast => ?_⟩
  · by_cases heq : other = id
    · subst heq
      rw [hreplaces.becomes] at hfound
      cases hfound
      exact unlooked_of_acts hacts (h.unlooked other watcher hreplaces.was) hawaits
    · rw [hreplaces.others other heq] at hfound
      exact h.unlooked other found hfound hawaits
  · by_cases hbefore : session.book.last? listing = none
    · -- Only the listing of the watcher can have got a last price.
      have hlisting : listing = watcher.listing := by
        by_contra hne
        rw [Book.last?, hturn.lane_of_ne hreceiving hne] at hlast
        exact hlast hbefore
      subst hlisting
      exact ⟨id, after, hreplaces.becomes, hreplaces.listing, tracks_of_acts hacts hbefore hlast⟩
    · obtain ⟨other, found, hfound, hlisting, htracks⟩ := h.attended listing hbefore
      by_cases heq : other = id
      · subst heq
        rw [hreplaces.was] at hfound
        cases hfound
        rcases hacts.tracks_or hreceiving htracks with hstill | ⟨_, hbook⟩
        · exact ⟨other, after, hreplaces.becomes, hreplaces.listing.trans hlisting, hstill⟩
        · rw [← hlisting, hbook, Book.last?_retire_self] at hlast
          exact absurd rfl hlast
      · exact ⟨other, found, (hreplaces.others other heq).trans hfound, hlisting, htracks⟩

/-- The watchers, the desk and the book are in order, and last prices are kept up to date. -/
theorem run (h : session.Posted) (htidy : session.Tidy) {moves : List Move}
    (hopen : (session.run moves).IsOpen) : (session.run moves).Posted := by
  have hall := holds_along (P := fun session => session.Tidy ∧ session.Posted)
    (fun {before next actor} h hstep hopen => by
      refine ⟨h.1.of_step hstep hopen, ?_⟩
      cases actor with
      | desk => exact h.2.of_deskTurn h.1.sound.staffed (deskTurn_of_deskStep hstep) hopen
      | watcher id => exact h.2.of_watcherStep hstep hopen)
    (fun h hsame => ⟨h.1.of_undisturbed hsame, h.2.of_undisturbed hsame⟩) ⟨htidy, h⟩ hopen
  exact hall.2

/-- A listing whose watcher awaits its first quote has no last price. -/
theorem last?_of_awaitsQuote (h : session.Posted) (hstaffed : session.Staffed)
    (hwatcher : session.watchers[id]? = some watcher)
    (hawaits : watcher.phase.awaitsQuote = true) : session.book.last? watcher.listing = none := by
  by_contra hlast
  obtain ⟨hnot, _, hrunning⟩ := Watcher.Phase.of_awaitsQuote hawaits
  obtain ⟨other, found, hfound, hlisting, htracks⟩ := h.attended watcher.listing hlast
  have heq := hstaffed.eq_of_listing hfound hwatcher
    (Watcher.Phase.not_retiring_of_tracks htracks).2 hrunning hlisting
  rw [heq, hwatcher] at hfound
  cases hfound
  rw [hnot] at htracks
  cases htracks

/-- No order waits there. -/
theorem pending_of_awaitsQuote (h : session.Posted) (htidy : session.Tidy)
    (hwatcher : session.watchers[id]? = some watcher)
    (hawaits : watcher.phase.awaitsQuote = true) : session.book.pending watcher.listing = [] := by
  obtain ⟨roster, hroster⟩ := htidy.described
  have hlast := h.last?_of_awaitsQuote htidy.sound.staffed hwatcher hawaits
  rw [hroster.last_eq] at hlast
  refine List.eq_nil_iff_forall_not_mem.2 fun order horder => ?_
  exact hroster.live _ (hroster.mem_pending.1 horder) hlast

end Posted

end Session

end TriggerDesk
