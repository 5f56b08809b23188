import TriggerDesk.Proofs.Session.Charges
import TriggerDesk.Proofs.Session.Posts

/-!
# One watcher for each listing

Watchers are started, wait in vain, go live after the desk gave up on them, lose their feeds and
are replaced. Whatever happens, at most one watcher of a listing has not ended, and nobody else
changes the last price of the listing (`Session.manned_along`). This holds in every state of a
session, also after the client has left and when the session is over.

As long as the client can get events, a last price means more: that watcher is there and its first
quote has come. So the desk uses a feed that it finds live only where a watcher looks at the prices.
-/

namespace TriggerDesk

open Market TriggerDesk.Order Feed

/-- Whoever puts the events of orders that fired is not losing its feed. -/
theorem Watcher.isRetiring_fires (watcher : Watcher) (stream : StreamId) (prices : List Float)
    (events : List Event) : (watcher.fires stream prices events).phase.isRetiring = false := by
  cases events <;> rfl

/-- A watcher that drains looks at no prices. -/
theorem Watcher.tracks_drains (watcher : Watcher) (stream : StreamId) (events : List Event) :
    (watcher.drains stream events).phase.tracks = false := by
  cases events <;> rfl

namespace Session

variable {session next : Session} {id : WatcherId} {watcher after : Watcher} {listing : Listing}
  {actor : Actor} {move : Move}

/-! ## Turns of a watcher -/

/-- A turn of a watcher leaves the other listings alone, also when the client has left. -/
theorem Acts.lane_of_ne (h : Acts session next id watcher after)
    (hne : listing ≠ watcher.listing) :
    next.book.lane listing = session.book.lane listing := by
  cases h with
  | subscribe _ _ hbook | giveUp _ _ hbook | read _ _ _ hbook | skip _ _ _ _ _ hbook
  | fired _ _ _ _ _ _ hbook | drained _ _ _ _ _ hbook | leave _ _ hbook => rw [hbook]
  | goLive stream price _ _ hbook => rw [hbook, Book.lane_setLast, if_neg hne]
  | look stream price prices orders _ _ _ hevaluate =>
    have hlane := Book.lane_evaluate (session.book.setLast watcher.listing price)
      watcher.listing listing price
    rwa [hevaluate, if_neg hne, Book.lane_setLast, if_neg hne] at hlane
  | lose stream failure orders _ _ hretire =>
    have hlane := Book.lane_retire_of_ne session.book hne
    rwa [hretire] at hlane

/-- A watcher whose feed is live after its turn has a last price: it was live before, or sets
one. -/
theorem Acts.last?_of_tracks (h : Acts session next id watcher after)
    (hlive : watcher.phase.tracks = true → session.book.last? watcher.listing ≠ none)
    (htracks : after.phase.tracks = true) : next.book.last? watcher.listing ≠ none := by
  cases h with
  | subscribe | giveUp => cases htracks
  | goLive stream price _ _ hbook =>
    rw [hbook, Book.last?, Book.lane_setLast, if_pos rfl]
    exact Option.some_ne_none price
  | look stream price prices orders _ _ _ hevaluate =>
    have hlane := Book.lane_evaluate (session.book.setLast watcher.listing price)
      watcher.listing watcher.listing price
    rw [hevaluate, if_pos rfl, Book.lane_setLast, if_pos rfl] at hlane
    rw [Book.last?, hlane]
    exact Option.some_ne_none price
  | read _ _ hphase hbook | skip _ _ _ hphase _ hbook | fired _ _ _ _ hphase _ hbook =>
    rw [hbook]
    exact hlive (by rw [hphase]; rfl)
  | lose | drained =>
    rw [Watcher.tracks_drains] at htracks
    cases htracks
  | leave =>
    have hended := Watcher.isEnded_stop .clientLeft watcher
    rw [(Watcher.Phase.not_retiring_of_tracks htracks).2] at hended
    cases hended

/-- A watcher that has cancellations to put after its turn had some before, or loses its feed. -/
theorem Acts.losing_of_isRetiring (h : Acts session next id watcher after)
    (hretiring : after.phase.isRetiring = true) :
    next.book = session.book ∧ watcher.phase.isRetiring = true ∨
      watcher.phase.tracks = true ∧ next.book = (session.book.retire watcher.listing).2 := by
  cases h with
  | subscribe | giveUp | goLive | read | skip => cases hretiring
  | look | fired =>
    rw [Watcher.isRetiring_fires] at hretiring
    cases hretiring
  | lose stream failure orders hphase _ hretire =>
    exact .inr ⟨by rw [hphase]; rfl, by rw [hretire]⟩
  | drained stream event rest hphase _ hbook => exact .inl ⟨hbook, by rw [hphase]; rfl⟩
  | leave =>
    have hended := Watcher.isEnded_stop .clientLeft watcher
    rw [Watcher.Phase.not_ended_of_retiring hretiring] at hended
    cases hended

namespace Staffed

/-! ## Every turn -/

/-- Every turn of a watcher keeps watchers and listings together, also when the client has left. -/
theorem of_acts (h : session.Staffed) (hreplaces : session.Replaces next id watcher after)
    (hrunning : watcher.phase.isEnded = false) (hacts : Acts session next id watcher after) :
    next.Staffed := by
  refine h.of_replaces hreplaces hrunning (fun listing hne => hacts.lane_of_ne hne)
    (hacts.last?_of_tracks (h.live id watcher hreplaces.was)) (fun hretiring => ?_)
  rcases hacts.losing_of_isRetiring hretiring with ⟨hbook, hlosing⟩ | ⟨htracks, hbook⟩
  · rw [hbook]
    exact h.losing id watcher hreplaces.was hlosing
  · have hlane := Book.lane_retire_self session.book (h.live id watcher hreplaces.was htracks)
    rw [hbook, Book.last?, Book.isRetiring, hlane]
    exact ⟨rfl, rfl⟩

/-- Shutting a session down leaves which watcher belongs to which listing. -/
theorem spawned_shutDown (session : Session) : session.shutDown.spawned = session.spawned := by
  have hstopped : ∀ (ids : List WatcherId) (session : Session),
      (session.stopWatchers ids).spawned = session.spawned := by
    intro ids
    induction ids with
    | nil => exact fun _ => rfl
    | cons id rest ih =>
      intro session
      exact (ih _).trans (bystanders_endWatcher session id .aborted).spawned
  exact hstopped _ _

/-- Nobody runs when the session is over. -/
theorem shutDown (h : session.Staffed) : session.shutDown.Staffed := by
  have hcloses := closes_shutDown session
  -- Watchers that have ended keep their listings, and nothing is asked of them beyond that.
  have hended : ∀ {id : WatcherId} {watcher : Watcher},
      session.shutDown.watchers[id]? = some watcher → watcher.phase.isEnded = true := by
    intro id watcher hwatcher
    rw [hcloses.watchers, List.getElem?_map] at hwatcher
    obtain ⟨old, _, rfl⟩ := Option.map_eq_some_iff.1 hwatcher
    exact Watcher.isEnded_stop _ _
  exact {
    followed := by
      intro listing id hid
      rw [spawned_shutDown] at hid
      obtain ⟨watcher, hwatcher, hlisting⟩ := h.followed listing id hid
      refine ⟨watcher.stop .aborted, ?_, (Watcher.listing_stop _ _).trans hlisting⟩
      rw [hcloses.watchers, List.getElem?_map, hwatcher, Option.map_some]
    awaited := by
      intro placing id hdesk
      rw [hcloses.ended] at hdesk
      cases hdesk
    current := by
      intro id watcher hwatcher hrunning
      rw [hended hwatcher] at hrunning
      cases hrunning
    live := by
      intro id watcher hwatcher htracks
      have hrunning := (Watcher.Phase.not_retiring_of_tracks htracks).2
      rw [hended hwatcher] at hrunning
      cases hrunning
    losing := by
      intro id watcher hwatcher hretiring
      have hrunning := Watcher.Phase.not_ended_of_retiring hretiring
      rw [hended hwatcher] at hrunning
      cases hrunning }

/-- Every move keeps watchers and listings together. -/
theorem advance (h : session.Staffed) (move : Move) : (session.advance move).Staffed := by
  rcases advance_cases session move with ⟨actor, _, hstep⟩ | hsame
  · cases actor with
    | desk =>
      rcases charges_of_deskStep hstep with hcharges | hshut
      · exact h.of_deskTurn (deskTurn_of_deskStep hstep) hcharges.running
      · rw [hshut]
        exact h.shutDown
    | watcher id =>
      obtain ⟨watcher, after, hreplaces, _⟩ := watcherTurn_of_watcherStep hstep
      obtain ⟨acted, hacted, hacts⟩ := acts_of_watcherStep hreplaces.was hstep
      rw [hreplaces.becomes] at hacted
      cases hacted
      exact h.of_acts hreplaces (running_of_watcherStep hreplaces.was hstep) hacts
  · exact h.of_undisturbed hsame

/-- A run keeps watchers and listings together. -/
theorem run (h : session.Staffed) (moves : List Move) : (session.run moves).Staffed := by
  induction moves generalizing session with
  | nil => exact h
  | cons move rest ih => exact ih (h.advance move)

end Staffed

/-! ## Who changes a last price -/

/-- A last price changes only in a turn of a watcher of the listing. -/
theorem turn_of_last?_ne
    (h : (session.advance move).book.last? listing ≠ session.book.last? listing) :
    ∃ (id : WatcherId) (watcher : Watcher), move = .turn (.watcher id) ∧
      session.watchers[id]? = some watcher ∧ watcher.listing = listing ∧
      watcher.phase.isEnded = false := by
  rcases advance_cases session move with ⟨actor, rfl, hstep⟩ | hsame
  · cases actor with
    | desk =>
      -- The desk may put orders into the book and take them out, and that is all.
      refine absurd ?_ h
      rcases charges_of_deskStep hstep with hcharges | hshut
      · exact ((deskTurn_of_deskStep hstep).sameFeeds hcharges.running listing).1
      · rw [hshut, (closes_shutDown session).book]
    | watcher id =>
      obtain ⟨watcher, after, hreplaces, _⟩ := watcherTurn_of_watcherStep hstep
      obtain ⟨acted, _, hacts⟩ := acts_of_watcherStep hreplaces.was hstep
      refine ⟨id, watcher, rfl, hreplaces.was, ?_, running_of_watcherStep hreplaces.was hstep⟩
      by_contra hne
      exact h (congrArg Lane.last (hacts.lane_of_ne (Ne.symm hne)))
  · exact absurd (by rw [hsame.book]) h

/-! ## Every session -/

/-- What holds of the watchers and last prices of a session. -/
structure Manned (session : Session) : Prop where
  /-- A listing has at most one watcher that has not ended. -/
  alone : ∀ (id other : WatcherId) (watcher found : Watcher),
    session.watchers[id]? = some watcher → session.watchers[other]? = some found →
    watcher.listing = found.listing →
    watcher.phase.isEnded = false → found.phase.isEnded = false → id = other
  /-- It is the one started last for the listing, or the desk awaits its end. -/
  known : ∀ (id : WatcherId) (watcher : Watcher), session.watchers[id]? = some watcher →
    watcher.phase.isEnded = false →
    session.spawned.get? watcher.listing = some id ∨
      ∃ placing, session.desk = .awaitEnd placing id
  /-- Whatever comes next, only a turn of that watcher changes the last price of the listing. -/
  writer : ∀ (move : Move) (listing : Listing),
    (session.advance move).book.last? listing ≠ session.book.last? listing →
    ∃ (id : WatcherId) (watcher : Watcher), move = .turn (.watcher id) ∧
      session.watchers[id]? = some watcher ∧ watcher.listing = listing ∧
      watcher.phase.isEnded = false
  /-- A watcher whose first quote has come, and that did not lose its feed since, has a last
  price. -/
  shown : ∀ (id : WatcherId) (watcher : Watcher), session.watchers[id]? = some watcher →
    watcher.phase.tracks = true → session.book.last? watcher.listing ≠ none
  /-- While the client can get events, a listing with a last price has such a watcher. A session
  that is over puts no events any more, as one that the client has left. -/
  attended : session.IsOpen → ∀ listing, session.book.last? listing ≠ none →
    ∃ (id : WatcherId) (watcher : Watcher), session.watchers[id]? = some watcher ∧
      watcher.listing = listing ∧ watcher.phase.tracks = true
  /-- So there is one wherever orders wait, also those placed on a feed that was found live. -/
  evaluated : session.IsOpen → ∀ listing, session.book.pending listing ≠ [] →
    ∃ (id : WatcherId) (watcher : Watcher), session.watchers[id]? = some watcher ∧
      watcher.listing = listing ∧ watcher.phase.tracks = true

/-- Where orders wait, the feed is live. -/
theorem Tidy.last?_of_pending (h : session.Tidy) (hpending : session.book.pending listing ≠ []) :
    session.book.last? listing ≠ none := by
  obtain ⟨roster, hroster⟩ := h.described
  obtain ⟨order, horder⟩ := List.exists_mem_of_ne_nil _ hpending
  rw [hroster.last_eq]
  exact hroster.live _ (hroster.mem_pending.1 horder)

/-- In every state that a session can come to, a listing has at most one watcher, only that one
changes the last price, and a last price in an open session is kept up to date. -/
theorem manned_along (source : Source) (limit : Option Nat) (inboxCapacity outboxCapacity : Nat)
    (moves : List Move) : ((start source limit inboxCapacity outboxCapacity).run moves).Manned := by
  let session := (start source limit inboxCapacity outboxCapacity).run moves
  have hstaffed : session.Staffed := (staffed_start _ _ _ _).run moves
  have hattended : session.IsOpen → ∀ listing, session.book.last? listing ≠ none →
      ∃ (id : WatcherId) (watcher : Watcher), session.watchers[id]? = some watcher ∧
        watcher.listing = listing ∧ watcher.phase.tracks = true :=
    fun hopen => ((posted_start _ _ _ _).run (tidy_start _ _ _ _) hopen).attended
  exact {
    alone := fun id other watcher found hwatcher hfound hlisting hrunning hrunning' =>
      hstaffed.eq_of_listing hwatcher hfound hrunning hrunning' hlisting
    known := by
      intro id watcher hwatcher hrunning
      rcases hstaffed.current id watcher hwatcher hrunning with hspawned | hawaited
      · exact .inl hspawned
      · exact .inr (awaited?_eq_some hawaited)
    writer := fun move listing => turn_of_last?_ne
    shown := hstaffed.live
    attended := hattended
    evaluated := by
      intro hopen listing hpending
      have htidy : session.Tidy := holds_along Tidy.of_step Tidy.of_undisturbed
        (tidy_start _ _ _ _) hopen
      exact hattended hopen listing (htidy.last?_of_pending hpending) }

end Session

end TriggerDesk
