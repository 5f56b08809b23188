import Mathlib.Algebra.GroupWithZero.Nat
import Mathlib.Algebra.Ring.Int.Defs
import Mathlib.Data.List.Induction
import TriggerDesk.Proofs.Book.Entries
import TriggerDesk.Proofs.Session.Charges
import TriggerDesk.Proofs.Session.Staff

/-!
# What the meter of pending orders reads

The sessions of a daemon move one meter together. An order counts as pending from its
acknowledgement on. When a watcher takes several orders out of the book, it counts each of them
off only when it announces the event of that order, one after the other. A watcher that comes to
an end in between gives up the rest: they are out of the book, and nobody counts them off.

`gauge_along` says what the meter reads after any run of any number of sessions: the orders in
the books of the sessions that are not over, those that watchers are about to announce, and those
that watchers have given up. No order is given up while a session is open.
`gauge_of_forfeited` is a run in which a session that is over still counts.
-/

namespace TriggerDesk

open Market TriggerDesk.Order Feed

/-! ## Orders that are not counted off yet -/

/-- How many orders of a watcher are out of the book and still count as pending. -/
def Watcher.uncounted (watcher : Watcher) : Nat := watcher.held.tail.length

/-- How many orders that still count a watcher gives up by coming to an end. -/
def Watcher.forfeits (before after : Watcher) : Nat :=
  if after.phase.isEnded then before.uncounted else 0

namespace Watcher

variable {watcher : Watcher} {ending : Ending}

/-- A watcher that holds nothing has counted everything off. -/
theorem uncounted_of_held (h : watcher.held = []) : watcher.uncounted = 0 := by
  rw [uncounted, h]
  rfl

/-- A watcher that has ended has counted everything off. -/
theorem uncounted_of_ended (h : watcher.phase.isEnded = true) : watcher.uncounted = 0 :=
  uncounted_of_held (held_of_ended h)

/-- A watcher that is stopped has counted everything off. -/
theorem uncounted_stop (watcher : Watcher) : (watcher.stop ending).uncounted = 0 :=
  uncounted_of_ended (isEnded_stop ending watcher)

/-- A watcher that stays as it is gives nothing up. -/
theorem forfeits_self (watcher : Watcher) : watcher.forfeits watcher = 0 := by
  unfold forfeits
  split
  · next hended => exact uncounted_of_ended hended
  · rfl

/-- A watcher that is stopped gives up what it has not counted off. -/
theorem forfeits_stop (watcher : Watcher) :
    watcher.forfeits (watcher.stop ending) = watcher.uncounted :=
  if_pos (isEnded_stop ending watcher)

/-- The event of one order is announced, the others still count. -/
theorem uncounted_fires (watcher : Watcher) (stream : StreamId) (prices : List Float)
    (events : List Event) :
    ((watcher.fires stream prices events).uncounted : Int) = events.length - announced events := by
  cases events with
  | nil => rfl
  | cons event rest =>
    show (rest.length : Int) = (rest.length + 1 : Nat) - 1
    omega

/-- A watcher that drains has yet to count off all but the order that it announced. -/
theorem uncounted_drains (watcher : Watcher) (stream : StreamId) (events : List Event) :
    ((watcher.drains stream events).uncounted : Int) = events.length - announced events := by
  cases events with
  | nil => rfl
  | cons event rest =>
    show (rest.length : Int) = (rest.length + 1 : Nat) - 1
    omega

/-- A watcher whose orders fired gives nothing up. -/
theorem forfeits_fires (watcher : Watcher) (stream : StreamId) (prices : List Float)
    (events : List Event) : watcher.forfeits (watcher.fires stream prices events) = 0 := by
  cases events <;> rfl

/-- Who ends when there is nothing left to put has given up nothing. -/
theorem forfeits_drains (stream : StreamId) {events : List Event}
    (h : events = [] → watcher.uncounted = 0) :
    watcher.forfeits (watcher.drains stream events) = 0 := by
  cases events with
  | nil => exact h rfl
  | cons event rest => rfl

/-! ### Several watchers -/

/-- How many orders of some watchers are out of the book and still count as pending. -/
def uncountedIn (watchers : List Watcher) : Nat := (watchers.map uncounted).sum

/-- How many orders that still count some watchers give up by coming to an end. Watchers that are
new have none. -/
def forfeitsIn (before after : List Watcher) : Nat := (List.zipWith forfeits before after).sum

/-- What some watchers and some more have not counted off. -/
theorem uncountedIn_append (watchers more : List Watcher) :
    uncountedIn (watchers ++ more) = uncountedIn watchers + uncountedIn more := by
  rw [uncountedIn, List.map_append, List.sum_append]
  rfl

/-- A watcher that changes changes the number by what it has not counted off, before and after. -/
theorem uncountedIn_set {watchers : List Watcher} {id : WatcherId}
    (h : watchers[id]? = some watcher) (after : Watcher) :
    uncountedIn (watchers.set id after) + watcher.uncounted =
      uncountedIn watchers + after.uncounted := by
  induction watchers generalizing id with
  | nil => cases h
  | cons first rest ih =>
    simp only [uncountedIn] at ih ⊢
    cases id with
    | zero =>
      cases h
      simp only [List.set_cons_zero, List.map_cons, List.sum_cons]
      omega
    | succ id =>
      have hrest := ih h
      simp only [List.set_cons_succ, List.map_cons, List.sum_cons]
      omega

/-- If every watcher has counted everything off, so have all. -/
theorem uncountedIn_eq_zero {watchers : List Watcher}
    (h : ∀ watcher ∈ watchers, watcher.uncounted = 0) : uncountedIn watchers = 0 := by
  induction watchers with
  | nil => rfl
  | cons first rest ih =>
    have hrest := ih fun watcher hwatcher => h watcher (List.mem_cons_of_mem _ hwatcher)
    simp only [uncountedIn, List.map_cons, List.sum_cons] at hrest ⊢
    rw [hrest, h first List.mem_cons_self]

/-- Watchers that stay as they are give nothing up. -/
theorem forfeitsIn_self (watchers : List Watcher) : forfeitsIn watchers watchers = 0 := by
  induction watchers with
  | nil => rfl
  | cons first rest ih =>
    simp only [forfeitsIn, List.zipWith_cons_cons, List.sum_cons, forfeits_self] at ih ⊢
    omega

/-- Watchers that are new give nothing up. -/
theorem forfeitsIn_append {before after : List Watcher} (h : before.length ≤ after.length)
    (more : List Watcher) : forfeitsIn before (after ++ more) = forfeitsIn before after := by
  induction before generalizing after with
  | nil => rfl
  | cons first rest ih =>
    cases after with
    | nil => cases h
    | cons second others =>
      simp only [forfeitsIn, List.cons_append, List.zipWith_cons_cons, List.sum_cons] at ih ⊢
      rw [ih (Nat.le_of_succ_le_succ h)]

/-- If one watcher changes, only that one gives anything up. -/
theorem forfeitsIn_set {watchers : List Watcher} {id : WatcherId}
    (h : watchers[id]? = some watcher) (after : Watcher) :
    forfeitsIn watchers (watchers.set id after) = watcher.forfeits after := by
  induction watchers generalizing id with
  | nil => cases h
  | cons first rest ih =>
    cases id with
    | zero =>
      cases h
      have hself := forfeitsIn_self rest
      simp only [forfeitsIn, List.set_cons_zero, List.zipWith_cons_cons, List.sum_cons] at hself ⊢
      omega
    | succ id =>
      have hrest := ih h
      simp only [forfeitsIn, List.set_cons_succ, List.zipWith_cons_cons, List.sum_cons,
        forfeits_self] at hrest ⊢
      omega

/-- Whoever is stopped gives up all that still counts. -/
theorem forfeitsIn_map_stop (watchers : List Watcher) :
    forfeitsIn watchers (watchers.map (stop ending)) = uncountedIn watchers := by
  induction watchers with
  | nil => rfl
  | cons first rest ih =>
    simp only [forfeitsIn, uncountedIn, List.map_cons, List.zipWith_cons_cons, List.sum_cons,
      forfeits_stop] at ih ⊢
    omega

end Watcher

/-! ## The number of orders in the book -/

namespace Roster.Describes

variable {roster : Roster} {book next : Book} {listing : Listing} {orders : List Pending}

/-- Orders that are taken out by a test are no longer in the book. -/
theorem size_of_take (h : roster.Describes book) {later : Roster} (hlater : later.Describes next)
    {test : Listing × Pending → Bool} (horders : orders = (roster.entries.filter test).map (·.2))
    (hentries : later.entries = roster.entries.filter fun entry => !test entry) :
    next.size + orders.length = book.size := by
  rw [h.size_eq, hlater.size_eq, horders, hentries, List.length_map, Nat.add_comm]
  exact (List.length_eq_length_filter_add test).symm

/-- A price takes as many orders out of the book as fire. -/
theorem after_price (h : roster.Describes book) {price : Float}
    (hevaluate : (book.setLast listing price).evaluate listing price = (orders, next)) :
    (∃ later : Roster, later.Describes next) ∧ next.size + orders.length = book.size := by
  have hset := h.setLast listing price
  obtain ⟨horders, later, hlater, hentries⟩ := hset.of_evaluate hevaluate
  exact ⟨⟨later, hlater⟩, hset.size_of_take hlater horders hentries⟩

/-- The loss of a feed takes out as many orders as waited there. -/
theorem after_loss (h : roster.Describes book) (hretire : book.retire listing = (orders, next)) :
    (∃ later : Roster, later.Describes next) ∧ next.size + orders.length = book.size := by
  cases hknown : roster.known listing with
  | false =>
    rw [h.retire_of_not_known hknown] at hretire
    cases hretire
    exact ⟨⟨roster, h⟩, rfl⟩
  | true =>
    obtain ⟨hresult, hnext⟩ := h.retire hknown
    rw [hretire] at hresult hnext
    refine ⟨⟨_, hnext⟩, h.size_of_take hnext hresult ?_⟩
    simp only [Roster.retire, ne_eq, decide_not]

end Roster.Describes

namespace Session

variable {session next : Session} {id : WatcherId} {watcher after : Watcher}

/-- The book of a session is well-formed, and a number of orders has come into it. -/
structure Grows (session next : Session) (n : Int) : Prop where
  described : ∃ roster : Roster, roster.Describes next.book
  size : (next.book.size : Int) = session.book.size + n

/-- If the book is as it was, nothing has come into it. -/
theorem grows_zero {roster : Roster} (h : roster.Describes session.book)
    (hbook : next.book = session.book) : Grows session next 0 :=
  ⟨⟨roster, hbook ▸ h⟩, by rw [hbook, Int.add_zero]⟩

/-- What the desk does to the book is what it does to the meter. -/
theorem DeskTurn.grows {deed : Deed} (h : session.DeskTurn next deed) {roster : Roster}
    (hroster : roster.Describes session.book) (hrunning : next.desk ≠ .ended) :
    Grows session next deed.charge := by
  have hstill : session.Still next → Grows session next 0 := fun hstill => by
    obtain ⟨later, hlater, _⟩ := hroster.of_alike hstill.lane hstill.index
    exact ⟨⟨later, hlater⟩, by rw [Book.size, hstill.index, Int.add_zero]; rfl⟩
  cases h with
  | refuse _ _ hsame | arm _ _ hsame | await _ _ hsame | start _ _ hsame | restart _ _ _ _ hsame
  | prepare _ hsame => exact hstill hsame
  | cancel command order _ _ _ _ _ hremove =>
    obtain ⟨listing, hmem, hoid, later, hlater, hentries⟩ := hroster.of_remove hremove
    refine ⟨⟨later, hlater⟩, ?_⟩
    have hlength := (hroster.perm_without hmem hoid).length_eq
    rw [List.length_append, ← hentries] at hlength
    rw [hlater.size_eq, hroster.size_eq, hlength]
    show (later.entries.length : Int) = (later.entries.length + 1 : Nat) + -1
    omega
  | place placing last order _ _ _ _ _ hinsert =>
    obtain ⟨_, later, hlater, hentries⟩ := hroster.of_insert hinsert
    refine ⟨⟨later, hlater⟩, ?_⟩
    rw [hlater.size_eq, hroster.size_eq, hentries, List.length_append]
    rfl
  | move command moved _ _ _ _ hmodify hbook =>
    obtain ⟨listing, old, _, hmem, hoid, _, _, later, hlater, hentries⟩ :=
      hroster.of_modify hmodify
    -- The order that moves is taken out and put back, so the book has as many as before.
    rw [← hbook] at hlater
    refine ⟨⟨later, hlater⟩, ?_⟩
    have hlength := (hroster.perm_without hmem hoid).length_eq
    rw [hlater.size_eq, hroster.size_eq, hlength, hentries, List.length_append,
      List.length_append]
    exact (Int.add_zero _).symm
  | deliver _ _ _ _ _ hbook => exact grows_zero hroster hbook
  | shutDown _ _ _ hdesk => exact absurd hdesk hrunning

/-! ## Turns -/

/-- How many orders of a session are out of the book and still count as pending. -/
def uncounted (session : Session) : Nat := Watcher.uncountedIn session.watchers

/-- How many orders that still count are given up between two states of a session. -/
def forfeits (session next : Session) : Nat :=
  Watcher.forfeitsIn session.watchers next.watchers

/-- How many orders wait in the book of a session that is not over. -/
def waiting (session : Session) : Nat := if session.isEnded then 0 else session.book.size

/-- The orders of a session that is not over are those in its book. -/
theorem waiting_of_running (h : session.desk ≠ .ended) : session.waiting = session.book.size := by
  unfold waiting isEnded
  cases hdesk : session.desk with
  | ended => exact absurd hdesk h
  | idle | awaitEnd | awaitQuote | awaitPlace | awaitMove | answering => rfl

/-- A session that is over has none. -/
theorem waiting_of_ended (h : session.desk = .ended) : session.waiting = 0 := by
  unfold waiting isEnded
  rw [h]
  rfl

/-- What a watcher does to the book, to the meter and to what it has not counted off. -/
structure Acts.Balances (session next : Session) (watcher after : Watcher) : Prop where
  described : ∃ roster : Roster, roster.Describes next.book
  balance : next.pendingCount + session.book.size + watcher.uncounted =
    session.pendingCount + next.book.size + after.uncounted + watcher.forfeits after
  /-- Nothing is given up while the client is there. -/
  kept : session.outbox.receiving = true → watcher.forfeits after = 0

/-- Orders that a watcher takes out of the book it counts off, has yet to count off, or gives up. -/
theorem Acts.balances (h : Acts session next id watcher after) {roster : Roster}
    (hroster : roster.Describes session.book) : Acts.Balances session next watcher after := by
  have hnone : ∀ {phase : Watcher.Phase}, watcher.phase = phase →
      Watcher.held { watcher with phase } = [] → watcher.uncounted = 0 := by
    rintro _ rfl hheld
    exact Watcher.uncounted_of_held hheld
  -- The turn gives up nothing, and moves book and meter as the orders move.
  have hkept : (∃ later : Roster, later.Describes next.book) → watcher.forfeits after = 0 →
      next.pendingCount + session.book.size + watcher.uncounted =
        session.pendingCount + next.book.size + after.uncounted →
      Acts.Balances session next watcher after := fun hdescribed hforfeits hbalance =>
    ⟨hdescribed, by rw [hforfeits, hbalance]; exact (Int.add_zero _).symm, fun _ => hforfeits⟩
  -- A watcher that holds nothing before and after leaves book and meter alone.
  have hquiet : watcher.uncounted = 0 → after.uncounted = 0 → next.book = session.book →
      next.pendingCount = session.pendingCount → Acts.Balances session next watcher after := by
    intro hbefore hafter hbook hcount
    refine hkept ⟨roster, hbook ▸ hroster⟩ ?_ (by rw [hbook, hbefore, hafter, hcount])
    unfold Watcher.forfeits
    split
    · exact hbefore
    · rfl
  cases h with
  | subscribe _ hphase hbook hcount => exact hquiet (hnone hphase rfl) rfl hbook hcount
  | read _ _ hphase hbook hcount => exact hquiet (hnone hphase rfl) rfl hbook hcount
  | skip _ _ _ hphase _ hbook hcount => exact hquiet (hnone hphase rfl) rfl hbook hcount
  | giveUp _ hphase hbook hcount =>
    refine hquiet ?_ rfl hbook hcount
    rcases hphase with hphase | ⟨_, hphase⟩ <;> exact hnone hphase rfl
  | goLive _ price hphase _ hbook hcount =>
    have hsize : next.book.size = session.book.size := by rw [hbook]; rfl
    refine hkept ⟨_, hbook ▸ hroster.setLast watcher.listing price⟩ rfl ?_
    rw [hcount, hsize, hnone hphase rfl]
    rfl
  | look stream price prices orders hphase _ _ hevaluate hcount =>
    obtain ⟨hdescribed, hsize⟩ := hroster.after_price hevaluate
    have huncounted := Watcher.uncounted_fires watcher.looked stream prices
      (firedEvents orders watcher.index price)
    have hlength : (firedEvents orders watcher.index price).length = orders.length :=
      List.length_map _
    have hbefore := hnone hphase rfl
    refine hkept hdescribed ?_ (by omega)
    unfold Watcher.forfeits
    rw [hbefore, ite_self]
  | lose stream failure orders hphase _ hretire hcount =>
    obtain ⟨hdescribed, hsize⟩ := hroster.after_loss hretire
    have huncounted := Watcher.uncounted_drains watcher stream
      (drainedEvents orders failure.reason)
    have hlength : (drainedEvents orders failure.reason).length = orders.length :=
      List.length_map _
    have hbefore := hnone hphase rfl
    exact hkept hdescribed (Watcher.forfeits_drains stream fun _ => hbefore) (by omega)
  | fired stream event rest prices hphase _ hbook hcount =>
    have huncounted := Watcher.uncounted_fires watcher stream prices rest
    have hbefore : watcher.uncounted = rest.length := by
      rw [Watcher.uncounted, Watcher.held, hphase]
      rfl
    exact hkept ⟨roster, hbook ▸ hroster⟩ (Watcher.forfeits_fires _ _ _ _)
      (by rw [hbook]; omega)
  | drained stream event rest hphase _ hbook hcount =>
    have huncounted := Watcher.uncounted_drains watcher stream rest
    have hbefore : watcher.uncounted = rest.length := by
      rw [Watcher.uncounted, Watcher.held, hphase]
      rfl
    refine hkept ⟨roster, hbook ▸ hroster⟩ (Watcher.forfeits_drains stream fun hnil => ?_)
      (by rw [hbook]; omega)
    rw [hbefore, hnil]
    rfl
  | leave hleft _ hbook hcount =>
    -- Whatever the watcher has not counted off is given up.
    refine ⟨⟨roster, hbook ▸ hroster⟩, ?_, fun hreceiving => ?_⟩
    · rw [Watcher.forfeits_stop, Watcher.uncounted_stop, hbook, hcount]
      omega
    · rw [hreceiving] at hleft
      cases hleft

/-- What a turn does to the orders and to the meter of a session. -/
structure Balances (session next : Session) : Prop where
  described : ∃ roster : Roster, roster.Describes next.book
  closed : next.desk = .ended → ∀ watcher ∈ next.watchers, watcher.phase.isEnded = true
  balance : next.pendingCount + session.waiting + session.uncounted =
    session.pendingCount + next.waiting + next.uncounted + session.forfeits next

/-- A turn of a watcher balances, and gives nothing up while the session is open. -/
theorem balances_of_watcherStep (h : step (.watcher id) session = some next) {roster : Roster}
    (hroster : roster.Describes session.book)
    (hover : session.desk = .ended → ∀ watcher ∈ session.watchers, watcher.phase.isEnded = true) :
    Balances session next ∧ (next.IsOpen → session.forfeits next = 0) := by
  obtain ⟨watcher, after, hreplaces, _⟩ := watcherTurn_of_watcherStep h
  obtain ⟨acted, hacted, hacts⟩ := acts_of_watcherStep hreplaces.was h
  rw [hreplaces.becomes] at hacted
  cases hacted
  have hrunning : session.desk ≠ .ended := fun hended => by
    have hdone := hover hended watcher (List.mem_of_getElem? hreplaces.was)
    rw [step, watcherStep_of_ended hreplaces.was hdone] at h
    cases h
  have hbalances := hacts.balances hroster
  have hset := Watcher.uncountedIn_set hreplaces.was after
  have hgiven : session.forfeits next = watcher.forfeits after := by
    rw [forfeits, hreplaces.watchers_eq, Watcher.forfeitsIn_set hreplaces.was]
  rw [← hreplaces.watchers_eq] at hset
  have hnext : next.desk ≠ .ended := hreplaces.desk ▸ hrunning
  refine ⟨⟨hbalances.described, fun hended => absurd hended hnext, ?_⟩, fun hopen => ?_⟩
  · have hbalance := hbalances.balance
    rw [waiting_of_running hrunning, waiting_of_running hnext, hgiven]
    simp only [uncounted]
    omega
  · rw [hgiven]
    exact hbalances.kept (hreplaces.receiving.symm.trans hopen.receiving)

/-- As many watchers are kept as there are. -/
theorem Keeps.length_eq {kept : List Watcher} (h : session.Keeps kept) :
    kept.length = session.watchers.length := by
  cases h with
  | all => rfl
  | butOne => exact List.length_set

/-- What some watchers have not counted off is given up where they are stopped. -/
theorem Keeps.uncounted_eq {kept : List Watcher} (h : session.Keeps kept) :
    session.uncounted = Watcher.uncountedIn kept + Watcher.forfeitsIn session.watchers kept := by
  cases h with
  | all =>
    rw [Watcher.forfeitsIn_self]
    rfl
  | butOne listing id watcher _ hfound =>
    have hset := Watcher.uncountedIn_set hfound (watcher.stop .aborted)
    rw [Watcher.uncounted_stop] at hset
    rw [Watcher.forfeitsIn_set hfound, Watcher.forfeits_stop]
    exact hset.symm

/-- Where watchers are kept, nothing is given up. -/
theorem Keeps.forfeitsIn_eq_zero {kept : List Watcher} (h : session.Keeps kept)
    (hstaffed : session.Staffed) : Watcher.forfeitsIn session.watchers kept = 0 := by
  cases h with
  | all => exact Watcher.forfeitsIn_self _
  | butOne listing id watcher hid hfound hlast hretiring =>
    obtain ⟨followed, hfollowed, hlisting⟩ := hstaffed.followed listing id hid
    rw [hfound] at hfollowed
    cases hfollowed
    rw [← hlisting] at hlast hretiring
    rw [Watcher.forfeitsIn_set hfound, Watcher.forfeits_stop]
    exact Watcher.uncounted_of_held (hstaffed.held_of_stopped hfound hlast hretiring)

/-- The desk leaves what watchers have not counted off as it is, except that a watcher that is
stopped gives it up; and in an open session none is given up. -/
theorem DeskTurn.uncounted_eq {deed : Deed} (h : session.DeskTurn next deed)
    (hrunning : next.desk ≠ .ended) :
    session.uncounted = next.uncounted + session.forfeits next ∧
      (session.Staffed → session.forfeits next = 0) := by
  obtain ⟨kept, more, hkept, hwatchers, hnew⟩ := h.keeps hrunning
  have hmore : Watcher.uncountedIn more = 0 := by
    refine Watcher.uncountedIn_eq_zero fun watcher hwatcher => ?_
    rw [hnew watcher hwatcher]
    rfl
  rw [forfeits, hwatchers, Watcher.forfeitsIn_append (Nat.le_of_eq hkept.length_eq.symm)]
  refine ⟨?_, hkept.forfeitsIn_eq_zero⟩
  rw [hkept.uncounted_eq, uncounted, hwatchers, Watcher.uncountedIn_append, hmore]
  rfl

/-- A turn of the desk balances, and gives nothing up while the session is open. -/
theorem balances_of_deskStep (h : session.deskStep = some next) {roster : Roster}
    (hroster : roster.Describes session.book) :
    Balances session next ∧
      (session.Staffed → next.IsOpen → session.forfeits next = 0) := by
  have hbefore : session.desk ≠ .ended := fun hended => by
    rw [deskStep_of_ended hended] at h
    cases h
  rcases charges_of_deskStep h with hcharges | rfl
  · have hturn := deskTurn_of_deskStep h
    have hgrows := hturn.grows hroster hcharges.running
    obtain ⟨huncounted, hkept⟩ := hturn.uncounted_eq hcharges.running
    refine ⟨⟨hgrows.described, fun hended => absurd hended hcharges.running, ?_⟩,
      fun hstaffed _ => hkept hstaffed⟩
    have hcounted := hcharges.counted
    have hsize := hgrows.size
    rw [waiting_of_running hbefore, waiting_of_running hcharges.running]
    omega
  · -- All orders in the book are counted off, and what the watchers have not is given up.
    have hcloses := closes_shutDown session
    have hended : ∀ watcher ∈ session.shutDown.watchers, watcher.phase.isEnded = true := by
      rw [hcloses.watchers]
      intro watcher hwatcher
      obtain ⟨old, _, rfl⟩ := List.mem_map.1 hwatcher
      exact Watcher.isEnded_stop _ _
    have hgiven : session.forfeits session.shutDown = session.uncounted := by
      rw [forfeits, hcloses.watchers, Watcher.forfeitsIn_map_stop]
      rfl
    refine ⟨⟨⟨roster, hcloses.book ▸ hroster⟩, fun _ => hended, ?_⟩,
      fun _ hopen => absurd hcloses.ended hopen.running⟩
    have hnone : session.shutDown.uncounted = 0 :=
      Watcher.uncountedIn_eq_zero fun watcher hwatcher =>
        Watcher.uncounted_of_ended (hended watcher hwatcher)
    have hcounted := hcloses.counted
    rw [waiting_of_running hbefore, waiting_of_ended hcloses.ended, hgiven, hnone]
    omega

end Session

/-! ## Several sessions -/

/-- A session, and how many orders its watchers have given up. -/
structure Tally where
  session : Session
  forfeited : Nat
  deriving DecidableEq, Repr

namespace Tally

open Session (Move)

/-- A session that has just been opened. -/
def start (source : Source) (limit : Option Nat) (inboxCapacity outboxCapacity : Nat) : Tally :=
  { session := .start source limit inboxCapacity outboxCapacity, forfeited := 0 }

def advance (tally : Tally) (move : Move) : Tally :=
  { session := tally.session.advance move
    forfeited := tally.forfeited + tally.session.forfeits (tally.session.advance move) }

/-- What happens among several sessions: one more is opened, or something happens to one. -/
inductive Happening where
  | opening (source : Source) (limit : Option Nat) (inboxCapacity outboxCapacity : Nat)
  | move (i : Nat) (move : Move)

def follow (tallies : List Tally) : Happening → List Tally
  | .opening source limit inboxCapacity outboxCapacity =>
    tallies ++ [start source limit inboxCapacity outboxCapacity]
  | .move i move => tallies.modify i (·.advance move)

/-- The sessions that there are after some happenings. -/
def run (happenings : List Happening) : List Tally := happenings.foldl follow []

/-- What the meter of pending orders reads, which all sessions move. -/
def gauge (tallies : List Tally) : Int := (tallies.map (·.session.pendingCount)).sum

/-- The orders in the books of the sessions that are not over. -/
def waiting (tallies : List Tally) : Nat := (tallies.map (·.session.waiting)).sum

/-- The orders that watchers took out of the books and are about to announce. -/
def uncounted (tallies : List Tally) : Nat := (tallies.map (·.session.uncounted)).sum

/-- The orders that watchers took out of the books and gave up. -/
def given (tallies : List Tally) : Nat := (tallies.map (·.forfeited)).sum

/-! ### What holds of each session -/

/-- What the meter reads of a session, and what holds besides. -/
structure Balanced (tally : Tally) : Prop where
  described : ∃ roster : Roster, roster.Describes tally.session.book
  closed : tally.session.desk = .ended →
    ∀ watcher ∈ tally.session.watchers, watcher.phase.isEnded = true
  opened : tally.session.IsOpen → tally.session.Staffed ∧ tally.forfeited = 0
  balance : tally.session.pendingCount =
    tally.session.waiting + tally.session.uncounted + tally.forfeited

/-- A session that has just been opened is balanced. -/
theorem balanced_start (source : Source) (limit : Option Nat)
    (inboxCapacity outboxCapacity : Nat) :
    (start source limit inboxCapacity outboxCapacity).Balanced where
  described := ⟨.empty, Roster.describes_empty⟩
  closed h := nomatch h
  opened _ := ⟨Session.staffed_start _ _ _ _, rfl⟩
  balance := rfl

/-- A turn keeps the balance, with what is given up in it. -/
theorem Balanced.of_step {tally : Tally} (h : tally.Balanced) {actor : Session.Actor}
    {next : Session} (hstep : Session.step actor tally.session = some next) :
    Balanced { session := next
               forfeited := tally.forfeited + tally.session.forfeits next } := by
  obtain ⟨roster, hroster⟩ := h.described
  obtain ⟨hbalances, hkept⟩ : Session.Balances tally.session next ∧
      (tally.session.Staffed → next.IsOpen → tally.session.forfeits next = 0) := by
    cases actor with
    | desk => exact Session.balances_of_deskStep hstep hroster
    | watcher id =>
      obtain ⟨hbalances, hkept⟩ := Session.balances_of_watcherStep hstep hroster h.closed
      exact ⟨hbalances, fun _ => hkept⟩
  refine ⟨hbalances.described, hbalances.closed, fun hopen => ?_, ?_⟩
  · obtain ⟨hstaffed, hnone⟩ := h.opened (Session.isOpen_of_step hstep hopen)
    exact ⟨hstaffed.of_step hstep hopen, by rw [hnone, hkept hstaffed hopen]⟩
  · have hbefore := h.balance
    have hafter := hbalances.balance
    show next.pendingCount = next.waiting + next.uncounted + (_ + _ : Nat)
    omega

/-- What disturbs nobody does not move the meter either. -/
theorem Balanced.of_undisturbed {tally : Tally} (h : tally.Balanced) {next : Session}
    (hsame : tally.session.Undisturbed next)
    (hcount : next.pendingCount = tally.session.pendingCount)
    (hopen : next.IsOpen → tally.session.IsOpen) :
    Balanced { session := next
               forfeited := tally.forfeited + tally.session.forfeits next } := by
  have hnone : tally.session.forfeits next = 0 := by
    rw [Session.forfeits, hsame.watchers, Watcher.forfeitsIn_self]
  have hwaiting : next.waiting = tally.session.waiting := by
    rw [Session.waiting, Session.isEnded, hsame.desk, hsame.book]
    rfl
  have huncounted : next.uncounted = tally.session.uncounted := by
    rw [Session.uncounted, hsame.watchers]
    rfl
  rw [hnone]
  refine ⟨hsame.book ▸ h.described, ?_, fun hafter => ?_, ?_⟩
  · show next.desk = .ended → ∀ watcher ∈ next.watchers, _
    rw [hsame.desk, hsame.watchers]
    exact h.closed
  · obtain ⟨hstaffed, hzero⟩ := h.opened (hopen hafter)
    exact ⟨hstaffed.of_undisturbed hsame, hzero⟩
  · show next.pendingCount = _
    rw [hcount, hwaiting, huncounted]
    exact h.balance

/-- What comes from outside does not move the meter. -/
theorem pendingCount_meet (session : Session) (stimulus : Session.Stimulus) :
    (session.meet stimulus).pendingCount = session.pendingCount := by
  cases stimulus with
  | send command =>
    simp only [Session.meet]
    split <;> rfl
  | take =>
    simp only [Session.meet]
    split <;> rfl
  | endCommands | leave | push | breakStream | closeStream | refuse | wait => rfl

/-- Every move keeps the balance. -/
theorem Balanced.advance {tally : Tally} (h : tally.Balanced) (move : Move) :
    (tally.advance move).Balanced := by
  cases move with
  | turn actor =>
    cases hstep : Session.step actor tally.session with
    | none =>
      rw [Tally.advance, Session.advance_turn_of_waits hstep]
      exact h.of_undisturbed ⟨rfl, rfl, rfl, rfl, rfl⟩ rfl id
    | some next =>
      rw [Tally.advance, Session.advance_turn hstep]
      exact h.of_step hstep
  | stimulus stimulus =>
    exact h.of_undisturbed (Session.undisturbed_meet _ _) (pendingCount_meet _ _)
      Session.isOpen_of_meet
  | feeds source =>
    exact h.of_undisturbed ⟨rfl, rfl, rfl, rfl, rfl⟩ rfl
      fun hopen => ⟨hopen.receiving, hopen.running⟩

/-! ### What holds of all of them -/

/-- Whatever happens, every session stays balanced. -/
theorem balanced_follow {tallies : List Tally} (h : ∀ tally ∈ tallies, tally.Balanced)
    (happening : Happening) : ∀ tally ∈ follow tallies happening, tally.Balanced := by
  intro tally htally
  cases happening with
  | opening source limit inboxCapacity outboxCapacity =>
    rcases List.mem_append.1 htally with hold | hnew
    · exact h tally hold
    · exact List.mem_singleton.1 hnew ▸ balanced_start _ _ _ _
  | move i move =>
    obtain ⟨j, hj⟩ := List.mem_iff_getElem?.1 htally
    rw [follow, List.getElem?_modify] at hj
    obtain ⟨before, hbefore, rfl⟩ := Option.map_eq_some_iff.1 hj
    have hold := h before (List.mem_of_getElem? hbefore)
    split
    · exact hold.advance move
    · exact hold

/-- Every session that there is after some happenings is balanced. -/
theorem balanced_run (happenings : List Happening) :
    ∀ tally ∈ run happenings, tally.Balanced := by
  induction happenings using List.reverseRecOn with
  | nil => exact fun _ h => nomatch h
  | append_singleton happenings happening ih =>
    rw [run, List.foldl_append]
    exact balanced_follow ih happening

/-- The meter of balanced sessions reads what waits, what is to be counted off and what was given
up. -/
theorem gauge_of_balanced {tallies : List Tally} (h : ∀ tally ∈ tallies, tally.Balanced) :
    gauge tallies = waiting tallies + uncounted tallies + given tallies := by
  induction tallies with
  | nil => rfl
  | cons tally rest ih =>
    have hrest := ih fun other hother => h other (List.mem_cons_of_mem _ hother)
    have hfirst := (h tally List.mem_cons_self).balance
    simp only [gauge, waiting, uncounted, given, List.map_cons, List.sum_cons] at hrest ⊢
    omega

/-- What the meter of pending orders reads for some sessions. -/
structure Reads (tallies : List Tally) : Prop where
  total : gauge tallies = waiting tallies + uncounted tallies + given tallies
  /-- Between the deliveries of the watchers the meter is right exactly when no order was given
  up. -/
  settled : uncounted tallies = 0 → (gauge tallies = waiting tallies ↔ given tallies = 0)
  opened : ∀ tally ∈ tallies, tally.session.IsOpen → tally.forfeited = 0
  /-- A session that is over still counts for what its watchers gave up. -/
  ended : ∀ tally ∈ tallies, tally.session.desk = .ended →
    tally.session.pendingCount = tally.forfeited

/-- However many sessions there are and whatever happens in them: the meter reads the orders in
the books of the sessions that are not over, together with those that watchers took out and have
not counted off yet, and those that watchers have given up by coming to an end. -/
theorem gauge_along (happenings : List Happening) : Reads (run happenings) := by
  have hbalanced := balanced_run happenings
  have htotal := gauge_of_balanced hbalanced
  refine ⟨htotal, fun hsettled => ?_, fun tally htally hopen => ?_, fun tally htally hended => ?_⟩
  · omega
  · exact ((hbalanced tally htally).opened hopen).2
  · have hnone := Watcher.uncountedIn_eq_zero fun watcher hwatcher =>
      Watcher.uncounted_of_ended ((hbalanced tally htally).closed hended watcher hwatcher)
    have hbalance := (hbalanced tally htally).balance
    rw [Session.waiting_of_ended hended, Session.uncounted, hnone] at hbalance
    rw [hbalance]
    omega

/-- Three orders fire at one price. The outbox holds one event, so that the second one is
announced and not put when the client leaves, and then sends no more commands. -/
def forfeitingHappenings : List Happening :=
  let order (oid : String) : Command :=
    { kind := .alert, oid, symbol := "X", brokers := ["B"], price := 50 }
  .opening ⟨none, .new⟩ none 4 1 :: List.map (Happening.move 0)
    [.stimulus (.push ⟨"B", "X"⟩ (.ofPrices "X" [60])),
      .stimulus (.send (order "a")), .turn .desk, .turn (.watcher 0), .turn (.watcher 0),
      .turn .desk, .turn .desk, .stimulus .take,
      .stimulus (.send (order "b")), .turn .desk, .turn .desk, .stimulus .take,
      .stimulus (.send (order "c")), .turn .desk, .turn .desk, .stimulus .take,
      .stimulus (.push ⟨"B", "X"⟩ (.ofPrices "X" [45])), .turn (.watcher 0), .turn (.watcher 0),
      .turn (.watcher 0), .stimulus .leave, .turn (.watcher 0), .stimulus .endCommands,
      .turn .desk]

/-- The only session is over and nobody has anything left to do, and the meter still counts one
order. -/
theorem gauge_of_forfeited :
    (∀ tally ∈ run forfeitingHappenings, tally.session.desk = .ended) ∧
      waiting (run forfeitingHappenings) = 0 ∧ uncounted (run forfeitingHappenings) = 0 ∧
      gauge (run forfeitingHappenings) = 1 := by
  decide +kernel

end Tally

end TriggerDesk
