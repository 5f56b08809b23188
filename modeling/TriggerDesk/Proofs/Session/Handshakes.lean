import TriggerDesk.Proofs.Session.Acts
import TriggerDesk.Proofs.Session.Baseline
import TriggerDesk.Proofs.Session.Deadlines
import TriggerDesk.Proofs.Session.Staff

/-!
# Whose end the desk awaits

To place an order at a listing without a last price, the desk waits for the end of the watcher
before, if the listing is marked as one that lost its feed; otherwise it stops that watcher. The
mark stays from the loss of a feed until the next first quote. So when a new watcher was started
after the loss and has not had its first quote, the mark is not its own, and the desk waits for
the end of a watcher that may have no reason to end.

`awaited_along` says exactly when that is so: a watcher whose end is awaited lost its feed itself
if its first quote had come when the desk began to wait, and if not, it did not.
`awaits_unquoted` is a run in which the desk waits for a watcher that waits for its first quote,
however much time passes.
-/

namespace TriggerDesk

open Market TriggerDesk.Order Feed

/-- Whether a watcher lost a feed that was live. It has cancellations to put, or has put them
all. -/
def Watcher.Phase.hasLost : Watcher.Phase → Bool
  | retiring .. | ended .retired => true
  | starting | opening _ | following .. | firing ..
  | ended .neverLive | ended .clientLeft | ended .aborted => false

/-- Whether the first quote of a watcher came. -/
def Watcher.hadQuote (watcher : Watcher) : Bool :=
  match watcher.outcome with
  | some (.live _) => true
  | some (.failed _) | none => false

/-- A watcher that still looks at prices has not lost its feed. -/
theorem Watcher.Phase.hasLost_of_tracks {phase : Watcher.Phase} (h : phase.tracks = true) :
    phase.hasLost = false := by
  cases phase with
  | following | firing => rfl
  | starting | opening | retiring | ended => cases h

/-- A watcher that lost its feed is retiring, or has ended after it retired. -/
theorem Watcher.Phase.retiring_or_ended_of_hasLost {phase : Watcher.Phase}
    (h : phase.hasLost = true) : phase.isRetiring = true ∨ phase = .ended .retired := by
  cases phase with
  | retiring => exact .inl rfl
  | ended ending =>
    cases ending with
    | retired => exact .inr rfl
    | neverLive | clientLeft | aborted => cases h
  | starting | opening | following | firing => cases h

/-- A watcher with cancellations to put or none has lost its feed. -/
theorem Watcher.hasLost_drains (watcher : Watcher) (stream : StreamId) (events : List Event) :
    (watcher.drains stream events).phase.hasLost = true := by
  cases events <;> rfl

/-- A watcher that begins to drain keeps its first quote, if it had one. -/
theorem Watcher.hadQuote_drains (watcher : Watcher) (stream : StreamId) (events : List Event) :
    (watcher.drains stream events).hadQuote = watcher.hadQuote := by
  cases events <;> rfl

/-- A watcher that begins to fire keeps its first quote, if it had one. -/
theorem Watcher.hadQuote_fires (watcher : Watcher) (stream : StreamId) (prices : List Float)
    (events : List Event) :
    (watcher.fires stream prices events).hadQuote = watcher.hadQuote := by
  cases events <;> rfl

/-- The first quote of a watcher came exactly when its feed is live or was lost. -/
def Watcher.IsCandid (watcher : Watcher) : Prop :=
  watcher.hadQuote = (watcher.phase.tracks || watcher.phase.hasLost)

namespace Session

variable {first session next : Session} {id : WatcherId} {watcher after : Watcher}

/-! ## What a watcher that lost its feed leaves behind -/

/-- Whatever a watcher does, its first quote agrees with its phase. -/
theorem Acts.isCandid (h : Acts session next id watcher after) (hcandid : watcher.IsCandid)
    (hreceiving : session.outbox.receiving = true) : after.IsCandid := by
  unfold Watcher.IsCandid at *
  cases h with
  | subscribe stream hphase | skip _ _ _ hphase | read _ _ hphase =>
    rw [hphase] at hcandid
    exact hcandid
  | giveUp | goLive => rfl
  | look stream price prices orders hphase =>
    rw [hphase] at hcandid
    rw [Watcher.tracks_fires, Watcher.hadQuote_fires]
    exact hcandid
  | fired stream event rest prices hphase =>
    rw [hphase] at hcandid
    rw [Watcher.tracks_fires, Watcher.hadQuote_fires]
    exact hcandid
  | lose stream failure orders hphase =>
    rw [hphase] at hcandid
    rw [Watcher.hasLost_drains, Watcher.hadQuote_drains, Bool.or_true]
    exact hcandid
  | drained stream event rest hphase =>
    rw [hphase] at hcandid
    rw [Watcher.hasLost_drains, Watcher.hadQuote_drains, Bool.or_true]
    exact hcandid
  | leave hleft =>
    rw [hreceiving] at hleft
    cases hleft

/-- Whoever lost its feed has lost it for good. -/
theorem Acts.hasLost (h : Acts session next id watcher after)
    (hlost : watcher.phase.hasLost = true) (hreceiving : session.outbox.receiving = true) :
    after.phase.hasLost = true := by
  cases h with
  | subscribe _ hphase | goLive _ _ hphase | read _ _ hphase | skip _ _ _ hphase
  | look _ _ _ _ hphase | lose _ _ _ hphase | fired _ _ _ _ hphase =>
    rw [hphase] at hlost
    cases hlost
  | giveUp _ hphase =>
    rcases hphase with hphase | ⟨_, hphase⟩ <;>
    · rw [hphase] at hlost
      cases hlost
  | drained => exact Watcher.hasLost_drains _ _ _
  | leave hleft =>
    rw [hreceiving] at hleft
    cases hleft

/-- The desk changes no last price and no mark. -/
theorem DeskTurn.sameFeeds {deed : Deed} (h : session.DeskTurn next deed)
    (hrunning : next.desk ≠ .ended) : session.book.SameFeeds next.book := by
  cases h with
  | refuse _ _ hstill | arm _ _ hstill | await _ _ hstill | start _ _ hstill
  | restart _ _ _ _ hstill | prepare _ hstill => exact hstill.sameFeeds
  | cancel _ _ _ _ _ _ _ hremove => exact Book.sameFeeds_of_remove hremove
  | place _ _ _ _ _ _ _ _ hinsert => exact Book.sameFeeds_of_insert hinsert
  | move _ _ _ _ _ _ hmodify hbook => exact hbook ▸ Book.sameFeeds_of_modify hmodify
  | deliver _ _ _ _ _ hbook => exact hbook ▸ fun _ => ⟨rfl, rfl⟩
  | shutDown _ _ _ hdesk => exact absurd hdesk hrunning

/-- A watcher that lost its feed is not stopped. -/
theorem Staffed.hasLost_of_deskTurn (h : session.Staffed) {deed : Deed}
    (hturn : session.DeskTurn next deed) (hopen : next.IsOpen)
    (hwatcher : session.watchers[id]? = some watcher) (hlost : watcher.phase.hasLost = true) :
    next.watchers[id]? = some watcher := by
  rcases h.stays_of_deskTurn hturn hopen hwatcher with hkept | ⟨hstopped, _, hretiring⟩
  · exact hkept
  · rcases Watcher.Phase.retiring_or_ended_of_hasLost hlost with hlosing | hended
    · rw [(h.losing id watcher hwatcher hlosing).2] at hretiring
      cases hretiring
    · rw [hstopped, Watcher.stop, if_pos (by rw [hended]; rfl)]

/-- Watchers stay, and whoever lost its feed has lost it for good. -/
theorem Staffed.hasLost_of_step (h : session.Staffed) {actor : Actor}
    (hstep : step actor session = some next) (hopen : next.IsOpen)
    (hwatcher : session.watchers[id]? = some watcher) (hlost : watcher.phase.hasLost = true) :
    ∃ after, next.watchers[id]? = some after ∧ after.listing = watcher.listing ∧
      after.phase.hasLost = true := by
  have hreceiving := (isOpen_of_step hstep hopen).receiving
  cases actor with
  | desk =>
    exact ⟨watcher, h.hasLost_of_deskTurn (deskTurn_of_deskStep hstep) hopen hwatcher hlost,
      rfl, hlost⟩
  | watcher other =>
    obtain ⟨found, after, hreplaces, _⟩ := watcherTurn_of_watcherStep hstep
    by_cases heq : id = other
    · subst heq
      have hwas := hreplaces.was
      rw [hwatcher] at hwas
      cases hwas
      obtain ⟨acted, hacted, hacts⟩ := acts_of_watcherStep hwatcher hstep
      rw [hreplaces.becomes] at hacted
      cases hacted
      exact ⟨after, hreplaces.becomes, hreplaces.listing, hacts.hasLost hlost hreceiving⟩
    · exact ⟨watcher, (hreplaces.others id heq).trans hwatcher, rfl, hlost⟩

/-! ## Who left the mark -/

/-- What the quotes, the losses and the marks of a session have to do with each other. -/
structure Marked (session : Session) : Prop extends Staffed session where
  candid : ∀ (id : WatcherId) (watcher : Watcher), session.watchers[id]? = some watcher →
    watcher.IsCandid
  /-- A listing that is marked has no last price, and one of its watchers lost its feed. -/
  marks : ∀ listing, session.book.isRetiring listing = true →
    session.book.last? listing = none ∧
      ∃ (id : WatcherId) (watcher : Watcher), session.watchers[id]? = some watcher ∧
        watcher.listing = listing ∧ watcher.phase.hasLost = true
  /-- The watcher whose first quote is awaited is there. -/
  quoted : ∀ placing id deadline, session.desk = .awaitQuote placing id deadline →
    ∃ watcher : Watcher, session.watchers[id]? = some watcher

/-- When a session starts, nothing was quoted, lost or marked. -/
theorem marked_start (source : Source) (limit : Option Nat) (inboxCapacity outboxCapacity : Nat) :
    (start source limit inboxCapacity outboxCapacity).Marked where
  toStaffed := staffed_start _ _ _ _
  candid _ _ h := nomatch h
  marks _ h := nomatch h
  quoted _ _ _ h := nomatch h

namespace Marked

/-- A watcher whose first quote had come lost its feed, if its listing is marked. -/
theorem hasLost_of_hadQuote (h : session.Marked)
    (hwatcher : session.watchers[id]? = some watcher)
    (hretiring : session.book.isRetiring watcher.listing = true)
    (hquote : watcher.hadQuote = true) : watcher.phase.hasLost = true := by
  have hcandid := h.candid id watcher hwatcher
  rw [Watcher.IsCandid, hquote] at hcandid
  rcases Bool.or_eq_true _ _ ▸ hcandid.symm with htracks | hlost
  · exact absurd (h.marks _ hretiring).1 (h.live id watcher hwatcher htracks)
  · exact hlost

/-- A watcher of a listing with no last price and no mark stays candid when it is stopped, since its
first quote has not come. -/
theorem isCandid_stop (h : session.Marked) (hwatcher : session.watchers[id]? = some watcher)
    (hlast : session.book.last? watcher.listing = none)
    (hretiring : session.book.isRetiring watcher.listing = false) :
    (watcher.stop .aborted).IsCandid := by
  have hcandid := h.candid id watcher hwatcher
  unfold Watcher.stop
  split
  · exact hcandid
  · next hrunning =>
    have htracks : watcher.phase.tracks = false :=
      Bool.eq_false_iff.2 fun htracks => h.live id watcher hwatcher htracks hlast
    have hlost : watcher.phase.hasLost = false := by
      refine Bool.eq_false_iff.2 fun hlost => ?_
      rcases Watcher.Phase.retiring_or_ended_of_hasLost hlost with hlosing | hended
      · rw [(h.losing id watcher hwatcher hlosing).2] at hretiring
        cases hretiring
      · rw [hended] at hrunning
        exact hrunning rfl
    rw [Watcher.IsCandid, htracks, hlost] at hcandid
    exact hcandid

/-- A turn of the desk keeps the quotes, the losses and the marks in agreement. -/
theorem of_deskTurn (h : session.Marked) {deed : Deed} (hturn : session.DeskTurn next deed)
    (hopen : next.IsOpen) : next.Marked where
  toStaffed := h.toStaffed.of_deskTurn hturn hopen.running
  candid id watcher hwatcher := by
    rcases h.watchers_of_deskTurn hturn hopen hwatcher with
      hold | hnew | ⟨old, hold, rfl, hlast, hretiring⟩
    · exact h.candid id watcher hold
    · rw [hnew]
      rfl
    · exact h.isCandid_stop hold hlast hretiring
  marks listing hretiring := by
    have hfeeds := hturn.sameFeeds hopen.running listing
    rw [hfeeds.2] at hretiring
    obtain ⟨hlast, id, watcher, hwatcher, hlisting, hlost⟩ := h.marks listing hretiring
    exact ⟨hfeeds.1.trans hlast, id, watcher,
      h.hasLost_of_deskTurn hturn hopen hwatcher hlost, hlisting, hlost⟩
  quoted placing id deadline hdesk := by
    cases hturn with
    | start started _ _ _ _ _ hwatchers _ hnext =>
      rw [hnext] at hdesk
      cases hdesk
      exact ⟨_, by rw [hwatchers, List.getElem?_concat_length]⟩
    | restart started _ _ _ _ _ _ _ _ _ _ _ hwatchers _ hnext =>
      rw [hnext] at hdesk
      cases hdesk
      exact ⟨_, by rw [hwatchers, List.getElem?_concat_length]⟩
    | refuse _ _ _ _ _ _ hnext | arm _ _ _ _ _ _ _ _ hnext | await _ _ _ _ _ _ _ _ _ _ hnext
    | prepare _ _ _ _ _ _ hnext | cancel _ _ _ _ _ _ _ _ _ hnext
    | place _ _ _ _ _ _ _ _ _ _ hnext | move _ _ _ _ _ _ _ _ _ hnext
    | deliver _ _ _ _ _ _ _ hnext | shutDown _ _ _ hnext =>
      rw [hnext] at hdesk
      cases hdesk

/-- A turn of a watcher marks at most its own listing, and only when it loses its feed. -/
theorem marks_of_watcherStep (h : session.Marked)
    (hwatcher : session.watchers[id]? = some watcher) (hafter : next.watchers[id]? = some after)
    (hacts : Acts session next id watcher after) (hreceiving : session.outbox.receiving = true)
    (hkept : ∀ (other : WatcherId) (lost : Watcher), session.watchers[other]? = some lost →
      lost.phase.hasLost = true → ∃ later, next.watchers[other]? = some later ∧
        later.listing = lost.listing ∧ later.phase.hasLost = true)
    {listing : Listing} (hretiring : next.book.isRetiring listing = true) :
    next.book.last? listing = none ∧
      ∃ (other : WatcherId) (lost : Watcher), next.watchers[other]? = some lost ∧
        lost.listing = listing ∧ lost.phase.hasLost = true := by
  -- A mark that was there before is still explained by the watcher that left it.
  have hold : next.book.lane listing = session.book.lane listing →
      next.book.last? listing = none ∧
        ∃ (other : WatcherId) (lost : Watcher), next.watchers[other]? = some lost ∧
          lost.listing = listing ∧ lost.phase.hasLost = true := by
    intro hlane
    rw [Book.isRetiring, hlane] at hretiring
    obtain ⟨hlast, other, lost, hother, hlisting, hlost⟩ := h.marks listing hretiring
    obtain ⟨later, hlater, hsame, hstill⟩ := hkept other lost hother hlost
    refine ⟨?_, other, later, hlater, hsame.trans hlisting, hstill⟩
    rw [Book.last?, hlane]
    exact hlast
  cases hacts with
  | subscribe _ _ hbook | giveUp _ _ hbook | read _ _ _ hbook | skip _ _ _ _ _ hbook
  | fired _ _ _ _ _ _ hbook | drained _ _ _ _ _ hbook => exact hold (by rw [hbook])
  | goLive stream price _ _ hbook =>
    by_cases heq : listing = watcher.listing
    · rw [hbook, Book.isRetiring, Book.lane_setLast, if_pos heq] at hretiring
      cases hretiring
    · exact hold (by rw [hbook, Book.lane_setLast, if_neg heq])
  | look stream price prices orders _ _ _ hevaluate =>
    have hbook : next.book =
        ((session.book.setLast watcher.listing price).evaluate watcher.listing price).2 := by
      rw [hevaluate]
    by_cases heq : listing = watcher.listing
    · rw [hbook, Book.isRetiring, Book.lane_evaluate, if_pos heq, Book.lane_setLast,
        if_pos rfl] at hretiring
      cases hretiring
    · exact hold (by rw [hbook, Book.lane_evaluate, if_neg heq, Book.lane_setLast, if_neg heq])
  | lose stream failure orders hphase _ hretire =>
    have hbook : next.book = (session.book.retire watcher.listing).2 := by rw [hretire]
    by_cases heq : listing = watcher.listing
    · have hlast := h.live id watcher hwatcher (by rw [hphase]; rfl)
      refine ⟨?_, id, _, hafter, (Watcher.listing_drains _ _ _).trans heq.symm,
        Watcher.hasLost_drains _ _ _⟩
      rw [heq, hbook, Book.last?, Book.lane_retire_self _ hlast]
    · exact hold (by rw [hbook, Book.lane_retire_of_ne _ heq])
  | leave hleft =>
    rw [hreceiving] at hleft
    cases hleft

/-- A turn of a watcher keeps the quotes, the losses and the marks in agreement. -/
theorem of_watcherStep (h : session.Marked) (hstep : step (.watcher id) session = some next)
    (hopen : next.IsOpen) : next.Marked := by
  have hreceiving := (isOpen_of_step hstep hopen).receiving
  obtain ⟨watcher, after, hreplaces, _⟩ := watcherTurn_of_watcherStep hstep
  obtain ⟨acted, hacted, hacts⟩ := acts_of_watcherStep hreplaces.was hstep
  rw [hreplaces.becomes] at hacted
  cases hacted
  exact {
    toStaffed := h.toStaffed.of_step hstep hopen
    candid := by
      intro other found hfound
      by_cases heq : other = id
      · subst heq
        rw [hreplaces.becomes] at hfound
        cases hfound
        exact hacts.isCandid (h.candid other watcher hreplaces.was) hreceiving
      · exact h.candid other found ((hreplaces.others other heq).symm.trans hfound)
    marks := fun listing => h.marks_of_watcherStep hreplaces.was hreplaces.becomes hacts
      hreceiving (fun other lost hother hlost =>
        h.hasLost_of_step hstep hopen hother hlost)
    quoted := by
      intro placing other deadline hdesk
      rw [hreplaces.desk] at hdesk
      obtain ⟨found, hfound⟩ := h.quoted placing other deadline hdesk
      by_cases heq : other = id
      · exact ⟨after, heq ▸ hreplaces.becomes⟩
      · exact ⟨found, (hreplaces.others other heq).trans hfound⟩ }

/-- Every turn keeps the quotes, the losses and the marks in agreement. -/
theorem of_step (h : session.Marked) {actor : Actor} (hstep : step actor session = some next)
    (hopen : next.IsOpen) : next.Marked := by
  cases actor with
  | desk => exact h.of_deskTurn (deskTurn_of_deskStep hstep) hopen
  | watcher id => exact h.of_watcherStep hstep hopen

/-- What the client and the market do keeps the quotes, the losses and the marks in agreement. -/
theorem of_undisturbed (h : session.Marked) (hsame : session.Undisturbed next) :
    next.Marked where
  toStaffed := h.toStaffed.of_undisturbed hsame
  candid := by
    rw [hsame.watchers]
    exact h.candid
  marks := by
    rw [hsame.book, hsame.watchers]
    exact h.marks
  quoted := by
    rw [hsame.desk, hsame.watchers]
    exact h.quoted

/-- Along a run the quotes, the losses and the marks stay in agreement. -/
theorem run (h : session.Marked) {moves : List Move} (hopen : (session.run moves).IsOpen) :
    (session.run moves).Marked :=
  holds_along (fun hmarked hstep hopen => hmarked.of_step hstep hopen)
    (fun hmarked hsame => hmarked.of_undisturbed hsame) h hopen

end Marked

/-! ## What the desk waits for -/

/-- Since a moment in a run the desk waits for the end of a watcher whose first quote had not come
by then, so that the watcher had not lost its feed. The listing is marked for another one, which
has put all its cancellations. -/
structure AwaitsUnquotedSince (first : Session) (earlier later : List Move) (placing : Placing)
    (id : WatcherId) : Prop where
  waits : ∀ middle, middle <+: later →
    (first.run (earlier ++ middle)).desk = .awaitEnd placing id
  unquoted : ∃ watcher : Watcher, (first.run earlier).watchers[id]? = some watcher ∧
    watcher.listing = placing.listing ∧ watcher.hadQuote = false ∧ watcher.phase.hasLost = false
  marked : (first.run earlier).book.isRetiring placing.listing = true ∧
    ∃ (other : WatcherId) (lost : Watcher), (first.run earlier).watchers[other]? = some lost ∧
      lost.listing = placing.listing ∧ lost.phase = .ended .retired

/-- The desk that still waits after one move more has waited since the same moment. -/
theorem AwaitsUnquotedSince.concat {earlier later : List Move} {placing : Placing}
    (h : AwaitsUnquotedSince first earlier later placing id) {move : Move}
    (hdesk : (first.run (earlier ++ (later ++ [move]))).desk = .awaitEnd placing id) :
    AwaitsUnquotedSince first earlier (later ++ [move]) placing id where
  waits middle hmiddle := by
    rcases List.prefix_concat_iff.1 hmiddle with hall | hbefore
    · rw [hall]
      exact hdesk
    · exact h.waits middle hbefore
  unquoted := h.unquoted
  marked := h.marked

/-- The desk waits for a watcher that has lost its feed. -/
def AwaitsLost (session : Session) (placing : Placing) (id : WatcherId) : Prop :=
  ∃ watcher : Watcher, session.watchers[id]? = some watcher ∧
    watcher.listing = placing.listing ∧ watcher.phase.hasLost = true

/-- What the client and the market do leaves a watcher that has lost its feed as it is. -/
theorem AwaitsLost.of_undisturbed {placing : Placing} (h : session.AwaitsLost placing id)
    (hsame : session.Undisturbed next) : next.AwaitsLost placing id := by
  rw [AwaitsLost, hsame.watchers]
  exact h

/-- A watcher that has lost its feed is still there after a turn, and the feed is still lost. -/
theorem AwaitsLost.of_step {placing : Placing} (h : session.AwaitsLost placing id)
    (hstaffed : session.Staffed) {actor : Actor} (hstep : step actor session = some next)
    (hopen : next.IsOpen) : next.AwaitsLost placing id := by
  obtain ⟨watcher, hwatcher, hlisting, hlost⟩ := h
  obtain ⟨after, hafter, hsame, hstill⟩ := hstaffed.hasLost_of_step hstep hopen hwatcher hlost
  exact ⟨after, hafter, hsame.trans hlisting, hstill⟩

/-- The desk begins to wait for the end of a watcher only where the listing is marked. Either that
watcher left the mark, or its first quote has not come. -/
theorem Marked.awaits_of_deskTurn {moves : List Move} {move : Move}
    (h : (first.run moves).Marked) {deed : Deed}
    (hturn : (first.run moves).DeskTurn (first.run (moves ++ [move])) deed) {placing : Placing}
    (hdesk : (first.run (moves ++ [move])).desk = .awaitEnd placing id) :
    (first.run (moves ++ [move])).AwaitsLost placing id ∨
      AwaitsUnquotedSince first (moves ++ [move]) [] placing id := by
  cases hturn with
  | await awaited other hstill hwatchers hfree _ _ hother hretiring _ hnext =>
    rw [hnext] at hdesk
    cases hdesk
    obtain ⟨watcher, hwatcher, hlisting⟩ := h.followed placing.listing id hother
    rw [← hwatchers] at hwatcher
    -- If the watcher did not lose the feed itself, the mark is that of an older watcher.
    by_cases hlost : watcher.phase.hasLost = true
    · exact .inl ⟨watcher, hwatcher, hlisting, hlost⟩
    · refine .inr ⟨fun middle hmiddle => ?_, ⟨watcher, hwatcher, hlisting, ?_,
        Bool.not_eq_true _ ▸ hlost⟩, ⟨(hstill.isRetiring_eq _).trans hretiring, ?_⟩⟩
      · rw [List.prefix_nil.1 hmiddle, List.append_nil]
        exact hnext
      · refine Bool.eq_false_iff.2 fun hquote => hlost ?_
        exact h.hasLost_of_hadQuote (hwatchers ▸ hwatcher) (hlisting ▸ hretiring) hquote
      · obtain ⟨_, marker, found, hfound, hplace, hmarker⟩ := h.marks _ hretiring
        refine ⟨marker, found, hwatchers ▸ hfound, hplace, ?_⟩
        rcases Watcher.Phase.retiring_or_ended_of_hasLost hmarker with hlosing | hended
        · -- Whoever still has cancellations to put would be the one that the desk found.
          have hrunning := Watcher.Phase.not_ended_of_retiring hlosing
          rcases h.current marker found hfound hrunning with hspawned | hawaited
          · rw [hplace, hother] at hspawned
            cases hspawned
            rw [hwatchers, hfound] at hwatcher
            cases hwatcher
            exact absurd hmarker hlost
          · rw [hfree.awaited] at hawaited
            cases hawaited
        · exact hended
  | refuse _ _ _ _ _ _ hnext | arm _ _ _ _ _ _ _ _ hnext | start _ _ _ _ _ _ _ _ hnext
  | restart _ _ _ _ _ _ _ _ _ _ _ _ _ _ hnext | prepare _ _ _ _ _ _ hnext
  | cancel _ _ _ _ _ _ _ _ _ hnext | place _ _ _ _ _ _ _ _ _ _ hnext
  | move _ _ _ _ _ _ _ _ _ hnext | deliver _ _ _ _ _ _ _ hnext | shutDown _ _ _ hnext =>
    rw [hnext] at hdesk
    cases hdesk

/-- While the desk waits for the end of a watcher, that watcher has lost its feed, or its first
quote had not come when the desk began to wait. -/
theorem awaitsLost_or_awaitsUnquotedSince (hfirst : first.desk = .idle) (hmarked : first.Marked)
    {moves : List Move} (hopen : (first.run moves).IsOpen) {placing : Placing}
    (hdesk : (first.run moves).desk = .awaitEnd placing id) :
    (first.run moves).AwaitsLost placing id ∨
      ∃ earlier later, moves = earlier ++ later ∧
        AwaitsUnquotedSince first earlier later placing id := by
  -- From the end of the run back to the turn in which the desk began to wait.
  induction moves using List.reverseRecOn with
  | nil =>
    rw [run_nil, hfirst] at hdesk
    cases hdesk
  | append_singleton moves move ih =>
    have hbefore := isOpen_of_prefix hopen (List.prefix_append moves [move])
    have hthen : (first.run moves).Marked :=
      hmarked.run hbefore
    have hnext : first.run (moves ++ [move]) = (first.run moves).advance move :=
      run_append first moves [move]
    rcases desk_of_advance (first.run moves) move with hturn | hsame
    · rw [← hnext] at hturn
      rcases hthen.awaits_of_deskTurn hturn hdesk with hlost | hunquoted
      · exact .inl hlost
      · exact .inr ⟨moves ++ [move], [], (List.append_nil _).symm, hunquoted⟩
    · have hearlier := ih hbefore (hsame.symm.trans (hnext ▸ hdesk))
      rcases hearlier with hlost | ⟨earlier, later, rfl, hsince⟩
      · refine .inl ?_
        rw [hnext] at hopen ⊢
        rcases advance_cases (first.run moves) move with ⟨actor, _, hstep⟩ | hundisturbed
        · exact hlost.of_step hthen.toStaffed hstep hopen
        · exact hlost.of_undisturbed hundisturbed
      · rw [List.append_assoc] at hdesk ⊢
        exact .inr ⟨earlier, later ++ [move], rfl, hsince.concat hdesk⟩

/-! ## Waiting no longer than the limit -/

/-- Whoever has events to put can go on, or waits for a place. -/
theorem deliver_ne_none {event : Event} {further : Session → Session}
    (h : session.outbox.standing (.watcher id) ≠ .waiting) :
    session.deliver id event further ≠ none := by
  unfold deliver
  split
  · next hwaiting => exact absurd hwaiting h
  · exact Option.some_ne_none _
  · exact Option.some_ne_none _

/-- The desk can go on unless it has to wait for a place. -/
theorem withPlace_ne_none (session : Session) {further : Session → Session}
    (h : session.outbox.standing .desk ≠ .waiting) : session.withPlace further ≠ none := by
  unfold withPlace
  split
  · next hwaiting => exact absurd hwaiting h
  · exact Option.some_ne_none _
  · exact Option.some_ne_none _

/-- A watcher that lost its feed and has not ended waits for a place, or can go on. -/
theorem watcherStep_of_hasLost (hwatcher : session.watchers[id]? = some watcher)
    (hlost : watcher.phase.hasLost = true) (hrunning : watcher.phase.isEnded = false) :
    session.outbox.standing (.watcher id) = .waiting ∨ session.watcherStep id ≠ none := by
  by_cases hwaiting : session.outbox.standing (.watcher id) = .waiting
  · exact .inl hwaiting
  · refine .inr ?_
    cases hphase : watcher.phase with
    | retiring stream event rest =>
      simp only [watcherStep, hwatcher, hphase, Option.bind_eq_bind, Option.bind_some]
      exact deliver_ne_none hwaiting
    | starting | opening | following | firing =>
      rw [hphase] at hlost
      cases hlost
    | ended =>
      rw [hphase] at hrunning
      cases hrunning

/-- A desk that waits although the limit has passed waits for a command, for a place, or for the
end of a watcher that has not ended. -/
theorem Marked.stalled (h : session.Marked) {milliseconds : Nat}
    (hpunctual : session.Punctual (some milliseconds))
    (hstalled : (session.meet (.wait milliseconds)).deskStep = none) (hopen : session.IsOpen) :
    session.desk = .idle ∨ session.outbox.standing .desk = .waiting ∨
      ∃ placing id watcher, session.desk = .awaitEnd placing id ∧
        session.watchers[id]? = some watcher ∧ watcher.phase.isEnded = false := by
  -- The limit does not count for a place: whoever waits for one waits until the client takes
  -- events.
  have hplace : ∀ {further : Session → Session},
      (session.meet (.wait milliseconds)).withPlace further = none →
      session.outbox.standing .desk = .waiting := fun hnone =>
    Decidable.byContradiction fun hne =>
      withPlace_ne_none (session.meet (.wait milliseconds)) hne hnone
  have hdesk : (session.meet (.wait milliseconds)).desk = session.desk := rfl
  unfold deskStep at hstalled
  cases hnow : session.desk with
  | idle => exact .inl rfl
  | awaitEnd placing id =>
    rw [hdesk, hnow] at hstalled
    obtain ⟨_, watcher, hwatcher, _⟩ := h.awaited placing id hnow
    refine .inr (.inr ⟨placing, id, watcher, rfl, hwatcher, ?_⟩)
    have hfound : (session.meet (.wait milliseconds)).watchers[id]? = some watcher := hwatcher
    simp only [hfound, Option.bind_eq_bind, Option.bind_some] at hstalled
    split at hstalled
    · cases hstalled
    · next hrunning => exact Bool.not_eq_true _ ▸ hrunning
  | awaitQuote placing id deadline =>
    rw [hdesk, hnow] at hstalled
    obtain ⟨watcher, hwatcher⟩ := h.quoted placing id deadline hnow
    have hfound : (session.meet (.wait milliseconds)).watchers[id]? = some watcher := hwatcher
    have houtcome := hpunctual.quoteOutcome?_ne_none hnow watcher
    obtain ⟨outcome, hsome⟩ := Option.ne_none_iff_exists'.1 houtcome
    simp only [hfound, hsome, Option.bind_eq_bind, Option.bind_some] at hstalled
    split at hstalled <;> cases hstalled
  | awaitPlace placing last =>
    rw [hdesk, hnow] at hstalled
    exact .inr (.inl (hplace hstalled))
  | awaitMove command =>
    rw [hdesk, hnow] at hstalled
    exact .inr (.inl (hplace hstalled))
  | answering event =>
    rw [hdesk, hnow] at hstalled
    exact .inr (.inl (hplace hstalled))
  | ended => exact absurd hnow hopen.running

/-- What the desk waits for at the end of a run. -/
structure WaitsWell (first : Session) (limit : Option Nat) (moves : List Move) : Prop where
  /-- A watcher whose end is awaited has lost its feed, or its first quote had not come when the
  desk began to wait. -/
  awaits : ∀ placing id, (first.run moves).desk = .awaitEnd placing id →
    (first.run moves).AwaitsLost placing id ∨
      ∃ earlier later, moves = earlier ++ later ∧
        AwaitsUnquotedSince first earlier later placing id
  /-- Where there is a limit and it has passed, a desk that waits on has no command to take up, or
  waits for a place; or it waits for a watcher that waits for a place or can go on, unless the
  first quote of that watcher had not come when the desk began to wait. -/
  stalls : ∀ milliseconds, limit = some milliseconds →
    step .desk ((first.run moves).meet (.wait milliseconds)) = none →
    (first.run moves).desk = .idle ∨ (first.run moves).outbox.standing .desk = .waiting ∨
      ∃ placing id, (first.run moves).desk = .awaitEnd placing id ∧
        ((first.run moves).outbox.standing (.watcher id) = .waiting ∨
          step (.watcher id) (first.run moves) ≠ none ∨
          ∃ earlier later, moves = earlier ++ later ∧
            AwaitsUnquotedSince first earlier later placing id)

/-- Whatever the feeds do and in whichever order things happen: the desk waits for the end of a
watcher only if that watcher has lost its feed, or if its first quote had not come when the desk
began to wait. Only in the second case can a desk that has waited out the limit be kept by a
feed. -/
theorem awaited_along (source : Source) (limit : Option Nat) (inboxCapacity outboxCapacity : Nat)
    (moves : List Move)
    (hopen : ((start source limit inboxCapacity outboxCapacity).run moves).IsOpen) :
    WaitsWell (start source limit inboxCapacity outboxCapacity) limit moves := by
  have hstart := marked_start source limit inboxCapacity outboxCapacity
  have hmarked := hstart.run hopen
  have hawaits : ∀ placing id,
      ((start source limit inboxCapacity outboxCapacity).run moves).desk = .awaitEnd placing id →
      _ := fun _ _ hdesk => awaitsLost_or_awaitsUnquotedSince rfl hstart hopen hdesk
  refine ⟨hawaits, fun milliseconds hlimit hstalled => ?_⟩
  have hpunctual := (punctual_start source limit inboxCapacity outboxCapacity).run moves
  rcases hmarked.stalled (hlimit ▸ hpunctual) hstalled hopen with
    hidle | hplace | ⟨placing, id, watcher, hdesk, hwatcher, hrunning⟩
  · exact .inl hidle
  · exact .inr (.inl hplace)
  · refine .inr (.inr ⟨placing, id, hdesk, ?_⟩)
    rcases hawaits placing id hdesk with ⟨lost, hfound, _, hlost⟩ | hunquoted
    · rw [hwatcher] at hfound
      cases hfound
      rcases watcherStep_of_hasLost hwatcher hlost hrunning with hwaiting | hstep
      · exact .inl hwaiting
      · exact .inr (.inl hstep)
    · exact .inr (.inr hunquoted)

/-- A feed is lost and its watcher ends. The next order starts another watcher and is rejected
when no first quote comes within the limit, and then there is one more order. -/
def unquotedMoves : List Move :=
  let order (oid : String) (price : Float) : Command :=
    { kind := .alert, oid, symbol := "X", brokers := ["B"], price }
  [.stimulus (.push ⟨"B", "X"⟩ (.ofPrices "X" [60])), .stimulus (.send (order "a" 500)),
    .turn .desk, .turn (.watcher 0), .turn (.watcher 0), .turn .desk, .turn .desk,
    .stimulus (.breakStream ⟨"B", "X"⟩ "down"), .turn (.watcher 0), .turn (.watcher 0),
    .stimulus (.send (order "b" 65)), .turn .desk, .turn .desk, .turn (.watcher 1),
    .stimulus (.wait 50), .turn .desk, .turn .desk,
    .stimulus (.send (order "c" 65)), .turn .desk]

/-- The session at the end of that run. -/
def unquoted : Session := (start ⟨none, .new⟩ (some 50) 4 8).run unquotedMoves

/-- At the end of that run the session is open, and what its desk waits for is as stated. -/
theorem awaited_along_unquoted :
    unquoted.IsOpen ∧ WaitsWell (start ⟨none, .new⟩ (some 50) 4 8) (some 50) unquotedMoves := by
  have hopen : unquoted.IsOpen := ⟨by decide +kernel, by decide +kernel⟩
  exact ⟨hopen, awaited_along ⟨none, .new⟩ (some 50) 4 8 unquotedMoves hopen⟩

/-- While the desk waits for the end of a watcher that waits for its first quote, time does not
help. -/
theorem stuck_of_opening {placing : Placing} {stream : StreamId}
    (hdesk : session.desk = .awaitEnd placing id)
    (hwatcher : session.watchers[id]? = some watcher) (hphase : watcher.phase = .opening stream)
    (hpending : session.source.replay.peek stream = .pending) (milliseconds : Nat) :
    step .desk (session.meet (.wait milliseconds)) = none ∧
      step (.watcher id) (session.meet (.wait milliseconds)) = none := by
  have hrunning : watcher.phase.isEnded = false := by rw [hphase]; rfl
  constructor
  · simp only [step, deskStep, meet, hdesk, hwatcher, hrunning, Option.bind_eq_bind,
      Option.bind_some, Bool.false_eq_true, if_false]
  · simp only [step, watcherStep, meet, hwatcher, hphase, hpending, takeFirst,
      Option.bind_eq_bind, Option.bind_some]

/-- The desk waits for the end of a watcher that has not lost its feed but waits for its first
quote, and neither of them goes on, however much time passes. -/
theorem awaits_unquoted :
    ∃ placing watcher, unquoted.IsOpen ∧ unquoted.desk = .awaitEnd placing 1 ∧
      unquoted.watchers[1]? = some watcher ∧ watcher.phase.hasLost = false ∧
      ∀ milliseconds, step .desk (unquoted.meet (.wait milliseconds)) = none ∧
        step (.watcher 1) (unquoted.meet (.wait milliseconds)) = none := by
  have hopen : unquoted.IsOpen := ⟨by decide +kernel, by decide +kernel⟩
  obtain ⟨placing, hdesk⟩ := awaited?_eq_some
    (show unquoted.desk.awaited? = some 1 by decide +kernel)
  have hwatcher : unquoted.watchers[1]? =
      some { Watcher.new ⟨"B", "X"⟩ with phase := .opening 1 } := by decide +kernel
  have hpending : unquoted.source.replay.peek 1 = .pending := by decide +kernel
  exact ⟨placing, _, hopen, hdesk, hwatcher, rfl, stuck_of_opening hdesk hwatcher rfl hpending⟩

end Session

end TriggerDesk
