import TriggerDesk.Proofs.Session.Runs

/-!
# Who follows which listing

At any time at most one watcher follows a listing: every watcher that has not ended is the one
started last for its listing, or the one whose end the desk awaits (`Staffed`). So the last price
of a listing and its mark say where that watcher stands, and nobody else changes them.

It follows that the desk stops a watcher only before its first quote, when it holds no events
(`Staffed.held_of_stopped`): no event is lost that way.
-/

namespace TriggerDesk

open Market TriggerDesk.Order Feed

namespace Session

variable {session next : Session} {id other : WatcherId} {watcher after : Watcher}

/-- Watchers and listings belong together. -/
structure Staffed (session : Session) : Prop where
  followed : ∀ (listing : Listing) (id : WatcherId), session.spawned.get? listing = some id →
    ∃ watcher : Watcher, session.watchers[id]? = some watcher ∧ watcher.listing = listing
  awaited : ∀ (placing : Placing) (id : WatcherId), session.desk = .awaitEnd placing id →
    session.spawned.get? placing.listing = none ∧
      ∃ watcher : Watcher, session.watchers[id]? = some watcher ∧ watcher.listing = placing.listing
  /-- A watcher that has not ended is the one of its listing, or its end is awaited. -/
  current : ∀ (id : WatcherId) (watcher : Watcher), session.watchers[id]? = some watcher →
    watcher.phase.isEnded = false →
    session.spawned.get? watcher.listing = some id ∨ session.desk.awaited? = some id
  live : ∀ (id : WatcherId) (watcher : Watcher), session.watchers[id]? = some watcher →
    watcher.phase.tracks = true → session.book.last? watcher.listing ≠ none
  losing : ∀ (id : WatcherId) (watcher : Watcher), session.watchers[id]? = some watcher →
    watcher.phase.isRetiring = true →
    session.book.last? watcher.listing = none ∧ session.book.isRetiring watcher.listing = true

/-- When a session starts, there are no watchers to belong anywhere. -/
theorem staffed_start (source : Source) (limit : Option Nat) (inboxCapacity outboxCapacity : Nat) :
    (start source limit inboxCapacity outboxCapacity).Staffed where
  followed _ _ h := nomatch h
  awaited _ _ h := nomatch h
  current _ _ h := nomatch h
  live _ _ h := nomatch h
  losing _ _ h := nomatch h

/-- The desk awaits an end only in that phase. -/
theorem awaited?_eq_some {desk : Desk} (h : desk.awaited? = some id) :
    ∃ placing, desk = .awaitEnd placing id := by
  cases desk with
  | awaitEnd placing id =>
    cases h
    exact ⟨placing, rfl⟩
  | idle | awaitQuote | awaitPlace | awaitMove | answering | ended => cases h

/-- After a watcher was stopped, each one has ended or is as before. -/
theorem stopped_cases {ending : Watcher.Ending}
    (h : (session.endWatcher id ending).watchers[other]? = some watcher) :
    ∃ old, session.watchers[other]? = some old ∧ watcher.listing = old.listing ∧
      (watcher.phase.isEnded = true ∨ watcher = old) := by
  rw [getElem?_watchers_endWatcher] at h
  split at h
  · obtain ⟨old, hold, rfl⟩ := Option.map_eq_some_iff.1 h
    exact ⟨old, hold, Watcher.listing_stop _ _, .inl (Watcher.isEnded_stop _ _)⟩
  · exact ⟨watcher, h, rfl, .inr rfl⟩

/-- A watcher is still there when one has ended, for the same listing. -/
theorem exists_stopped {ending : Watcher.Ending} (h : session.watchers[other]? = some watcher) :
    ∃ stopped, (session.endWatcher id ending).watchers[other]? = some stopped ∧
      stopped.listing = watcher.listing := by
  rw [getElem?_watchers_endWatcher, h]
  split
  · exact ⟨_, rfl, Watcher.listing_stop _ _⟩
  · exact ⟨_, rfl, rfl⟩

namespace Staffed

/-- No two watchers that have not ended follow the same listing. -/
theorem eq_of_listing (h : session.Staffed) (hid : session.watchers[id]? = some watcher)
    (hother : session.watchers[other]? = some after) (hrunning : watcher.phase.isEnded = false)
    (hrunning' : after.phase.isEnded = false) (hlisting : watcher.listing = after.listing) :
    id = other := by
  rcases h.current id watcher hid hrunning with hspawned | hawaited
  · rcases h.current other after hother hrunning' with hspawned' | hawaited'
    · rw [hlisting, hspawned'] at hspawned
      exact (Option.some.inj hspawned).symm
    · obtain ⟨placing, hdesk⟩ := awaited?_eq_some hawaited'
      obtain ⟨hnone, found, hfound, hplace⟩ := h.awaited placing other hdesk
      rw [hother] at hfound
      cases hfound
      rw [hlisting, hplace, hnone] at hspawned
      cases hspawned
  · rcases h.current other after hother hrunning' with hspawned' | hawaited'
    · obtain ⟨placing, hdesk⟩ := awaited?_eq_some hawaited
      obtain ⟨hnone, found, hfound, hplace⟩ := h.awaited placing id hdesk
      rw [hid] at hfound
      cases hfound
      rw [← hlisting, hplace, hnone] at hspawned'
      cases hspawned'
    · rw [hawaited] at hawaited'
      exact Option.some.inj hawaited'

/-- A watcher of a listing without a last price that did not lose its feed holds no events. -/
theorem held_of_stopped (h : session.Staffed) (hwatcher : session.watchers[id]? = some watcher)
    (hlast : session.book.last? watcher.listing = none)
    (hretiring : session.book.isRetiring watcher.listing = false) : watcher.held = [] := by
  have hlive := h.live id watcher hwatcher
  have hlosing := h.losing id watcher hwatcher
  unfold Watcher.held
  cases hphase : watcher.phase with
  | firing stream event rest prices =>
    rw [hphase] at hlive
    exact absurd hlast (hlive rfl)
  | retiring stream event rest =>
    rw [hphase] at hlosing
    rw [(hlosing rfl).2] at hretiring
    cases hretiring
  | starting | opening | following | ended => rfl

/-! ## Turns of the desk -/

/-- Nothing changes while the desk does something else. -/
theorem of_same (h : session.Staffed) (hstaff : session.SameStaff next)
    (hfeeds : session.book.SameFeeds next.book) (hbefore : session.desk.awaited? = none)
    (hafter : next.desk.awaited? = none) : next.Staffed where
  followed listing id hid := by
    rw [hstaff.spawned] at hid
    rw [hstaff.watchers]
    exact h.followed listing id hid
  awaited placing id hdesk := by
    rw [hdesk] at hafter
    cases hafter
  current id watcher hwatcher hrunning := by
    rw [hstaff.watchers] at hwatcher
    rw [hstaff.spawned]
    rcases h.current id watcher hwatcher hrunning with hspawned | hawaited
    · exact .inl hspawned
    · rw [hbefore] at hawaited
      cases hawaited
  live id watcher hwatcher htracks := by
    rw [hstaff.watchers] at hwatcher
    rw [(hfeeds watcher.listing).1]
    exact h.live id watcher hwatcher htracks
  losing id watcher hwatcher hretiring := by
    rw [hstaff.watchers] at hwatcher
    rw [(hfeeds watcher.listing).1, (hfeeds watcher.listing).2]
    exact h.losing id watcher hwatcher hretiring

/-- The end of a watcher is awaited: it has no listing to itself any more. -/
theorem of_await (h : session.Staffed) {placing : Placing}
    (hwatchers : next.watchers = session.watchers) (hfeeds : session.book.SameFeeds next.book)
    (hbefore : session.desk.awaited? = none)
    (hid : session.spawned.get? placing.listing = some id)
    (hspawned : next.spawned = session.spawned.erase placing.listing)
    (hdesk : next.desk = .awaitEnd placing id) : next.Staffed where
  followed listing found hfound := by
    rw [hspawned, Table.get?_erase] at hfound
    rw [hwatchers]
    split at hfound
    · cases hfound
    · exact h.followed listing found hfound
  awaited placing' id' hdesk' := by
    rw [hdesk] at hdesk'
    cases hdesk'
    rw [hspawned, hwatchers]
    exact ⟨Table.get?_erase_self _ _, h.followed placing.listing id hid⟩
  current found watcher hwatcher hrunning := by
    rw [hwatchers] at hwatcher
    rcases h.current found watcher hwatcher hrunning with hcurrent | hawaited
    · -- Whoever has this listing to itself is the one that is awaited; the others keep theirs.
      by_cases hlisting : watcher.listing = placing.listing
      · rw [hlisting, hid] at hcurrent
        exact .inr (by rw [hdesk, ← hcurrent]; rfl)
      · rw [hspawned, Table.get?_erase_of_ne _ hlisting]
        exact .inl hcurrent
    · rw [hbefore] at hawaited
      cases hawaited
  live found watcher hwatcher htracks := by
    rw [hwatchers] at hwatcher
    rw [(hfeeds watcher.listing).1]
    exact h.live found watcher hwatcher htracks
  losing found watcher hwatcher hretiring := by
    rw [hwatchers] at hwatcher
    rw [(hfeeds watcher.listing).1, (hfeeds watcher.listing).2]
    exact h.losing found watcher hwatcher hretiring

/-- A new watcher has its listing to itself where nobody who follows that listing is running. -/
theorem of_start (h : session.Staffed) {placing : Placing} {deadline : Option Nat}
    {kept : List Watcher}
    (hkept : ∀ (id : WatcherId) (watcher : Watcher), kept[id]? = some watcher →
      ∃ old, session.watchers[id]? = some old ∧ watcher.listing = old.listing ∧
        (watcher.phase.isEnded = true ∨ watcher = old))
    (hall : ∀ (id : WatcherId) (old : Watcher), session.watchers[id]? = some old →
      ∃ watcher, kept[id]? = some watcher ∧ watcher.listing = old.listing)
    (hvacant : ∀ (id : WatcherId) (watcher : Watcher), kept[id]? = some watcher →
      watcher.phase.isEnded = false →
      watcher.listing ≠ placing.listing ∧ session.spawned.get? watcher.listing = some id)
    (hfeeds : session.book.SameFeeds next.book)
    (hwatchers : next.watchers = kept ++ [Watcher.new placing.listing])
    (hspawned : ∀ listing, next.spawned.get? listing =
      if listing = placing.listing then some kept.length else session.spawned.get? listing)
    (hdesk : next.desk = .awaitQuote placing kept.length deadline) : next.Staffed := by
  -- Everybody who is there afterwards was kept or is the new watcher.
  have hcases : ∀ (id : WatcherId) (watcher : Watcher), next.watchers[id]? = some watcher →
      kept[id]? = some watcher ∨ id = kept.length ∧ watcher = Watcher.new placing.listing := by
    intro id watcher hwatcher
    rw [hwatchers, List.getElem?_append] at hwatcher
    split at hwatcher
    · exact .inl hwatcher
    · next hlength =>
      obtain ⟨hzero, hnew⟩ := List.getElem?_eq_some_iff.1 hwatcher
      have hle : id ≤ kept.length := Nat.sub_eq_zero_iff_le.1 (Nat.lt_one_iff.1 hzero)
      exact .inr ⟨Nat.le_antisymm hle (Nat.le_of_not_lt hlength), by simpa using hnew.symm⟩
  have hnew : next.watchers[kept.length]? = some (Watcher.new placing.listing) := by
    rw [hwatchers]
    simp
  exact {
    followed := by
      intro listing id hid
      rw [hspawned] at hid
      split at hid
      · next heq =>
        cases hid
        exact ⟨_, hnew, heq.symm⟩
      · obtain ⟨old, hold, hlisting⟩ := h.followed listing id hid
        obtain ⟨watcher, hwatcher, hsame⟩ := hall id old hold
        refine ⟨watcher, ?_, hsame.trans hlisting⟩
        rw [hwatchers, List.getElem?_append_left (List.getElem?_eq_some_iff.1 hwatcher).1]
        exact hwatcher
    awaited := by
      intro placing' id hawait
      rw [hdesk] at hawait
      cases hawait
    current := by
      intro id watcher hwatcher hrunning
      rw [hspawned]
      rcases hcases id watcher hwatcher with hold | ⟨rfl, rfl⟩
      · obtain ⟨hne, hcurrent⟩ := hvacant id watcher hold hrunning
        rw [if_neg hne]
        exact .inl hcurrent
      · exact .inl (if_pos rfl)
    live := by
      intro id watcher hwatcher htracks
      rcases hcases id watcher hwatcher with hold | ⟨rfl, rfl⟩
      · obtain ⟨old, hsome, _, hended | rfl⟩ := hkept id watcher hold
        · rw [(Watcher.Phase.not_retiring_of_tracks htracks).2] at hended
          cases hended
        · rw [(hfeeds _).1]
          exact h.live id _ hsome htracks
      · cases htracks
    losing := by
      intro id watcher hwatcher hretiring
      rcases hcases id watcher hwatcher with hold | ⟨rfl, rfl⟩
      · obtain ⟨old, hsome, _, hended | rfl⟩ := hkept id watcher hold
        · rw [Watcher.Phase.not_ended_of_retiring hretiring] at hended
          cases hended
        · rw [(hfeeds _).1, (hfeeds _).2]
          exact h.losing id _ hsome hretiring
      · cases hretiring }

/-- Where a watcher is to be started, nobody is running. -/
theorem vacant (h : session.Staffed) {placing : Placing}
    (hvacant : session.desk.IsFree ∧ session.spawned.get? placing.listing = none ∨
      ∃ id watcher, session.desk = .awaitEnd placing id ∧
        session.watchers[id]? = some watcher ∧ watcher.phase.isEnded = true)
    (hwatcher : session.watchers[id]? = some watcher) (hrunning : watcher.phase.isEnded = false) :
    watcher.listing ≠ placing.listing ∧ session.spawned.get? watcher.listing = some id := by
  have hnone : session.spawned.get? placing.listing = none := by
    rcases hvacant with ⟨_, hnone⟩ | ⟨awaited, _, hdesk, _⟩
    · exact hnone
    · exact (h.awaited placing awaited hdesk).1
  rcases h.current id watcher hwatcher hrunning with hcurrent | hwaits
  · refine ⟨fun hlisting => ?_, hcurrent⟩
    rw [hlisting, hnone] at hcurrent
    cases hcurrent
  · rcases hvacant with ⟨hbefore, _⟩ | ⟨awaited, found, hdesk, hfound, hended⟩
    · rw [hbefore.awaited] at hwaits
      cases hwaits
    · rw [hdesk] at hwaits
      cases hwaits
      -- The one that is awaited has ended, so it is not the one that is running.
      rw [hwatcher] at hfound
      cases hfound
      rw [hended] at hrunning
      cases hrunning

/-- Every turn of the desk keeps watchers and listings together. -/
theorem of_deskTurn (h : session.Staffed) {deed : Deed} (hturn : session.DeskTurn next deed)
    (hrunning : next.desk ≠ .ended) : next.Staffed := by
  have hawaited : ∀ {desk : Desk}, next.desk = desk → desk.awaited? = none →
      next.desk.awaited? = none := fun hdesk hnone => hdesk ▸ hnone
  cases hturn with
  | refuse command rejection hstill hstaff hbefore _ hdesk =>
    exact h.of_same hstaff hstill.sameFeeds hbefore.awaited (hawaited hdesk rfl)
  | arm placing last hstill hstaff hbefore _ _ _ hdesk =>
    exact h.of_same hstaff hstill.sameFeeds hbefore.awaited (hawaited hdesk rfl)
  | prepare command hstill hstaff hbefore _ _ hdesk =>
    exact h.of_same hstaff hstill.sameFeeds hbefore.awaited (hawaited hdesk rfl)
  | cancel command order hbeside hstaff hidle _ _ hremove _ hdesk =>
    exact h.of_same hstaff (Book.sameFeeds_of_remove hremove) (by rw [hidle]; rfl)
      (hawaited hdesk rfl)
  | place placing last order hbeside hstaff hplace _ _ hinsert _ hdesk =>
    exact h.of_same hstaff (Book.sameFeeds_of_insert hinsert) (by rw [hplace]; rfl)
      (hawaited hdesk rfl)
  | move command moved hbeside hstaff hmove _ hmodify hbook _ hdesk =>
    exact h.of_same hstaff (hbook ▸ Book.sameFeeds_of_modify hmodify) (by rw [hmove]; rfl)
      (hawaited hdesk rfl)
  | deliver event hbeside hstaff hanswering _ hbook _ hdesk =>
    exact h.of_same hstaff (hbook ▸ fun _ => ⟨rfl, rfl⟩) (by rw [hanswering]; rfl)
      (hawaited hdesk rfl)
  | await placing id hstill hwatchers hbefore _ _ hid _ hspawned hdesk =>
    exact h.of_await hwatchers hstill.sameFeeds hbefore.awaited hid hspawned hdesk
  | start placing deadline hstill _ _ hvacant hwatchers hspawned hdesk =>
    exact h.of_start (fun id watcher hwatcher => ⟨watcher, hwatcher, rfl, .inr rfl⟩)
      (fun id old hold => ⟨old, hold, rfl⟩) (fun id watcher => h.vacant hvacant)
      hstill.sameFeeds hwatchers (fun listing => by rw [hspawned, Table.get?_set]) hdesk
  | restart placing id deadline stopped hstill hbefore _ _ hid hlast hretiring hstopped hwatchers
      hspawned hdesk =>
    subst hstopped
    refine h.of_start (fun found watcher hwatcher => stopped_cases hwatcher)
      (fun found old hold => exists_stopped hold) (fun found watcher hwatcher hrunning => ?_)
      hstill.sameFeeds hwatchers (fun listing => ?_) hdesk
    · rw [getElem?_watchers_endWatcher] at hwatcher
      split at hwatcher
      · obtain ⟨old, _, rfl⟩ := Option.map_eq_some_iff.1 hwatcher
        rw [Watcher.isEnded_stop] at hrunning
        cases hrunning
      · next hne =>
        -- Only the watcher that was stopped had the listing to itself.
        rcases h.current found watcher hwatcher hrunning with hcurrent | hwaits
        · refine ⟨fun hlisting => hne ?_, hcurrent⟩
          rw [hlisting, hid] at hcurrent
          exact Option.some.inj hcurrent
        · rw [hbefore.awaited] at hwaits
          cases hwaits
    · rw [hspawned, Table.get?_set, Table.get?_erase]
      split <;> rfl
  | shutDown deed _ _ hdesk => exact absurd hdesk hrunning

/-! ## Watchers that the desk keeps -/

end Staffed

/-- The watchers that a turn of the desk keeps: all of them, or one is stopped that has no last
price and did not lose its feed. -/
inductive Keeps (session : Session) : List Watcher → Prop
  | all : Keeps session session.watchers
  | butOne (listing : Listing) (id : WatcherId) (watcher : Watcher) :
      session.spawned.get? listing = some id → session.watchers[id]? = some watcher →
      session.book.last? listing = none → session.book.isRetiring listing = false →
      Keeps session (session.watchers.set id (watcher.stop .aborted))

/-- After a turn of the desk there are the watchers that it keeps, and perhaps a new one. -/
theorem DeskTurn.keeps {deed : Deed} (h : session.DeskTurn next deed)
    (hrunning : next.desk ≠ .ended) :
    ∃ kept more, session.Keeps kept ∧ next.watchers = kept ++ more ∧
      ∀ watcher ∈ more, watcher = Watcher.new watcher.listing := by
  have hnew : ∀ {listing : Listing}, ∀ watcher ∈ [Watcher.new listing],
      watcher = Watcher.new watcher.listing := by
    intro listing watcher hwatcher
    rw [List.mem_singleton.1 hwatcher]
    rfl
  have hall : next.watchers = session.watchers → ∃ kept more, session.Keeps kept ∧
      next.watchers = kept ++ more ∧ ∀ watcher ∈ more, watcher = Watcher.new watcher.listing :=
    fun hwatchers => ⟨_, [], .all, hwatchers.trans (List.append_nil _).symm,
      fun _ hwatcher => nomatch hwatcher⟩
  cases h with
  | refuse _ _ _ hstaff | arm _ _ _ hstaff | prepare _ _ hstaff | cancel _ _ _ hstaff
  | place _ _ _ _ hstaff | move _ _ _ hstaff | deliver _ _ hstaff =>
    exact hall hstaff.watchers
  | await _ _ _ hwatchers => exact hall hwatchers
  | start _ _ _ _ _ _ hwatchers => exact ⟨_, _, .all, hwatchers, hnew⟩
  | restart placing id _ stopped _ _ _ _ hid hlast hretiring hstopped hwatchers =>
    refine ⟨stopped, _, ?_, hwatchers, hnew⟩
    cases hfound : session.watchers[id]? with
    | none =>
      have hkept : stopped = session.watchers := by
        refine hstopped.trans (List.ext_getElem? fun other => ?_)
        rw [getElem?_watchers_endWatcher]
        split
        · next heq => rw [← heq, hfound]; rfl
        · rfl
      exact hkept ▸ .all
    | some watcher =>
      have hkept : stopped = session.watchers.set id (watcher.stop .aborted) :=
        hstopped.trans (replaces_endWatcher hfound .aborted).watchers_eq
      exact hkept ▸ .butOne placing.listing id watcher hid hfound hlast hretiring
  | shutDown _ _ _ hdesk => exact absurd hdesk hrunning

/-- A watcher that is there when the desk takes a turn stays, or is stopped before it lost
anything. -/
theorem Staffed.stays_of_deskTurn (h : session.Staffed) {deed : Deed}
    (hturn : session.DeskTurn next deed) (hopen : next.IsOpen)
    (hwatcher : session.watchers[id]? = some watcher) :
    next.watchers[id]? = some watcher ∨ next.watchers[id]? = some (watcher.stop .aborted) ∧
      session.book.last? watcher.listing = none ∧
      session.book.isRetiring watcher.listing = false := by
  obtain ⟨kept, more, hkeeps, hwatchers, _⟩ := hturn.keeps hopen.running
  have hfront : ∀ {found : Watcher}, kept[id]? = some found → next.watchers[id]? = some found := by
    intro found hfound
    rw [hwatchers, List.getElem?_append_left (List.getElem?_eq_some_iff.1 hfound).1]
    exact hfound
  cases hkeeps with
  | all => exact .inl (hfront hwatcher)
  | butOne listing stopped old hid hold hlast hretiring =>
    by_cases heq : stopped = id
    · subst heq
      rw [hwatcher] at hold
      cases hold
      obtain ⟨found, hfound, hlisting⟩ := h.followed listing stopped hid
      rw [hwatcher] at hfound
      cases hfound
      refine .inr ⟨hfront ?_, hlisting ▸ hlast, hlisting ▸ hretiring⟩
      rw [List.getElem?_set_self (List.getElem?_eq_some_iff.1 hwatcher).1]
    · refine .inl (hfront ?_)
      rw [List.getElem?_set_ne heq]
      exact hwatcher

/-- A watcher that is there when the desk has taken a turn was there before, is new, or was
stopped before it lost anything. -/
theorem Staffed.watchers_of_deskTurn (h : session.Staffed) {deed : Deed}
    (hturn : session.DeskTurn next deed) (hopen : next.IsOpen)
    (hwatcher : next.watchers[id]? = some watcher) :
    session.watchers[id]? = some watcher ∨ watcher = Watcher.new watcher.listing ∨
      ∃ old, session.watchers[id]? = some old ∧ watcher = old.stop .aborted ∧
        session.book.last? old.listing = none ∧ session.book.isRetiring old.listing = false := by
  cases hbefore : session.watchers[id]? with
  | some old =>
    rcases h.stays_of_deskTurn hturn hopen hbefore with hkept | ⟨hstopped, hlost⟩
    · rw [hwatcher] at hkept
      exact .inl (hkept ▸ rfl)
    · rw [hwatcher] at hstopped
      exact .inr (.inr ⟨old, rfl, Option.some.inj hstopped, hlost⟩)
  | none =>
    obtain ⟨kept, more, hkeeps, hwatchers, hnew⟩ := hturn.keeps hopen.running
    have hlength : kept.length = session.watchers.length := by
      cases hkeeps with
      | all => rfl
      | butOne => exact List.length_set
    rw [hwatchers, List.getElem?_append_right
      (hlength ▸ List.getElem?_eq_none_iff.1 hbefore)] at hwatcher
    exact .inr (.inl (hnew watcher (List.mem_of_getElem? hwatcher)))

namespace Staffed

/-! ## Turns of the watchers -/

/-- A watcher changes at most its own listing. -/
theorem of_replaces (h : session.Staffed) (hreplaces : session.Replaces next id watcher after)
    (hrunning : watcher.phase.isEnded = false)
    (hothers : ∀ listing, listing ≠ watcher.listing → next.book.lane listing =
      session.book.lane listing)
    (hlive : after.phase.tracks = true → next.book.last? watcher.listing ≠ none)
    (hlosing : after.phase.isRetiring = true → next.book.last? watcher.listing = none ∧
      next.book.isRetiring watcher.listing = true) : next.Staffed := by
  have hstays : ∀ (found : WatcherId) (watcher' : Watcher),
      session.watchers[found]? = some watcher' →
      ∃ later, next.watchers[found]? = some later ∧ later.listing = watcher'.listing := by
    intro found watcher' hfound
    by_cases heq : found = id
    · subst heq
      rw [hreplaces.was] at hfound
      cases hfound
      exact ⟨after, hreplaces.becomes, hreplaces.listing⟩
    · exact ⟨watcher', (hreplaces.others found heq).trans hfound, rfl⟩
  -- Nobody else who is running follows the listing, so their lanes are untouched.
  have hlane : ∀ (found : WatcherId) (watcher' : Watcher), found ≠ id →
      session.watchers[found]? = some watcher' → watcher'.phase.isEnded = false →
      next.book.lane watcher'.listing = session.book.lane watcher'.listing := by
    intro found watcher' hne hfound hrunning'
    exact hothers _ fun hlisting =>
      hne (h.eq_of_listing hfound hreplaces.was hrunning' hrunning hlisting)
  exact {
    followed := by
      intro listing found hspawned
      rw [hreplaces.spawned] at hspawned
      obtain ⟨watcher', hfound, hlisting⟩ := h.followed listing found hspawned
      obtain ⟨later, hlater, hsame⟩ := hstays found watcher' hfound
      exact ⟨later, hlater, hsame.trans hlisting⟩
    awaited := by
      intro placing found hdesk
      rw [hreplaces.desk] at hdesk
      obtain ⟨hnone, watcher', hfound, hlisting⟩ := h.awaited placing found hdesk
      obtain ⟨later, hlater, hsame⟩ := hstays found watcher' hfound
      exact ⟨hreplaces.spawned ▸ hnone, later, hlater, hsame.trans hlisting⟩
    current := by
      intro found later hlater hrunning'
      rw [hreplaces.spawned, hreplaces.desk]
      by_cases heq : found = id
      · subst heq
        rw [hreplaces.becomes] at hlater
        cases hlater
        rw [hreplaces.listing]
        exact h.current found watcher hreplaces.was hrunning
      · rw [hreplaces.others found heq] at hlater
        exact h.current found later hlater hrunning'
    live := by
      intro found later hlater htracks
      by_cases heq : found = id
      · subst heq
        rw [hreplaces.becomes] at hlater
        cases hlater
        rw [hreplaces.listing]
        exact hlive htracks
      · rw [hreplaces.others found heq] at hlater
        have hended := (Watcher.Phase.not_retiring_of_tracks htracks).2
        rw [Book.last?, hlane found later heq hlater hended]
        exact h.live found later hlater htracks
    losing := by
      intro found later hlater hretiring
      by_cases heq : found = id
      · subst heq
        rw [hreplaces.becomes] at hlater
        cases hlater
        rw [hreplaces.listing]
        exact hlosing hretiring
      · rw [hreplaces.others found heq] at hlater
        have hended := Watcher.Phase.not_ended_of_retiring hretiring
        rw [Book.last?, Book.isRetiring, hlane found later heq hlater hended]
        exact h.losing found later hlater hretiring }

/-- Every turn of a watcher keeps watchers and listings together. -/
theorem of_watcherTurn (h : session.Staffed) {deed : Deed}
    (hreplaces : session.Replaces next id watcher after)
    (hturn : session.WatcherTurn next watcher after deed)
    (hopen : next.IsOpen) : next.Staffed := by
  cases hturn with
  | quiet hbook _ _ _ htracks _ hnot hrunning =>
    refine h.of_replaces hreplaces hrunning (fun listing _ => by rw [hbook]) (fun hlive => ?_)
      (fun hretiring => ?_)
    · rw [hbook]
      exact h.live id watcher hreplaces.was (htracks hlive)
    · rw [hnot] at hretiring
      cases hretiring
  | goLive price hbook _ _ _ _ htracks hrunning =>
    refine h.of_replaces hreplaces hrunning (fun listing hne => ?_) (fun _ => ?_)
      (fun hretiring => ?_)
    · rw [hbook, Book.lane_setLast, if_neg hne]
    · rw [hbook, Book.last?, Book.lane_setLast, if_pos rfl]
      exact Option.some_ne_none price
    · rw [(Watcher.Phase.not_retiring_of_tracks htracks).1] at hretiring
      cases hretiring
  | tick price orders hevaluate _ _ _ hbefore htracks =>
    have hbook : next.book =
        ((session.book.setLast watcher.listing price).evaluate watcher.listing price).2 := by
      rw [hevaluate]
    refine h.of_replaces hreplaces (Watcher.Phase.not_retiring_of_tracks hbefore).2
      (fun listing hne => ?_) (fun _ => ?_) (fun hretiring => ?_)
    · rw [hbook, Book.lane_evaluate, if_neg hne, Book.lane_setLast, if_neg hne]
    · rw [hbook, Book.last?, Book.lane_evaluate, if_pos rfl, Book.lane_setLast, if_pos rfl]
      exact Option.some_ne_none price
    · rw [(Watcher.Phase.not_retiring_of_tracks htracks).1] at hretiring
      cases hretiring
  | lose reason orders hretire _ _ _ hbefore hlost =>
    have hbook : next.book = (session.book.retire watcher.listing).2 := by
      rw [hretire]
    have hlast := h.live id watcher hreplaces.was hbefore
    -- A watcher that is live has a lane, so there is one to mark as retiring.
    refine h.of_replaces hreplaces (Watcher.Phase.not_retiring_of_tracks hbefore).2
      (fun listing hne => ?_) (fun htracks => ?_) (fun _ => ?_)
    · rw [hbook, Book.lane_retire_of_ne _ hne]
    · rw [hlost] at htracks
      cases htracks
    · rw [hbook, Book.last?, Book.isRetiring, Book.lane_retire_self _ hlast]
      exact ⟨rfl, rfl⟩
  | deliver event hbook _ _ htracks hretiring hrunning =>
    refine h.of_replaces hreplaces hrunning (fun listing _ => by rw [hbook]) (fun hlive => ?_)
      (fun hlosing => ?_)
    · rw [hbook]
      exact h.live id watcher hreplaces.was (htracks hlive)
    · rw [hbook]
      exact h.losing id watcher hreplaces.was (hretiring hlosing)
  | leave deed hleft =>
    rw [← hreplaces.receiving, hopen.receiving] at hleft
    cases hleft

/-- A turn keeps watchers and listings together. -/
theorem of_step (h : session.Staffed) {actor : Actor} (hstep : step actor session = some next)
    (hopen : next.IsOpen) : next.Staffed := by
  cases actor with
  | desk => exact h.of_deskTurn (deskTurn_of_deskStep hstep) hopen.running
  | watcher id =>
    obtain ⟨watcher, after, hreplaces, hturn⟩ := watcherTurn_of_watcherStep hstep
    exact h.of_watcherTurn hreplaces hturn hopen

/-- What the client and the market do keeps watchers and listings together. -/
theorem of_undisturbed (h : session.Staffed) (hsame : session.Undisturbed next) :
    next.Staffed where
  followed := by
    rw [hsame.spawned, hsame.watchers]
    exact h.followed
  awaited := by
    rw [hsame.desk, hsame.spawned, hsame.watchers]
    exact h.awaited
  current := by
    rw [hsame.desk, hsame.spawned, hsame.watchers]
    exact h.current
  live := by
    rw [hsame.book, hsame.watchers]
    exact h.live
  losing := by
    rw [hsame.book, hsame.watchers]
    exact h.losing

end Staffed

/-! ## Sound sessions -/

/-- The desk works on proper commands only. -/
theorem DeskTurn.isProper {deed : Deed} (h : session.DeskTurn next deed)
    (hproper : session.desk.IsProper) : next.desk.IsProper := by
  have hnone : ∀ {desk : Desk}, next.desk = desk → desk.command? = none → next.desk.IsProper := by
    intro desk hdesk hcommand
    rw [hdesk]
    cases desk with
    | idle | answering | ended => exact ⟨nofun, nofun⟩
    | awaitEnd | awaitQuote | awaitPlace | awaitMove => cases hcommand
  have hsome : ∀ {desk : Desk} {placing : Placing}, next.desk = desk →
      desk.placing? = some placing → placing.IsProper → next.desk.IsProper := by
    intro desk placing hdesk hplacing hgood
    rw [hdesk]
    refine ⟨fun found hfound => ?_, fun command hmoving => ?_⟩
    · rw [hplacing] at hfound
      cases hfound
      exact hgood
    · cases desk with
      | awaitMove => cases hplacing
      | idle | awaitEnd | awaitQuote | awaitPlace | answering | ended => cases hmoving
  cases h with
  | refuse _ _ _ _ _ _ hdesk => exact hnone hdesk rfl
  | arm placing _ _ _ _ _ hplacing _ hdesk => exact hsome hdesk rfl (hplacing hproper)
  | await placing _ _ _ _ _ hplacing _ _ _ hdesk => exact hsome hdesk rfl (hplacing hproper)
  | start placing _ _ _ hplacing _ _ _ hdesk => exact hsome hdesk rfl (hplacing hproper)
  | restart placing _ _ _ _ _ _ hplacing _ _ _ _ _ _ hdesk =>
    exact hsome hdesk rfl (hplacing hproper)
  | prepare command _ _ _ _ hkind hdesk =>
    rw [hdesk]
    refine ⟨nofun, fun found hfound => ?_⟩
    cases hfound
    exact hkind
  | cancel _ _ _ _ _ _ _ _ _ hdesk => exact hnone hdesk rfl
  | place _ _ _ _ _ _ _ _ _ _ hdesk => exact hnone hdesk rfl
  | move _ _ _ _ _ _ _ _ _ hdesk => exact hnone hdesk rfl
  | deliver _ _ _ _ _ _ _ hdesk => exact hnone hdesk rfl
  | shutDown _ _ _ hdesk => exact hnone hdesk rfl

/-- What holds of a session as long as it is open. -/
structure Sound (session : Session) : Prop where
  staffed : session.Staffed
  proper : session.desk.IsProper

/-- A session is sound when it starts. -/
theorem sound_start (source : Source) (limit : Option Nat) (inboxCapacity outboxCapacity : Nat) :
    (start source limit inboxCapacity outboxCapacity).Sound :=
  ⟨staffed_start _ _ _ _, nofun, nofun⟩

/-- A turn keeps an open session sound. -/
theorem Sound.of_step (h : session.Sound) {actor : Actor} (hstep : step actor session = some next)
    (hopen : next.IsOpen) : next.Sound := by
  refine ⟨h.staffed.of_step hstep hopen, ?_⟩
  cases actor with
  | desk => exact (deskTurn_of_deskStep hstep).isProper h.proper
  | watcher id =>
    obtain ⟨watcher, after, hreplaces, _⟩ := watcherTurn_of_watcherStep hstep
    exact hreplaces.desk ▸ h.proper

/-- What the client and the market do keeps a session sound. -/
theorem Sound.of_undisturbed (h : session.Sound) (hsame : session.Undisturbed next) : next.Sound :=
  ⟨h.staffed.of_undisturbed hsame, hsame.desk ▸ h.proper⟩

end Session

end TriggerDesk
