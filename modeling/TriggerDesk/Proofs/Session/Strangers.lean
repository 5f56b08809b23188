import TriggerDesk.Proofs.Session.Shares
import TriggerDesk.Proofs.Session.Stages

/-!
# Turns for other listings

A turn of the desk on an order of another listing, and a turn of a watcher of another listing, take
nothing from the share of a listing and add nothing to it (`strangers_of_deskStep`,
`strangers_of_watcherStep`). So a session that has the share of the listing before such a turn has
it afterwards (`Share.of_strangers`).
-/

namespace TriggerDesk

open Market TriggerDesk.Order Feed

namespace Session

variable {owner : String → Listing} {listing : Listing} {session next whole part : Session}
  {id : WatcherId} {watcher : Watcher} {oid : String}

/-- The watchers of a listing stay as they are, and none is started. -/
structure SameFollowers (listing : Listing) (session next : Session) : Prop where
  watchers : ∀ (id : WatcherId) (watcher : Watcher), next.watchers[id]? = some watcher →
    watcher.listing = listing → session.watchers[id]? = some watcher
  listings : ∃ more, next.listings = session.listings ++ more ∧ listing ∉ more
  spawned : next.spawned.get? listing = session.spawned.get? listing

/-- Nothing that a listing has of the session changes. -/
structure Strangers (owner : String → Listing) (listing : Listing) (session next : Session) : Prop
    extends SameFollowers listing session next where
  clock : next.clock = session.clock
  limit : next.limit = session.limit
  inbox : ({ next.inbox with items := next.inbox.items.filter (owner ·.oid = listing) } :
      Channel Command) =
    { session.inbox with items := session.inbox.items.filter (owner ·.oid = listing) }
  receiving : next.outbox.receiving = session.outbox.receiving
  events : next.outbox.events.filter (owner ·.oid = listing) =
    session.outbox.events.filter (owner ·.oid = listing)
  book : Book.AlikeAt owner listing session.book next.book

/-- The share of a listing is left by what is done for others. -/
theorem Share.of_strangers (h : Share owner listing whole part)
    (hstrangers : Strangers owner listing whole next) (howned : next.book.Owned owner) :
    Share owner listing next part := by
  obtain ⟨more, hlistings, hmore⟩ := hstrangers.listings
  -- New watchers come last and are of other listings, so the ranks stay.
  have hrank : ∀ {id : WatcherId}, id ≤ whole.watchers.length →
      next.rank listing id = whole.rank listing id := rank_append hlistings
  exact {
    clock := h.clock.trans hstrangers.clock.symm
    limit := h.limit.trans hstrangers.limit.symm
    inbox := h.inbox.trans hstrangers.inbox.symm
    receiving := h.receiving.trans hstrangers.receiving.symm
    events := h.events.trans hstrangers.events.symm
    book := h.book.of_alikeAt hstrangers.book
    watchers := by
      intro id watcher hwatcher hlisting
      have hold := hstrangers.watchers id watcher hwatcher hlisting
      rw [hrank (Nat.le_of_lt (List.getElem?_eq_some_iff.1 hold).1)]
      exact h.watchers id watcher hold hlisting
    size := by
      rw [h.size, rank_length, rank_length, hlistings, List.count_append,
        List.count_eq_zero_of_not_mem hmore, Nat.add_zero]
    spawned := by
      rw [h.spawned, hstrangers.spawned]
      cases hid : whole.spawned.get? listing with
      | none => rfl
      | some id =>
        obtain ⟨watcher, hwatcher, _⟩ := h.followed id hid
        rw [Option.map_some, Option.map_some,
          hrank (Nat.le_of_lt (List.getElem?_eq_some_iff.1 hwatcher).1)]
    owned := howned
    followed := by
      intro id hid
      obtain ⟨watcher, hwatcher, hlisting⟩ := h.followed id (hstrangers.spawned ▸ hid)
      have hwas : whole.listings[id]? = some listing := hlisting ▸ listings_of_watcher hwatcher
      refine exists_watcher ?_
      rw [hlistings, List.getElem?_append_left (List.getElem?_eq_some_iff.1 hwas).1, hwas] }

/-! ## The desk -/

/-- A desk that has no answer works on the first command of the docket, or takes it up. -/
theorem subject?_of_docket {command : Command} {rest : List Command}
    (hanswer : session.desk.answer? = none) (hdocket : session.docket = command :: rest) :
    session.subject? = some command.oid := by
  unfold subject?
  unfold docket at hdocket
  cases hdesk : session.desk with
  | answering event =>
    rw [hdesk] at hanswer
    cases hanswer
  | idle | ended =>
    rw [hdesk] at hdocket
    rw [show session.inbox.items = command :: rest from hdocket]
    rfl
  | awaitEnd | awaitQuote | awaitPlace | awaitMove =>
    rw [hdesk] at hdocket
    cases hdocket
    rfl

/-- What the desk works on is what its next turn is about. -/
theorem subject?_of_desk (hoid : session.desk.oid? = some oid) : session.subject? = some oid := by
  rw [subject?, hoid]
  rfl

/-- A desk that goes on with an order does so for the id that its turn was about. -/
theorem DeskTurn.subject?_eq {deed : Deed} (h : session.DeskTurn next deed)
    (howned : session.Owned owner) (hrunning : next.desk ≠ .ended) :
    next.desk = .idle ∨ next.desk.oid? = session.subject? := by
  have hcommand : ∀ {command : Command}, next.docket = session.docket →
      session.desk.answer? = none → next.desk.command? = some command →
      some command.oid = session.subject? := fun hdocket hanswer hdesk =>
    (subject?_of_docket hanswer (hdocket.symm.trans (docket_of_command hdesk))).symm
  cases h with
  | refuse command _ _ _ hfree hdocket hdesk =>
    rw [hdesk]
    exact .inr (subject?_of_docket hfree.answer hdocket).symm
  | cancel command order _ _ hidle hdocket _ hremove _ hdesk =>
    rw [hdesk]
    refine .inr (Eq.trans ?_ (subject?_of_docket (by rw [hidle]; rfl) hdocket).symm)
    exact congrArg some (howned.book.oid_of_remove hremove)
  | arm _ _ _ _ hfree hdocket _ _ hdesk | await _ _ _ _ hfree hdocket _ _ _ _ hdesk
  | restart _ _ _ _ _ hfree hdocket _ _ _ _ _ _ _ hdesk | prepare _ _ _ hfree hdocket _ hdesk =>
    have hsame := hcommand hdocket hfree.answer (by rw [hdesk]; rfl)
    rw [hdesk]
    exact .inr hsame
  | start _ _ _ hdocket _ hvacant _ _ hdesk =>
    have hsame := hcommand hdocket (answer_of_vacant hvacant) (by rw [hdesk]; rfl)
    rw [hdesk]
    exact .inr hsame
  | place _ _ _ _ _ _ _ _ _ _ hdesk | move _ _ _ _ _ _ _ _ _ hdesk
  | deliver _ _ _ _ _ _ _ hdesk => exact .inl hdesk
  | shutDown _ _ _ hdesk => exact absurd hdesk hrunning

section Desk

variable {deed : Deed}

/-- The listing of an order that the desk goes on with is another one. -/
theorem DeskTurn.ne_of_placing (h : session.DeskTurn next deed) (howned : session.Owned owner)
    (hrunning : next.desk ≠ .ended) (hsubject : session.subject? = some oid)
    (hother : owner oid ≠ listing) (placing : Placing)
    (hplacing : next.desk.placing? = some placing) : placing.listing ≠ listing := by
  have howner := (howned.of_deskTurn h hrunning).owner_of_placing placing hplacing
  have hoid : next.desk.oid? = some placing.command.oid ∧ next.desk ≠ .idle := by
    cases hdesk : next.desk with
    | awaitEnd | awaitQuote | awaitPlace =>
      rw [hdesk] at hplacing
      cases hplacing
      exact ⟨rfl, nofun⟩
    | idle | awaitMove | answering | ended =>
      rw [hdesk] at hplacing
      cases hplacing
  rcases h.subject?_eq howned hrunning with hidle | hsame
  · exact absurd hidle hoid.2
  · rw [hoid.1, hsubject] at hsame
    cases hsame
    exact howner ▸ hother

/-- The events of the listing stay as they are. -/
theorem DeskTurn.events_of_stranger (h : session.DeskTurn next deed) (howned : session.Owned owner)
    (hrunning : next.desk ≠ .ended) (hsubject : session.subject? = some oid)
    (hother : owner oid ≠ listing) :
    next.outbox.events.filter (owner ·.oid = listing) =
      session.outbox.events.filter (owner ·.oid = listing) := by
  have hput : ∀ {event : Event}, event.oid = oid →
      next.outbox.events = session.outbox.events ++ [event] →
      next.outbox.events.filter (owner ·.oid = listing) =
        session.outbox.events.filter (owner ·.oid = listing) := by
    rintro event rfl hevents
    rw [hevents, List.filter_append, List.filter_cons_of_neg (by simpa using hother),
      List.filter_nil, List.append_nil]
  have hdeskOid : ∀ {other : String}, session.desk.oid? = some other → other = oid :=
    fun hoid => Option.some.inj ((subject?_of_desk hoid).symm.trans hsubject)
  cases h with
  | refuse _ _ hstill | arm _ _ hstill | await _ _ hstill | start _ _ hstill
  | restart _ _ _ _ hstill | prepare _ hstill => rw [hstill.events]
  | cancel _ _ _ _ _ _ _ _ hevents => rw [hevents]
  | place placing last order _ _ hdesk _ horder _ hevents =>
    exact hput (horder ▸ hdeskOid (by rw [hdesk]; rfl)) hevents
  | move command moved _ _ hdesk _ hmodify _ hevents =>
    exact hput ((howned.book.oid_of_modify hmodify).trans (hdeskOid (by rw [hdesk]; rfl))) hevents
  | deliver event _ _ hdesk _ _ hevents => exact hput (hdeskOid (by rw [hdesk]; rfl)) hevents
  | shutDown _ _ _ hdesk => exact absurd hdesk hrunning

/-- The lane of the listing and its ids stay as they are. -/
theorem DeskTurn.book_of_stranger (h : session.DeskTurn next deed) (howned : session.Owned owner)
    (hrunning : next.desk ≠ .ended) (hsubject : session.subject? = some oid)
    (hother : owner oid ≠ listing) : Book.AlikeAt owner listing session.book next.book := by
  have hoid : ∀ {other : String}, session.subject? = some other → owner other ≠ listing :=
    fun heq => Option.some.inj (hsubject.symm.trans heq) ▸ hother
  cases h with
  | refuse _ _ hstill | arm _ _ hstill | await _ _ hstill | start _ _ hstill
  | restart _ _ _ _ hstill | prepare _ hstill =>
    exact ⟨hstill.lane listing, fun _ _ => by rw [hstill.index]⟩
  | cancel command order _ _ hidle hdocket _ hremove =>
    have hsame := subject?_of_docket (by rw [hidle]; rfl) hdocket
    exact howned.book.alikeAt_remove_of_ne (hoid hsame) hremove
  | place placing last order _ _ hdesk _ horder hinsert =>
    have howner := howned.owner_of_placing placing (by rw [hdesk]; rfl)
    have hne := hoid (subject?_of_desk (by rw [hdesk]; rfl))
    exact Book.alikeAt_insert_of_ne (howner ▸ hne) (horder ▸ howner) hinsert
  | move command moved _ _ hdesk _ hmodify hbook =>
    have hne := hoid (subject?_of_desk (by rw [hdesk]; rfl))
    exact hbook ▸ howned.book.alikeAt_modify_of_ne hne hmodify
  | deliver _ _ _ _ _ hbook => exact hbook ▸ .refl owner listing session.book
  | shutDown _ _ _ hdesk => exact absurd hdesk hrunning

/-- With the same watchers, and the same one for the listing, the followers are the same. -/
theorem sameFollowers_of_same (hwatchers : next.watchers = session.watchers)
    (hspawned : next.spawned.get? listing = session.spawned.get? listing) :
    SameFollowers listing session next where
  watchers _ _ hwatcher _ := hwatchers ▸ hwatcher
  listings := ⟨[], by rw [listings, hwatchers, List.append_nil, listings], List.not_mem_nil⟩
  spawned := hspawned

/-- A watcher of another listing is started. -/
theorem sameFollowers_of_started {kept : List Watcher} {place : Listing} (hne : place ≠ listing)
    (hwatchers : next.watchers = kept ++ [Watcher.new place])
    (hkept : kept.map (·.listing) = session.listings)
    (hsame : ∀ (id : WatcherId) (watcher : Watcher), kept[id]? = some watcher →
      watcher.listing = listing → session.watchers[id]? = some watcher)
    (hspawned : next.spawned.get? listing = session.spawned.get? listing) :
    SameFollowers listing session next where
  watchers id watcher hwatcher hlisting := by
    rw [hwatchers] at hwatcher
    rcases Nat.lt_or_ge id kept.length with hlt | hge
    · rw [List.getElem?_append_left hlt] at hwatcher
      exact hsame id watcher hwatcher hlisting
    · rw [List.getElem?_append_right hge] at hwatcher
      cases List.mem_singleton.1 (List.mem_of_getElem? hwatcher)
      exact absurd hlisting hne
  listings := by
    refine ⟨[place], ?_, fun hmem => hne (List.mem_singleton.1 hmem).symm⟩
    rw [listings, hwatchers, List.map_append, hkept]
    rfl
  spawned := hspawned

/-- The watchers of the listing stay as they are. -/
theorem DeskTurn.sameFollowers (h : session.DeskTurn next deed) (howned : session.Owned owner)
    (hrunning : next.desk ≠ .ended) (hsubject : session.subject? = some oid)
    (hother : owner oid ≠ listing) : SameFollowers listing session next := by
  have hne : ∀ placing : Placing, next.desk.placing? = some placing →
      listing ≠ placing.listing := fun placing hplacing =>
    (h.ne_of_placing howned hrunning hsubject hother placing hplacing).symm
  cases h with
  | refuse _ _ _ hstaff | arm _ _ _ hstaff | prepare _ _ hstaff | cancel _ _ _ hstaff
  | place _ _ _ _ hstaff | move _ _ _ hstaff | deliver _ _ hstaff =>
    exact sameFollowers_of_same hstaff.watchers (by rw [hstaff.spawned])
  | await placing id _ hwatchers _ _ _ _ _ hspawned hdesk =>
    have hplace := hne placing (by rw [hdesk]; rfl)
    exact sameFollowers_of_same hwatchers (by rw [hspawned, Table.get?_erase_of_ne _ hplace])
  | start placing _ _ _ _ _ hwatchers hspawned hdesk =>
    have hplace := hne placing (by rw [hdesk]; rfl)
    exact sameFollowers_of_started hplace.symm hwatchers rfl (fun _ _ hwatcher _ => hwatcher)
      (by rw [hspawned, Table.get?_set_of_ne _ _ hplace])
  | restart placing id _ stopped _ _ _ _ hid _ _ hstopped hwatchers hspawned hdesk =>
    have hplace := hne placing (by rw [hdesk]; rfl)
    refine sameFollowers_of_started hplace.symm hwatchers ?_
      (fun other watcher hwatcher hlisting => ?_)
      (by rw [hspawned, Table.get?_set_of_ne _ _ hplace, Table.get?_erase_of_ne _ hplace])
    · rw [hstopped]
      exact (changes_endWatcher session id .aborted).listings_eq (Watcher.listing_stop _)
    · -- The one that is stopped followed the other listing.
      obtain ⟨old, hold, hfollowed⟩ := howned.staffed.followed placing.listing id hid
      rw [hstopped, getElem?_watchers_endWatcher] at hwatcher
      split at hwatcher
      · next heq =>
        subst heq
        rw [hold, Option.map_some] at hwatcher
        cases hwatcher
        rw [Watcher.listing_stop, hfollowed] at hlisting
        exact absurd hlisting.symm hplace
      · exact hwatcher
  | shutDown _ _ _ hdesk => exact absurd hdesk hrunning

/-- The commands of the listing stay in the inbox. -/
theorem inbox_of_stranger (hstep : session.deskStep = some next) (hrunning : next.desk ≠ .ended)
    (hsubject : session.subject? = some oid) (hother : owner oid ≠ listing) :
    ({ next.inbox with items := next.inbox.items.filter (owner ·.oid = listing) } :
        Channel Command) =
      { session.inbox with items := session.inbox.items.filter (owner ·.oid = listing) } := by
  rcases onward_of_deskStep hstep with ⟨hidle, _, command, hreceive⟩ | honward | ⟨hended, _⟩
  · obtain ⟨hitems, hnext⟩ := Channel.eq_of_receive hreceive
    rw [subject?, hidle, hitems] at hsubject
    cases hsubject
    rw [hitems, List.filter_cons_of_neg (by simpa using hother), hnext]
  · rw [honward.inbox]
  · exact absurd (hended ▸ rfl) hrunning

/-- A turn of the desk for another listing leaves the listing what it has. -/
theorem strangers_of_deskStep (howned : session.Owned owner)
    (hstep : session.deskStep = some next) (hrunning : next.desk ≠ .ended)
    (hsubject : session.subject? = some oid) (hother : owner oid ≠ listing) :
    Strangers owner listing session next := by
  have hturn := deskTurn_of_deskStep hstep
  have htimely := (Timely.refl session).deskStep hstep
  exact {
    toSameFollowers := hturn.sameFollowers howned hrunning hsubject hother
    clock := htimely.clock
    limit := htimely.limit
    inbox := inbox_of_stranger hstep hrunning hsubject hother
    receiving := hturn.receiving
    events := hturn.events_of_stranger howned hrunning hsubject hother
    book := hturn.book_of_stranger howned hrunning hsubject hother }

end Desk

/-! ## Watchers of other listings -/

/-- The lane of the listing and its ids stay as they are. -/
theorem Acts.book_of_stranger {after : Watcher} (h : Acts session next id watcher after)
    (howned : session.Owned owner) (hother : watcher.listing ≠ listing) :
    Book.AlikeAt owner listing session.book next.book := by
  cases h with
  | subscribe _ _ hbook | giveUp _ _ hbook | read _ _ _ hbook | skip _ _ _ _ _ hbook
  | fired _ _ _ _ _ _ hbook | drained _ _ _ _ _ hbook | leave _ _ hbook =>
    exact hbook ▸ .refl owner listing session.book
  | goLive _ price _ _ hbook => exact hbook ▸ Book.alikeAt_setLast_of_ne hother price
  | look _ price _ orders _ _ _ hevaluate =>
    have hlast : Book.AlikeAt owner listing session.book
        (session.book.setLast watcher.listing price) := Book.alikeAt_setLast_of_ne hother price
    have hnext := (howned.book.setLast watcher.listing price).alikeAt_evaluate_of_ne hother price
    rw [hevaluate] at hnext
    exact hlast.trans hnext
  | lose _ _ orders _ _ hretire =>
    have hnext := howned.book.alikeAt_retire_of_ne hother
    rwa [hretire] at hnext

/-- A turn of a watcher of another listing leaves the listing what it has. -/
theorem strangers_of_watcherStep (howned : session.Owned owner)
    (hwatcher : session.watchers[id]? = some watcher) (hother : watcher.listing ≠ listing)
    (hstep : session.watcherStep id = some next) : Strangers owner listing session next := by
  have htimely := (Timely.refl session).watcherStep hstep
  obtain ⟨found, after, hreplaces, _⟩ := watcherTurn_of_watcherStep hstep
  obtain rfl : watcher = found := Option.some.inj (hwatcher.symm.trans hreplaces.was)
  obtain ⟨acted, hacted, hacts⟩ := acts_of_watcherStep hwatcher hstep
  exact {
    clock := htimely.clock
    limit := htimely.limit
    inbox := by rw [hreplaces.inbox]
    receiving := hreplaces.receiving
    events := by
      rcases events_of_watcherStep hwatcher hstep with hsame | ⟨event, hevent, hput⟩
      · rw [hsame]
      · have howner := howned.held watcher (List.mem_of_getElem? hwatcher) event hevent
        rw [hput, List.filter_append, List.filter_cons_of_neg (by simpa [howner] using hother),
          List.filter_nil, List.append_nil]
    book := hacts.book_of_stranger howned hother
    watchers := by
      intro other found hfound hlisting
      by_cases heq : other = id
      · subst heq
        cases hreplaces.becomes.symm.trans hfound
        exact absurd (hreplaces.listing.symm.trans hlisting) hother
      · rwa [← hreplaces.others other heq]
    listings := ⟨[], by rw [hreplaces.listings_eq, List.append_nil], List.not_mem_nil⟩
    spawned := by rw [hreplaces.spawned] }

end Session

end TriggerDesk
