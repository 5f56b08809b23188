import TriggerDesk.Proofs.Book.Shares
import TriggerDesk.Proofs.Session.Finiteness
import TriggerDesk.Proofs.Session.Manned

/-!
# Ids that belong to listings

When every order id of the commands belongs to one listing, so does every id that a session has to
do with: orders wait where their ids belong, the desk places them there, and a watcher holds events
of its own listing only. `Session.Owned` says so, and turns keep it (`Owned.of_deskTurn`,
`Owned.of_watcherStep`), until the session is over.
-/

namespace TriggerDesk

open Market TriggerDesk.Order Feed

/-- The order id that the desk works on. -/
def Desk.oid? : Desk → Option String
  | .awaitEnd placing _ | .awaitQuote placing _ _ | .awaitPlace placing _ =>
    some placing.command.oid
  | .awaitMove command => some command.oid
  | .answering event => some event.oid
  | .idle | .ended => none

/-- A command that places an order does so at the listing that its id belongs to. -/
def Order.Command.IsOwned (owner : String → Listing) (command : Command) : Prop :=
  command.kind.places = true → ∀ broker, command.broker? = some broker →
    owner command.oid = { broker, symbol := command.symbol }

namespace Session

variable {owner : String → Listing} {session next : Session} {id : WatcherId}
  {watcher after : Watcher}

/-- The order id that the next turn of the desk is about: that of the command that it works on or
takes up, or of the event that it has to put. -/
def subject? (session : Session) : Option String :=
  session.desk.oid?.or (session.inbox.items.head?.map (·.oid))

/-- Every order id that somebody has to do with belongs to the listing that this is done for. -/
structure Owned (owner : String → Listing) (session : Session) : Prop where
  book : session.book.Owned owner
  docket : ∀ command ∈ session.docket, command.IsOwned owner
  proper : session.desk.IsProper
  staffed : session.Staffed
  quoted : ∀ (placing : Placing) (id : WatcherId) (deadline : Option Nat),
    session.desk = .awaitQuote placing id deadline →
    ∃ watcher : Watcher, session.watchers[id]? = some watcher ∧ watcher.listing = placing.listing
  held : ∀ watcher ∈ session.watchers, ∀ event ∈ watcher.held, owner event.oid = watcher.listing

/-- When a session starts, nobody has to do with an order id. -/
theorem owned_start (owner : String → Listing) (source : Source) (limit : Option Nat)
    (inboxCapacity outboxCapacity : Nat) :
    (start source limit inboxCapacity outboxCapacity).Owned owner where
  book := Book.owned_empty owner
  docket _ h := nomatch h
  proper := ⟨nofun, nofun⟩
  staffed := staffed_start source limit inboxCapacity outboxCapacity
  quoted := nofun
  held _ h := nomatch h

/-- The desk is about to place an order where its id belongs. -/
theorem Owned.owner_of_placing (h : session.Owned owner) (placing : Placing)
    (hplacing : session.desk.placing? = some placing) :
    owner placing.command.oid = placing.listing := by
  have hproper := h.proper.placing placing hplacing
  have hcommand : session.desk.command? = some placing.command := by
    cases hdesk : session.desk with
    | awaitEnd | awaitQuote | awaitPlace =>
      rw [hdesk] at hplacing
      cases hplacing
      rfl
    | idle | awaitMove | answering | ended =>
      rw [hdesk] at hplacing
      cases hplacing
  have hmem : placing.command ∈ session.docket := by
    rw [Session.docket, hcommand]
    exact List.mem_append_left _ (List.mem_singleton_self _)
  have howner : owner placing.command.oid = ⟨placing.listing.broker, placing.command.symbol⟩ :=
    h.docket placing.command hmem hproper.places placing.listing.broker hproper.broker
  rw [howner, ← hproper.symbol]

/-! ## Turns of the desk -/

/-- The desk takes up no command but those that it has before it. -/
theorem DeskTurn.docket_subset {deed : Deed} (h : session.DeskTurn next deed)
    (hrunning : next.desk ≠ .ended) : next.docket ⊆ session.docket := by
  have hless : ∀ {command : Command}, session.docket = command :: next.docket →
      next.docket ⊆ session.docket := fun heq => heq ▸ List.subset_cons_self _ _
  cases h with
  | refuse _ _ _ _ _ hdocket | cancel _ _ _ _ _ hdocket | place _ _ _ _ _ _ hdocket
  | move _ _ _ _ _ hdocket => exact hless hdocket
  | arm _ _ _ _ _ hdocket | await _ _ _ _ _ hdocket | start _ _ _ hdocket
  | restart _ _ _ _ _ _ hdocket | prepare _ _ _ _ hdocket | deliver _ _ _ _ hdocket =>
    exact hdocket ▸ List.Subset.refl _
  | shutDown _ _ _ hdesk => exact absurd hdesk hrunning

/-- No watcher holds events that none held before. -/
theorem DeskTurn.mem_watchers {deed : Deed} (h : session.DeskTurn next deed)
    (hrunning : next.desk ≠ .ended) (hmem : watcher ∈ next.watchers) :
    watcher ∈ session.watchers ∨ watcher.held = [] := by
  obtain ⟨kept, more, hkeeps, hwatchers, hnew⟩ := h.keeps hrunning
  rw [hwatchers] at hmem
  rcases List.mem_append.1 hmem with hkept | hmore
  · cases hkeeps with
    | all => exact .inl hkept
    | butOne listing id old _ _ _ _ =>
      rcases List.mem_or_eq_of_mem_set hkept with hold | rfl
      · exact .inl hold
      · exact .inr (Watcher.held_of_ended (Watcher.isEnded_stop _ _))
  · rw [hnew watcher hmore]
    exact .inr rfl

/-- A desk that begins to wait for a first quote has started a watcher of the listing. -/
theorem DeskTurn.quoted {deed : Deed} (h : session.DeskTurn next deed) {placing : Placing}
    {deadline : Option Nat} (hdesk : next.desk = .awaitQuote placing id deadline) :
    next.watchers[id]? = some (Watcher.new placing.listing) := by
  have hlast : ∀ kept : List Watcher,
      (kept ++ [Watcher.new placing.listing])[kept.length]? =
        some (Watcher.new placing.listing) := fun _ => List.getElem?_concat_length
  cases h with
  | start other limit _ _ _ _ hwatchers _ hnext =>
    rw [hnext] at hdesk
    cases hdesk
    rw [hwatchers]
    exact hlast _
  | restart other _ limit stopped _ _ _ _ _ _ _ _ hwatchers _ hnext =>
    rw [hnext] at hdesk
    cases hdesk
    rw [hwatchers]
    exact hlast _
  | refuse _ _ _ _ _ _ hnext | arm _ _ _ _ _ _ _ _ hnext | await _ _ _ _ _ _ _ _ _ _ hnext
  | prepare _ _ _ _ _ _ hnext | cancel _ _ _ _ _ _ _ _ _ hnext
  | place _ _ _ _ _ _ _ _ _ _ hnext | move _ _ _ _ _ _ _ _ _ hnext
  | deliver _ _ _ _ _ _ _ hnext | shutDown _ _ _ hnext =>
    rw [hnext] at hdesk
    cases hdesk

namespace Owned

/-- Orders stay with their owners while the book and the desk's command stay. -/
theorem book_of_still (h : session.Owned owner) (hstill : session.Still next) :
    next.book.Owned owner :=
  h.book.mono (fun listing _ hmem => .inl (hstill.pending_eq listing ▸ hmem))
    fun _ _ hget => .inl (hstill.index ▸ hget)

/-- The desk keeps orders where their ids belong. -/
theorem book_of_deskTurn (h : session.Owned owner) {deed : Deed}
    (hturn : session.DeskTurn next deed) (hrunning : next.desk ≠ .ended) :
    next.book.Owned owner := by
  cases hturn with
  | refuse _ _ hstill | arm _ _ hstill | await _ _ hstill | start _ _ hstill
  | restart _ _ _ _ hstill | prepare _ hstill => exact h.book_of_still hstill
  | cancel _ _ _ _ _ _ _ hremove => exact h.book.remove hremove
  | place placing last order _ _ hdesk _ horder hinsert =>
    subst horder
    have howner : owner (Pending.ofCommand placing.command last).oid = placing.listing :=
      h.owner_of_placing placing (by rw [hdesk]; rfl)
    have hbook := h.book.insert howner rfl
    rwa [hinsert] at hbook
  | move _ _ _ _ _ _ hmodify hbook => exact hbook ▸ h.book.modify hmodify
  | deliver _ _ _ _ _ hbook => exact hbook ▸ h.book
  | shutDown _ _ _ hdesk => exact absurd hdesk hrunning

/-- A turn of the desk keeps every order id with its listing. -/
theorem of_deskTurn (h : session.Owned owner) {deed : Deed}
    (hturn : session.DeskTurn next deed) (hrunning : next.desk ≠ .ended) : next.Owned owner where
  book := h.book_of_deskTurn hturn hrunning
  docket command hmem := h.docket command (hturn.docket_subset hrunning hmem)
  proper := hturn.isProper h.proper
  staffed := h.staffed.of_deskTurn hturn hrunning
  quoted placing id deadline hdesk := ⟨_, hturn.quoted hdesk, rfl⟩
  held watcher hmem event hevent := by
    rcases hturn.mem_watchers hrunning hmem with hold | hnone
    · exact h.held watcher hold event hevent
    · rw [hnone] at hevent
      cases hevent

/-! ## Turns of the watchers -/

/-- A watcher comes to hold events of orders of its listing only. -/
theorem of_acts (h : session.Owned owner) (hwatcher : session.watchers[id]? = some watcher)
    (hacts : Acts session next id watcher after) :
    next.book.Owned owner ∧ ∀ event ∈ after.held, owner event.oid = watcher.listing := by
  have hheld := h.held watcher (List.mem_of_getElem? hwatcher)
  -- Whatever is told of an order bears the id of its command, which is that of the order.
  have hevents : ∀ {orders : List Pending} {event : Event} (told : Pending → Event),
      (∀ order, (told order).oid = order.command.oid) → event ∈ orders.map told →
      (∀ order ∈ orders, order ∈ session.book.pending watcher.listing) →
      owner event.oid = watcher.listing := by
    intro orders event told hoid hevent horders
    obtain ⟨order, horder, rfl⟩ := List.mem_map.1 hevent
    obtain ⟨howner, hcommand⟩ := h.book.orders watcher.listing order (horders order horder)
    rw [hoid, hcommand, howner]
  cases hacts with
  | subscribe _ _ hbook | giveUp _ _ hbook | read _ _ _ hbook | skip _ _ _ _ _ hbook =>
    exact ⟨hbook ▸ h.book, fun event hevent => nomatch hevent⟩
  | goLive stream price _ _ hbook =>
    exact ⟨hbook ▸ h.book.setLast _ price, fun event hevent => nomatch hevent⟩
  | look stream price prices orders _ _ _ hevaluate =>
    have hbook := (h.book.setLast watcher.listing price).evaluate watcher.listing price
    rw [hevaluate] at hbook
    refine ⟨hbook, fun event hevent => ?_⟩
    rw [Watcher.held_fires] at hevent
    refine hevents _ (fun _ => rfl) hevent fun order horder => ?_
    have htaken := Book.takeHits_fst (session.book.setLast watcher.listing price)
      watcher.listing price
    rw [show (Book.takeHits _ _ _).1 = orders from congrArg Prod.fst hevaluate] at htaken
    rw [htaken, List.mem_filter, Book.pending, Book.lane_setLast, if_pos rfl] at horder
    exact horder.1
  | lose stream failure orders _ _ hretire =>
    have hbook := h.book.retire watcher.listing
    rw [hretire] at hbook
    refine ⟨hbook, fun event hevent => ?_⟩
    rw [Watcher.held_drains] at hevent
    refine hevents _ (fun _ => rfl) hevent fun order horder => ?_
    rwa [← Book.retire_fst, hretire]
  | fired stream event rest prices hphase _ hbook =>
    refine ⟨hbook ▸ h.book, fun other hother => hheld other ?_⟩
    rw [Watcher.held_fires] at hother
    rw [Watcher.held, hphase]
    exact List.mem_cons_of_mem _ hother
  | drained stream event rest hphase _ hbook =>
    refine ⟨hbook ▸ h.book, fun other hother => hheld other ?_⟩
    rw [Watcher.held_drains] at hother
    rw [Watcher.held, hphase]
    exact List.mem_cons_of_mem _ hother
  | leave _ _ hbook =>
    refine ⟨hbook ▸ h.book, fun event hevent => ?_⟩
    rw [Watcher.held_of_ended (Watcher.isEnded_stop _ _)] at hevent
    cases hevent

/-- A turn of a watcher keeps every order id with its listing. -/
theorem of_watcherStep (h : session.Owned owner) (hstep : session.watcherStep id = some next) :
    next.Owned owner := by
  obtain ⟨watcher, after, hreplaces, _⟩ := watcherTurn_of_watcherStep hstep
  obtain ⟨found, hfound, hacts⟩ := acts_of_watcherStep hreplaces.was hstep
  obtain rfl : after = found := Option.some.inj (hreplaces.becomes.symm.trans hfound)
  obtain ⟨hbook, hheld⟩ := h.of_acts hreplaces.was hacts
  have hdocket : next.docket = session.docket := by
    rw [Session.docket, Session.docket, hreplaces.desk, hreplaces.inbox]
  exact {
    book := hbook
    docket := hdocket ▸ h.docket
    proper := hreplaces.desk ▸ h.proper
    staffed := h.staffed.of_acts hreplaces (running_of_watcherStep hreplaces.was hstep) hacts
    quoted := by
      intro placing other deadline hdesk
      obtain ⟨quoting, hquoting, hlisting⟩ :=
        h.quoted placing other deadline (hreplaces.desk ▸ hdesk)
      by_cases heq : other = id
      · subst heq
        obtain rfl : quoting = watcher := Option.some.inj (hquoting.symm.trans hreplaces.was)
        exact ⟨after, hreplaces.becomes, hreplaces.listing.trans hlisting⟩
      · exact ⟨quoting, (hreplaces.others other heq).trans hquoting, hlisting⟩
    held := by
      intro other hother
      rw [hreplaces.watchers_eq] at hother
      rcases List.mem_or_eq_of_mem_set hother with hother | rfl
      · exact h.held other hother
      · exact hreplaces.listing.symm ▸ hheld }

/-! ## Every move -/

/-- Nobody takes a turn, and commands that come have ids that belong to their listings. -/
theorem of_undisturbed (h : session.Owned owner) (hsame : session.Undisturbed next)
    (hinbox : ∀ command ∈ next.inbox.items,
      command ∈ session.inbox.items ∨ command.IsOwned owner) : next.Owned owner where
  book := hsame.book ▸ h.book
  docket command hcommand := by
    rw [Session.docket, hsame.desk] at hcommand
    rcases List.mem_append.1 hcommand with hcommand | hcommand
    · exact h.docket command (List.mem_append_left _ hcommand)
    · rcases hinbox command hcommand with hold | howned
      · exact h.docket command (List.mem_append_right _ hold)
      · exact howned
  proper := hsame.desk ▸ h.proper
  staffed := h.staffed.of_undisturbed hsame
  quoted := hsame.desk ▸ hsame.watchers ▸ h.quoted
  held := hsame.watchers ▸ h.held

end Owned

end Session

end TriggerDesk
