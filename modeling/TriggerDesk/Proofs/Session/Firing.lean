import TriggerDesk.Proofs.Order.Tape
import TriggerDesk.Proofs.Session.Posts

/-!
# Orders fire at the first crossing, once, and in order

The tape of a listing (`Session.tape`) has the prices that its watcher looks at and the orders
that the desk places, moves and cancels there, in the order of the turns. From the moment at which
the feed goes live, the tape says which orders wait and which events the watcher puts into the
outbox, whoever takes turns in between (`fires_along`).
-/

namespace TriggerDesk

open Market TriggerDesk.Order Feed

/-- The price that a watcher is about to look at. -/
def Watcher.nextPrice? (watcher : Watcher) : Option Float :=
  match watcher.phase with
  | .following _ prices => prices.head?
  | .starting | .opening _ | .firing .. | .retiring .. | .ended _ => none

namespace Book

variable {book : Book} {roster : Roster} {listing other : Listing} {order : Pending} {oid : String}

/-- Whether an order waits at a listing under an id. -/
def hasAt (book : Book) (listing : Listing) (oid : String) : Bool :=
  (book.pending listing).any (·.oid = oid)

/-- Where no order waits under an id, taking that id out changes nothing. -/
theorem filter_of_not_hasAt (h : book.hasAt listing oid = false) :
    (book.pending listing).filter (·.oid ≠ oid) = book.pending listing := by
  refine List.filter_eq_self.2 fun order horder => ?_
  simpa using List.any_eq_false.1 h order horder

/-- An order waits at one listing only. -/
theorem hasAt_of_mem (h : roster.Describes book) (hmem : (other, order) ∈ roster.entries)
    (listing : Listing) : book.hasAt listing order.oid = decide (other = listing) := by
  rw [hasAt]
  by_cases heq : other = listing
  · subst heq
    rw [decide_eq_true rfl, List.any_eq_true]
    exact ⟨order, h.mem_pending.2 hmem, decide_eq_true rfl⟩
  · rw [decide_eq_false heq, List.any_eq_false]
    intro found hfound hoid
    have hsame := h.eq_of_oid (h.mem_pending.1 hfound) hmem (of_decide_eq_true hoid)
    exact heq (congrArg Prod.fst hsame).symm

/-- No order waits anywhere under an id that is free. -/
theorem hasAt_of_free (h : roster.Describes book) (hfree : roster.contains oid = false)
    (listing : Listing) : book.hasAt listing oid = false := by
  rw [hasAt, List.any_eq_false]
  intro found hfound hoid
  exact List.any_eq_false.1 hfree _ (h.mem_pending.1 hfound) hoid

end Book

namespace Session

variable {session next : Session} {id : WatcherId} {watcher after : Watcher} {listing : Listing}
  {actor : Actor} {deed : Deed} {first : Float} {marks : List Mark} {done : List (Actor × Deed)}

/-! ## The tape -/

/-- What a deed of the desk is on the tape of a listing. -/
def deskMark? (session : Session) (listing : Listing) : Deed → Option Mark
  | .place other order => if other = listing then some (.place order) else none
  | .move order => if session.book.hasAt listing order.oid then some (.move order) else none
  | .take orders =>
    (orders.find? fun order => session.book.hasAt listing order.oid).map fun order =>
      .drop order.oid
  | .nothing | .put _ => none

/-- What the next turn of an actor is on the tape of a listing that a watcher follows. -/
def mark? (session : Session) (id : WatcherId) (listing : Listing) : Actor → Option Mark
  | .desk => session.deskMark? listing (session.deed .desk)
  | .watcher other =>
    if other = id then (session.watchers[id]?.bind Watcher.nextPrice?).map Mark.tick else none

/-- What a move is on the tape. A turn that cannot be taken is not there. -/
def markIn? (session : Session) (id : WatcherId) (listing : Listing) : Move → Option Mark
  | .turn actor => (step actor session).bind fun _ => session.mark? id listing actor
  | .stimulus _ | .feeds _ => none

/-- The tape of a listing that a watcher follows, in a run. -/
def tape (session : Session) (id : WatcherId) (listing : Listing) : List Move → List Mark
  | [] => []
  | move :: moves =>
    (session.markIn? id listing move).toList ++ (session.advance move).tape id listing moves

/-- What the desk writes on a tape is no price. -/
theorem price?_of_deskMark? {mark : Mark} (h : session.deskMark? listing deed = some mark) :
    mark.price? = none := by
  unfold deskMark? at h
  split at h
  · obtain ⟨_, heq⟩ := Option.ite_none_right_eq_some.1 h
    cases heq
    rfl
  · obtain ⟨_, heq⟩ := Option.ite_none_right_eq_some.1 h
    cases heq
    rfl
  · obtain ⟨order, _, rfl⟩ := Option.map_eq_some_iff.1 h
    rfl
  · cases h
  · cases h

/-! ## Turns of the desk -/

/-- The orders that wait at a listing after a turn of the desk are those that wait at the end of
the tape. -/
theorem pending_of_deskTurn {roster : Roster} (hroster : roster.Describes session.book)
    (hturn : session.DeskTurn next deed) (hopen : next.IsOpen)
    (hpending : session.book.pending listing = Tape.waiting marks) :
    next.book.pending listing =
      Tape.waiting (marks ++ (session.deskMark? listing deed).toList) := by
  have hsame : ∀ {book : Book}, book.pending listing = session.book.pending listing →
      book.pending listing = Tape.waiting (marks ++ (none : Option Mark).toList) := by
    intro book hbook
    rw [hbook, hpending, Option.toList_none, List.append_nil]
  cases hturn with
  | refuse _ _ hstill | arm _ _ hstill | await _ _ hstill | start _ _ hstill
  | restart _ _ _ _ hstill | prepare _ hstill => exact hsame (hstill.pending_eq listing)
  | deliver event _ _ _ _ hbook => exact hsame (by rw [hbook])
  | cancel command order _ _ _ _ _ hremove =>
    have hkept := hroster.pending_of_remove hremove listing
    rw [deskMark?, List.find?_singleton]
    split
    · rw [Option.map_some, Option.toList_some, Tape.waiting_concat, Mark.act_drop, ← hpending]
      exact hkept
    · next hat =>
      rw [Book.filter_of_not_hasAt (Bool.not_eq_true _ ▸ hat)] at hkept
      exact hsame hkept
  | place placing last order _ _ _ _ _ hinsert =>
    have hkept := hroster.pending_of_insert hinsert listing
    rw [deskMark?]
    split
    · next heq =>
      have hnone := Book.hasAt_of_free hroster (hroster.of_insert hinsert).1 listing
      rw [Option.toList_some, Tape.waiting_concat, Mark.act_place, ← hpending,
        Book.filter_of_not_hasAt hnone, hkept, if_pos heq]
    · next hne =>
      rw [if_neg hne, List.append_nil] at hkept
      exact hsame hkept
  | move command moved _ _ _ _ hmodify hbook =>
    obtain ⟨other, old, last, hmem, _, horder, hkept⟩ := hroster.pending_of_modify hmodify
    have hat : session.book.hasAt listing moved.order.oid = decide (other = listing) :=
      horder ▸ Book.hasAt_of_mem hroster hmem listing
    rw [deskMark?, hat, hbook]
    -- An order at another listing is none of this tape, and its id is not in use here.
    by_cases heq : other = listing
    · rw [decide_eq_true heq, if_pos rfl, Option.toList_some, Tape.waiting_concat, Mark.act_move,
        ← hpending, hkept, if_pos heq]
    · rw [decide_eq_false heq] at hat ⊢
      refine hsame ((hkept listing).trans ?_)
      rw [if_neg heq, List.append_nil, Book.filter_of_not_hasAt hat]
  | shutDown _ _ _ hdesk => exact absurd hdesk hopen.running

/-- What the desk puts on the tape bears the id of its command, and what it moves is armed at the
last price of the listing. -/
theorem fits_of_deskTurn {roster : Roster} (hroster : roster.Describes session.book)
    (hturn : session.DeskTurn next deed) (hopen : next.IsOpen) {mark : Mark}
    (hmark : session.deskMark? listing deed = some mark) {last : Float}
    (hlast : session.book.last? listing = some last)
    (hnamed : ∀ order ∈ session.book.pending listing, order.command.oid = order.oid) :
    mark.Fits last := by
  cases hturn with
  | refuse | arm | await | start | restart | prepare | deliver => cases hmark
  | cancel =>
    obtain ⟨_, _, rfl⟩ := Option.map_eq_some_iff.1 hmark
    exact ⟨nofun, nofun⟩
  | place _ _ order _ _ _ _ horder =>
    obtain ⟨_, heq⟩ := Option.ite_none_right_eq_some.1 hmark
    cases heq
    refine ⟨fun found hfound => ?_, nofun⟩
    cases hfound
    rw [horder]
    rfl
  | move command moved _ _ _ _ hmodify =>
    obtain ⟨other, old, found, hmem, hfound, horder, _⟩ := hroster.pending_of_modify hmodify
    obtain ⟨hat, heq⟩ := Option.ite_none_right_eq_some.1 hmark
    cases heq
    have hother : session.book.hasAt listing moved.order.oid = decide (other = listing) :=
      horder ▸ Book.hasAt_of_mem hroster hmem listing
    rw [hat] at hother
    have hsame := of_decide_eq_true hother.symm
    subst hsame
    rw [hlast] at hfound
    cases hfound
    refine ⟨fun order heq => ?_, fun order heq => ?_⟩
    · cases heq
      rw [horder]
      exact hnamed old (hroster.mem_pending.2 hmem)
    · cases heq
      rw [horder]
      rfl
  | shutDown _ _ _ hdesk => exact absurd hdesk hopen.running

/-! ## Turns of the watchers -/

/-- What the tape says of a listing whose feed is live. -/
structure Tracked (session : Session) (id : WatcherId) (watcher : Watcher) (first : Float)
    (done : List (Actor × Deed)) (marks : List Mark) : Prop where
  tracks : watcher.phase.tracks = true
  told : putBy (.watcher id) done ++ watcher.held = Tape.fires marks
  index : watcher.index = (Tape.prices marks).length
  pending : session.book.pending watcher.listing = Tape.waiting marks
  last : session.book.last? watcher.listing = some (Tape.lastPrice first marks)
  fits : Tape.Fits first marks

namespace Tracked

/-- No valid price has come, and the watcher is as before, but for an event that it may have
put. -/
theorem of_same (h : session.Tracked id watcher first done marks) {mark : Option Mark}
    (hmark : ∀ found, mark = some found →
      found.price? = none ∧ found.Fits (Tape.lastPrice first marks))
    (htracks : after.phase.tracks = true) (hlisting : after.listing = watcher.listing)
    (hindex : after.index = watcher.index)
    (hput : putBy (.watcher id) [(actor, deed)] ++ after.held = watcher.held)
    (hlast : next.book.last? watcher.listing = session.book.last? watcher.listing)
    (hpending : next.book.pending watcher.listing = Tape.waiting (marks ++ mark.toList)) :
    next.Tracked id after first (done ++ [(actor, deed)]) (marks ++ mark.toList) := by
  have htold : putBy (.watcher id) (done ++ [(actor, deed)]) ++ after.held = Tape.fires marks := by
    rw [putBy_append, List.append_assoc, hput]
    exact h.told
  rw [← hlisting] at hlast hpending
  have hlast := hlast.trans (hlisting ▸ h.last)
  cases mark with
  | none =>
    rw [Option.toList_none, List.append_nil] at hpending ⊢
    exact ⟨htracks, htold, hindex.trans h.index, hpending, hlast, h.fits⟩
  | some mark =>
    obtain ⟨hnone, hfits⟩ := hmark mark rfl
    refine ⟨htracks, ?_, ?_, hpending, ?_, h.fits.concat hfits⟩
    · rw [htold, Option.toList_some, Tape.fires_concat, Tape.firesAt_of_price? hnone,
        List.append_nil]
    · rw [Option.toList_some, Tape.prices_concat, hnone]
      exact hindex.trans (h.index.trans (congrArg _ (List.append_nil _).symm))
    · rw [Option.toList_some, Tape.lastPrice_concat, hnone]
      exact hlast

/-- Nothing comes on the tape. -/
theorem of_still (h : session.Tracked id watcher first done marks)
    (htracks : after.phase.tracks = true) (hlisting : after.listing = watcher.listing)
    (hindex : after.index = watcher.index)
    (hput : putBy (.watcher id) [(actor, deed)] ++ after.held = watcher.held)
    (hlane : next.book.lane watcher.listing = session.book.lane watcher.listing) :
    next.Tracked id after first (done ++ [(actor, deed)])
      (marks ++ (none : Option Mark).toList) := by
  refine h.of_same (fun _ hmark => ?_) htracks hlisting hindex hput (congrArg Lane.last hlane) ?_
  · cases hmark
  · rw [Option.toList_none, List.append_nil, ← h.pending]
    exact congrArg Lane.orders hlane

/-- What the desk does to the listing is written on its tape, and the tape still says what has
become of the orders. -/
theorem of_deskTurn (h : session.Tracked id watcher first done marks) {roster : Roster}
    (hroster : roster.Describes session.book) (hturn : session.DeskTurn next deed)
    (hopen : next.IsOpen) :
    next.Tracked id watcher first (done ++ [(.desk, deed)])
      (marks ++ (session.deskMark? watcher.listing deed).toList) := by
  have hactor : Actor.desk ≠ .watcher id := nofun
  have hnamed : ∀ order ∈ session.book.pending watcher.listing, order.command.oid = order.oid :=
    fun order horder => h.fits.of_waiting (h.pending ▸ horder)
  refine h.of_same (fun mark hmark => ⟨price?_of_deskMark? hmark,
    fits_of_deskTurn hroster hturn hopen hmark h.last hnamed⟩) h.tracks rfl rfl ?_
    (hturn.sameFeeds hopen.running _).1 (pending_of_deskTurn hroster hturn hopen h.pending)
  rw [putBy_of_ne hactor, List.nil_append]

/-- Another watcher takes a turn. -/
theorem of_other (h : session.Tracked id watcher first done marks) (hstaffed : session.Staffed)
    (hwatcher : session.watchers[id]? = some watcher) {other : WatcherId} (hne : other ≠ id)
    (hstep : step (.watcher other) session = some next) (hopen : next.IsOpen) :
    next.Tracked id watcher first (done ++ [(.watcher other, session.deed (.watcher other))])
      (marks ++ (none : Option Mark).toList) := by
  obtain ⟨found, after, hreplaces, hturn⟩ := watcherTurn_of_watcherStep hstep
  have hreceiving := (isOpen_of_step hstep hopen).receiving
  have hlisting : watcher.listing ≠ found.listing := fun heq =>
    hne (hstaffed.eq_of_listing hreplaces.was hwatcher
      (running_of_watcherStep hreplaces.was hstep)
      (Watcher.Phase.not_retiring_of_tracks h.tracks).2 heq.symm)
  have hlane := hturn.lane_of_ne hreceiving hlisting
  have hactor : Actor.watcher other ≠ .watcher id := fun heq => hne (Actor.watcher.inj heq)
  refine h.of_still h.tracks rfl rfl ?_ hlane
  rw [putBy_of_ne hactor, List.nil_append]

/-- A watcher that follows its feed looks at the first price in hand next. -/
theorem nextPrice?_of_phase {stream : StreamId} {prices : List Float}
    (hphase : watcher.phase = .following stream prices) : watcher.nextPrice? = prices.head? := by
  rw [Watcher.nextPrice?, hphase]

/-- The watcher looks at a valid price. -/
theorem of_look (h : session.Tracked id watcher first done marks) {price : Float}
    (hvalid : isValidPrice price = true) (hheld : watcher.held = [])
    (hput : putBy (.watcher id) [(.watcher id, deed)] = []) {orders : List Pending}
    (hevaluate : (session.book.setLast watcher.listing price).evaluate watcher.listing price =
      (orders, next.book)) (stream : StreamId) (prices : List Float) :
    next.Tracked id
      (watcher.looked.fires stream prices (firedEvents orders watcher.index price)) first
      (done ++ [(.watcher id, deed)]) (marks ++ [.tick price]) := by
  have hprice : (Mark.tick price).price? = some price := by rw [Mark.price?, if_pos hvalid]
  have horders : orders = (Tape.waiting marks).filter (·.trigger.hits price) := by
    have htaken : ((session.book.setLast watcher.listing price).evaluate watcher.listing price).1 =
        ((session.book.setLast watcher.listing price).pending watcher.listing).filter
          (·.trigger.hits price) := Book.takeHits_fst _ _ _
    rw [hevaluate, Book.pending, Book.lane_setLast, if_pos rfl] at htaken
    rw [← h.pending]
    exact htaken
  have hlane := Book.lane_evaluate (session.book.setLast watcher.listing price) watcher.listing
    watcher.listing price
  rw [hevaluate, if_pos rfl, Book.pending, Book.lane_setLast, if_pos rfl] at hlane
  refine ⟨Watcher.tracks_fires _ _ _ _, ?_, ?_, ?_, ?_,
    h.fits.concat (Mark.fits_tick _ price)⟩
  · have htold := h.told
    rw [hheld, List.append_nil] at htold
    rw [putBy_append, hput, List.append_nil, Watcher.held_fires, htold, Tape.fires_concat,
      Tape.firesAt_tick, if_pos hvalid, horders, h.index]
  · rw [Watcher.index_fires, Tape.prices_concat, hprice, Option.toList_some, List.length_append,
      List.length_singleton, ← h.index]
    rfl
  · rw [Watcher.listing_fires, Tape.waiting_concat, Mark.act_tick, if_pos hvalid, ← h.pending]
    exact congrArg Lane.orders hlane
  · rw [Watcher.listing_fires, Tape.lastPrice_concat, hprice, Option.getD_some]
    exact congrArg Lane.last hlane

/-- The watcher itself takes a turn. -/
theorem of_acts (h : session.Tracked id watcher first done marks)
    (hacts : Acts session next id watcher after) (hreceiving : session.outbox.receiving = true)
    (hidle : watcher.held = [] → putBy (.watcher id) [(.watcher id, deed)] = [])
    (hholds : watcher.held ≠ [] →
      putBy (.watcher id) [(.watcher id, deed)] ++ after.held = watcher.held) :
    after.phase.hasLost = true ∨
      next.Tracked id after first (done ++ [(.watcher id, deed)])
        (marks ++ (watcher.nextPrice?.map Mark.tick).toList) := by
  have htracks := h.tracks
  cases hacts with
  | subscribe _ hphase | goLive _ _ hphase | drained _ _ _ hphase =>
    rw [hphase] at htracks
    cases htracks
  | giveUp _ hphase =>
    rcases hphase with hphase | ⟨_, hphase⟩ <;>
    · rw [hphase] at htracks
      cases htracks
  | lose => exact .inl (Watcher.hasLost_drains _ _ _)
  | leave hleft =>
    rw [hreceiving] at hleft
    cases hleft
  | read stream prices hphase hbook =>
    have hheld : watcher.held = [] := by rw [Watcher.held, hphase]
    rw [nextPrice?_of_phase hphase]
    refine .inr (h.of_still rfl rfl rfl ?_ (by rw [hbook]))
    rw [hidle hheld, hheld]
    rfl
  | skip stream price prices hphase hbad hbook =>
    have hheld : watcher.held = [] := by rw [Watcher.held, hphase]
    -- A price that is skipped stands on the tape, but fires nothing there and is not counted.
    have hinvalid : isValidPrice price = false := isValidPrice_eq_false hbad
    rw [nextPrice?_of_phase hphase]
    refine .inr (h.of_same (fun found hfound => ?_) rfl rfl rfl ?_ (by rw [hbook]) ?_)
    · cases hfound
      rw [Mark.price?, hinvalid]
      exact ⟨rfl, Mark.fits_tick _ price⟩
    · rw [hidle hheld, hheld]
      rfl
    · rw [hbook, h.pending, List.head?_cons, Option.map_some, Option.toList_some,
        Tape.waiting_concat, Mark.act_tick, hinvalid]
      rfl
  | look stream price prices orders hphase hfinite hnonneg hevaluate =>
    have hheld : watcher.held = [] := by rw [Watcher.held, hphase]
    rw [nextPrice?_of_phase hphase]
    exact .inr (h.of_look (isValidPrice_iff.2 ⟨hfinite, hnonneg⟩) hheld (hidle hheld) hevaluate
      stream prices)
  | fired stream event rest prices hphase _ hbook =>
    have hheld : watcher.held ≠ [] := by
      rw [Watcher.held, hphase]
      exact List.cons_ne_nil event rest
    have hnone : watcher.nextPrice? = none := by rw [Watcher.nextPrice?, hphase]
    rw [hnone]
    exact .inr (h.of_still (Watcher.tracks_fires _ _ _ _) (Watcher.listing_fires _ _ _ _)
      (Watcher.index_fires _ _ _ _) (hholds hheld) (by rw [hbook]))

/-- What the client and the market do leaves the tape and what it says. -/
theorem of_undisturbed (h : session.Tracked id watcher first done marks)
    (hsame : session.Undisturbed next) : next.Tracked id watcher first done marks where
  tracks := h.tracks
  told := h.told
  index := h.index
  pending := hsame.book ▸ h.pending
  last := hsame.book ▸ h.last
  fits := h.fits

end Tracked

/-! ## Along a run -/

/-- The watcher of a listing has lost its feed, or the tape says what has become of the orders. -/
structure Followed (id : WatcherId) (listing : Listing) (first : Float) (session : Session)
    (done : List (Actor × Deed)) (marks : List Mark) : Prop extends Tidy session where
  watcher : ∃ watcher : Watcher, session.watchers[id]? = some watcher ∧
    watcher.listing = listing ∧
    (watcher.phase.hasLost = true ∨ session.Tracked id watcher first done marks)

namespace Followed

/-- A turn writes on the tape what it does to the listing, or the feed is lost. -/
theorem of_step (h : Followed id listing first session done marks)
    (hstep : step actor session = some next) (hopen : next.IsOpen) :
    Followed id listing first next (done ++ [(actor, session.deed actor)])
      (marks ++ (session.mark? id listing actor).toList) := by
  refine ⟨h.toTidy.of_step hstep hopen, ?_⟩
  obtain ⟨watcher, hwatcher, hlisting, hlost | htracked⟩ := h.watcher
  · obtain ⟨after, hafter, hsame, hstill⟩ :=
      h.sound.staffed.hasLost_of_step hstep hopen hwatcher hlost
    exact ⟨after, hafter, hsame.trans hlisting, .inl hstill⟩
  · subst hlisting
    obtain ⟨roster, hroster⟩ := h.described
    cases actor with
    | desk =>
      have hturn := deskTurn_of_deskStep hstep
      exact ⟨watcher, h.sound.staffed.tracks_of_deskTurn hturn hopen hwatcher htracked.tracks, rfl,
        .inr (htracked.of_deskTurn hroster hturn hopen)⟩
    | watcher other =>
      obtain ⟨found, after, hreplaces, _⟩ := watcherTurn_of_watcherStep hstep
      -- Only this watcher puts what the tape fires; what others put is about other listings.
      by_cases hother : other = id
      · subst hother
        have hwas := hreplaces.was
        rw [hwatcher] at hwas
        cases hwas
        obtain ⟨acted, hacted, hacts⟩ := acts_of_watcherStep hwatcher hstep
        rw [hreplaces.becomes] at hacted
        cases hacted
        rw [mark?, if_pos rfl, hwatcher, Option.bind_some]
        refine ⟨after, hreplaces.becomes, hreplaces.listing, htracked.of_acts hacts
          (isOpen_of_step hstep hopen).receiving (fun hidle => ?_) fun hholds => ?_⟩
        · exact putBy_of_idle hstep hopen ((held_watcher hwatcher).trans hidle)
        · rw [← held_watcher hreplaces.becomes, ← held_watcher hwatcher]
          exact putBy_of_held hstep hopen ((held_watcher hwatcher).symm ▸ hholds)
      · rw [mark?, if_neg hother]
        exact ⟨watcher, (hreplaces.others id (Ne.symm hother)).trans hwatcher, rfl,
          .inr (htracked.of_other h.sound.staffed hwatcher hother hstep hopen)⟩

/-- What the client and the market do leaves the tape and what it says, or the feed lost. -/
theorem of_undisturbed (h : Followed id listing first session done marks)
    (hsame : session.Undisturbed next) : Followed id listing first next done marks := by
  refine ⟨h.toTidy.of_undisturbed hsame, ?_⟩
  obtain ⟨watcher, hwatcher, hlisting, hcase⟩ := h.watcher
  exact ⟨watcher, hsame.watchers ▸ hwatcher, hlisting,
    hcase.imp_right fun htracked => htracked.of_undisturbed hsame⟩

/-- Along a run the tape says what has become of the orders, until the feed is lost. -/
theorem run (h : Followed id listing first session done marks) {moves : List Move}
    (hopen : (session.run moves).IsOpen) :
    Followed id listing first (session.run moves) (done ++ session.history moves)
      (marks ++ session.tape id listing moves) := by
  induction moves generalizing session done marks with
  | nil =>
    rw [history, tape, List.append_nil, List.append_nil]
    exact h
  | cons move rest ih =>
    rw [history, tape, ← List.append_assoc, ← List.append_assoc]
    refine ih ?_ hopen
    have hnext : (session.advance move).IsOpen := isOpen_of_run hopen
    have hsame : session.Undisturbed (session.advance move) →
        Followed id listing first (session.advance move) (done ++ []) (marks ++ []) := by
      rw [List.append_nil, List.append_nil]
      exact h.of_undisturbed
    cases move with
    | turn actor =>
      cases hstep : step actor session with
      | none =>
        rw [doneIn?, markIn?, hstep]
        refine hsame ?_
        rw [advance_turn_of_waits hstep]
        exact ⟨rfl, rfl, rfl, rfl, rfl⟩
      | some next =>
        rw [advance_turn hstep] at hnext ⊢
        rw [doneIn?, markIn?, hstep]
        exact h.of_step hstep hnext
    | stimulus stimulus => exact hsame (undisturbed_meet session stimulus)
    | feeds source => exact hsame ⟨rfl, rfl, rfl, rfl, rfl⟩

end Followed

/-- A watcher that reads a first quote makes its feed live. -/
theorem step_of_firstQuote {stream : StreamId} {batch : Batch} {price : Float}
    (hwatcher : session.watchers[id]? = some watcher) (hphase : watcher.phase = .opening stream)
    (hreading : session.source.replay.peek stream = .item (.batch batch))
    (hprice : firstPrice? watcher.listing batch = some price) :
    ∃ next, step (.watcher id) session = some next ∧
      next.book = session.book.setLast watcher.listing price ∧
      next.watchers[id]? = some
        { watcher with phase := .following stream [], outcome := some (.live price) } := by
  refine ⟨(session.advanceStream stream).goLive id stream watcher.listing price, ?_, rfl,
    watchers_goLive (session.advanceStream stream) hwatcher stream watcher.listing price⟩
  simp only [step, watcherStep, hwatcher, hphase, hreading, Option.bind_eq_bind, Option.bind_some,
    takeFirst, hprice]

/-- Nothing is on the tape when a feed has just gone live. -/
theorem Posted.tracked_of_firstQuote (h : session.Posted) (htidy : session.Tidy)
    {stream : StreamId} {price : Float} (hwatcher : session.watchers[id]? = some watcher)
    (hphase : watcher.phase = .opening stream)
    (hbook : next.book = session.book.setLast watcher.listing price) :
    next.Tracked id { watcher with phase := .following stream [], outcome := some (.live price) }
      price [] [] := by
  have hawaits : watcher.phase.awaitsQuote = true := by rw [hphase]; rfl
  have hlane := Book.lane_setLast session.book watcher.listing watcher.listing price
  rw [← hbook, if_pos rfl] at hlane
  exact ⟨rfl, rfl, h.unlooked id watcher hwatcher hawaits,
    (congrArg Lane.orders hlane).trans (h.pending_of_awaitsQuote htidy hwatcher hawaits),
    congrArg Lane.last hlane, Tape.fits_nil price⟩

/-! ## What becomes of the orders -/

/-- What is said of the orders at a listing, from the moment at which its feed went live: the
first quote had some price, and a watcher follows the feed. -/
structure Fires (live : Session) (id : WatcherId) (listing : Listing) (first : Float)
    (later : List Move) : Prop where
  /-- What the watcher has put and still holds are the events that are due, in order. -/
  told : putBy (.watcher id) (live.history later) ++ (live.run later).held (.watcher id) =
    Tape.fires (live.tape id listing later)
  /-- What anybody puts comes into the outbox, in that order, and nothing else does. -/
  enqueued : (live.run later).outbox.events =
    live.outbox.events ++ (live.history later).filterMap (·.2.event?)
  /-- Each of them is put in the end, if everybody goes on and the session stays open. -/
  delivered : ∀ schedule, Fair schedule →
    (∀ n, ((live.run later).run (movesOf schedule n)).IsOpen) →
    ∃ n, Tape.fires (live.tape id listing later) <+:
      putBy (.watcher id) (live.history (later ++ movesOf schedule n))
  /-- An order fires at the first valid price that crosses its level. -/
  fires : ∀ before mark since price after order,
    live.tape id listing later = before ++ mark :: since ++ .tick price :: after →
    Tape.Stands first order before mark since → isValidPrice price = true →
    Crosses (Tape.lastPrice first before) order.trigger.level price →
    Event.triggered order.command order.trigger.direction
        (Tape.prices (before ++ mark :: since)).length price ∈
      putBy (.watcher id) (live.history later) ++ (live.run later).held (.watcher id)
  /-- It does so once: that event is the only one under its id since it was placed or moved, until
  its id is used again. -/
  once : ∀ before mark since price after order,
    live.tape id listing later = before ++ mark :: since ++ .tick price :: after →
    Tape.Stands first order before mark since → isValidPrice price = true →
    Crosses (Tape.lastPrice first before) order.trigger.level price →
    (∀ mark ∈ after, ∀ other, mark.order? = some other → other.oid ≠ order.oid) →
    ∃ events,
      putBy (.watcher id) (live.history later) ++ (live.run later).held (.watcher id) =
        Tape.fires (before ++ [mark]) ++ events ∧
      events.filter (·.oid = order.oid) =
        [Event.triggered order.command order.trigger.direction
          (Tape.prices (before ++ mark :: since)).length price]
  /-- Until such a price comes the order waits, and no event under its id has come since. -/
  waits : ∀ before mark since order, live.tape id listing later = before ++ mark :: since →
    Tape.Stands first order before mark since →
    order ∈ (live.run later).book.pending listing ∧ ∃ events,
      putBy (.watcher id) (live.history later) ++ (live.run later).held (.watcher id) =
        Tape.fires (before ++ [mark]) ++ events ∧
      events.filter (·.oid = order.oid) = []
  /-- It does not fire at the last price that it was armed at, unless that is its level. -/
  apart : ∀ before mark since price after order,
    live.tape id listing later = before ++ mark :: since ++ .tick price :: after →
    Tape.Stands first order before mark since →
    (order.trigger.level == Tape.lastPrice first before) = false →
    (price == Tape.lastPrice first before) = true →
    (Tape.firesAt (before ++ mark :: since) (.tick price)).filter (·.oid = order.oid) = []
  /-- Every order bears the id of its command, and one that is moved is armed at the last price of
  that moment. -/
  fits : Tape.Fits first (live.tape id listing later)
  /-- The orders that wait are those of the tape. -/
  pending : (live.run later).book.pending listing = Tape.waiting (live.tape id listing later)
  /-- The last price is the last valid one. -/
  last : (live.run later).book.last? listing =
    some (Tape.lastPrice first (live.tape id listing later))

/-- What the tape says of the orders, as long as the feed is live. -/
theorem Tracked.fires {live : Session} {later : List Move}
    (h : (live.run later).Tracked id watcher first (live.history later)
      (live.tape id watcher.listing later))
    (hkept : (live.run later).Kept) (hopen : (live.run later).IsOpen)
    (hwatcher : (live.run later).watchers[id]? = some watcher)
    (hfirst : isValidPrice first = true) : Fires live id watcher.listing first later := by
  have htold : putBy (.watcher id) (live.history later) ++ (live.run later).held (.watcher id) =
      Tape.fires (live.tape id watcher.listing later) := held_watcher hwatcher ▸ h.told
  exact {
    told := htold
    enqueued := events_run hopen
    delivered := by
      intro schedule hfair hstays
      -- What the tape has fired is put or held now, and what is held is put in time.
      obtain ⟨n, hput⟩ := hkept.exists_putBy_of_fair hfair hstays id
      refine ⟨n, ?_⟩
      rw [← htold, history_append, putBy_append]
      exact (List.prefix_append_right_inj _).2 hput
    fires := by
      intro before mark since price after order hsplit hstands hprice hcrosses
      rw [htold, hsplit]
      exact hstands.mem_fires hfirst hprice hcrosses
    once := by
      intro before mark since price after order hsplit hstands hprice hcrosses hnever
      have hfits := hsplit ▸ h.fits
      refine ⟨_, ?_, hstands.filter_firesAfter hfirst hprice hcrosses hfits hnever⟩
      rw [htold, hsplit, ← Tape.fires_append, List.append_cons before, List.append_assoc]
    waits := by
      intro before mark since order hsplit hstands
      have hfits := hsplit ▸ h.fits
      refine ⟨?_, _, ?_, hstands.filter_firesAfter_eq_nil hfirst hfits⟩
      · rw [h.pending, hsplit]
        exact hstands.mem_waiting hfirst
      · rw [htold, hsplit, ← Tape.fires_append, List.append_cons before]
    apart := by
      intro before mark since price after order hsplit hstands hne hsame
      have hfits := hsplit ▸ h.fits
      exact hstands.filter_firesAt_eq_nil hfirst hfits.of_append hsame hne
    fits := h.fits
    pending := h.pending
    last := h.last }

/-- Whatever comes in between: from the first quote on, as long as the feed is live, orders fire at
the first valid price that crosses their level, once and in order. -/
theorem fires_along (source : Source) (limit : Option Nat) (inboxCapacity outboxCapacity : Nat)
    (hcapacity : 0 < outboxCapacity) (moves : List Move) {id : WatcherId} {watcher : Watcher}
    {stream : StreamId} {batch : Batch} {price : Float} {first : Session}
    (hfirst : first = (start source limit inboxCapacity outboxCapacity).run moves)
    (hwatcher : first.watchers[id]? = some watcher) (hphase : watcher.phase = .opening stream)
    (hreading : first.source.replay.peek stream = .item (.batch batch))
    (hprice : firstPrice? watcher.listing batch = some price) (later : List Move)
    (hopen : (first.run (.turn (.watcher id) :: later)).IsOpen)
    (htracks : ∃ after, (first.run (.turn (.watcher id) :: later)).watchers[id]? = some after ∧
      after.phase.tracks = true) :
    Fires (first.advance (.turn (.watcher id))) id watcher.listing price later := by
  obtain ⟨live, hstep, hbook, hlive⟩ := step_of_firstQuote hwatcher hphase hreading hprice
  rw [run_cons, advance_turn hstep] at hopen htracks
  rw [advance_turn hstep]
  have hnext : live.IsOpen := isOpen_of_run hopen
  have hbefore : first.IsOpen := isOpen_of_step hstep hnext
  rw [hfirst] at hbefore
  have hkept : first.Kept := hfirst ▸ (kept_start _ _ _ hcapacity).run hbefore
  have hposted : first.Posted := hfirst ▸ (posted_start _ _ _ _).run (tidy_start _ _ _ _) hbefore
  have hkeptLive := hkept.of_step hstep hnext
  have hfollowed : Followed id watcher.listing price live [] [] :=
    ⟨hkeptLive.toTidy, _, hlive, rfl,
      .inr (hposted.tracked_of_firstQuote hkept.toTidy hwatcher hphase hbook)⟩
  have hthen := hfollowed.run hopen
  rw [List.nil_append, List.nil_append] at hthen
  obtain ⟨found, hfound, hlisting, hcase⟩ := hthen.watcher
  obtain ⟨after, hafter, htracks⟩ := htracks
  rw [hfound] at hafter
  cases hafter
  -- The feed is still live at the end, so the tape says what has become of the orders.
  have htracked := hcase.resolve_left
    (Bool.eq_false_iff.1 (Watcher.Phase.hasLost_of_tracks htracks))
  rw [← hlisting] at htracked ⊢
  exact htracked.fires (hkeptLive.run hopen) hopen hfound (Option.mem_filter_iff.1 hprice).2

/-- The command of an order to buy `X`. -/
def buyAt (oid : String) (price : Float) : Command :=
  { kind := .buy, oid, symbol := "X", brokers := ["B"], price }

/-- The watcher of `X` is about to read its first quote, with the price 60. -/
def quoteMoves : List Move :=
  [.stimulus (.push ⟨"B", "X"⟩ (.ofPrices "X" [60])), .stimulus (.send (buyAt "a" 55)),
    .turn .desk, .turn (.watcher 0)]

/-- The session before the watcher reads that. -/
def quoted : Session := (start ⟨none, .new⟩ none 4 4).run quoteMoves

/-- Three orders are placed and the first of them is moved. Then a price comes that is not valid,
one that crosses no level, and one that crosses those of the last two orders. -/
def crossingMoves : List Move :=
  [.turn .desk, .turn .desk,
    .stimulus (.send (buyAt "b" 52)), .turn .desk, .turn .desk,
    .stimulus (.send (buyAt "c" 70)), .turn .desk, .turn .desk,
    .stimulus (.send { buyAt "a" 50 with kind := .modify }), .turn .desk, .turn .desk,
    .stimulus (.push ⟨"B", "X"⟩ (.ofPrices "X" [-1, 53, 48])), .turn (.watcher 0),
    .turn (.watcher 0), .turn (.watcher 0), .turn (.watcher 0)]

/-- In that run the watcher's feed goes live, and the orders fire as stated. -/
theorem fires_along_crossing :
    quoted.watchers[0]? = some { Watcher.new ⟨"B", "X"⟩ with phase := .opening 0 } ∧
      (quoted.run (.turn (.watcher 0) :: crossingMoves)).IsOpen ∧
      (Tape.fires ((quoted.advance (.turn (.watcher 0))).tape 0 ⟨"B", "X"⟩ crossingMoves)).map
          (fun event => (event.oid, event.index, event.price)) =
        [("b", some 1, 48), ("a", some 1, 48)] ∧
      Fires (quoted.advance (.turn (.watcher 0))) 0 ⟨"B", "X"⟩ 60 crossingMoves := by
  have hwatcher : quoted.watchers[0]? =
      some { Watcher.new ⟨"B", "X"⟩ with phase := .opening 0 } := by decide +kernel
  have hreading : quoted.source.replay.peek 0 = .item (.batch (.ofPrices "X" [60])) := by
    decide +kernel
  have hprice : firstPrice? ⟨"B", "X"⟩ (.ofPrices "X" [60]) = some 60 := by decide +kernel
  have hopen : (quoted.run (.turn (.watcher 0) :: crossingMoves)).IsOpen :=
    ⟨by decide +kernel, by decide +kernel⟩
  have htracks : (quoted.run (.turn (.watcher 0) :: crossingMoves)).watchers[0]?.any
      (·.phase.tracks) = true := by decide +kernel
  exact ⟨hwatcher, hopen, by decide +kernel, fires_along ⟨none, .new⟩ none 4 4 (by decide)
    quoteMoves rfl hwatcher rfl hreading hprice crossingMoves hopen
    ((Option.any_eq_true _ _).1 htracks)⟩

end Session

end TriggerDesk
