import TriggerDesk.Proofs.Session.Acts
import TriggerDesk.Proofs.Session.Shares

/-!
# Turns for one listing

A turn of the desk on an order of a listing, and a turn of a watcher of the listing, do the same in
a whole session and in one that has only the share of the listing, and leave the second with the
share of the first (`Share.deskStep`, `Share.watcherStep`). A party that has a place in the whole
session needs to have one in the other, too; that it has one is said elsewhere.
-/

namespace TriggerDesk

open Market TriggerDesk.Order Feed

namespace Session

variable {owner : String → Listing} {listing : Listing} {session next whole part : Session}
  {id : WatcherId} {watcher : Watcher}

namespace Share

/-! ## The desk -/

section Desk

variable {command : Command} {placing : Placing}

/-- A desk that is done with its command has none that could be another listing's. -/
theorem resting (h : Share owner listing whole part) :
    Twins owner listing { whole with desk := .idle } { part with desk := .idle } :=
  (h.of_same (sameView_desk _ .idle) (sameView_desk _ .idle)).twins rfl nofun nofun

/-- In both sessions the desk has the answer to put. -/
theorem answer (h : Share owner listing whole part) {event : Event}
    (howner : owner event.oid = listing) :
    Twins owner listing (whole.answer event) (part.answer event) :=
  (h.of_same (sameView_answer _ _) (sameView_answer _ _)).twins rfl nofun
    fun _ hoid => Option.some.inj hoid ▸ howner

/-- In both sessions the desk rejects the command. -/
theorem reject (h : Share owner listing whole part) (howner : owner command.oid = listing)
    (rejection : Rejection) :
    Twins owner listing (whole.reject command rejection) (part.reject command rejection) :=
  have hcounted := h.count (.rejects rejection.label) 1
  hcounted.answer (show owner (Event.rejected command rejection.message).oid = listing from howner)

/-- In both sessions the desk arms the order. -/
theorem arm (h : Share owner listing whole part) (howner : owner placing.command.oid = listing)
    (last : Float) : Twins owner listing (whole.arm placing last) (part.arm placing last) :=
  (h.of_same (sameView_awaitPlace _ _) (sameView_awaitPlace _ _)).twins rfl nofun
    fun _ hoid => Option.some.inj hoid ▸ howner

/-- In both sessions a watcher is started for the listing. -/
theorem startWatcher (h : Share owner listing whole part) (hplace : placing.listing = listing)
    (howner : owner placing.command.oid = listing) :
    Twins owner listing (whole.startWatcher placing) (part.startWatcher placing) := by
  subst hplace
  have hlistings : (whole.startWatcher placing).listings = whole.listings ++ [placing.listing] :=
    List.map_append
  have hrank : ∀ {id : WatcherId}, id ≤ whole.watchers.length →
      (whole.startWatcher placing).rank placing.listing id = whole.rank placing.listing id :=
    rank_append hlistings
  have hnew : (whole.startWatcher placing).watchers[whole.watchers.length]? =
      some (Watcher.new placing.listing) := List.getElem?_concat_length
  have hshare : Share owner placing.listing (whole.startWatcher placing)
      (part.startWatcher placing) := {
    clock := h.clock
    limit := h.limit
    inbox := h.inbox
    receiving := h.receiving
    events := h.events
    book := h.book
    watchers := by
      intro id watcher hwatcher hlisting
      show (part.watchers ++ [Watcher.new placing.listing])[_]? = _
      -- Older watchers keep their ranks, and the new one comes last in both sessions.
      rcases Nat.lt_or_ge id whole.watchers.length with hlt | hge
      · have hold : whole.watchers[id]? = some watcher := by
          rw [← hwatcher]
          exact (List.getElem?_append_left hlt).symm
        have hfound := h.watchers id watcher hold hlisting
        rw [hrank (Nat.le_of_lt hlt),
          List.getElem?_append_left (List.getElem?_eq_some_iff.1 hfound).1, hfound]
      · have hlength := (List.getElem?_eq_some_iff.1 hwatcher).1
        rw [show (whole.startWatcher placing).watchers.length = whole.watchers.length + 1 from
          List.length_append] at hlength
        obtain rfl : id = whole.watchers.length := Nat.le_antisymm (Nat.le_of_lt_succ hlength) hge
        rw [hrank (Nat.le_refl _), ← h.size, List.getElem?_concat_length, ← hwatcher, hnew]
    size := by
      show (part.watchers ++ [Watcher.new placing.listing]).length = rank _ _
        (whole.watchers ++ [Watcher.new placing.listing]).length
      rw [List.length_append, List.length_append, List.length_singleton, rank_succ _ hnew,
        hrank (Nat.le_refl _), h.size, Watcher.new, if_pos rfl]
    spawned := by
      show (part.spawned.set placing.listing part.watchers.length).get? _ =
        ((whole.spawned.set placing.listing whole.watchers.length).get? _).map _
      rw [Table.get?_set_self, Table.get?_set_self, Option.map_some, hrank (Nat.le_refl _), h.size]
    owned := h.owned
    followed := by
      intro id hid
      rw [show (whole.startWatcher placing).spawned.get? placing.listing =
        some whole.watchers.length from Table.get?_set_self _ _ _] at hid
      exact Option.some.inj hid ▸ ⟨_, hnew, rfl⟩ }
  refine hshare.twins ?_ nofun fun _ hoid => Option.some.inj hoid ▸ howner
  show Desk.awaitQuote placing part.watchers.length (part.limit.map (part.clock + ·)) =
    .awaitQuote placing (rank _ _ whole.watchers.length) (whole.limit.map (whole.clock + ·))
  rw [hrank (Nat.le_refl _), h.size, h.limit, h.clock]

/-- Nobody is the watcher of the listing any more. -/
theorem erase (h : Share owner listing whole part) :
    Share owner listing { whole with spawned := whole.spawned.erase listing }
      { part with spawned := part.spawned.erase listing } where
  clock := h.clock
  limit := h.limit
  inbox := h.inbox
  receiving := h.receiving
  events := h.events
  book := h.book
  watchers := h.watchers
  size := h.size
  spawned := by rw [Table.get?_erase_self, Table.get?_erase_self, Option.map_none]
  owned := h.owned
  followed id hid := by
    rw [Table.get?_erase_self] at hid
    cases hid

/-- In both sessions a watcher is put in place of another. -/
theorem replaceWatcher (h : Share owner listing whole part) (hplace : placing.listing = listing)
    (howner : owner placing.command.oid = listing) :
    Twins owner listing (whole.replaceWatcher placing) (part.replaceWatcher placing) := by
  subst hplace
  unfold Session.replaceWatcher
  rw [h.spawned]
  cases hid : whole.spawned.get? placing.listing with
  | none => exact h.startWatcher rfl howner
  | some id =>
    obtain ⟨watcher, hwatcher, hlisting⟩ := h.followed id hid
    rw [Option.map_some]
    dsimp only
    rw [h.book.isRetiring_eq]
    split
    · exact (h.erase.of_same (sameView_desk _ _) (sameView_desk _ _)).twins rfl nofun
        fun _ hoid => Option.some.inj hoid ▸ howner
    · exact (h.erase.endWatcher hwatcher hlisting .aborted).startWatcher rfl howner

/-- In both sessions the feed of the listing is sought. -/
theorem seekFeed (h : Share owner listing whole part) (hplace : placing.listing = listing)
    (howner : owner placing.command.oid = listing) :
    Twins owner listing (whole.seekFeed placing) (part.seekFeed placing) := by
  unfold Session.seekFeed
  rw [show part.book.last? placing.listing = whole.book.last? placing.listing from
    hplace ▸ h.book.last?_eq]
  split
  · exact h.arm howner _
  · exact h.replaceWatcher hplace howner

/-- In both sessions the desk tries again. -/
theorem tryAgain (h : Share owner listing whole part) (hplace : placing.listing = listing)
    (howner : owner placing.command.oid = listing) :
    Twins owner listing (whole.tryAgain placing) (part.tryAgain placing) := by
  unfold Session.tryAgain
  split
  · exact h.reject howner _
  · have hagain : owner { placing with again := true }.command.oid = listing := howner
    exact h.seekFeed hplace hagain

/-- In both sessions the desk goes on after a wait. -/
theorem feedReady (h : Share owner listing whole part) (hplace : placing.listing = listing)
    (howner : owner placing.command.oid = listing) :
    Twins owner listing (whole.feedReady placing) (part.feedReady placing) := by
  unfold Session.feedReady
  dsimp only
  rw [show (part.count .firstQuotes 1).book.last? placing.listing =
    (whole.count .firstQuotes 1).book.last? placing.listing from hplace ▸ h.book.last?_eq]
  split
  · exact (h.count _ _).arm howner _
  · exact (h.count _ _).tryAgain hplace howner

/-- In both sessions the order is placed, or its feed is found lost. -/
theorem place (h : Share owner listing whole part) (hplace : placing.listing = listing)
    (howner : owner placing.command.oid = listing) (last : Float) :
    Twins owner listing (whole.place placing last) (part.place placing last) := by
  subst hplace
  have horder : owner (Pending.ofCommand placing.command last).oid = placing.listing := howner
  obtain ⟨hresult, hbooks⟩ := h.book.insert horder
  have howned := h.owned.insert horder rfl
  unfold Session.place
  dsimp only
  generalize whole.book.insert placing.listing (Pending.ofCommand placing.command last) = inserted
    at hresult hbooks howned
  generalize part.book.insert placing.listing (Pending.ofCommand placing.command last) = again
    at hresult hbooks
  obtain ⟨result, book⟩ := inserted
  obtain ⟨answer, other⟩ := again
  obtain rfl : answer = result := hresult
  cases answer with
  | ok done =>
    have hput := h.acknowledge (Event.ack placing.command
      (Trigger.arm placing.command.price last).direction) howner
    exact ((hput.count .pending 1).withBook hbooks howned).resting
  | error refusal =>
    cases refusal with
    | duplicateOid =>
      exact (h.of_same (sameView_returnPlace _) (sameView_returnPlace _)).reject howner _
    | noFeed _ =>
      exact ((h.withBook hbooks howned).of_same (sameView_returnPlace _)
        (sameView_returnPlace _)).tryAgain rfl howner

/-- In both sessions the command that places an order is taken up. -/
theorem handleOrder (h : Share owner listing whole part) (howner : owner command.oid = listing)
    (hkey : ∀ broker, command.broker? = some broker →
      owner command.oid = { broker, symbol := command.symbol }) :
    Twins owner listing (whole.handleOrder command) (part.handleOrder command) := by
  unfold Session.handleOrder
  rw [h.book.contains_eq howner]
  split
  · exact h.reject howner _
  · next broker hbroker =>
    split
    · exact h.reject howner _
    · split
      · exact h.reject howner _
      · exact h.seekFeed ((hkey broker hbroker).symm.trans howner) howner

/-- In both sessions the order is cancelled. -/
theorem handleCancel (h : Share owner listing whole part) (howner : owner command.oid = listing) :
    Twins owner listing (whole.handleCancel command) (part.handleCancel command) := by
  unfold Session.handleCancel
  rcases h.book.remove h.owned howner with ⟨hnone, hnone'⟩ |
    ⟨order, book, other, hremove, hremove', hbooks⟩
  · rw [hnone, hnone']
    exact h.reject howner _
  · rw [hremove, hremove']
    exact ((h.withBook hbooks (h.owned.remove hremove)).count .pending (-1)).answer
      ((congrArg owner (h.owned.oid_of_remove hremove)).trans howner)

/-- In both sessions the command that moves an order is taken up. -/
theorem handleModify (h : Share owner listing whole part) (howner : owner command.oid = listing) :
    Twins owner listing (whole.handleModify command) (part.handleModify command) := by
  unfold Session.handleModify
  split
  · exact h.reject howner _
  · exact (h.of_same (sameView_awaitPlace _ _) (sameView_awaitPlace _ _)).twins rfl nofun
      fun _ hoid => Option.some.inj hoid ▸ howner

/-- In both sessions the order is moved. -/
theorem move (h : Share owner listing whole part) (howner : owner command.oid = listing) :
    Twins owner listing (whole.move command) (part.move command) := by
  unfold Session.move
  rcases h.book.modify h.owned howner command.price with ⟨hnone, hnone'⟩ |
    ⟨moved, again, hmodify, hmodify', horder, hbooks⟩
  · rw [hnone, hnone']
    exact (h.of_same (sameView_returnPlace _) (sameView_returnPlace _)).reject howner _
  · rw [hmodify, hmodify']
    dsimp only
    rw [horder]
    have hput := h.acknowledge (Event.ack moved.order.command moved.order.trigger.direction)
      ((congrArg owner (h.owned.oid_of_modify hmodify)).trans howner)
    exact (hput.withBook hbooks (h.owned.modify hmodify)).resting

/-- In both sessions the command is taken up. -/
theorem handle (h : Share owner listing whole part) (howner : owner command.oid = listing)
    (howned : command.IsOwned owner) :
    Twins owner listing (whole.handle command) (part.handle command) := by
  have hready : Share owner listing ((whole.count (.commands command.kind.name) 1).write
      (.command command)) ((part.count (.commands command.kind.name) 1).write
      (.command command)) := (h.count _ _).write _
  unfold Session.handle
  unfold Command.IsOwned at howned
  cases hkind : command.kind with
  | alert | buy | sell =>
    rw [hkind] at howned hready
    exact hready.handleOrder howner (howned rfl)
  | cancel =>
    rw [hkind] at hready
    exact hready.handleCancel howner
  | modify =>
    rw [hkind] at hready
    exact hready.handleModify howner

/-- A command of the listing that the whole session takes up is the first one in the share. -/
theorem withInbox (h : Share owner listing whole part) {rest : List Command}
    (hitems : whole.inbox.items = command :: rest) (howner : owner command.oid = listing) :
    ∃ inbox, part.inbox.receive? = some (command, inbox) ∧
      Share owner listing { whole with inbox := { whole.inbox with items := rest } }
        { part with inbox } := by
  have hkept : part.inbox.items = command :: rest.filter (owner ·.oid = listing) := by
    rw [h.inbox, hitems, List.filter_cons_of_pos (by simpa using howner)]
  refine ⟨{ part.inbox with items := rest.filter (owner ·.oid = listing) }, by
    rw [Channel.receive?, hkept], ?_⟩
  exact {
    clock := h.clock
    limit := h.limit
    inbox := by rw [h.inbox]
    receiving := h.receiving
    events := h.events
    book := h.book
    watchers := h.watchers
    size := h.size
    spawned := h.spawned
    owned := h.owned
    followed := h.followed }

/-- Who finds that the client has left finds that in both. -/
theorem standing_of_closed (h : Share owner listing whole part) {party other : Party}
    (hclosed : whole.outbox.standing party = .closed) :
    part.outbox.standing other = .closed := by
  rw [Outbox.standing, h.receiving, Outbox.receiving_of_closed hclosed]
  rfl

/-- A desk that goes on in the whole session goes on in the share. -/
theorem withPlace (h : Share owner listing whole part)
    (hgranted : whole.outbox.standing .desk = .granted → part.outbox.standing .desk = .granted)
    {further again : Session → Session} (hturn : Twins owner listing (further whole) (again part))
    (hstep : whole.withPlace further = some next) :
    ∃ after, part.withPlace again = some after ∧
      (Twins owner listing next after ∨ next = whole.shutDown ∧ after = part.shutDown) := by
  unfold Session.withPlace at hstep ⊢
  cases hstanding : whole.outbox.standing .desk with
  | waiting =>
    rw [hstanding] at hstep
    cases hstep
  | granted =>
    rw [hstanding] at hstep
    cases hstep
    rw [hgranted hstanding]
    exact ⟨_, rfl, .inl hturn⟩
  | closed =>
    rw [hstanding] at hstep
    cases hstep
    rw [h.standing_of_closed hstanding]
    exact ⟨_, rfl, .inr ⟨rfl, rfl⟩⟩

/-- In both sessions the wait for a first quote has the same outcome. -/
theorem quoteOutcome?_eq (h : Share owner listing whole part) (watcher : Watcher)
    (deadline : Option Nat) :
    part.quoteOutcome? watcher deadline = whole.quoteOutcome? watcher deadline := by
  unfold quoteOutcome?
  rw [h.clock, h.limit]

/-- A turn of the desk for the listing is one of the desk of the share. -/
theorem deskStep (h : Share owner listing whole part) (howned : whole.Owned owner)
    (hdesk : part.desk = whole.desk.renamed (whole.rank listing))
    {oid : String} (hsubject : whole.subject? = some oid) (howner : owner oid = listing)
    (hgranted : whole.outbox.standing .desk = .granted → part.outbox.standing .desk = .granted)
    (hstep : whole.deskStep = some next) :
    ∃ after, part.deskStep = some after ∧
      (Twins owner listing next after ∨ next = whole.shutDown ∧ after = part.shutDown) := by
  unfold subject? at hsubject
  unfold Session.deskStep at hstep ⊢
  have hplacing := howned.owner_of_placing
  cases hbusy : whole.desk with
  | idle =>
    rw [hbusy] at hdesk hstep hsubject
    rw [hdesk]
    cases hitems : whole.inbox.items with
    | nil =>
      rw [hitems] at hsubject
      cases hsubject
    | cons command rest =>
      rw [hitems] at hsubject
      obtain rfl : command.oid = oid := Option.some.inj hsubject
      obtain ⟨inbox, hreceive, hready⟩ := h.withInbox hitems howner
      have hwhole : whole.inbox.receive? =
          some (command, { whole.inbox with items := rest }) := by
        rw [Channel.receive?, hitems]
      -- The command that is taken up was on the docket, so its id belongs to the listing.
      have hmem : command ∈ whole.docket := by
        rw [docket, hbusy, hitems]
        exact List.mem_cons_self
      simp only [hwhole, Option.some.injEq] at hstep
      simp only [Desk.renamed, hreceive, ← hstep]
      have hidle := hready.of_same (sameView_desk _ .idle) (sameView_desk _ .idle)
      exact ⟨_, rfl, .inl (hidle.handle howner (howned.docket command hmem))⟩
  | awaitEnd placing id =>
    -- The watcher that is waited for is of the listing, so the share has it under its rank.
    rw [hbusy] at hdesk hstep hsubject hplacing
    rw [hdesk]
    obtain rfl : placing.command.oid = oid := Option.some.inj hsubject
    have hplace : placing.listing = listing := (hplacing placing rfl).symm.trans howner
    obtain ⟨_, watcher, hwatcher, hlisting⟩ := howned.staffed.awaited placing id hbusy
    obtain ⟨found, hfound, hstep⟩ := Option.bind_eq_some_iff.1 hstep
    obtain rfl : watcher = found := Option.some.inj (hwatcher.symm.trans hfound)
    simp only [Desk.renamed, h.watchers id watcher hwatcher (hlisting.trans hplace),
      Option.bind_eq_bind, Option.bind_some]
    split at hstep
    · next hended =>
      cases hstep
      rw [if_pos hended]
      exact ⟨_, rfl, .inl (h.startWatcher hplace howner)⟩
    · cases hstep
  | awaitQuote placing id deadline =>
    rw [hbusy] at hdesk hstep hsubject hplacing
    rw [hdesk]
    obtain rfl : placing.command.oid = oid := Option.some.inj hsubject
    have hplace : placing.listing = listing := (hplacing placing rfl).symm.trans howner
    obtain ⟨watcher, hwatcher, hlisting⟩ := howned.quoted placing id deadline hbusy
    obtain ⟨found, hfound, hstep⟩ := Option.bind_eq_some_iff.1 hstep
    obtain rfl : watcher = found := Option.some.inj (hwatcher.symm.trans hfound)
    obtain ⟨outcome, houtcome, hstep⟩ := Option.bind_eq_some_iff.1 hstep
    simp only [Desk.renamed, h.watchers id watcher hwatcher (hlisting.trans hplace),
      Option.bind_eq_bind, Option.bind_some, h.quoteOutcome?_eq, houtcome]
    cases outcome with
    | ok done =>
      cases hstep
      exact ⟨_, rfl, .inl (h.feedReady hplace howner)⟩
    | error cause =>
      cases hstep
      exact ⟨_, rfl, .inl (h.reject howner _)⟩
  | awaitPlace placing last =>
    rw [hbusy] at hdesk hstep hsubject hplacing
    rw [hdesk]
    obtain rfl : placing.command.oid = oid := Option.some.inj hsubject
    exact h.withPlace hgranted
      (h.place ((hplacing placing rfl).symm.trans howner) howner last) hstep
  | awaitMove command =>
    rw [hbusy] at hdesk hstep hsubject
    rw [hdesk]
    obtain rfl : command.oid = oid := Option.some.inj hsubject
    exact h.withPlace hgranted (h.move howner) hstep
  | answering event =>
    rw [hbusy] at hdesk hstep hsubject
    rw [hdesk]
    obtain rfl : event.oid = oid := Option.some.inj hsubject
    exact h.withPlace hgranted (h.put howner .desk .desk).resting hstep
  | ended =>
    rw [hbusy] at hstep
    cases hstep

end Desk

/-! ## Watchers of the listing -/

section Watchers

variable {stream : StreamId}

/-- A watcher of the listing changes in both sessions. -/
theorem modifyWatcher (h : Share owner listing whole part)
    (hwatcher : whole.watchers[id]? = some watcher) (hlisting : watcher.listing = listing)
    (change : Watcher → Watcher) (hkeep : ∀ watcher, (change watcher).listing = watcher.listing) :
    Share owner listing (whole.modifyWatcher id change)
      (part.modifyWatcher (whole.rank listing id) change) :=
  h.changes (changes_modifyWatcher _ _ _) (changes_modifyWatcher _ _ _) hkeep hwatcher hlisting

/-- A watcher of the listing enters the phase in both sessions. -/
theorem setPhase (h : Share owner listing whole part)
    (hwatcher : whole.watchers[id]? = some watcher) (hlisting : watcher.listing = listing)
    (phase : Watcher.Phase) :
    Share owner listing (whole.setPhase id phase)
      (part.setPhase (whole.rank listing id) phase) :=
  h.modifyWatcher hwatcher hlisting _ fun _ => rfl

/-- A watcher of the listing gives up in both sessions. -/
theorem giveUp (h : Share owner listing whole part)
    (hwatcher : whole.watchers[id]? = some watcher) (hlisting : watcher.listing = listing)
    (failure : Failure) :
    Share owner listing (whole.giveUp id failure)
      (part.giveUp (whole.rank listing id) failure) := by
  have hchanges := changes_modifyWatcher whole id fun watcher =>
    { watcher with outcome := some (.failed failure) }
  have hmodified := h.modifyWatcher hwatcher hlisting (fun watcher =>
    { watcher with outcome := some (.failed failure) }) fun _ => rfl
  have hended := hmodified.endWatcher (watchers_modifyWatcher whole hwatcher _) hlisting .neverLive
  rw [rank_congr (hchanges.listings_eq fun _ => rfl)] at hended
  exact hended

/-- A watcher of the listing subscribes in both sessions. -/
theorem subscribe (h : Share owner listing whole part)
    (hwatcher : whole.watchers[id]? = some watcher) (hlisting : watcher.listing = listing)
    (hsource : Source.AlikeFor listing.symbol whole.source part.source) :
    Share owner listing (whole.subscribe id listing)
      (part.subscribe (whole.rank listing id) listing) := by
  have hresult := hsource.subscribe_eq listing
  unfold Session.subscribe
  generalize whole.source.subscribe listing = opened at hresult
  generalize part.source.subscribe listing = again at hresult
  obtain ⟨result, source⟩ := opened
  obtain ⟨answer, other⟩ := again
  obtain rfl : answer = result := hresult
  have hread : Share owner listing { whole with source } { part with source := other } :=
    h.of_same (sameView_source _ _) (sameView_source _ _)
  cases answer with
  | ok stream => exact hread.setPhase hwatcher hlisting _
  | error failure => exact hread.giveUp hwatcher hlisting _

/-- Both sessions read on in the stream. -/
theorem advanceStream (h : Share owner listing whole part) (stream : StreamId) :
    Share owner listing (whole.advanceStream stream) (part.advanceStream stream) :=
  h.of_same (sameView_source _ _) (sameView_source _ _)

/-- A watcher of the listing goes live in both sessions. -/
theorem goLive (h : Share owner listing whole part)
    (hwatcher : whole.watchers[id]? = some watcher) (hlisting : watcher.listing = listing)
    (stream : StreamId) (price : Float) :
    Share owner listing (whole.goLive id stream listing price)
      (part.goLive (whole.rank listing id) stream listing price) :=
  have hlive := (h.count .watchers 1).withBook (h.book.setLast price)
    (h.owned.setLast listing price)
  hlive.modifyWatcher hwatcher hlisting _ fun _ => rfl

/-- A first reading that shows the listing the same is taken in the same way. -/
theorem takeFirst (h : Share owner listing whole part)
    (hwatcher : whole.watchers[id]? = some watcher) (hlisting : watcher.listing = listing)
    {reading other : Reading} (hreading : Reading.AlikeFor listing.symbol reading other)
    (hstep : whole.takeFirst id stream listing reading = some next) :
    ∃ after, part.takeFirst (whole.rank listing id) stream listing other = some after ∧
      Share owner listing next after := by
  have hadvanced := h.advanceStream stream
  cases hreading with
  | pending => cases hstep
  | ended =>
    cases hstep
    exact ⟨_, rfl, h.giveUp hwatcher hlisting _⟩
  | item hitem =>
    cases hitem with
    | failure failure =>
      cases hstep
      exact ⟨_, rfl, hadvanced.giveUp hwatcher hlisting _⟩
    | @batch batch shown halike =>
      have hprice : firstPrice? listing shown = firstPrice? listing batch :=
        congrArg (Option.filter isValidPrice) halike.lastFor?_eq
      unfold Session.takeFirst at hstep ⊢
      dsimp only at hstep ⊢
      rw [hprice]
      split at hstep
      · cases hstep
        exact ⟨_, rfl, hadvanced.goLive hwatcher hlisting stream _⟩
      · cases hstep
        exact ⟨_, rfl, hadvanced.giveUp hwatcher hlisting _⟩

/-- An order that left the book is announced in both sessions. -/
theorem announceLeft (h : Share owner listing whole part) (other : WatcherId) (event : Event) :
    Share owner listing (whole.announceLeft id event) (part.announceLeft other event) :=
  (h.count .pending (-1)).of_same (sameView_announce _ _ _) (sameView_announce _ _ _)

/-- A watcher of the listing fires orders in both sessions. -/
theorem fire (h : Share owner listing whole part)
    (hwatcher : whole.watchers[id]? = some watcher) (hlisting : watcher.listing = listing)
    (stream : StreamId) (prices : List Float) (events : List Event) :
    Share owner listing (whole.fire id stream prices events)
      (part.fire (whole.rank listing id) stream prices events) := by
  cases events with
  | nil => exact h.setPhase hwatcher hlisting _
  | cons event rest => exact Share.setPhase (h.announceLeft _ event) hwatcher hlisting _

/-- A watcher of the listing drains orders in both sessions. -/
theorem drain (h : Share owner listing whole part)
    (hwatcher : whole.watchers[id]? = some watcher) (hlisting : watcher.listing = listing)
    (stream : StreamId) (events : List Event) :
    Share owner listing (whole.drain id stream events)
      (part.drain (whole.rank listing id) stream events) := by
  cases events with
  | nil => exact h.endWatcher hwatcher hlisting _
  | cons event rest => exact Share.setPhase (h.announceLeft _ event) hwatcher hlisting _

/-- A price takes the same orders of the listing out of both books. -/
theorem takePrice (h : Share owner listing whole part)
    (hwatcher : whole.watchers[id]? = some watcher) (hlisting : watcher.listing = listing)
    (price : Float) :
    (part.takePrice (whole.rank listing id) listing price).1 =
        (whole.takePrice id listing price).1 ∧
      Share owner listing (whole.takePrice id listing price).2
        (part.takePrice (whole.rank listing id) listing price).2 := by
  obtain ⟨horders, hbooks⟩ := (h.book.setLast price).evaluate price
  have howned := (h.owned.setLast listing price).evaluate listing price
  have hlooked := (h.withBook hbooks howned).modifyWatcher hwatcher hlisting (fun watcher =>
    { watcher with index := watcher.index + 1 }) fun _ => rfl
  exact ⟨horders, (hlooked.count _ _).count _ _⟩

/-- A watcher of the listing looks at the price in both sessions. -/
theorem lookAt (h : Share owner listing whole part)
    (hwatcher : whole.watchers[id]? = some watcher) (hlisting : watcher.listing = listing)
    (stream : StreamId) (price : Float) (prices : List Float) :
    Share owner listing (whole.lookAt id watcher stream price prices)
      (part.lookAt (whole.rank listing id) watcher stream price prices) := by
  have hskipped : ∀ reason, Share owner listing (whole.skipPrice watcher.listing reason)
      (part.skipPrice watcher.listing reason) := fun _ => h.count _ _
  unfold Session.lookAt
  split
  · exact (hskipped _).setPhase hwatcher hlisting _
  · split
    · exact (hskipped _).setPhase hwatcher hlisting _
    · subst hlisting
      obtain ⟨horders, hlooked⟩ := h.takePrice hwatcher rfl price
      have hrank : (whole.takePrice id watcher.listing price).2.rank watcher.listing =
          whole.rank watcher.listing := by
        have hchanges := changes_modifyWatcher whole id fun watcher =>
          { watcher with index := watcher.index + 1 }
        exact rank_congr (hchanges.listings_eq fun _ => rfl)
      have hfired := hlooked.fire (watchers_takePrice hwatcher price) rfl stream prices
        (firedEvents (whole.takePrice id watcher.listing price).1 watcher.index price)
      rw [hrank] at hfired
      dsimp only
      rw [horders]
      exact hfired

/-- A watcher of the listing loses its feed in both sessions. -/
theorem loseFeed (h : Share owner listing whole part)
    (hwatcher : whole.watchers[id]? = some watcher) (hlisting : watcher.listing = listing)
    (hlast : whole.book.last? listing ≠ none) (stream : StreamId) (failure : Failure) :
    Share owner listing (whole.loseFeed id stream listing failure)
      (part.loseFeed (whole.rank listing id) stream listing failure) := by
  obtain ⟨horders, hbooks⟩ := h.book.retire hlast
  have hlost := h.withBook hbooks (h.owned.retire listing)
  unfold Session.loseFeed
  dsimp only
  have hwritten : ∀ entry, Share owner listing
      { whole.write entry with book := (whole.book.retire listing).2 }
      { part.write entry with book := (part.book.retire listing).2 } := hlost.write
  show Share owner listing
    (Session.drain _ id stream (drainedEvents (whole.book.retire listing).1 _))
    (Session.drain _ _ stream (drainedEvents (part.book.retire listing).1 _))
  rw [horders]
  exact (hwritten _).drain hwatcher hlisting stream _

/-- A reading that shows the listing the same is taken in the same way. -/
theorem takeNext (h : Share owner listing whole part)
    (hwatcher : whole.watchers[id]? = some watcher) (hlisting : watcher.listing = listing)
    (hlast : whole.book.last? listing ≠ none) {reading other : Reading}
    (hreading : Reading.AlikeFor listing.symbol reading other)
    (hstep : whole.takeNext id stream listing reading = some next) :
    ∃ after, part.takeNext (whole.rank listing id) stream listing other = some after ∧
      Share owner listing next after := by
  have hadvanced := h.advanceStream stream
  cases hreading with
  | pending => cases hstep
  | ended =>
    cases hstep
    exact ⟨_, rfl, h.loseFeed hwatcher hlisting hlast stream _⟩
  | item hitem =>
    cases hitem with
    | failure failure =>
      cases hstep
      exact ⟨_, rfl, hadvanced.loseFeed hwatcher hlisting hlast stream _⟩
    | @batch batch shown halike =>
      cases hstep
      refine ⟨_, rfl, ?_⟩
      rw [halike.ticksFor_eq]
      exact hadvanced.setPhase hwatcher hlisting _

/-- A watcher that goes on in the whole session goes on in the share. -/
theorem deliver (h : Share owner listing whole part)
    (hwatcher : whole.watchers[id]? = some watcher) (hlisting : watcher.listing = listing)
    (hgranted : whole.outbox.standing (.watcher id) = .granted →
      part.outbox.standing (.watcher (whole.rank listing id)) = .granted)
    {event : Event} {further again : Session → Session}
    (hturn : Share owner listing (further (whole.put (.watcher id) event))
      (again (part.put (.watcher (whole.rank listing id)) event)))
    (hstep : whole.deliver id event further = some next) :
    ∃ after, part.deliver (whole.rank listing id) event again = some after ∧
      Share owner listing next after := by
  unfold Session.deliver at hstep ⊢
  cases hstanding : whole.outbox.standing (.watcher id) with
  | waiting =>
    rw [hstanding] at hstep
    cases hstep
  | granted =>
    rw [hstanding] at hstep
    cases hstep
    rw [hgranted hstanding]
    exact ⟨_, rfl, hturn⟩
  | closed =>
    rw [hstanding] at hstep
    cases hstep
    rw [h.standing_of_closed hstanding]
    exact ⟨_, rfl, h.endWatcher hwatcher hlisting _⟩

/-- A turn of a watcher of the listing is one of that watcher in the share. -/
theorem watcherStep (h : Share owner listing whole part) (howned : whole.Owned owner)
    (hwatcher : whole.watchers[id]? = some watcher) (hlisting : watcher.listing = listing)
    (hsource : Source.AlikeFor listing.symbol whole.source part.source)
    (hgranted : whole.outbox.standing (.watcher id) = .granted →
      part.outbox.standing (.watcher (whole.rank listing id)) = .granted)
    (hstep : whole.watcherStep id = some next) :
    ∃ after, part.watcherStep (whole.rank listing id) = some after ∧
      Share owner listing next after := by
  have hlive : watcher.phase.tracks = true → whole.book.last? listing ≠ none :=
    fun htracks => hlisting ▸ howned.staffed.live id watcher hwatcher htracks
  have hput : ∀ event ∈ watcher.held, Share owner listing (whole.put (.watcher id) event)
      (part.put (.watcher (whole.rank listing id)) event) := fun event hevent =>
    h.put ((howned.held watcher (List.mem_of_getElem? hwatcher) event hevent).trans hlisting) _ _
  obtain ⟨found, hfound, hstep⟩ := Option.bind_eq_some_iff.1 hstep
  obtain rfl : watcher = found := Option.some.inj (hwatcher.symm.trans hfound)
  unfold Session.watcherStep
  rw [h.watchers id watcher hwatcher hlisting, Option.bind_eq_bind, Option.bind_some]
  unfold Watcher.held at hput
  cases hphase : watcher.phase with
  | starting =>
    rw [hphase] at hstep
    cases hstep
    subst hlisting
    exact ⟨_, rfl, h.subscribe hwatcher rfl hsource⟩
  | opening stream =>
    rw [hphase] at hstep
    subst hlisting
    -- A reading is looked at for quotes of the symbol, and those are the same in both sources.
    exact h.takeFirst hwatcher rfl (hsource.peek stream) hstep
  | following stream prices =>
    rw [hphase] at hstep hlive
    cases prices with
    | nil =>
      subst hlisting
      exact h.takeNext hwatcher rfl (hlive rfl) (hsource.peek stream) hstep
    | cons price prices =>
      cases hstep
      exact ⟨_, rfl, h.lookAt hwatcher hlisting stream price prices⟩
  | firing stream event rest prices =>
    rw [hphase] at hstep hput
    have hready := hput event List.mem_cons_self
    exact h.deliver hwatcher hlisting hgranted
      (hready.fire hwatcher hlisting stream prices rest) hstep
  | retiring stream event rest =>
    rw [hphase] at hstep hput
    have hready := hput event List.mem_cons_self
    exact h.deliver hwatcher hlisting hgranted (hready.drain hwatcher hlisting stream rest) hstep
  | ended ending =>
    rw [hphase] at hstep
    cases hstep

end Watchers

end Share

end Session

end TriggerDesk
