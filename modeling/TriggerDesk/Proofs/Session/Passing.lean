import TriggerDesk.Proofs.Order.Crossing
import TriggerDesk.Proofs.Session.Sifting

/-!
# What watchers pass over

The turns of the watchers, in a session and in one that is shown less of a stream
(`Session.Veiled`). Every other watcher takes the same turn in both
(`Veiled.watcherStep_of_ne`). The watcher of the stream takes the same turn, or one that only passes
over a price or a batch, and then the session that is shown less is already there
(`Veiled.watcherStep_own`).
-/

namespace TriggerDesk

open Market TriggerDesk.Order Feed Metrics

namespace Session

variable {id target : WatcherId} {stream own : StreamId} {symbol : String}
  {session first second : Session} {source : Source} {watchers : List Watcher}
  {watcher same : Watcher}
  {unread : List Item} {prices shown : List Float} {price : Float} {channel : Channel Item}
  {meters : Meters}

/-! ## What watchers do alike -/

/-- A watcher reads a stream, with prices in hand as they are and as they are shown. -/
inductive Follows (id : WatcherId) (stream : StreamId) :
    WatcherId → StreamId → List Float → List Float → Prop where
  | other {target : WatcherId} {own : StreamId} {prices : List Float} : target ≠ id →
      own ≠ stream → Follows id stream target own prices prices
  | own {prices shown : List Float} : SiftsPrices prices shown →
      Follows id stream id stream prices shown

namespace Follows

/-- Following its stream, a watcher shows the prices that are sifted from those it holds. -/
theorem following (h : Follows id stream target own prices shown) :
    Shows id stream target (.following own prices) (.following own shown) := by
  cases h with
  | other hne hown => exact .other hne fun heq => hown (Option.some_inj.1 heq)
  | own hsifts =>
    have hshows : Shows id stream id (.following stream prices)
        ((Watcher.Phase.following stream prices).withPrices shown) := .own rfl hsifts
    exact hshows

/-- While it puts the events of a price, it shows the sifted rest of its prices. -/
theorem firing (h : Follows id stream target own prices shown) (event : Event)
    (rest : List Event) :
    Shows id stream target (.firing own event rest prices) (.firing own event rest shown) := by
  cases h with
  | other hne hown => exact .other hne fun heq => hown (Option.some_inj.1 heq)
  | own hsifts =>
    have hshows : Shows id stream id (.firing stream event rest prices)
        ((Watcher.Phase.firing stream event rest prices).withPrices shown) := .own rfl hsifts
    exact hshows

/-- Once it retires, it holds no prices, so what it shows is what it has. -/
theorem retiring (h : Follows id stream target own prices shown) (event : Event)
    (rest : List Event) :
    Shows id stream target (.retiring own event rest) (.retiring own event rest) := by
  cases h with
  | other hne hown => exact .other hne fun heq => hown (Option.some_inj.1 heq)
  | own hsifts =>
    have hshows : Shows id stream id (.retiring stream event rest)
        ((Watcher.Phase.retiring stream event rest).withPrices []) := .own rfl .nil
    exact hshows

end Follows

/-! ## Subscriptions -/

/-- The senders leave a stream as it is shown. -/
theorem endCurrent_showing (replay : Replay) (listing : Listing) (items : List Item) :
    (replay.showing stream items).endCurrent listing =
      (replay.endCurrent listing).showing stream items := by
  cases hcurrent : replay.current.get? listing with
  | none =>
    have hsame : (replay.showing stream items).current.get? listing = none := hcurrent
    rw [Replay.endCurrent_of_none hcurrent, Replay.endCurrent_of_none hsame]
  | some own =>
    have hsame : (replay.showing stream items).current.get? listing = some own := hcurrent
    rw [Replay.endCurrent_of_some hcurrent, Replay.endCurrent_of_some hsame, Replay.showing,
      Replay.showing]
    by_cases heq : own = stream
    · rw [heq, modifyStream_modifyStream, modifyStream_modifyStream]
      rfl
    · exact modifyStream_comm (Ne.symm heq)

/-- A stream that is opened after another leaves what the other shows. -/
theorem withStream_showing {replay : Replay} (hlt : stream < replay.streams.length)
    (listing : Listing) (items : List Item) :
    (replay.showing stream items).withStream listing [] =
      (replay.withStream listing []).showing stream items := by
  have hlength : (replay.showing stream items).streams.length = replay.streams.length :=
    List.length_modify _ _ _
  have hstreams : (replay.endCurrent listing).streams.modify stream
        (fun channel => { channel with items }) ++ [Replay.streamOf []] =
      ((replay.endCurrent listing).streams ++ [Replay.streamOf []]).modify stream
        fun channel => { channel with items } :=
    (modify_append_of_lt ((Replay.length_endCurrent replay listing).symm ▸ hlt)).symm
  unfold Replay.withStream
  rw [endCurrent_showing, hlength]
  exact congrArg
    (fun streams : List (Channel Item) => { replay.withStream listing [] with streams }) hstreams

/-- Starting a stream does the same however the items of an older stream are shown. -/
theorem startStream_showing {replay : Replay} (hlt : stream < replay.streams.length)
    (listing : Listing) (items : List Item) :
    (replay.showing stream items).startStream listing =
      ((replay.startStream listing).1, (replay.startStream listing).2.showing stream items) := by
  have hlength : (replay.showing stream items).streams.length = replay.streams.length :=
    List.length_modify _ _ _
  rw [Replay.startStream_eq, Replay.startStream_eq, hlength, withStream_showing hlt]

/-- Whoever subscribes gets the same stream, whatever is shown of another one. -/
theorem subscribe_showing {replay : Replay} (hlt : stream < replay.streams.length)
    (listing : Listing) (items : List Item) :
    (replay.showing stream items).subscribe listing =
      ((replay.subscribe listing).1, (replay.subscribe listing).2.showing stream items) := by
  have hcounted : (replay.showing stream items).countOpen listing =
      (replay.countOpen listing).showing stream items := rfl
  have hrefusals : ((replay.countOpen listing).showing stream items).refusals.get? listing =
      (replay.countOpen listing).refusals.get? listing := rfl
  have hwaiting : ((replay.countOpen listing).showing stream items).waiting.get? listing =
      (replay.countOpen listing).waiting.get? listing := rfl
  unfold Replay.subscribe
  dsimp only
  rw [hcounted, hrefusals, hwaiting]
  cases (replay.countOpen listing).refusals.get? listing with
  | some reason => rfl
  | none =>
    cases (replay.countOpen listing).waiting.get? listing with
    | some own => rfl
    | none =>
      have hcountedLt : stream < (replay.countOpen listing).streams.length := hlt
      dsimp only
      rw [startStream_showing hcountedLt]

/-- Subscribing does the same however the items of an older stream are shown. -/
theorem source_subscribe_showing (hlt : stream < source.replay.streams.length)
    (listing : Listing) (items : List Item) :
    (source.showing stream items).subscribe listing =
      ((source.subscribe listing).1, (source.subscribe listing).2.showing stream items) := by
  have hreplay : (source.showing stream items).replay = source.replay.showing stream items := rfl
  have hknows : (source.showing stream items).knows listing.broker =
      source.knows listing.broker := rfl
  unfold Source.subscribe
  rw [hreplay, hknows, subscribe_showing hlt]
  split <;> rfl

/-- Somebody else who subscribes does not get the stream. -/
theorem Fits.subscribe (h : Fits id stream symbol source watchers unread prices)
    (listing : Listing) :
    Fits id stream symbol (source.subscribe listing).2 watchers unread prices ∧
      ∀ own, (source.subscribe listing).1 = .ok own → own ≠ stream := by
  obtain ⟨-, channel, -, -, -, hchannel, -⟩ := h.own
  have hlt := (List.getElem?_eq_some_iff.1 hchannel).1
  have hgives := source.gives listing
  refine ⟨h.of_content (hgives.content stream hlt) fun other hwaits =>
    h.waiting other (hgives.waiting other stream hwaits), ?_⟩
  rintro own hgiven rfl
  rcases hgives.given own hgiven with ⟨hwaits, -⟩ | ⟨hnew, -⟩
  · exact h.waiting listing hwaits
  · exact Nat.ne_of_lt hlt hnew

/-! ## Items that are taken -/

/-- What is shown of a stream is what is left when an item is taken. -/
theorem Fits.advance (h : Fits id stream symbol source watchers unread prices)
    (hchannel : source.replay.streams[stream]? = some channel) {rest : List Item}
    (hrest : SiftsItems symbol channel.items.tail rest)
    (hreads : ∀ watcher, watchers[id]? = some watcher → watcher.phase.Reads stream) :
    Fits id stream symbol { source with replay := source.replay.advance stream } watchers rest
      prices := by
  obtain ⟨watcher, -, hwatcher, hsymbol, hprices, -⟩ := h.own
  refine ⟨⟨watcher, { channel with items := channel.items.tail }, hwatcher, hsymbol, hprices, ?_,
    .live (hreads watcher hwatcher) hrest⟩, h.others, h.waiting⟩
  show (source.replay.modifyStream stream _).streams[stream]? = _
  rw [Replay.getElem?_modifyStream, if_pos rfl, hchannel]
  rfl

/-- Taking an item from a stream takes the first of those that it shows. -/
theorem advance_showing (replay : Replay) (stream : StreamId) (items : List Item) :
    (replay.showing stream items).advance stream =
      (replay.advance stream).showing stream items.tail := by
  rw [Replay.showing, Replay.showing, Replay.advance, Replay.advance, modifyStream_modifyStream,
    modifyStream_modifyStream]
  rfl

/-- What is shown of a stream does not tell how much of it was taken. -/
theorem showing_advance (replay : Replay) (stream : StreamId) (items : List Item) :
    (replay.advance stream).showing stream items = replay.showing stream items := by
  rw [Replay.showing, Replay.advance, modifyStream_modifyStream]
  rfl

/-- Showing other items changes the items of that stream only. -/
theorem getElem?_showing (replay : Replay) (stream : StreamId) (items : List Item) :
    (replay.showing stream items).streams[stream]? =
      replay.streams[stream]?.map fun channel => { channel with items } := by
  rw [Replay.showing, Replay.getElem?_modifyStream, if_pos rfl]

/-- Who moves to the phase that it is in stays as it is. -/
theorem setPhase_self (hwatcher : session.watchers[id]? = some watcher) :
    session.setPhase id watcher.phase = session :=
  congrArg (fun watchers => { session with watchers }) (modify_of_fixed hwatcher rfl)

/-- A watcher that ends while its stream opens gives up the subscription and its end is noted. -/
theorem endWatcher_of_opening (hwatcher : session.watchers[id]? = some watcher)
    (hphase : watcher.phase = .opening stream) (ending : Watcher.Ending) :
    session.endWatcher id ending =
      { session with
        source := { session.source with replay := session.source.replay.unsubscribe stream }
        outbox := session.outbox.withdraw (.watcher id) }.setPhase id (.ended ending) := by
  unfold Session.endWatcher
  rw [hwatcher]
  dsimp only
  rw [hphase]
  rfl

/-- Who gives up leaves the stream, so it does not matter what it took of it. -/
theorem giveUp_advanceStream (hwatcher : session.watchers[id]? = some watcher)
    (hphase : watcher.phase = .opening stream) (failure : Failure) :
    (session.advanceStream stream).giveUp id failure = session.giveUp id failure := by
  let failed (watcher : Watcher) : Watcher := { watcher with outcome := some (.failed failure) }
  have hfound : (session.modifyWatcher id failed).watchers[id]? = some (failed watcher) := by
    show (session.watchers.modify id failed)[id]? = _
    rw [List.getElem?_modify_eq, hwatcher]
    rfl
  have hleft : (session.source.replay.advance stream).unsubscribe stream =
      session.source.replay.unsubscribe stream := by
    rw [Replay.advance, Replay.unsubscribe, Replay.unsubscribe, modifyStream_modifyStream]
    rfl
  have hadvanced : ((session.advanceStream stream).modifyWatcher id failed).watchers[id]? =
      some (failed watcher) := hfound
  refine (endWatcher_of_opening hadvanced hphase .neverLive).trans
    (Eq.trans ?_ (endWatcher_of_opening hfound hphase .neverLive).symm)
  exact congrArg (fun replay => Session.setPhase { session.modifyWatcher id failed with
    source := { session.source with replay }
    outbox := session.outbox.withdraw (.watcher id) } id (.ended .neverLive)) hleft

namespace Veiled

/-- Announcing an event that is left changes two such sessions alike. -/
theorem announceLeft (h : Veiled id stream symbol first second) (target : WatcherId)
    (event : Event) :
    Veiled id stream symbol (first.announceLeft target event)
      (second.announceLeft target event) :=
  (h.count .pending (-1)).announce _ event

/-- Firing changes two such sessions alike, apart from the prices that are still in hand. -/
theorem fire (h : Veiled id stream symbol first second)
    (hfollows : Follows id stream target own prices shown) (events : List Event) :
    Veiled id stream symbol (first.fire target own prices events)
      (second.fire target own shown events) := by
  cases events with
  | nil => exact h.setPhase hfollows.following
  | cons event rest => exact (h.announceLeft target event).setPhase (hfollows.firing event rest)

/-- Draining changes two such sessions alike. -/
theorem drain (h : Veiled id stream symbol first second)
    (hfollows : Follows id stream target own prices shown) (events : List Event) :
    Veiled id stream symbol (first.drain target own events) (second.drain target own events) := by
  cases events with
  | nil => exact h.endWatcher target .retired
  | cons event rest => exact (h.announceLeft target event).setPhase (hfollows.retiring event rest)

/-- A valid price fires the same orders. -/
theorem takePrice (h : Veiled id stream symbol first second) (target : WatcherId)
    (listing : Listing) (price : Float) :
    (second.takePrice target listing price).1 = (first.takePrice target listing price).1 ∧
      Veiled id stream symbol (first.takePrice target listing price).2
        (second.takePrice target listing price).2 := by
  unfold Session.takePrice
  dsimp only
  rw [h.same.book]
  let looked (watcher : Watcher) : Watcher := { watcher with index := watcher.index + 1 }
  have hlooked : ∀ book, Veiled id stream symbol ({ first with book }.modifyWatcher target looked)
      ({ second with book }.modifyWatcher target looked) := fun book =>
    (h.withBook book).modifyBeside target (fun _ => rfl) (fun _ => rfl) fun _ _ => rfl
  exact ⟨rfl, ((hlooked _).count _ 1).count _ 1⟩

/-- Looking at a price changes two such sessions alike, since it fires the same orders in both. -/
theorem lookAt (h : Veiled id stream symbol first second)
    (hfollows : Follows id stream target own prices shown)
    (hlisting : same.listing = watcher.listing) (hindex : same.index = watcher.index)
    (price : Float) :
    Veiled id stream symbol (first.lookAt target watcher own price prices)
      (second.lookAt target same own price shown) := by
  unfold Session.lookAt
  rw [hlisting, hindex]
  split
  · exact (h.count _ 1).setPhase hfollows.following
  · split
    · exact (h.count _ 1).setPhase hfollows.following
    · obtain ⟨horders, htaken⟩ := h.takePrice target watcher.listing price
      dsimp only
      rw [horders]
      exact htaken.fire hfollows _

/-- Losing a feed changes two such sessions alike. -/
theorem loseFeed (h : Veiled id stream symbol first second)
    (hfollows : Follows id stream target own prices shown) (listing : Listing)
    (failure : Failure) :
    Veiled id stream symbol (first.loseFeed target own listing failure)
      (second.loseFeed target own listing failure) := by
  have hbook : ∀ entry, (second.write entry).book = (first.write entry).book :=
    fun entry => (h.write entry).same.book
  unfold Session.loseFeed
  dsimp only
  rw [hbook]
  exact ((h.write _).withBook _).drain hfollows _

/-- Giving up before the feed is live changes two such sessions alike. -/
theorem giveUp (h : Veiled id stream symbol first second) (target : WatcherId)
    (failure : Failure) :
    Veiled id stream symbol (first.giveUp target failure) (second.giveUp target failure) := by
  let failed (watcher : Watcher) : Watcher := { watcher with outcome := some (.failed failure) }
  have hfailed : Veiled id stream symbol (first.modifyWatcher target failed)
      (second.modifyWatcher target failed) :=
    h.modifyBeside target (fun _ => rfl) (fun _ => rfl) fun _ _ => rfl
  exact hfailed.endWatcher target .neverLive

/-- Going live changes two such sessions alike. -/
theorem goLive (h : Veiled id stream symbol first second)
    (hfollows : Follows id stream target own [] []) (listing : Listing) (price : Float) :
    Veiled id stream symbol (first.goLive target own listing price)
      (second.goLive target own listing price) := by
  have hcounted := h.count .watchers 1
  unfold Session.goLive
  dsimp only
  rw [hcounted.same.book]
  have hbooked := hcounted.withBook ((first.count .watchers 1).book.setLast listing price)
  cases hfollows with
  | other hne hown =>
    exact hbooked.modifyWatcher_of_ne hne fun _ _ heq => hown (Option.some_inj.1 heq)
  | own =>
    exact hbooked.modifyOwn fun _ _ _ =>
      ⟨rfl, fun _ _ hsees => .live rfl hsees.sifts, [], .nil, rfl⟩

/-- Putting an event and what follows it change two such sessions alike, if they wait for a place
then both do. -/
theorem deliver {next after : Session → Session} (h : Veiled id stream symbol first second)
    (target : WatcherId) (event : Event)
    (hnext : Veiled id stream symbol (next (first.put (.watcher target) event))
      (after (second.put (.watcher target) event))) :
    Option.Rel (Veiled id stream symbol) (first.deliver target event next)
      (second.deliver target event after) := by
  unfold Session.deliver
  rw [h.same.outbox]
  split
  · exact .none
  · exact .some (h.endWatcher target .clientLeft)
  · exact .some hnext

/-! ## Other watchers -/

/-- Another stream shows the same item next in both sessions. -/
theorem peek_of_ne (h : Veiled id stream symbol first second) (hne : own ≠ stream) :
    second.source.replay.peek own = first.source.replay.peek own := by
  obtain ⟨unread, prices, meters, -, rfl⟩ := h
  show (first.source.replay.modifyStream stream _).peek own = _
  unfold Replay.peek
  rw [Replay.getElem?_modifyStream, if_neg (Ne.symm hne)]

/-- Taking an item from another stream changes two such sessions alike. -/
theorem advanceStream_of_ne (h : Veiled id stream symbol first second) (hne : own ≠ stream) :
    Veiled id stream symbol (first.advanceStream own) (second.advanceStream own) :=
  h.modifyStream_of_ne hne _

/-- Another watcher subscribes in both sessions alike. -/
theorem subscribe (h : Veiled id stream symbol first second) (hne : target ≠ id)
    (listing : Listing) :
    Veiled id stream symbol (first.subscribe target listing)
      (second.subscribe target listing) := by
  obtain ⟨unread, prices, meters, hfits, rfl⟩ := h
  obtain ⟨-, channel, -, -, -, hchannel, -⟩ := hfits.own
  obtain ⟨hnext, hgiven⟩ := hfits.subscribe listing
  have hsource := source_subscribe_showing (List.getElem?_eq_some_iff.1 hchannel).1 listing unread
  unfold Session.subscribe
  rw [show (first.veil id stream unread prices meters).source =
    first.source.showing stream unread from rfl, hsource]
  generalize first.source.subscribe listing = outcome at hnext hgiven
  obtain ⟨given, source⟩ := outcome
  have hleft : Veiled id stream symbol { first with source }
      { first.veil id stream unread prices meters with source := source.showing stream unread } :=
    ⟨unread, prices, meters, hnext, rfl⟩
  cases given with
  | ok own => exact hleft.setPhase (.other hne fun heq => hgiven own rfl (Option.some_inj.1 heq))
  | error failure => exact hleft.giveUp target failure

/-- Another watcher takes its first quote in both sessions alike. -/
theorem takeFirst (h : Veiled id stream symbol first second) (hne : target ≠ id)
    (hown : own ≠ stream) (listing : Listing) (reading : Reading) :
    Option.Rel (Veiled id stream symbol) (first.takeFirst target own listing reading)
      (second.takeFirst target own listing reading) := by
  have hadvanced := h.advanceStream_of_ne hown
  cases reading with
  | pending => exact .none
  | ended => exact .some (h.giveUp target _)
  | item item =>
    cases item with
    | failure failure => exact .some (hadvanced.giveUp target failure)
    | batch batch =>
      unfold Session.takeFirst
      dsimp only
      split
      · exact .some (hadvanced.goLive (.other hne hown) listing _)
      · exact .some (hadvanced.giveUp target _)

/-- Another watcher takes its next item in both sessions alike. -/
theorem takeNext (h : Veiled id stream symbol first second) (hne : target ≠ id)
    (hown : own ≠ stream) (listing : Listing) (reading : Reading) :
    Option.Rel (Veiled id stream symbol) (first.takeNext target own listing reading)
      (second.takeNext target own listing reading) := by
  have hadvanced := h.advanceStream_of_ne hown
  have hfollows : ∀ prices, Follows id stream target own prices prices :=
    fun prices => .other hne hown
  cases reading with
  | pending => exact .none
  | ended => exact .some (h.loseFeed (hfollows []) listing _)
  | item item =>
    cases item with
    | failure failure => exact .some (hadvanced.loseFeed (hfollows []) listing failure)
    | batch batch => exact .some (hadvanced.setPhase (hfollows _).following)

/-- Every other watcher takes the same turns. -/
theorem watcherStep_of_ne (h : Veiled id stream symbol first second) (hne : target ≠ id) :
    Option.Rel (Veiled id stream symbol) (first.watcherStep target)
      (second.watcherStep target) := by
  unfold Session.watcherStep
  rw [h.watcher_of_ne hne]
  cases hwatcher : first.watchers[target]? with
  | none => exact .none
  | some watcher =>
    have hstream := h.stream?_ne hne hwatcher
    rw [Option.bind_eq_bind, Option.bind_some, Option.bind_some]
    cases hphase : watcher.phase with
    | starting => exact .some (h.subscribe hne watcher.listing)
    | opening own =>
      have hown : own ≠ stream := fun heq => hstream (hphase ▸ congrArg some heq)
      dsimp only
      rw [h.peek_of_ne hown]
      exact h.takeFirst hne hown watcher.listing _
    | following own prices =>
      have hown : own ≠ stream := fun heq => hstream (hphase ▸ congrArg some heq)
      cases prices with
      | nil =>
        dsimp only
        rw [h.peek_of_ne hown]
        exact h.takeNext hne hown watcher.listing _
      | cons price prices => exact .some (h.lookAt (.other hne hown) rfl rfl price)
    | firing own event rest prices =>
      have hown : own ≠ stream := fun heq => hstream (hphase ▸ congrArg some heq)
      exact h.deliver target event ((h.put _ event).fire (.other hne hown) rest)
    | retiring own event rest =>
      have hown : own ≠ stream := fun heq => hstream (hphase ▸ congrArg some heq)
      have hfollows : Follows id stream target own [] [] := .other hne hown
      exact h.deliver target event ((h.put _ event).drain hfollows rest)
    | ended ending => exact .none

/-! ## The watcher of the stream -/

/-- The watcher of the stream and its channel stand in both sessions, with prices and items sifted
in one of them. -/
theorem exists_own (h : Veiled id stream symbol first second) :
    ∃ watcher channel prices unread, first.watchers[id]? = some watcher ∧
      watcher.listing.symbol = symbol ∧ SiftsPrices watcher.phase.prices prices ∧
      second.watchers[id]? = some (watcher.withPrices prices) ∧
      first.source.replay.streams[stream]? = some channel ∧
      second.source.replay.streams[stream]? = some { channel with items := unread } ∧
      Sees stream symbol watcher.phase channel.items unread := by
  obtain ⟨unread, prices, meters, hfits, rfl⟩ := h
  obtain ⟨watcher, channel, hwatcher, hsymbol, hprices, hchannel, hsees⟩ := hfits.own
  refine ⟨watcher, channel, prices, unread, hwatcher, hsymbol, hprices, ?_, hchannel, ?_, hsees⟩
  · show (first.watchers.modify id _)[id]? = _
    rw [List.getElem?_modify_eq, hwatcher]
    rfl
  · show (first.source.replay.showing stream unread).streams[stream]? = _
    rw [getElem?_showing, hchannel]
    rfl

/-- Both take an item. -/
theorem advance (h : Veiled id stream symbol first second)
    (hchannel : first.source.replay.streams[stream]? = some channel)
    (hshown : second.source.replay.streams[stream]? = some { channel with items := unread })
    (hrest : SiftsItems symbol channel.items.tail unread.tail)
    (hreads : ∀ watcher, first.watchers[id]? = some watcher → watcher.phase.Reads stream) :
    Veiled id stream symbol (first.advanceStream stream) (second.advanceStream stream) := by
  obtain ⟨items, prices, meters, hfits, rfl⟩ := h
  have hitems := (getElem?_showing first.source.replay stream items).symm.trans hshown
  rw [hchannel, Option.map_some, Option.some_inj] at hitems
  obtain rfl : items = unread := congrArg Channel.items hitems
  refine ⟨items.tail, prices, meters, hfits.advance hchannel hrest hreads, ?_⟩
  exact congrArg (fun replay => ({ first.veil id stream items prices meters with
    source := { first.source with replay } } : Session))
    (advance_showing first.source.replay stream items)

/-- An item that is not shown is taken. -/
theorem advance_left (h : Veiled id stream symbol first second)
    (hchannel : first.source.replay.streams[stream]? = some channel)
    (hshown : second.source.replay.streams[stream]? = some { channel with items := unread })
    (hrest : SiftsItems symbol channel.items.tail unread)
    (hreads : ∀ watcher, first.watchers[id]? = some watcher → watcher.phase.Reads stream) :
    Veiled id stream symbol (first.advanceStream stream) second := by
  obtain ⟨items, prices, meters, hfits, rfl⟩ := h
  have hitems := (getElem?_showing first.source.replay stream items).symm.trans hshown
  rw [hchannel, Option.map_some, Option.some_inj] at hitems
  obtain rfl : items = unread := congrArg Channel.items hitems
  refine ⟨items, prices, meters, hfits.advance hchannel hrest hreads, ?_⟩
  exact congrArg (fun replay => ({ first.veil id stream items prices meters with
    source := { first.source with replay } } : Session))
    (showing_advance first.source.replay stream items).symm

/-- The watcher comes to stand where it is shown already. -/
theorem setPhase_left {phase shown : Watcher.Phase} (h : Veiled id stream symbol first second)
    (hshows : Shows id stream id phase shown) (hwatcher : second.watchers[id]? = some same)
    (hphase : same.phase = shown) :
    Veiled id stream symbol (first.setPhase id phase) second := by
  have hset := h.setPhase hshows
  rw [← hphase, setPhase_self hwatcher] at hset
  exact hset

/-- The watcher reads the first quote. -/
theorem takeFirst_own (h : Veiled id stream symbol first second) {item : Item}
    {more others : List Item} (hchannel : first.source.replay.streams[stream]? = some channel)
    (hshown : second.source.replay.streams[stream]? =
      some { channel with items := item :: others })
    (hitems : channel.items = item :: more) (hmore : SiftsItems symbol more others)
    (hwatcher : first.watchers[id]? = some watcher) (hphase : watcher.phase = .opening stream)
    (hsame : second.watchers[id]? = some same) (hsamePhase : same.phase = .opening stream)
    {listing : Listing} :
    Option.Rel (Veiled id stream symbol)
      (first.takeFirst id stream listing (first.source.replay.peek stream))
      (second.takeFirst id stream listing (second.source.replay.peek stream)) := by
  have hlive : Follows id stream id stream [] [] := .own .nil
  unfold Replay.peek
  rw [hchannel, hshown]
  dsimp only
  rw [hitems]
  cases item with
  | failure failure =>
    unfold Session.takeFirst
    dsimp only
    rw [giveUp_advanceStream hwatcher hphase, giveUp_advanceStream hsame hsamePhase]
    exact .some (h.giveUp id failure)
  | batch batch =>
    unfold Session.takeFirst
    dsimp only
    split
    · next price hprice =>
      -- The feed goes live before the item is taken off the stream, so the watcher follows it by
      -- then.
      have hreads : ∀ found, (first.goLive id stream listing price).watchers[id]? = some found →
          found.phase.Reads stream := by
        intro found hfound
        have hmodified : (first.watchers.modify id fun old => { old with
            phase := .following stream [], outcome := some (.live price) })[id]? = some found :=
          hfound
        rw [List.getElem?_modify_eq, hwatcher] at hmodified
        cases hmodified
        exact rfl
      exact .some ((h.goLive hlive listing price).advance hchannel hshown (hitems ▸ hmore) hreads)
    · rw [giveUp_advanceStream hwatcher hphase, giveUp_advanceStream hsame hsamePhase]
      exact .some (h.giveUp id _)

/-- The watcher reads an item as it is shown, or one that is not shown. -/
theorem takeNext_own (h : Veiled id stream symbol first second)
    (hchannel : first.source.replay.streams[stream]? = some channel)
    (hshown : second.source.replay.streams[stream]? = some { channel with items := unread })
    (hsifts : SiftsItems symbol channel.items unread) {listing : Listing}
    (hsymbol : listing.symbol = symbol)
    (hreads : ∀ watcher, first.watchers[id]? = some watcher → watcher.phase.Reads stream)
    (hwatcher : second.watchers[id]? = some same) (hphase : same.phase = .following stream []) :
    Option.Rel (Veiled id stream symbol)
        (first.takeNext id stream listing (first.source.replay.peek stream))
        (second.takeNext id stream listing (second.source.replay.peek stream)) ∨
      ∃ next, first.takeNext id stream listing (first.source.replay.peek stream) = some next ∧
        Veiled id stream symbol next second := by
  have hlost : Follows id stream id stream [] [] := .own .nil
  unfold Replay.peek
  rw [hchannel, hshown]
  dsimp only
  cases hitems : channel.items with
  | nil =>
    rw [hitems] at hsifts
    -- Nothing is left in either stream, so both have ended or both are pending.
    rw [hsifts.eq_nil]
    dsimp only
    split
    · exact .inl .none
    · exact .inl (.some (h.loseFeed hlost listing _))
  | cons item more =>
    rw [hitems] at hsifts
    cases hsifts with
    | keep halike hmore =>
      have hadvanced := h.advance hchannel hshown (hitems ▸ hmore) hreads
      cases halike with
      | failure failure => exact .inl (.some (hadvanced.loseFeed hlost listing failure))
      | batch hprices =>
        rw [← hsymbol] at hprices
        have hfollows : Follows id stream id stream _ _ := .own hprices
        exact .inl (.some (hadvanced.setPhase hfollows.following))
    | skip hidle hmore =>
      have hadvanced := h.advance_left hchannel hshown (hitems ▸ hmore) hreads
      cases hidle with
      | batch hprices =>
        rw [← hsymbol] at hprices
        have hfollows : Follows id stream id stream _ _ := .own hprices
        exact .inr ⟨_, rfl, hadvanced.setPhase_left hfollows.following hwatcher hphase⟩

/-- The watcher passes over a price that is not shown. -/
theorem lookAt_left (h : Veiled id stream symbol first second)
    (hprice : isValidPrice price = false) (hsifts : SiftsPrices prices shown)
    (hwatcher : second.watchers[id]? = some same) (hphase : same.phase = .following stream shown) :
    Veiled id stream symbol (first.lookAt id watcher stream price prices) second := by
  have hfollows : Follows id stream id stream prices shown := .own hsifts
  have hpassed : ∀ reason, Veiled id stream symbol
      ((first.skipPrice watcher.listing reason).setPhase id (.following stream prices)) second :=
    fun _ => (h.count_left _ 1).setPhase_left hfollows.following hwatcher hphase
  unfold Session.lookAt
  split
  · exact hpassed _
  · split
    · exact hpassed _
    · next hfinite hnegative =>
      have hvalid : isValidPrice price = true :=
        isValidPrice_iff.2 ⟨by simpa using hfinite, hnegative⟩
      rw [hprice] at hvalid
      cases hvalid

/-- The watcher of the stream takes the same turn, or one that the other session has behind it. -/
theorem watcherStep_own (h : Veiled id stream symbol first second) :
    Option.Rel (Veiled id stream symbol) (first.watcherStep id) (second.watcherStep id) ∨
      ∃ next, first.watcherStep id = some next ∧ Veiled id stream symbol next second := by
  obtain ⟨watcher, channel, prices, unread, hwatcher, hsymbol, hprices, hsame, hchannel, hshown,
    hsees⟩ := h.exists_own
  obtain ⟨listing, phase, index, outcome⟩ := watcher
  unfold Session.watcherStep
  rw [hwatcher, hsame, Option.bind_eq_bind, Option.bind_some, Option.bind_some]
  generalize hitems : channel.items = items at hsees
  cases hsees with
  | opening hmore =>
    exact .inl (h.takeFirst_own hchannel hshown hitems hmore hwatcher rfl hsame rfl)
  | live hreads hsifts =>
    subst hitems
    have hown : ∀ found, first.watchers[id]? = some found → found.phase.Reads stream := by
      intro found hfound
      rw [hwatcher] at hfound
      cases hfound
      exact hreads
    cases phase with
    | starting | opening => cases hreads
    -- A price in hand that is not shown is passed over while the other session stays where it is.
    | following own inHand =>
      obtain rfl : own = stream := hreads
      cases hprices with
      | nil => exact h.takeNext_own hchannel hshown hsifts hsymbol hown hsame rfl
      | keep heq hmore =>
        cases heq
        exact .inl (.some (h.lookAt (.own hmore) rfl rfl _))
      | skip hidle hmore => exact .inr ⟨_, rfl, h.lookAt_left hidle hmore hsame rfl⟩
    | firing own event rest inHand =>
      obtain rfl : own = stream := hreads
      exact .inl (h.deliver id event ((h.put _ event).fire (.own hprices) rest))
    | retiring own event rest =>
      obtain rfl : own = stream := hreads
      have hfollows : Follows id own id own [] [] := .own .nil
      exact .inl (h.deliver id event ((h.put _ event).drain hfollows rest))
    | ended ending => exact .inl .none

end Veiled

end Session

end TriggerDesk
