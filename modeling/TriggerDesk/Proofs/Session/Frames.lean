import TriggerDesk.Proofs.Feed.Trades
import TriggerDesk.Proofs.Session.Passing
import TriggerDesk.Proofs.Session.Readers
import TriggerDesk.Proofs.Session.Runs

/-!
# Frames that reach the book

An exchange sends frames, and the watcher that reads the stream of their trades sees what
`Exchange.tradeItems` makes of them. Meanwhile everybody takes turns, and the client and the other
feeds do what they like (`Occurrence`). Whatever text the frames are, the session is the same as one
in which the watcher is shown one price for each frame that reports one, in the order of the frames,
and nothing for any other frame (`frames_as_prices`): the turns are the same too, but for those in
which the watcher passes over what the other one does not see. That a watcher reads its stream alone
holds wherever a session gets to (`owns_of_reaches`).
-/

namespace TriggerDesk

open Market Feed Metrics

namespace Feed

/-- The stream delivers items, if somebody reads it. It waits until there is room, so none is
lost. -/
def Replay.deliver (replay : Replay) (stream : StreamId) (items : List Item) : Replay :=
  replay.modifyStream stream fun channel =>
    if channel.receiving then { channel with items := channel.items ++ items } else channel

/-- Other streams than one are as in another feed. -/
def Replay.keeping (replay : Replay) (stream : StreamId) (other : Replay) : Replay :=
  match replay.streams[stream]? with
  | none => other
  | some channel => other.modifyStream stream fun _ => channel

/-- A stream was made and is not waiting for a subscriber. -/
structure Source.Gave (source : Source) (stream : StreamId) : Prop where
  made : stream < source.replay.streams.length
  waiting : ∀ listing, source.replay.waiting.get? listing ≠ some stream

/-- The prices of a symbol that frames report, each as a batch of its own. -/
def priceItems (symbol : String) (frames : List String) : List Item :=
  (frames.filterMap (reportedPrice? symbol)).map fun price => .batch (.ofPrices symbol [price])

/-- A symbol is the same as itself. -/
theorem sameSymbol_self (symbol : String) : sameSymbol symbol symbol = true := by
  rw [sameSymbol, beq_self_eq_true]

/-- One quote has prices for the symbol that it is for, and for no other. -/
theorem pricesFor_single (name symbol : String) (quote : Quote) :
    Batch.pricesFor [(name, quote)] symbol =
      if sameSymbol name symbol then quote.ticks.map (·.price) else [] := by
  unfold Batch.pricesFor Batch.ticksFor
  cases hname : sameSymbol name symbol <;> simp [hname]

/-- A batch of one price of a symbol has that price for it. -/
theorem pricesFor_ofPrices (symbol : String) (price : Float) :
    (Batch.ofPrices symbol [price]).pricesFor symbol = [price] := by
  unfold Batch.ofPrices
  rw [pricesFor_single, sameSymbol_self]
  rfl

/-- What a watcher does not pass over of the trades in frames is what the frames report. -/
theorem sifts_tradeItems (symbol : String) (frames : List String) :
    SiftsItems symbol (Exchange.tradeItems frames) (priceItems symbol frames) := by
  unfold Exchange.tradeItems priceItems
  induction frames with
  | nil => exact .nil
  | cons frame more ih =>
    rw [List.filterMap_cons, List.filterMap_cons, reportedPrice?]
    cases Trade.ofFrame? frame with
    | none => exact ih
    | some trade =>
      -- The batch of a trade has one price, and only for the symbol of the trade.
      have hprices : trade.toBatch.pricesFor symbol =
          if sameSymbol trade.symbol symbol then [trade.tick.price] else [] :=
        pricesFor_single trade.symbol symbol _
      rw [Option.bind_some]
      cases hsymbol : sameSymbol trade.symbol symbol with
      | false =>
        rw [hsymbol, if_neg Bool.false_ne_true] at hprices
        have hidle : SiftsPrices (trade.toBatch.pricesFor symbol) [] := by
          rw [hprices]
          exact .nil
        exact .skip (.batch hidle) ih
      | true =>
        rw [hsymbol, if_pos rfl] at hprices
        rw [Bool.true_and]
        cases hvalid : isValidPrice trade.tick.price with
        | false =>
          have hidle : SiftsPrices (trade.toBatch.pricesFor symbol) [] := by
            rw [hprices]
            exact .skip hvalid .nil
          exact .skip (.batch hidle) ih
        | true =>
          refine .keep (.batch ?_) ih
          rw [hprices, pricesFor_ofPrices]
          exact .keep rfl .nil

end Feed

namespace Session

variable {id : WatcherId} {stream : StreamId} {symbol : String} {session first second : Session}

/-- Whether the feeds do it. -/
def Stimulus.isOfFeeds : Stimulus → Bool
  | .push .. | .breakStream .. | .closeStream _ | .refuse .. => true
  | .send _ | .endCommands | .take | .leave | .wait _ => false

/-- One thing that happens to a session while a stream gets frames. -/
inductive Occurrence (stream : StreamId) where
  | turn (actor : Actor)
  /-- The client does something, or time passes. -/
  | stimulus (stimulus : Stimulus) (h : stimulus.isOfFeeds = false)
  /-- The other streams change: from now on they are as in this source. -/
  | feeds (source : Source) (h : source.Gave stream)
  /-- The stream gets frames. -/
  | frames (frames : List String)

/-- The session after an occurrence, where the stream delivers some items for its frames. -/
def occur (items : List String → List Item) (session : Session) : Occurrence stream → Session
  | .turn actor => session.advance (.turn actor)
  | .stimulus stimulus _ => session.meet stimulus
  | .feeds source _ =>
    { session with source :=
      { source with replay := session.source.replay.keeping stream source.replay } }
  | .frames frames => session.withReplay (session.source.replay.deliver stream (items frames))

/-- The session after some occurrences. -/
def undergo (items : List String → List Item) (session : Session)
    (occurrences : List (Occurrence stream)) : Session :=
  occurrences.foldl (occur items) session

/-- Occurrences without some turns of a watcher. -/
abbrev SiftsTurns (id : WatcherId) : List (Occurrence stream) → List (Occurrence stream) → Prop :=
  Sifts (· = .turn (.watcher id)) (· = ·)

/-- A watcher of a symbol alone reads a stream, on which the first quote came. -/
structure Owns (session : Session) (id : WatcherId) (stream : StreamId) (symbol : String) :
    Prop where
  own : ∃ watcher channel, session.watchers[id]? = some watcher ∧
    watcher.listing.symbol = symbol ∧ session.source.replay.streams[stream]? = some channel ∧
    (watcher.phase.Reads stream ∨ watcher.phase = .opening stream ∧ channel.items ≠ [])
  others : ∀ other watcher, other ≠ id → session.watchers[other]? = some watcher →
    watcher.phase.stream? ≠ some stream
  waiting : ∀ listing, session.source.replay.waiting.get? listing ≠ some stream

/-- The two sessions have come equally far: a watcher of a symbol has only more before it in the
first one that it passes over. -/
structure Level (id : WatcherId) (stream : StreamId) (symbol : String) (first second : Session) :
    Prop where
  board : SameBoard first second
  others : ∀ other, other ≠ id → second.watchers[other]? = first.watchers[other]?
  own : ∃ watcher channel prices unread, first.watchers[id]? = some watcher ∧
    second.watchers[id]? = some (watcher.withPrices prices) ∧
    SiftsPrices watcher.phase.prices prices ∧
    first.source.replay.streams[stream]? = some channel ∧
    second.source.replay.streams[stream]? = some { channel with items := unread } ∧
    SiftsItems symbol channel.items unread

/-- Sessions that differ in what a watcher passes over have come equally far. -/
theorem Veiled.level (h : Veiled id stream symbol first second) :
    Level id stream symbol first second where
  board := h.same
  others _ hne := h.watcher_of_ne hne
  own := by
    obtain ⟨watcher, channel, prices, unread, hwatcher, -, hprices, hsame, hchannel, hshown,
      hsees⟩ := h.exists_own
    exact ⟨watcher, channel, prices, unread, hwatcher, hsame, hprices, hchannel, hshown,
      hsees.sifts⟩

/-- Every watcher does, wherever a session gets to, from its first quote on. -/
theorem owns_of_reaches {source : Source} (hsound : source.replay.Sound) {limit : Option Nat}
    {inboxCapacity outboxCapacity : Nat}
    (hreaches : Reaches (start source limit inboxCapacity outboxCapacity) session)
    {watcher : Watcher} (hwatcher : session.watchers[id]? = some watcher)
    (hstream : watcher.phase.stream? = some stream)
    (hquoted : watcher.phase.isLive = true ∨
      ∃ item, session.source.replay.peek stream = .item item) :
    session.Owns id stream watcher.listing.symbol := by
  have hapart := apart_of_reaches hsound hreaches
  have hreads := (reads?_of_watcher hwatcher).trans hstream
  obtain ⟨channel, hchannel⟩ : ∃ channel, session.source.replay.streams[stream]? = some channel :=
    ⟨_, List.getElem?_eq_getElem (hapart.made id stream hreads)⟩
  refine ⟨⟨watcher, channel, hwatcher, rfl, hchannel, ?_⟩, ?_, fun listing =>
    hapart.taken id listing stream hreads⟩
  · cases hphase : watcher.phase with
    | starting | ended =>
      rw [hphase] at hstream
      cases hstream
    | following | firing | retiring =>
      rw [hphase] at hstream
      exact .inl (Option.some_inj.1 hstream)
    | opening own =>
      rw [hphase] at hstream hquoted
      obtain rfl : own = stream := Option.some_inj.1 hstream
      -- The first quote has come but is not read, so it stands first in the stream.
      obtain ⟨item, hpeek⟩ := hquoted.resolve_left Bool.false_ne_true
      obtain ⟨receiving, rest, hcontent⟩ := Replay.content?_of_peek hpeek
      obtain ⟨found, hfound, -, hitems⟩ := Replay.content?_eq_some.1 hcontent
      rw [hchannel] at hfound
      cases hfound
      exact .inr ⟨rfl, hitems ▸ List.cons_ne_nil item rest⟩
  · intro other rival hne hrival hrivalStream
    exact hne (hapart.one other id stream ((reads?_of_watcher hrival).trans hrivalStream) hreads)

/-- Nothing is left out yet. -/
theorem Owns.veiled (h : session.Owns id stream symbol) :
    Veiled id stream symbol session session := by
  obtain ⟨watcher, channel, hwatcher, hsymbol, hchannel, hreads⟩ := h.own
  have hsees : Sees stream symbol watcher.phase channel.items channel.items := by
    have hrefl : ∀ items, SiftsItems symbol items items := Sifts.refl (Item.Sifts.refl symbol)
    rcases hreads with hreads | ⟨hphase, hitems⟩
    · exact .live hreads (hrefl _)
    · obtain ⟨item, more, hcons⟩ := List.exists_cons_of_ne_nil hitems
      rw [hphase, hcons]
      exact .opening (hrefl more)
  have hstreams : session.source.replay.showing stream channel.items = session.source.replay :=
    congrArg (fun streams => { session.source.replay with streams })
      (modify_of_fixed hchannel rfl)
  have hwatchers : session.watchers.modify id (Watcher.withPrices watcher.phase.prices) =
      session.watchers :=
    modify_of_fixed hwatcher watcher.withPrices_prices
  refine ⟨channel.items, watcher.phase.prices, session.meters, ⟨⟨watcher, channel, hwatcher,
    hsymbol, .refl (fun _ => rfl) _, hchannel, hsees⟩, h.others, h.waiting⟩, ?_⟩
  unfold Session.veil Source.showing
  rw [hstreams, hwatchers]

/-- What comes later is seen after what is there. -/
theorem Sees.append {phase : Watcher.Phase} {items unread more others : List Item}
    (h : Sees stream symbol phase items unread) (hmore : SiftsItems symbol more others) :
    Sees stream symbol phase (items ++ more) (unread ++ others) := by
  cases h with
  | live hreads hsifts => exact .live hreads (hsifts.append hmore)
  | opening hsifts => exact .opening (hsifts.append hmore)

/-- What a stream is shown to hold last counts. -/
theorem showing_showing (replay : Replay) (items unread : List Item) :
    (replay.showing stream items).showing stream unread = replay.showing stream unread := by
  rw [Replay.showing, Replay.showing, modifyStream_modifyStream]
  rfl

/-- Keeping other streams than one as they are in another feed changes the one stream there. -/
theorem keeping_of_some {replay : Replay} {channel : Channel Item}
    (h : replay.streams[stream]? = some channel) (other : Replay) :
    replay.keeping stream other = other.modifyStream stream fun _ => channel := by
  rw [Replay.keeping, h]

/-- A stream that is open takes the items if somebody reads it. -/
theorem deliver_of_some {replay : Replay} {channel : Channel Item}
    (h : replay.streams[stream]? = some channel) (items : List Item) :
    replay.deliver stream items = replay.showing stream
      (if channel.receiving then channel.items ++ items else channel.items) := by
  refine Replay.modifyStream_congr fun found hfound => ?_
  rw [h] at hfound
  cases hfound
  split <;> rfl

namespace Veiled

/-- What the client does, it does to both. -/
theorem meet (h : Veiled id stream symbol first second) {stimulus : Stimulus}
    (hstimulus : stimulus.isOfFeeds = false) :
    Veiled id stream symbol (first.meet stimulus) (second.meet stimulus) := by
  have hinbox := h.same.inbox
  have houtbox := h.same.outbox
  obtain ⟨unread, prices, meters, hfits, heq⟩ := h
  cases stimulus with
  | send command =>
    unfold Session.meet
    dsimp only
    rw [hinbox]
    subst heq
    split <;> exact ⟨unread, prices, meters, hfits, rfl⟩
  | take =>
    unfold Session.meet
    dsimp only
    rw [houtbox]
    subst heq
    split <;> exact ⟨unread, prices, meters, hfits, rfl⟩
  | endCommands | leave | wait =>
    subst heq
    exact ⟨unread, prices, meters, hfits, rfl⟩
  | push | breakStream | closeStream | refuse => cases hstimulus

/-- The other streams change in both. -/
theorem keeping (h : Veiled id stream symbol first second) {source : Source}
    (hsource : source.Gave stream) :
    Veiled id stream symbol
      { first with source :=
        { source with replay := first.source.replay.keeping stream source.replay } }
      { second with source :=
        { source with replay := second.source.replay.keeping stream source.replay } } := by
  obtain ⟨unread, prices, meters, hfits, rfl⟩ := h
  obtain ⟨watcher, channel, -, -, -, hchannel, -⟩ := hfits.own
  have hkept := keeping_of_some hchannel source.replay
  have hshown : (first.source.replay.showing stream unread).keeping stream source.replay =
      (first.source.replay.keeping stream source.replay).showing stream unread := by
    rw [keeping_of_some ((getElem?_showing _ stream unread).trans (congrArg _ hchannel)), hkept,
      Replay.showing, modifyStream_modifyStream]
    rfl
  refine ⟨unread, prices, meters, hfits.of_content ?_ ?_, ?_⟩
  · show (first.source.replay.keeping stream source.replay).content? stream = _
    rw [hkept, Replay.content?, Replay.getElem?_modifyStream, if_pos rfl,
      List.getElem?_eq_getElem hsource.made, Replay.content?, hchannel]
    rfl
  · show ∀ listing,
      (first.source.replay.keeping stream source.replay).waiting.get? listing ≠ some stream
    rw [hkept]
    exact hsource.waiting
  · exact congrArg (fun replay => ({ first.veil id stream unread prices meters with
      source := { source with replay } } : Session)) hshown

/-- Both streams deliver items, where only less is shown. -/
theorem deliver_items (h : Veiled id stream symbol first second) {items shown : List Item}
    (hsifts : SiftsItems symbol items shown) :
    Veiled id stream symbol (first.withReplay (first.source.replay.deliver stream items))
      (second.withReplay (second.source.replay.deliver stream shown)) := by
  obtain ⟨unread, prices, meters, hfits, rfl⟩ := h
  obtain ⟨watcher, channel, hwatcher, hsymbol, hprices, hchannel, hsees⟩ := hfits.own
  have hdelivered := deliver_of_some hchannel items
  have hshown : (first.source.replay.showing stream unread).deliver stream shown =
      (first.source.replay.deliver stream items).showing stream
        (if channel.receiving then unread ++ shown else unread) := by
    rw [deliver_of_some ((getElem?_showing _ stream unread).trans (congrArg _ hchannel)),
      hdelivered, showing_showing, showing_showing]
  refine ⟨if channel.receiving then unread ++ shown else unread, prices, meters, ⟨⟨watcher,
    { channel with items := if channel.receiving then channel.items ++ items else channel.items },
    hwatcher, hsymbol, hprices, ?_, ?_⟩, hfits.others, ?_⟩, ?_⟩
  · show (first.source.replay.deliver stream items).streams[stream]? = _
    rw [hdelivered, getElem?_showing, hchannel]
    rfl
  · split
    · exact hsees.append hsifts
    · exact hsees
  · show ∀ listing, (first.source.replay.deliver stream items).waiting.get? listing ≠ some stream
    rw [hdelivered]
    exact hfits.waiting
  · exact congrArg (fun replay => ({ first.veil id stream unread prices meters with
      source := { first.source with replay } } : Session)) hshown

/-- Veiled sessions stay veiled when both do what they can. -/
theorem getD {one other : Option Session} (h : Veiled id stream symbol first second)
    (hsteps : Option.Rel (Veiled id stream symbol) one other) :
    Veiled id stream symbol (one.getD first) (other.getD second) := by
  cases hsteps with
  | none => exact h
  | some hnext => exact hnext

/-- An occurrence is the same in both, or a turn that the second session has behind it. -/
theorem occur (h : Veiled id stream symbol first second) (occurrence : Occurrence stream) :
    Veiled id stream symbol (first.occur Exchange.tradeItems occurrence)
        (second.occur (priceItems symbol) occurrence) ∨
      occurrence = .turn (.watcher id) ∧ Veiled id stream symbol
        (first.occur Exchange.tradeItems occurrence) second := by
  cases occurrence with
  | turn actor =>
    cases actor with
    | desk => exact .inl (h.getD h.deskStep)
    | watcher target =>
      by_cases heq : target = id
      · subst heq
        rcases h.watcherStep_own with hboth | ⟨next, hstep, hnext⟩
        · exact .inl (h.getD hboth)
        · refine .inr ⟨rfl, ?_⟩
          have hturn : first.advance (.turn (.watcher target)) = next := advance_turn hstep
          show Veiled target stream symbol (first.advance (.turn (.watcher target))) second
          rw [hturn]
          exact hnext
      · exact .inl (h.getD (h.watcherStep_of_ne heq))
  | stimulus stimulus hstimulus => exact .inl (h.meet hstimulus)
  | feeds source hsource => exact .inl (h.keeping hsource)
  | frames frames => exact .inl (h.deliver_items (sifts_tradeItems symbol frames))

/-- What happens to a session happens to the one that is shown less, too, but for some turns. -/
theorem undergo (h : Veiled id stream symbol first second)
    (occurrences : List (Occurrence stream)) :
    ∃ fed, SiftsTurns id occurrences fed ∧ Veiled id stream symbol
      (first.undergo Exchange.tradeItems occurrences)
      (second.undergo (priceItems symbol) fed) := by
  induction occurrences generalizing first second with
  | nil => exact ⟨[], .nil, h⟩
  | cons occurrence more ih =>
    rcases h.occur occurrence with hnext | ⟨hturn, hnext⟩
    · obtain ⟨fed, hfed, hlast⟩ := ih hnext
      exact ⟨occurrence :: fed, .keep rfl hfed, hlast⟩
    · obtain ⟨fed, hfed, hlast⟩ := ih hnext
      exact ⟨fed, .skip hturn hfed, hlast⟩

end Veiled

/-- Whatever the frames are, and whatever happens between them: the session does what it does if the
watcher is shown one price for each frame that reports one, in their order, and nothing else. -/
theorem frames_as_prices (howns : session.Owns id stream symbol)
    (occurrences : List (Occurrence stream)) :
    (∀ frame price, reportedPrice? symbol frame = some price ↔ Reports symbol frame price) ∧
      ∃ fed, SiftsTurns id occurrences fed ∧ Level id stream symbol
        (session.undergo Exchange.tradeItems occurrences)
        (session.undergo (priceItems symbol) fed) := by
  obtain ⟨fed, hfed, hlast⟩ := howns.veiled.undergo occurrences
  exact ⟨fun _ _ => reportedPrice?_eq_some, fed, hfed, hlast.level⟩

/-- A trade of another symbol, one at a negative price, one without a quantity, and no trade. -/
def mixedFrames : List String :=
  ["\x7b\"e\":\"aggTrade\",\"s\":\"Y\",\"p\":\"1\"\x7d",
    "\x7b\"e\":\"aggTrade\",\"s\":\"X\",\"p\":\"-1\"\x7d",
    "\x7b\"e\":\"aggTrade\",\"s\":\"x\",\"p\":\"50\"\x7d",
    "[]"]

/-- The watcher of `X` is about to read its first quote, with the price 60. -/
def opened : Session :=
  (start ⟨none, .new⟩ none 4 4).run
    [.stimulus (.push ⟨"B", "X"⟩ (.ofPrices "X" [60])),
      .stimulus (.send { kind := .buy, oid := "a", symbol := "X", brokers := ["B"], price := 55 }),
      .turn .desk, .turn (.watcher 0)]

/-- The frames come before the first quote is read. Then an order is placed, and the watcher looks
at what came. -/
def mixedOccurrences : List (Occurrence 0) :=
  [.frames mixedFrames, .turn (.watcher 0), .turn .desk, .turn .desk] ++
    List.replicate 8 (.turn (.watcher 0))

/-- The watcher owns its stream in that run, the order fires at the first price that crosses, and
the frames do what the prices do. -/
theorem frames_as_prices_mixed :
    opened.Owns 0 0 "X" ∧
      (opened.undergo Exchange.tradeItems
        mixedOccurrences).outbox.events.map (fun event => (event.oid, event.index, event.price)) =
          [("a", none, 55), ("a", some 0, 50)] ∧
      (∀ frame price, reportedPrice? "X" frame = some price ↔ Reports "X" frame price) ∧
      ∃ fed, SiftsTurns 0 mixedOccurrences fed ∧ Level 0 0 "X"
        (opened.undergo Exchange.tradeItems mixedOccurrences)
        (opened.undergo (priceItems "X") fed) := by
  have howns : opened.Owns 0 0 "X" := by
    have hlength : opened.watchers.length = 1 := by decide +kernel
    have hwaiting : opened.source.replay.waiting = .empty := by decide +kernel
    refine ⟨⟨{ Watcher.new ⟨"B", "X"⟩ with phase := .opening 0 },
      Replay.streamOf [.batch (.ofPrices "X" [60])], by decide +kernel, rfl, by decide +kernel,
      .inr ⟨rfl, List.cons_ne_nil _ _⟩⟩, fun other watcher hne hwatcher => ?_, fun listing => ?_⟩
    · have hlt := (List.getElem?_eq_some_iff.1 hwatcher).1
      exact absurd (Nat.lt_one_iff.1 (hlength ▸ hlt)) hne
    · rw [hwaiting]
      exact nofun
  exact ⟨howns, by decide +kernel, frames_as_prices howns mixedOccurrences⟩

end Session

end TriggerDesk
