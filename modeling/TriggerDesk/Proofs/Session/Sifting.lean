import TriggerDesk.Proofs.Feed.Streams
import TriggerDesk.Session.Machine

/-!
# Sessions that are shown less

A watcher passes over prices that are not valid, and over batches without a price of its symbol. So
a session that is shown a stream without some of these does the same as one that is shown all of it.
`Session.Veiled` relates the two: they differ in what is unread in one stream, in the prices that
its watcher has in hand, and in the meters, which count what is passed over. Here it is kept by
what the desk does, who does not look at any of this (`Veiled.deskStep`).
-/

namespace TriggerDesk

open Market TriggerDesk.Order Feed Metrics

/-! ## Lists without what is idle -/

/-- A list without some of its idle elements, and with alike elements in place of others. -/
inductive Sifts {α : Type} (idle : α → Prop) (alike : α → α → Prop) : List α → List α → Prop where
  | nil : Sifts idle alike [] []
  | keep {a b : α} {more others : List α} : alike a b → Sifts idle alike more others →
      Sifts idle alike (a :: more) (b :: others)
  | skip {a : α} {more others : List α} : idle a → Sifts idle alike more others →
      Sifts idle alike (a :: more) others

namespace Sifts

variable {α : Type} {idle : α → Prop} {alike : α → α → Prop} {items others more rest : List α}

/-- A list is itself without nothing. -/
theorem refl (h : ∀ a, alike a a) (items : List α) : Sifts idle alike items items := by
  induction items with
  | nil => exact .nil
  | cons a rest ih => exact .keep (h a) ih

/-- What is left out of two lists is left out of both together. -/
theorem append (h : Sifts idle alike items others) (hmore : Sifts idle alike more rest) :
    Sifts idle alike (items ++ more) (others ++ rest) := by
  induction h with
  | nil => exact hmore
  | keep halike _ ih => exact .keep halike ih
  | skip hidle _ ih => exact .skip hidle ih

/-- Of an empty list nothing can be left out. -/
theorem eq_nil (h : Sifts idle alike [] others) : others = [] := by
  cases h
  rfl

end Sifts

/-- Prices without some that are not valid. -/
abbrev SiftsPrices : List Float → List Float → Prop :=
  Sifts (fun price => isValidPrice price = false) (· = ·)

/-- The prices of a symbol in a batch. -/
def Market.Batch.pricesFor (batch : Batch) (symbol : String) : List Float :=
  (batch.ticksFor symbol).map (·.price)

namespace Feed

/-- An item has no valid price of a symbol. -/
inductive Item.Idle (symbol : String) : Item → Prop where
  | batch {batch : Batch} : SiftsPrices (batch.pricesFor symbol) [] → Idle symbol (.batch batch)

/-- Two items have the same valid prices of a symbol, or are the same failure. -/
inductive Item.Sifts (symbol : String) : Item → Item → Prop where
  | batch {batch other : Batch} :
      SiftsPrices (batch.pricesFor symbol) (other.pricesFor symbol) →
      Sifts symbol (.batch batch) (.batch other)
  | failure (failure : Failure) : Sifts symbol (.failure failure) (.failure failure)

/-- Items without some that have no valid price of a symbol. -/
abbrev SiftsItems (symbol : String) : List Item → List Item → Prop :=
  TriggerDesk.Sifts (Item.Idle symbol) (Item.Sifts symbol)

/-- An item is like itself. -/
theorem Item.Sifts.refl (symbol : String) (item : Item) : Item.Sifts symbol item item := by
  cases item with
  | batch batch => exact .batch (.refl (fun _ => rfl) _)
  | failure failure => exact .failure failure

/-- The feed with other items unread in a stream. -/
def Replay.showing (replay : Replay) (stream : StreamId) (items : List Item) : Replay :=
  replay.modifyStream stream fun channel => { channel with items }

/-- The source with other items unread in a stream. -/
def Source.showing (source : Source) (stream : StreamId) (items : List Item) : Source :=
  { source with replay := source.replay.showing stream items }

end Feed

/-! ## Watchers with other prices in hand -/

namespace Watcher

/-- The prices that a watcher has in hand. -/
def Phase.prices : Phase → List Float
  | following _ prices | firing _ _ _ prices => prices
  | starting | opening _ | retiring .. | ended _ => []

/-- The phase with other prices in hand, if there are any. -/
def Phase.withPrices (prices : List Float) : Phase → Phase
  | following stream _ => following stream prices
  | firing stream event rest _ => firing stream event rest prices
  | starting => starting
  | opening stream => opening stream
  | retiring stream event rest => retiring stream event rest
  | ended ending => ended ending

/-- The watcher with other prices in hand. -/
def withPrices (prices : List Float) (watcher : Watcher) : Watcher :=
  { watcher with phase := watcher.phase.withPrices prices }

/-- The feed of a watcher is live on a stream, or the watcher has ended. -/
def Phase.Reads (stream : StreamId) : Phase → Prop
  | following own _ | firing own .. | retiring own .. => own = stream
  | ended _ => True
  | starting | opening _ => False

variable {phase : Phase} {prices : List Float}

/-- Other prices in hand do not end a watcher. -/
@[simp]
theorem Phase.isEnded_withPrices : (phase.withPrices prices).isEnded = phase.isEnded := by
  cases phase <;> rfl

/-- Other prices in hand do not make a feed live. -/
@[simp]
theorem Phase.isLive_withPrices : (phase.withPrices prices).isLive = phase.isLive := by
  cases phase <;> rfl

/-- Other prices in hand leave the stream. -/
@[simp]
theorem Phase.stream?_withPrices : (phase.withPrices prices).stream? = phase.stream? := by
  cases phase <;> rfl

/-- With the prices that it has in hand a watcher is as it is. -/
theorem withPrices_prices (watcher : Watcher) :
    watcher.withPrices watcher.phase.prices = watcher := by
  obtain ⟨listing, phase, index, outcome⟩ := watcher
  cases phase <;> rfl

end Watcher

namespace Session

variable {id target : WatcherId} {stream : StreamId} {symbol : String}
  {session first second : Session} {watchers : List Watcher} {source : Source}
  {unread : List Item} {prices : List Float}

/-- The session with other items unread in a stream, other prices in hand of its watcher, and other
meters. -/
def veil (session : Session) (id : WatcherId) (stream : StreamId) (unread : List Item)
    (prices : List Float) (meters : Meters) : Session :=
  { session with
    source := session.source.showing stream unread
    watchers := session.watchers.modify id (Watcher.withPrices prices)
    meters }

/-- What is unread in a stream, and what is shown of it to a watcher. The first quote is shown as it
is. -/
inductive Sees (stream : StreamId) (symbol : String) :
    Watcher.Phase → List Item → List Item → Prop where
  | live {phase : Watcher.Phase} {items unread : List Item} : phase.Reads stream →
      SiftsItems symbol items unread → Sees stream symbol phase items unread
  | opening {item : Item} {more others : List Item} : SiftsItems symbol more others →
      Sees stream symbol (.opening stream) (item :: more) (item :: others)

/-- What is shown of a stream is what is unread without what is passed over. -/
theorem Sees.sifts {phase : Watcher.Phase} {items : List Item}
    (h : Sees stream symbol phase items unread) : SiftsItems symbol items unread := by
  cases h with
  | live _ hsifts => exact hsifts
  | opening hsifts => exact .keep (.refl symbol _) hsifts

/-- A watcher alone reads a stream, and nothing is left out of the stream, or of the prices that the
watcher has in hand, that it does not pass over. -/
structure Fits (id : WatcherId) (stream : StreamId) (symbol : String) (source : Source)
    (watchers : List Watcher) (unread : List Item) (prices : List Float) : Prop where
  own : ∃ watcher channel, watchers[id]? = some watcher ∧ watcher.listing.symbol = symbol ∧
    SiftsPrices watcher.phase.prices prices ∧ source.replay.streams[stream]? = some channel ∧
    Sees stream symbol watcher.phase channel.items unread
  others : ∀ other watcher, other ≠ id → watchers[other]? = some watcher →
    watcher.phase.stream? ≠ some stream
  waiting : ∀ listing, source.replay.waiting.get? listing ≠ some stream

/-- The second session is the first as it is when less is shown to a watcher of a symbol. -/
def Veiled (id : WatcherId) (stream : StreamId) (symbol : String) (first second : Session) : Prop :=
  ∃ unread prices meters, Fits id stream symbol first.source first.watchers unread prices ∧
    second = first.veil id stream unread prices meters

/-- Two sessions are the same but for the feeds, the watchers and the meters. -/
structure SameBoard (first second : Session) : Prop where
  clock : second.clock = first.clock
  limit : second.limit = first.limit
  inbox : second.inbox = first.inbox
  outbox : second.outbox = first.outbox
  book : second.book = first.book
  desk : second.desk = first.desk
  spawned : second.spawned = first.spawned
  journal : second.journal = first.journal

namespace Veiled

/-- Nothing but the feeds, the watchers and the meters differs. -/
theorem same (h : Veiled id stream symbol first second) : SameBoard first second := by
  obtain ⟨unread, prices, meters, -, rfl⟩ := h
  exact ⟨rfl, rfl, rfl, rfl, rfl, rfl, rfl, rfl⟩

/-- Every watcher is the same but for the prices that it has in hand. -/
theorem exists_watcher (h : Veiled id stream symbol first second) (target : WatcherId) :
    ∃ prices,
      second.watchers[target]? = first.watchers[target]?.map (Watcher.withPrices prices) := by
  obtain ⟨unread, prices, meters, -, rfl⟩ := h
  show ∃ shown, (first.watchers.modify id (Watcher.withPrices prices))[target]? = _
  rw [List.getElem?_modify]
  cases hwatcher : first.watchers[target]? with
  | none => exact ⟨prices, rfl⟩
  | some watcher =>
    by_cases heq : id = target
    · exact ⟨prices, by simp [heq]⟩
    · exact ⟨watcher.phase.prices, by simp [heq, Watcher.withPrices_prices]⟩

/-- Other watchers are the same in both sessions. -/
theorem watcher_of_ne (h : Veiled id stream symbol first second) (hne : target ≠ id) :
    second.watchers[target]? = first.watchers[target]? := by
  obtain ⟨unread, prices, meters, -, rfl⟩ := h
  show (first.watchers.modify id (Watcher.withPrices prices))[target]? = _
  rw [List.getElem?_modify]
  simp [Ne.symm hne]

/-- Both sessions have the same number of watchers. -/
theorem length_watchers (h : Veiled id stream symbol first second) :
    second.watchers.length = first.watchers.length := by
  obtain ⟨unread, prices, meters, -, rfl⟩ := h
  exact List.length_modify _ _ _

/-! ### What is written down, announced and put -/

/-- Something is counted in both. -/
theorem count (h : Veiled id stream symbol first second) (meter : Meter) (n : Int) :
    Veiled id stream symbol (first.count meter n) (second.count meter n) := by
  obtain ⟨unread, prices, meters, hfits, rfl⟩ := h
  exact ⟨unread, prices, _, hfits, rfl⟩

/-- The meters count for nothing. -/
theorem count_left (h : Veiled id stream symbol first second) (meter : Meter) (n : Int) :
    Veiled id stream symbol (first.count meter n) second := by
  obtain ⟨unread, prices, meters, hfits, rfl⟩ := h
  exact ⟨unread, prices, _, hfits, rfl⟩

/-- Something is written down in both. -/
theorem write (h : Veiled id stream symbol first second) (entry : Journal.Entry) :
    Veiled id stream symbol (first.write entry) (second.write entry) := by
  obtain ⟨unread, prices, meters, hfits, rfl⟩ := h
  exact ⟨unread, prices, _, hfits, rfl⟩

/-- An event is observed in both. -/
theorem observe (h : Veiled id stream symbol first second) (event : Event) :
    Veiled id stream symbol (first.observe event) (second.observe event) :=
  (h.count _ 1).write _

/-- An event is announced in both. -/
theorem announce (h : Veiled id stream symbol first second) (party : Party) (event : Event) :
    Veiled id stream symbol (first.announce party event) (second.announce party event) := by
  obtain ⟨unread, prices, meters, hfits, rfl⟩ := h
  exact ⟨unread, prices, _, hfits, rfl⟩

/-- An event is put in both. -/
theorem put (h : Veiled id stream symbol first second) (party : Party) (event : Event) :
    Veiled id stream symbol (first.put party event) (second.put party event) := by
  obtain ⟨unread, prices, meters, hfits, rfl⟩ := h
  exact ⟨unread, prices, _, hfits, rfl⟩

end Veiled

/-! ## Streams and watchers change -/

/-- Changes of two streams can be made in either order. -/
theorem modifyStream_comm {replay : Replay} {one other : StreamId}
    {change same : Channel Item → Channel Item} (h : one ≠ other) :
    (replay.modifyStream one change).modifyStream other same =
      (replay.modifyStream other same).modifyStream one change :=
  congrArg (fun streams => { replay with streams }) (List.modify_modify_ne _ _ _ h)

/-- Two changes of one stream are one. -/
theorem modifyStream_modifyStream {replay : Replay} {one : StreamId}
    {change same : Channel Item → Channel Item} :
    (replay.modifyStream one change).modifyStream one same =
      replay.modifyStream one (same ∘ change) :=
  congrArg (fun streams => { replay with streams }) (List.modify_modify_eq _ _ _ _)

/-- What is appended to a list is not changed with an element of it. -/
theorem modify_append_of_lt {α : Type} {change : α → α} {items more : List α} {place : Nat}
    (h : place < items.length) :
    (items ++ more).modify place change = items.modify place change ++ more := by
  refine List.ext_getElem? fun seen => ?_
  rw [List.getElem?_modify, List.getElem?_append, List.getElem?_append, List.getElem?_modify,
    List.length_modify]
  by_cases hseen : seen < items.length
  · rw [if_pos hseen, if_pos hseen]
  · have hne : place ≠ seen := fun heq => hseen (heq ▸ h)
    simp [hseen, hne]

/-- Nothing changes where the one that changes stays as it is. -/
theorem modify_of_fixed {α : Type} {change : α → α} {items : List α} {place : Nat} {item : α}
    (h : items[place]? = some item) (hfixed : change item = item) :
    items.modify place change = items := by
  refine List.ext_getElem? fun seen => ?_
  rw [List.getElem?_modify]
  by_cases heq : place = seen
  · subst heq
    simp [h, hfixed]
  · simp [heq]

/-- A stream that its reader left shows nothing any more. -/
theorem unsubscribe_showing (replay : Replay) (own : StreamId) (items : List Item) :
    (replay.showing own items).unsubscribe own = (replay.unsubscribe own).showing own [] := by
  rw [Replay.showing, Replay.showing, Replay.unsubscribe, Replay.unsubscribe,
    modifyStream_modifyStream, modifyStream_modifyStream]
  rfl

/-- Only what is unread in the stream and the table of streams that wait count. -/
theorem Fits.of_content {next : Source} (h : Fits id stream symbol source watchers unread prices)
    (hcontent : next.replay.content? stream = source.replay.content? stream)
    (hwaiting : ∀ listing, next.replay.waiting.get? listing ≠ some stream) :
    Fits id stream symbol next watchers unread prices where
  own := by
    obtain ⟨watcher, channel, hwatcher, hsymbol, hprices, hchannel, hsees⟩ := h.own
    have hunread : source.replay.content? stream = some (channel.receiving, channel.items) :=
      Replay.content?_eq_some.2 ⟨channel, hchannel, rfl, rfl⟩
    obtain ⟨found, hfound, -, hitems⟩ := Replay.content?_eq_some.1 (hcontent.trans hunread)
    exact ⟨watcher, found, hwatcher, hsymbol, hprices, hfound, hitems ▸ hsees⟩
  others := h.others
  waiting := hwaiting

/-- What a watcher is to do next, as it is and as it is shown. -/
inductive Shows (id : WatcherId) (stream : StreamId) :
    WatcherId → Watcher.Phase → Watcher.Phase → Prop where
  | other {target : WatcherId} {phase : Watcher.Phase} : target ≠ id →
      phase.stream? ≠ some stream → Shows id stream target phase phase
  | own {phase : Watcher.Phase} {prices : List Float} : phase.Reads stream →
      SiftsPrices phase.prices prices → Shows id stream id phase (phase.withPrices prices)

/-- An end is shown as it is. -/
theorem shows_ended (id target : WatcherId) (stream : StreamId) (ending : Watcher.Ending) :
    Shows id stream target (.ended ending) (.ended ending) := by
  by_cases heq : target = id
  · subst heq
    have hown : Shows target stream target (.ended ending)
        ((Watcher.Phase.ended ending).withPrices []) := .own trivial .nil
    exact hown
  · exact .other heq nofun

namespace Veiled

/-- Another stream changes. -/
theorem modifyStream_of_ne (h : Veiled id stream symbol first second) {own : StreamId}
    (hne : own ≠ stream) (change : Channel Item → Channel Item) :
    Veiled id stream symbol
      { first with source :=
        { first.source with replay := first.source.replay.modifyStream own change } }
      { second with source :=
        { second.source with replay := second.source.replay.modifyStream own change } } := by
  obtain ⟨unread, prices, meters, hfits, rfl⟩ := h
  refine ⟨unread, prices, meters, hfits.of_content ?_ hfits.waiting, ?_⟩
  · show (first.source.replay.modifyStream own _).content? stream = _
    rw [Replay.content?, Replay.getElem?_modifyStream, if_neg hne]
    rfl
  · exact congrArg (fun replay => ({ first.veil id stream unread prices meters with
      source := { first.source with replay } } : Session)) (modifyStream_comm (Ne.symm hne))

/-- Another watcher reads another stream. -/
theorem stream?_ne (h : Veiled id stream symbol first second) (hne : target ≠ id)
    {watcher : Watcher} (hwatcher : first.watchers[target]? = some watcher) :
    watcher.phase.stream? ≠ some stream := by
  obtain ⟨unread, prices, meters, hfits, -⟩ := h
  exact hfits.others target watcher hne hwatcher

/-- A stream that somebody leaves is as empty as it is shown. Who waits for a first quote does not
leave it. -/
theorem unsubscribe (h : Veiled id stream symbol first second) {own : StreamId}
    (hown : own = stream → ∀ watcher, first.watchers[id]? = some watcher →
      watcher.phase.Reads stream) :
    Veiled id stream symbol
      { first with source :=
        { first.source with replay := first.source.replay.unsubscribe own } }
      { second with source :=
        { second.source with replay := second.source.replay.unsubscribe own } } := by
  by_cases heq : own = stream
  · subst heq
    obtain ⟨unread, prices, meters, hfits, rfl⟩ := h
    refine ⟨[], prices, meters, ?_, ?_⟩
    · obtain ⟨watcher, channel, hwatcher, hsymbol, hprices, hchannel, -⟩ := hfits.own
      refine ⟨⟨watcher, channel.closeReceiving, hwatcher, hsymbol, hprices, ?_,
        .live (hown rfl watcher hwatcher) .nil⟩, hfits.others, hfits.waiting⟩
      show (first.source.replay.modifyStream own _).streams[own]? = _
      rw [Replay.getElem?_modifyStream, if_pos rfl, hchannel]
      rfl
    · exact congrArg (fun replay => ({ first.veil id own [] prices meters with
        source := { first.source with replay } } : Session))
        (unsubscribe_showing first.source.replay own unread)
  · exact h.modifyStream_of_ne heq Channel.closeReceiving

/-- A stream is left in both, as long as the watcher of the stream that is shown less has had its
first quote. -/
theorem leaveStream (h : Veiled id stream symbol first second) {phase : Watcher.Phase}
    (prices : List Float) (hown : phase.stream? = some stream →
      ∀ watcher, first.watchers[id]? = some watcher → watcher.phase.Reads stream) :
    Veiled id stream symbol (first.leaveStream phase)
      (second.leaveStream (phase.withPrices prices)) := by
  unfold Session.leaveStream
  rw [Watcher.Phase.stream?_withPrices]
  cases hstream : phase.stream? with
  | none => exact h
  | some own => exact h.unsubscribe fun heq => hown (hstream.trans (congrArg some heq))

/-- Another watcher may change as long as it does not come to read the stream. -/
theorem modifyWatcher_of_ne (h : Veiled id stream symbol first second) (hne : target ≠ id)
    {change : Watcher → Watcher} (hstream : ∀ watcher, first.watchers[target]? = some watcher →
      (change watcher).phase.stream? ≠ some stream) :
    Veiled id stream symbol (first.modifyWatcher target change)
      (second.modifyWatcher target change) := by
  obtain ⟨unread, prices, meters, hfits, rfl⟩ := h
  refine ⟨unread, prices, meters, ?_, ?_⟩
  · have hget : ∀ other : WatcherId, (first.watchers.modify target change)[other]? =
        if target = other then first.watchers[other]?.map change
        else first.watchers[other]? := by
      intro other
      rw [List.getElem?_modify]
      split <;> simp
    refine ⟨?_, ?_, hfits.waiting⟩
    · obtain ⟨watcher, channel, hwatcher, hown⟩ := hfits.own
      refine ⟨watcher, channel, ?_, hown⟩
      show (first.watchers.modify target change)[id]? = _
      rw [hget, if_neg hne]
      exact hwatcher
    · intro other watcher hother hwatcher
      have hwatcher := (hget other).symm.trans hwatcher
      split at hwatcher
      · next heq =>
        subst heq
        obtain ⟨old, hold, rfl⟩ := Option.map_eq_some_iff.1 hwatcher
        exact hstream old hold
      · exact hfits.others other watcher hother hwatcher
  · exact congrArg (fun watchers => ({ first.veil id stream unread prices meters with
      watchers } : Session)) (List.modify_modify_ne _ _ _ (Ne.symm hne))

/-- The watcher changes with what it has in hand. -/
theorem modifyOwn (h : Veiled id stream symbol first second) {change same : Watcher → Watcher}
    (hchange : ∀ watcher prices, SiftsPrices watcher.phase.prices prices →
      (change watcher).listing = watcher.listing ∧
        (∀ items unread, Sees stream symbol watcher.phase items unread →
          Sees stream symbol (change watcher).phase items unread) ∧
        ∃ shown, SiftsPrices (change watcher).phase.prices shown ∧
          same (watcher.withPrices prices) = (change watcher).withPrices shown) :
    Veiled id stream symbol (first.modifyWatcher id change) (second.modifyWatcher id same) := by
  obtain ⟨unread, prices, meters, hfits, rfl⟩ := h
  obtain ⟨watcher, channel, hwatcher, hsymbol, hprices, hchannel, hsees⟩ := hfits.own
  obtain ⟨hlisting, hnext, shown, hshown, hsame⟩ := hchange watcher prices hprices
  refine ⟨unread, shown, meters, ⟨?_, ?_, hfits.waiting⟩, ?_⟩
  · refine ⟨change watcher, channel, ?_, hlisting ▸ hsymbol, hshown, hchannel, hnext _ _ hsees⟩
    show (first.watchers.modify id change)[id]? = _
    simp [hwatcher]
  · intro other found hother hfound
    refine hfits.others other found hother ?_
    rw [← hfound]
    show _ = (first.watchers.modify id change)[other]?
    simp [Ne.symm hother]
  · have hwatchers : (first.watchers.modify id (Watcher.withPrices prices)).modify id same =
        (first.watchers.modify id change).modify id (Watcher.withPrices shown) := by
      -- Changing the watcher and showing it commute, since both are about the same place.
      refine List.ext_getElem? fun place => ?_
      rw [List.modify_modify_eq, List.modify_modify_eq, List.getElem?_modify, List.getElem?_modify]
      by_cases heq : id = place
      · subst heq
        simp [hwatcher, hsame]
      · simp [heq]
    exact congrArg (fun watchers => ({ first.veil id stream unread shown meters with
      watchers } : Session)) hwatchers

/-- A watcher enters a phase in both, with the prices in hand that it is shown. -/
theorem setPhase {phase shown : Watcher.Phase} (h : Veiled id stream symbol first second)
    (hshows : Shows id stream target phase shown) :
    Veiled id stream symbol (first.setPhase target phase) (second.setPhase target shown) := by
  cases hshows with
  | other hne hstream => exact h.modifyWatcher_of_ne hne fun _ _ => hstream
  | own hreads hsifts =>
    exact h.modifyOwn fun _ _ _ =>
      ⟨rfl, fun _ _ hsees => .live hreads hsees.sifts, _, hsifts, rfl⟩

/-- A watcher stays where it is and has what it has in hand, and changes otherwise. -/
theorem modifyBeside (h : Veiled id stream symbol first second) (target : WatcherId)
    {change : Watcher → Watcher} (hlisting : ∀ watcher, (change watcher).listing = watcher.listing)
    (hphase : ∀ watcher, (change watcher).phase = watcher.phase)
    (hprices : ∀ watcher prices,
      change (watcher.withPrices prices) = (change watcher).withPrices prices) :
    Veiled id stream symbol (first.modifyWatcher target change)
      (second.modifyWatcher target change) := by
  by_cases heq : target = id
  · subst heq
    refine h.modifyOwn fun watcher prices hsifts =>
      ⟨hlisting watcher, fun _ _ hsees => ?_, prices, ?_, hprices watcher prices⟩
    · exact (hphase watcher).symm ▸ hsees
    · exact (hphase watcher).symm ▸ hsifts
  · refine h.modifyWatcher_of_ne heq fun watcher hwatcher => ?_
    rw [hphase]
    exact h.stream?_ne heq hwatcher

/-- The outbox changes alike. -/
theorem mapOutbox (h : Veiled id stream symbol first second) (change : Outbox → Outbox) :
    Veiled id stream symbol { first with outbox := change first.outbox }
      { second with outbox := change second.outbox } := by
  obtain ⟨unread, prices, meters, hfits, rfl⟩ := h
  exact ⟨unread, prices, meters, hfits, rfl⟩

/-- A watcher may end before it leaves its stream. -/
theorem setPhase_leaveStream (session : Session) (target : WatcherId) (phase next : Watcher.Phase) :
    { session.leaveStream phase with
        outbox := (session.leaveStream phase).outbox.withdraw (.watcher target) }.setPhase target
          next =
      ({ session with outbox := session.outbox.withdraw (.watcher target) }.setPhase target
        next).leaveStream phase := by
  unfold Session.leaveStream
  cases phase.stream? <;> rfl

/-- A watcher is ended in both. -/
theorem endWatcher (h : Veiled id stream symbol first second) (target : WatcherId)
    (ending : Watcher.Ending) :
    Veiled id stream symbol (first.endWatcher target ending)
      (second.endWatcher target ending) := by
  obtain ⟨prices, hwatcher⟩ := h.exists_watcher target
  unfold Session.endWatcher
  rw [hwatcher]
  cases hcase : first.watchers[target]? with
  | none => exact h
  | some watcher =>
    -- Who ends is not to leave the stream with a first quote in it, so it ends before.
    have hown : ∀ next : Session, next.watchers = first.watchers →
        watcher.phase.stream? = some stream → ∀ found,
        (next.setPhase target (.ended ending)).watchers[id]? = some found →
        found.phase.Reads stream := by
      intro next hnext hstream found hfound
      by_cases heq : target = id
      · subst heq
        have hended : (next.watchers.modify target fun old =>
            { old with phase := .ended ending })[target]? = some found := hfound
        rw [hnext, List.getElem?_modify_eq, hcase] at hended
        cases hended
        trivial
      · exact absurd hstream (h.stream?_ne heq hcase)
    show Veiled id stream symbol (if watcher.phase.isEnded then first else _)
      (if (watcher.phase.withPrices prices).isEnded then second else _)
    rw [Watcher.Phase.isEnded_withPrices]
    split
    · exact h
    · have hcounted : Veiled id stream symbol
          (if watcher.phase.isLive then first.count .watchers (-1) else first)
          (if (watcher.phase.withPrices prices).isLive then second.count .watchers (-1)
            else second) := by
        rw [Watcher.Phase.isLive_withPrices]
        split
        · exact h.count _ _
        · exact h
      dsimp only
      rw [setPhase_leaveStream, setPhase_leaveStream]
      exact ((hcounted.mapOutbox (·.withdraw (.watcher target))).setPhase
        (shows_ended id target stream ending)).leaveStream prices (hown _ (by split <;> rfl))

/-- A watcher that is started reads nothing yet. -/
theorem startWatcher (h : Veiled id stream symbol first second) (placing : Placing) :
    Veiled id stream symbol (first.startWatcher placing) (second.startWatcher placing) := by
  obtain ⟨unread, prices, meters, hfits, rfl⟩ := h
  obtain ⟨watcher, channel, hwatcher, hown⟩ := hfits.own
  have hlt := (List.getElem?_eq_some_iff.1 hwatcher).1
  refine ⟨unread, prices, meters, ⟨⟨watcher, channel, ?_, hown⟩, ?_, hfits.waiting⟩, ?_⟩
  · exact (List.getElem?_append_left hlt).trans hwatcher
  · intro other found hother hfound
    have hcases := List.getElem?_append.symm.trans hfound
    split at hcases
    · exact hfits.others other found hother hcases
    · rw [List.mem_singleton.1 (List.mem_of_getElem? hcases)]
      exact nofun
  · unfold Session.startWatcher Session.veil
    dsimp only
    rw [List.length_modify, modify_append_of_lt hlt]

/-- A watcher is put in place of another in both. -/
theorem replaceWatcher (h : Veiled id stream symbol first second) (placing : Placing) :
    Veiled id stream symbol (first.replaceWatcher placing) (second.replaceWatcher placing) := by
  unfold Session.replaceWatcher
  rw [h.same.spawned]
  cases first.spawned.get? placing.listing with
  | none => exact h.startWatcher placing
  | some other =>
    have hretiring : second.book.isRetiring placing.listing =
        first.book.isRetiring placing.listing := by rw [h.same.book]
    dsimp only
    rw [hretiring]
    obtain ⟨unread, prices, meters, hfits, rfl⟩ := h
    split
    · exact ⟨unread, prices, meters, hfits, rfl⟩
    · have herased : Veiled id stream symbol
          { first with spawned := first.spawned.erase placing.listing }
          { first.veil id stream unread prices meters with
            spawned := first.spawned.erase placing.listing } :=
        ⟨unread, prices, meters, hfits, rfl⟩
      exact (herased.endWatcher other .aborted).startWatcher placing

/-! ### The desk -/

/-- The desk has an answer to put in both. -/
theorem answer (h : Veiled id stream symbol first second) (event : Event) :
    Veiled id stream symbol (first.answer event) (second.answer event) := by
  obtain ⟨unread, prices, meters, hfits, rfl⟩ := h
  exact ⟨unread, prices, _, hfits, rfl⟩

/-- A command is rejected in both. -/
theorem reject (h : Veiled id stream symbol first second) (command : Command)
    (rejection : Rejection) :
    Veiled id stream symbol (first.reject command rejection) (second.reject command rejection) :=
  (h.count _ 1).answer _

/-- A place is returned in both. -/
theorem returnPlace (h : Veiled id stream symbol first second) :
    Veiled id stream symbol first.returnPlace second.returnPlace :=
  h.mapOutbox (·.withdraw .desk)

/-- An order is armed in both. -/
theorem arm (h : Veiled id stream symbol first second) (placing : Placing) (last : Float) :
    Veiled id stream symbol (first.arm placing last) (second.arm placing last) := by
  obtain ⟨unread, prices, meters, hfits, rfl⟩ := h
  exact ⟨unread, prices, _, hfits, rfl⟩

/-- The feed of a listing is sought in both. -/
theorem seekFeed (h : Veiled id stream symbol first second) (placing : Placing) :
    Veiled id stream symbol (first.seekFeed placing) (second.seekFeed placing) := by
  unfold Session.seekFeed
  rw [h.same.book]
  cases first.book.last? placing.listing with
  | none => exact h.replaceWatcher placing
  | some last => exact h.arm placing last

/-- The desk tries again in both. -/
theorem tryAgain (h : Veiled id stream symbol first second) (placing : Placing) :
    Veiled id stream symbol (first.tryAgain placing) (second.tryAgain placing) := by
  unfold Session.tryAgain
  split
  · exact h.reject _ _
  · exact h.seekFeed _

/-- The desk goes on after a wait in both. -/
theorem feedReady (h : Veiled id stream symbol first second) (placing : Placing) :
    Veiled id stream symbol (first.feedReady placing) (second.feedReady placing) := by
  have hcounted := h.count .firstQuotes 1
  unfold Session.feedReady
  dsimp only
  rw [hcounted.same.book]
  cases (first.count .firstQuotes 1).book.last? placing.listing with
  | none => exact hcounted.tryAgain placing
  | some last => exact hcounted.arm placing last

/-- The books of both change to the same book. -/
theorem withBook (h : Veiled id stream symbol first second) (book : Book) :
    Veiled id stream symbol { first with book } { second with book } := by
  obtain ⟨unread, prices, meters, hfits, rfl⟩ := h
  exact ⟨unread, prices, meters, hfits, rfl⟩

/-- The desk goes on with a book and stands elsewhere. -/
theorem withDesk (h : Veiled id stream symbol first second) (book : Book) (desk : Desk) :
    Veiled id stream symbol { first with book, desk } { second with book, desk } := by
  obtain ⟨unread, prices, meters, hfits, rfl⟩ := h
  exact ⟨unread, prices, meters, hfits, rfl⟩

/-- An order is placed in both, or its feed is found lost. -/
theorem place (h : Veiled id stream symbol first second) (placing : Placing) (last : Float) :
    Veiled id stream symbol (first.place placing last) (second.place placing last) := by
  unfold Session.place
  dsimp only
  rw [h.same.book]
  split
  · exact (((h.observe _).put .desk _).count .pending 1).withDesk _ _
  · exact h.returnPlace.reject _ _
  · exact (h.withBook _).returnPlace.tryAgain placing

/-- A command that places an order is taken up in both. -/
theorem handleOrder (h : Veiled id stream symbol first second) (command : Command) :
    Veiled id stream symbol (first.handleOrder command) (second.handleOrder command) := by
  unfold Session.handleOrder
  rw [h.same.book]
  split
  · exact h.reject _ _
  · split
    · exact h.reject _ _
    · split
      · exact h.reject _ _
      · exact h.seekFeed _

/-- An order is cancelled in both. -/
theorem handleCancel (h : Veiled id stream symbol first second) (command : Command) :
    Veiled id stream symbol (first.handleCancel command) (second.handleCancel command) := by
  unfold Session.handleCancel
  rw [h.same.book]
  split
  · exact h.reject _ _
  · exact ((h.withBook _).count .pending (-1)).answer _

/-- A command that moves an order is taken up in both. -/
theorem handleModify (h : Veiled id stream symbol first second) (command : Command) :
    Veiled id stream symbol (first.handleModify command) (second.handleModify command) := by
  unfold Session.handleModify
  split
  · exact h.reject _ _
  · obtain ⟨unread, prices, meters, hfits, rfl⟩ := h
    exact ⟨unread, prices, meters, hfits, rfl⟩

/-- An order is moved in both. -/
theorem move (h : Veiled id stream symbol first second) (command : Command) :
    Veiled id stream symbol (first.move command) (second.move command) := by
  unfold Session.move
  rw [h.same.book]
  split
  · exact h.returnPlace.reject _ _
  · exact ((h.observe _).put .desk _).withDesk _ _

/-- A command is taken up in both. -/
theorem handle (h : Veiled id stream symbol first second) (command : Command) :
    Veiled id stream symbol (first.handle command) (second.handle command) := by
  have hwritten := (h.count (.commands command.kind.name) 1).write (.command command)
  unfold Session.handle
  dsimp only
  split
  · exact hwritten.handleOrder command
  · exact hwritten.handleOrder command
  · exact hwritten.handleOrder command
  · exact hwritten.handleCancel command
  · exact hwritten.handleModify command

/-- Watchers are stopped in both. -/
theorem stopWatchers (h : Veiled id stream symbol first second) (ids : List WatcherId) :
    Veiled id stream symbol (first.stopWatchers ids) (second.stopWatchers ids) := by
  induction ids generalizing first second with
  | nil => exact h
  | cons other rest ih => exact ih (h.endWatcher other .aborted)

/-- Both sessions shut down. -/
theorem shutDown (h : Veiled id stream symbol first second) :
    Veiled id stream symbol first.shutDown second.shutDown := by
  have hcounted := h.count .pending (-first.book.size)
  have hstopped := hcounted.stopWatchers (List.range first.watchers.length)
  have hended := (hstopped.write (.note s!"session ended, {first.book.size} pending dropped")).count
    .sessions (-1)
  unfold Session.shutDown
  dsimp only
  rw [h.same.book, show (second.count .pending (-first.book.size)).watchers.length =
    first.watchers.length from h.length_watchers]
  obtain ⟨unread, prices, meters, hfits, heq⟩ := hended
  refine ⟨unread, prices, meters, hfits, ?_⟩
  exact congrArg (fun session : Session => { session with
    outbox := session.outbox.withdraw .desk
    inbox := session.inbox.closeReceiving
    desk := .ended }) heq

/-- The desk waits for a place in both, or goes on in both. -/
theorem withPlace {next : Session → Session} (h : Veiled id stream symbol first second)
    (hnext : Veiled id stream symbol (next first) (next second)) :
    Option.Rel (Veiled id stream symbol) (first.withPlace next) (second.withPlace next) := by
  unfold Session.withPlace
  rw [h.same.outbox]
  split
  · exact .none
  · exact .some h.shutDown
  · exact .some hnext

/-- The outcome that the desk waits for is the same for a watcher with other prices in hand. -/
theorem quoteOutcome?_eq (h : Veiled id stream symbol first second) (watcher : Watcher)
    (prices : List Float) (deadline : Option Nat) :
    second.quoteOutcome? (watcher.withPrices prices) deadline =
      first.quoteOutcome? watcher deadline := by
  have hended : (watcher.withPrices prices).phase.isEnded = watcher.phase.isEnded :=
    Watcher.Phase.isEnded_withPrices
  unfold Session.quoteOutcome?
  rw [hended, h.same.clock, h.same.limit]
  rfl

/-- The desk takes the same turns. -/
theorem deskStep (h : Veiled id stream symbol first second) :
    Option.Rel (Veiled id stream symbol) first.deskStep second.deskStep := by
  unfold Session.deskStep
  rw [h.same.desk]
  cases first.desk with
  | idle =>
    dsimp only
    rw [h.same.inbox]
    cases first.inbox.receive? with
    | none =>
      dsimp only
      split
      · exact .some h.shutDown
      · exact .none
    | some received =>
      obtain ⟨command, inbox⟩ := received
      have htaken : Veiled id stream symbol { first with inbox, desk := .idle }
          { second with inbox, desk := .idle } := by
        obtain ⟨unread, prices, meters, hfits, rfl⟩ := h
        exact ⟨unread, prices, meters, hfits, rfl⟩
      exact .some (htaken.handle command)
  | awaitEnd placing other =>
    -- The desk looks only at the phase of a watcher, and sifted prices leave that as it is.
    obtain ⟨prices, hwatcher⟩ := h.exists_watcher other
    dsimp only
    rw [hwatcher]
    cases first.watchers[other]? with
    | none => exact .none
    | some watcher =>
      show Option.Rel _ (if watcher.phase.isEnded then _ else _)
        (if (watcher.phase.withPrices prices).isEnded then _ else _)
      rw [Watcher.Phase.isEnded_withPrices]
      split
      · exact .some (h.startWatcher placing)
      · exact .none
  | awaitQuote placing other deadline =>
    obtain ⟨prices, hwatcher⟩ := h.exists_watcher other
    dsimp only
    rw [hwatcher]
    cases first.watchers[other]? with
    | none => exact .none
    | some watcher =>
      simp only [Option.map_some, Option.bind_eq_bind, Option.bind_some, h.quoteOutcome?_eq]
      cases first.quoteOutcome? watcher deadline with
      | none => exact .none
      | some outcome =>
        cases outcome with
        | ok found => exact .some (h.feedReady placing)
        | error cause => exact .some (h.reject _ _)
  | awaitPlace placing last => exact h.withPlace (h.place placing last)
  | awaitMove command => exact h.withPlace (h.move command)
  | answering event =>
    refine h.withPlace ?_
    obtain ⟨unread, prices, meters, hfits, rfl⟩ := h
    exact ⟨unread, prices, meters, hfits, rfl⟩
  | ended => exact .none

end Veiled

end Session

end TriggerDesk
