import TriggerDesk.Proofs.Feed.Quotes
import TriggerDesk.Proofs.Session.Ownership

/-!
# What a session is to one listing

`Session.Share` relates a session to one in which nothing was ever done but for one listing: the
commands, events and watchers of the listing, its lane, and what the index has under its ids are the
same, while watchers have other names, since those of other listings are missing
(`Session.rank`). Desk and watchers see nothing else. So a turn for the listing that one session
takes can be taken in the other, and the relation holds again afterwards (`Share.deskStep`,
`Share.watcherStep`).
-/

namespace TriggerDesk

open Market TriggerDesk.Order Feed

/-- The desk where watchers have other names. -/
def Desk.renamed (name : WatcherId → WatcherId) : Desk → Desk
  | .awaitEnd placing id => .awaitEnd placing (name id)
  | .awaitQuote placing id deadline => .awaitQuote placing (name id) deadline
  | .awaitPlace placing last => .awaitPlace placing last
  | .awaitMove command => .awaitMove command
  | .answering event => .answering event
  | .idle => .idle
  | .ended => .ended

namespace Session

variable {owner : String → Listing} {listing : Listing} {session next whole part : Session}
  {id : WatcherId} {watcher : Watcher}

/-! ## Watchers of one listing -/

/-- The listings of the watchers. -/
def listings (session : Session) : List Listing := session.watchers.map (·.listing)

/-- How many watchers of a listing were started before a watcher. -/
def rank (listing : Listing) (session : Session) (id : WatcherId) : Nat :=
  (session.listings.take id).count listing

/-- The listing of a watcher stands among the listings under its id. -/
theorem listings_of_watcher (hwatcher : session.watchers[id]? = some watcher) :
    session.listings[id]? = some watcher.listing := by
  rw [listings, List.getElem?_map, hwatcher, Option.map_some]

/-- A listing stands there for a watcher of it. -/
theorem exists_watcher (h : session.listings[id]? = some listing) :
    ∃ watcher : Watcher, session.watchers[id]? = some watcher ∧ watcher.listing = listing :=
  Option.map_eq_some_iff.1 (List.getElem?_map ▸ h)

/-- A watcher that takes a turn leaves the listings as they are. -/
theorem Replaces.listings_eq {after : Watcher} (h : session.Replaces next id watcher after) :
    next.listings = session.listings := by
  refine List.ext_getElem? fun other => ?_
  rw [listings, listings, List.getElem?_map, List.getElem?_map]
  by_cases heq : other = id
  · rw [heq, h.becomes, h.was, Option.map_some, Option.map_some, h.listing]
  · rw [h.others other heq]

/-- Watchers keep their listings, and those that are started come behind. -/
theorem listings_of_step {actor : Actor} (hstep : step actor session = some next)
    (hrunning : next.desk ≠ .ended) : ∃ more, next.listings = session.listings ++ more := by
  cases actor with
  | desk =>
    obtain ⟨kept, more, hkeeps, hwatchers, _⟩ := (deskTurn_of_deskStep hstep).keeps hrunning
    refine ⟨more.map (·.listing), ?_⟩
    rw [listings, hwatchers, List.map_append]
    cases hkeeps with
    | all => rfl
    | butOne _ id stopped _ hstopped _ _ =>
      obtain ⟨hid, hlisting⟩ := List.getElem?_eq_some_iff.1 (listings_of_watcher hstopped)
      rw [List.map_set, Watcher.listing_stop, ← hlisting, ← listings, List.set_getElem_self]
  | watcher id =>
    obtain ⟨_, _, hreplaces, _⟩ := watcherTurn_of_watcherStep hstep
    exact ⟨[], by rw [hreplaces.listings_eq, List.append_nil]⟩

/-- Watchers of the same listings have the same ranks. -/
theorem rank_congr (h : next.listings = session.listings) :
    next.rank listing = session.rank listing :=
  funext fun id => by rw [rank, rank, h]

/-- Watchers that are started later do not matter. -/
theorem rank_append {more : List Listing} (h : next.listings = session.listings ++ more)
    (hid : id ≤ session.watchers.length) : next.rank listing id = session.rank listing id := by
  have hlength : id ≤ session.listings.length := by rwa [listings, List.length_map]
  rw [rank, rank, h, List.take_append_of_le_length hlength]

/-- The next watcher has a rank one higher if this one is of the listing, and the same if not. -/
theorem rank_succ (listing : Listing) (hwatcher : session.watchers[id]? = some watcher) :
    session.rank listing (id + 1) =
      session.rank listing id + if watcher.listing = listing then 1 else 0 := by
  rw [rank, rank, List.take_add_one, listings_of_watcher hwatcher, List.count_append,
    Option.toList_some, List.count_singleton]
  simp only [beq_iff_eq]

/-- The rank behind all watchers is the number of those of the listing. -/
theorem rank_length (listing : Listing) (session : Session) :
    session.rank listing session.watchers.length = session.listings.count listing := by
  rw [rank, listings, List.take_of_length_le (Nat.le_of_eq (List.length_map _))]

/-- A later watcher has no lower rank. -/
theorem rank_le {other : WatcherId} (h : id ≤ other) :
    session.rank listing id ≤ session.rank listing other :=
  (List.take_sublist_take_left h).count_le listing

/-- A watcher of the listing comes before those started later. -/
theorem rank_lt {other : WatcherId} (hwatcher : session.watchers[id]? = some watcher)
    (hlisting : watcher.listing = listing) (h : id < other) :
    session.rank listing id < session.rank listing other := by
  have hsucc := rank_succ listing hwatcher
  rw [if_pos hlisting] at hsucc
  have hle : session.rank listing (id + 1) ≤ session.rank listing other :=
    rank_le (Nat.succ_le_of_lt h)
  rw [hsucc] at hle
  exact Nat.lt_of_succ_le hle

/-- No two watchers of the listing have the same rank. -/
theorem rank_inj {other : WatcherId} {found : Watcher}
    (hwatcher : session.watchers[id]? = some watcher) (hlisting : watcher.listing = listing)
    (hfound : session.watchers[other]? = some found) (hother : found.listing = listing)
    (h : session.rank listing id = session.rank listing other) : id = other := by
  rcases Nat.lt_trichotomy id other with hlt | heq | hgt
  · exact absurd h (Nat.ne_of_lt (rank_lt hwatcher hlisting hlt))
  · exact heq
  · exact absurd h.symm (Nat.ne_of_lt (rank_lt hfound hother hgt))

/-! ## The share of a listing -/

/-- Nothing differs but the desk, watchers, and what nobody looks at. -/
structure Aloof (session next : Session) : Prop where
  clock : next.clock = session.clock
  limit : next.limit = session.limit
  inbox : next.inbox = session.inbox
  receiving : next.outbox.receiving = session.outbox.receiving
  events : next.outbox.events = session.outbox.events
  book : next.book = session.book
  spawned : next.spawned = session.spawned

/-- Watchers are as before, too. -/
structure SameView (session next : Session) : Prop extends Aloof session next where
  watchers : next.watchers = session.watchers

/-- A watcher changes, and nobody else. -/
structure Changes (session next : Session) (id : WatcherId) (change : Watcher → Watcher) : Prop
    extends Aloof session next where
  watchers : ∀ other, next.watchers[other]? =
    if id = other then session.watchers[other]?.map change else session.watchers[other]?

/-- What a listing has of the whole session is all that the other session has. -/
structure Share (owner : String → Listing) (listing : Listing) (whole part : Session) : Prop where
  clock : part.clock = whole.clock
  limit : part.limit = whole.limit
  inbox : part.inbox =
    { whole.inbox with items := whole.inbox.items.filter (owner ·.oid = listing) }
  receiving : part.outbox.receiving = whole.outbox.receiving
  events : part.outbox.events = whole.outbox.events.filter (owner ·.oid = listing)
  book : Book.AlikeAt owner listing whole.book part.book
  watchers : ∀ (id : WatcherId) (watcher : Watcher), whole.watchers[id]? = some watcher →
    watcher.listing = listing → part.watchers[whole.rank listing id]? = some watcher
  size : part.watchers.length = whole.rank listing whole.watchers.length
  spawned : part.spawned.get? listing = (whole.spawned.get? listing).map (whole.rank listing)
  /-- Ids belong to listings, in the whole session. -/
  owned : whole.book.Owned owner
  followed : ∀ id, whole.spawned.get? listing = some id →
    ∃ watcher : Watcher, whole.watchers[id]? = some watcher ∧ watcher.listing = listing

/-- The desk works for the listing, too, or is idle. -/
structure Twins (owner : String → Listing) (listing : Listing) (whole part : Session) : Prop
    extends Share owner listing whole part where
  desk : part.desk = whole.desk.renamed (whole.rank listing)
  running : whole.desk ≠ .ended
  own : ∀ oid, whole.desk.oid? = some oid → owner oid = listing

section Changes

variable {change : Watcher → Watcher}

/-- A change that leaves the listing of a watcher leaves all listings. -/
theorem Changes.listings_eq (h : session.Changes next id change)
    (hkeep : ∀ watcher, (change watcher).listing = watcher.listing) :
    next.listings = session.listings := by
  refine List.ext_getElem? fun other => ?_
  rw [listings, listings, List.getElem?_map, List.getElem?_map, h.watchers]
  split
  · cases session.watchers[other]? with
    | none => rfl
    | some watcher => exact congrArg some (hkeep watcher)
  · rfl

/-- A watcher that is modified changes, and nobody else does. -/
theorem changes_modifyWatcher (session : Session) (id : WatcherId)
    (change : Watcher → Watcher) : session.Changes (session.modifyWatcher id change) id change where
  clock := rfl
  limit := rfl
  inbox := rfl
  receiving := rfl
  events := rfl
  book := rfl
  spawned := rfl
  watchers other := by
    show (session.watchers.modify id change)[other]? = _
    rw [List.getElem?_modify]
    split
    · rfl
    · exact Option.map_id'

/-- A watcher that is ended is stopped, and nobody else is. -/
theorem changes_endWatcher (session : Session) (id : WatcherId) (ending : Watcher.Ending) :
    session.Changes (session.endWatcher id ending) id (Watcher.stop ending) :=
  have hbystanders := bystanders_endWatcher session id ending
  have htimely := (Timely.refl session).endWatcher id ending
  { clock := htimely.clock
    limit := htimely.limit
    inbox := hbystanders.inbox
    receiving := hbystanders.receiving
    events := hbystanders.events
    book := hbystanders.book
    spawned := hbystanders.spawned
    watchers := fun other => getElem?_watchers_endWatcher session id other ending }

/-- Counting leaves the view as it is. -/
theorem sameView_count (session : Session) (meter : Metrics.Meter) (n : Int) :
    session.SameView (session.count meter n) :=
  ⟨⟨rfl, rfl, rfl, rfl, rfl, rfl, rfl⟩, rfl⟩

/-- Writing something down leaves the view as it is. -/
theorem sameView_write (session : Session) (entry : Journal.Entry) :
    session.SameView (session.write entry) :=
  ⟨⟨rfl, rfl, rfl, rfl, rfl, rfl, rfl⟩, rfl⟩

/-- Another source leaves the view as it is. -/
theorem sameView_source (session : Session) (source : Source) :
    session.SameView { session with source } :=
  ⟨⟨rfl, rfl, rfl, rfl, rfl, rfl, rfl⟩, rfl⟩

/-- Announcing an event leaves the view as it is. -/
theorem sameView_announce (session : Session) (party : Party) (event : Event) :
    session.SameView (session.announce party event) :=
  ⟨⟨rfl, rfl, rfl, Outbox.receiving_request _ _, Outbox.events_request _ _, rfl, rfl⟩, rfl⟩

/-- An answer to put leaves the view as it is. -/
theorem sameView_answer (session : Session) (event : Event) :
    session.SameView (session.answer event) :=
  ⟨⟨rfl, rfl, rfl, Outbox.receiving_request _ _, Outbox.events_request _ _, rfl, rfl⟩, rfl⟩

/-- A desk that asks for a place leaves the view as it is. -/
theorem sameView_awaitPlace (session : Session) (desk : Desk) :
    session.SameView { session with desk, outbox := session.outbox.request .desk } :=
  ⟨⟨rfl, rfl, rfl, Outbox.receiving_request _ _, Outbox.events_request _ _, rfl, rfl⟩, rfl⟩

/-- A desk that returns its place leaves the view as it is. -/
theorem sameView_returnPlace (session : Session) : session.SameView session.returnPlace :=
  ⟨⟨rfl, rfl, rfl, Outbox.receiving_withdraw _ _, Outbox.events_withdraw _ _, rfl, rfl⟩, rfl⟩

/-- What the desk works on does not belong to the view. -/
theorem sameView_desk (session : Session) (desk : Desk) :
    session.SameView { session with desk } :=
  ⟨⟨rfl, rfl, rfl, rfl, rfl, rfl, rfl⟩, rfl⟩

end Changes

namespace Share

/-! ## What happens to both sessions -/

/-- The share stays the same where each session differs only in its desk, and in watchers that still
correspond. -/
theorem of_aloof (h : Share owner listing whole part) {next after : Session}
    (hnext : whole.Aloof next) (hafter : part.Aloof after)
    (hlistings : next.listings = whole.listings)
    (hwatchers : ∀ (id : WatcherId) (watcher : Watcher), next.watchers[id]? = some watcher →
      watcher.listing = listing → after.watchers[whole.rank listing id]? = some watcher)
    (hsize : after.watchers.length = part.watchers.length) :
    Share owner listing next after where
  clock := hafter.clock.trans (h.clock.trans hnext.clock.symm)
  limit := hafter.limit.trans (h.limit.trans hnext.limit.symm)
  inbox := by rw [hafter.inbox, h.inbox, hnext.inbox]
  receiving := hafter.receiving.trans (h.receiving.trans hnext.receiving.symm)
  events := by rw [hafter.events, h.events, hnext.events]
  book := hafter.book.symm ▸ hnext.book.symm ▸ h.book
  watchers id watcher hwatcher hlisting := by
    rw [rank_congr hlistings]
    exact hwatchers id watcher hwatcher hlisting
  size := by
    have hlength : next.watchers.length = whole.watchers.length := by
      simpa [listings] using congrArg List.length hlistings
    rw [hsize, h.size, rank_congr hlistings, hlength]
  spawned := by rw [hafter.spawned, h.spawned, hnext.spawned, rank_congr hlistings]
  owned := hnext.book.symm ▸ h.owned
  followed id hid := by
    rw [hnext.spawned] at hid
    obtain ⟨watcher, hwatcher, hlisting⟩ := h.followed id hid
    refine exists_watcher ?_
    rw [hlistings, listings_of_watcher hwatcher, hlisting]

/-- The share stays the same where the view does, in each session. -/
theorem of_same (h : Share owner listing whole part) {next after : Session}
    (hnext : whole.SameView next) (hafter : part.SameView after) :
    Share owner listing next after := by
  refine h.of_aloof hnext.toAloof hafter.toAloof ?_ (fun id watcher hwatcher hlisting => ?_) ?_
  · rw [listings, listings, hnext.watchers]
  · rw [hafter.watchers]
    exact h.watchers id watcher (hnext.watchers ▸ hwatcher) hlisting
  · rw [hafter.watchers]

/-- A watcher of the listing changes in the same way in both. -/
theorem changes (h : Share owner listing whole part) {next after : Session}
    {change : Watcher → Watcher} (hnext : whole.Changes next id change)
    (hafter : part.Changes after (whole.rank listing id) change)
    (hkeep : ∀ watcher, (change watcher).listing = watcher.listing)
    (hwatcher : whole.watchers[id]? = some watcher) (hlisting : watcher.listing = listing) :
    Share owner listing next after := by
  refine h.of_aloof hnext.toAloof hafter.toAloof (hnext.listings_eq hkeep)
    (fun other found hfound hother => ?_) ?_
  · rw [hnext.watchers] at hfound
    rw [hafter.watchers]
    split at hfound
    · next heq =>
      subst heq
      rw [hwatcher, Option.map_some] at hfound
      rw [if_pos rfl, h.watchers id watcher hwatcher hlisting, ← hfound, Option.map_some]
    · next hne =>
      rw [if_neg fun heq => hne (rank_inj hwatcher hlisting hfound hother heq)]
      exact h.watchers other found hfound hother
  · have hlength := congrArg List.length (hafter.listings_eq hkeep)
    simpa [listings] using hlength

/-- The share stays the same when something is counted in both. -/
theorem count (h : Share owner listing whole part) (meter : Metrics.Meter) (n : Int) :
    Share owner listing (whole.count meter n) (part.count meter n) :=
  h.of_same (sameView_count _ _ _) (sameView_count _ _ _)

/-- The share stays the same when something is written down in both. -/
theorem write (h : Share owner listing whole part) (entry : Journal.Entry) :
    Share owner listing (whole.write entry) (part.write entry) :=
  h.of_same (sameView_write _ _) (sameView_write _ _)

/-- Books that are still alike to the listing take the place of the books. -/
theorem withBook (h : Share owner listing whole part) {book other : Book}
    (halike : Book.AlikeAt owner listing book other) (howned : book.Owned owner) :
    Share owner listing { whole with book } { part with book := other } where
  clock := h.clock
  limit := h.limit
  inbox := h.inbox
  receiving := h.receiving
  events := h.events
  book := halike
  watchers := h.watchers
  size := h.size
  spawned := h.spawned
  owned := howned
  followed := h.followed

/-- An event of the listing is put. -/
theorem put (h : Share owner listing whole part) {event : Event}
    (howner : owner event.oid = listing) (party other : Party) :
    Share owner listing (whole.put party event) (part.put other event) where
  clock := h.clock
  limit := h.limit
  inbox := h.inbox
  receiving := h.receiving
  events := by
    show part.outbox.events ++ [event] = (whole.outbox.events ++ [event]).filter _
    rw [List.filter_append, h.events, List.filter_cons_of_pos (by simpa using howner),
      List.filter_nil]
  book := h.book
  watchers := h.watchers
  size := h.size
  spawned := h.spawned
  owned := h.owned
  followed := h.followed

/-- The share stays the same when an event is observed in both. -/
theorem observe (h : Share owner listing whole part) (event : Event) :
    Share owner listing (whole.observe event) (part.observe event) :=
  (h.count (.events event.kind.name) 1).write (.event event)

/-- An event of the listing is counted, written down and put. -/
theorem acknowledge (h : Share owner listing whole part) (event : Event)
    (howner : owner event.oid = listing) :
    Share owner listing ((whole.observe event).put .desk event)
      ((part.observe event).put .desk event) :=
  (h.observe event).put howner .desk .desk

/-- The share stays the same when a watcher of the listing ends in both. -/
theorem endWatcher (h : Share owner listing whole part)
    (hwatcher : whole.watchers[id]? = some watcher) (hlisting : watcher.listing = listing)
    (ending : Watcher.Ending) :
    Share owner listing (whole.endWatcher id ending)
      (part.endWatcher (whole.rank listing id) ending) :=
  h.changes (changes_endWatcher _ _ _) (changes_endWatcher _ _ _) (Watcher.listing_stop ending)
    hwatcher hlisting

/-- The desk of both does the same, under the names that the watchers have. -/
theorem twins (h : Share owner listing whole part)
    (hdesk : part.desk = whole.desk.renamed (whole.rank listing)) (hrunning : whole.desk ≠ .ended)
    (hown : ∀ oid, whole.desk.oid? = some oid → owner oid = listing) :
    Twins owner listing whole part :=
  ⟨h, hdesk, hrunning, hown⟩

end Share

end Session

end TriggerDesk
