import TriggerDesk.Proofs.Session.Abreast
import TriggerDesk.Proofs.Session.OwnTurns
import TriggerDesk.Proofs.Session.Strangers

/-!
# A session beside the share of a listing

While a session goes on, another one has the share of a listing in it and a line of its own before
the outbox (`Session.Paired`). Whatever is done for the listing in the first can be done in the
second, and leaves the two as they were to each other; whatever is done for other listings leaves
them so, too, while the second does nothing. Once the first is over, nothing comes but the client,
who takes what events there are (`Session.Over`).
-/

namespace TriggerDesk

open Market TriggerDesk.Order Feed

namespace Session

variable {owner : String → Listing} {listing : Listing} {session next whole part after : Session}
  {id : WatcherId} {watcher : Watcher}

/-! ## The session goes on -/

/-- The desk of the share: it works for the listing when the other does. -/
def deskFor (owner : String → Listing) (listing : Listing) (session : Session) : Desk :=
  if session.desk.oid?.all (owner · = listing) then session.desk.renamed (session.rank listing)
  else .idle

/-- The share of a listing in a session that goes on. -/
structure Paired (owner : String → Listing) (listing : Listing) (whole part : Session) : Prop
    extends Share owner listing whole part where
  ids : whole.Owned owner
  running : whole.desk ≠ .ended
  desk : part.desk = whole.deskFor owner listing
  abreast : whole.outbox.receiving = true → Abreast owner listing whole part

/-- The session is over. No command comes in and nobody takes a turn any more; but the client may
still take events. -/
structure Over (owner : String → Listing) (listing : Listing) (whole part : Session) : Prop where
  desk : whole.desk = .ended
  watchers : ∀ watcher ∈ whole.watchers, watcher.phase.isEnded = true
  closed : whole.inbox.receiving = false
  receiving : part.outbox.receiving = whole.outbox.receiving
  events : part.outbox.events = whole.outbox.events.filter (owner ·.oid = listing)
  sieves : whole.outbox.receiving = true →
    Outbox.Sieves (fun event => owner event.oid = listing) whole.outbox part.outbox
  lane : part.book.lane listing = whole.book.lane listing

/-- The session goes on, or is over. -/
def Related (owner : String → Listing) (listing : Listing) (whole part : Session) : Prop :=
  Paired owner listing whole part ∨ Over owner listing whole part

/-- A desk needs a place whatever the names of watchers are. -/
theorem needsPlace_renamed (name : WatcherId → WatcherId) (desk : Desk) :
    (desk.renamed name).needsPlace = desk.needsPlace := by
  cases desk <;> rfl

/-- Other names of watchers do not end a desk. -/
theorem renamed_ne_ended {name : WatcherId → WatcherId} {desk : Desk} (h : desk ≠ .ended) :
    desk.renamed name ≠ .ended := by
  cases desk with
  | ended => exact absurd rfl h
  | idle | awaitEnd | awaitQuote | awaitPlace | awaitMove | answering => exact nofun

namespace Paired

variable (h : Paired owner listing whole part)
include h

/-- The desk of the share has not ended. -/
theorem desk_ne_ended : part.desk ≠ .ended := by
  rw [h.desk, deskFor]
  split
  · exact renamed_ne_ended h.running
  · exact nofun

/-- When the desk of the share needs a place, so does the other. -/
theorem needsPlace_of_part (hneeds : part.desk.needsPlace = true) :
    whole.desk.needsPlace = true := by
  rw [h.desk, deskFor] at hneeds
  split at hneeds
  · rwa [needsPlace_renamed] at hneeds
  · cases hneeds

/-- The desk of the share stands where that of the whole session does when the next turn of that is
for no other listing. -/
theorem desk_of_own (hown : ∀ oid, whole.subject? = some oid → owner oid = listing) :
    part.desk = whole.desk.renamed (whole.rank listing) := by
  rw [h.desk, deskFor]
  refine if_pos ((Option.all_eq_true _ _).2 fun oid hoid => ?_)
  simpa using hown oid (subject?_of_desk hoid)

/-- The desk of the share is idle when the next turn of that of the whole session is for another
listing. -/
theorem desk_of_stranger {oid : String} (hsubject : whole.subject? = some oid)
    (hother : owner oid ≠ listing) : part.desk = .idle := by
  rw [h.desk, deskFor]
  split
  · next hown =>
    cases hoid : whole.desk.oid? with
    | none =>
      cases hdesk : whole.desk with
      | idle => rfl
      | ended => exact absurd hdesk h.running
      | awaitEnd | awaitQuote | awaitPlace | awaitMove | answering =>
        rw [hdesk] at hoid
        cases hoid
    | some other =>
      rw [subject?_of_desk hoid] at hsubject
      cases hsubject
      rw [hoid] at hown
      exact absurd (by simpa using hown) hother
  · rfl

end Paired

/-! ### Turns of the desk -/

/-- What a turn of the desk for the listing leaves is paired again. -/
theorem Twins.paired (h : Twins owner listing next after) (howned : next.Owned owner)
    (habreast : next.outbox.receiving = true → Abreast owner listing next after) :
    Paired owner listing next after where
  toShare := h.toShare
  ids := howned
  running := h.running
  desk := by
    rw [h.desk, deskFor, if_pos]
    refine (Option.all_eq_true _ _).2 fun oid hoid => ?_
    simpa using h.own oid hoid
  abreast := habreast

/-- A session that ends leaves the share what it has, whether that ends, too, or not. -/
theorem Paired.over_shutDown (h : Paired owner listing whole part)
    (hpart : after = part.shutDown ∨ after = part) :
    Over owner listing whole.shutDown after := by
  obtain ⟨hevents, htaken⟩ := events_shutDown whole
  have hreceiving : ∀ session : Session,
      session.shutDown.outbox.receiving = session.outbox.receiving := fun session =>
    (Outbox.receiving_withdraw _ _).trans (receiving_stopWatchers _ _)
  have hsame : after.outbox.events = part.outbox.events ∧
      after.outbox.taken = part.outbox.taken ∧
      after.outbox.receiving = part.outbox.receiving ∧ after.book = part.book := by
    rcases hpart with rfl | rfl
    · obtain ⟨hpartEvents, hpartTaken⟩ := events_shutDown part
      exact ⟨hpartEvents, hpartTaken, hreceiving part, (closes_shutDown part).book⟩
    · exact ⟨rfl, rfl, rfl, rfl⟩
  obtain ⟨hpartEvents, hpartTaken, hpartReceiving, hpartBook⟩ := hsame
  have hkept : after.outbox.events =
      whole.shutDown.outbox.events.filter (owner ·.oid = listing) := by
    rw [hpartEvents, h.events, hevents]
  exact {
    desk := rfl
    watchers := by
      intro watcher hwatcher
      rw [(closes_shutDown whole).watchers] at hwatcher
      obtain ⟨old, _, rfl⟩ := List.mem_map.1 hwatcher
      exact Watcher.isEnded_stop _ _
    closed := rfl
    receiving := by rw [hpartReceiving, h.receiving, hreceiving]
    events := hkept
    sieves := by
      intro hthere
      rw [hreceiving] at hthere
      refine ⟨hkept, ?_⟩
      rw [hpartTaken, (h.abreast hthere).excerpts.taken, hevents, htaken]
    lane := by rw [(closes_shutDown whole).book, hpartBook, h.book.lane] }

/-- A turn of the desk that the share takes, too. -/
theorem Paired.deskStep_of_own (h : Paired owner listing whole part)
    (hown : ∀ oid, whole.subject? = some oid → owner oid = listing)
    (hstep : whole.deskStep = some next) :
    ∃ after, part.deskStep = some after ∧ Related owner listing next after := by
  have hdesk := h.desk_of_own hown
  cases hsubject : whole.subject? with
  | none =>
    -- The client sends nothing any more, and nobody is left to see to.
    have hidle : whole.desk = .idle := by
      cases hbusy : whole.desk with
      | idle => rfl
      | ended => exact absurd hbusy h.running
      | awaitEnd | awaitQuote | awaitPlace | awaitMove | answering =>
        rw [subject?_of_desk (by rw [hbusy]; rfl)] at hsubject
        cases hsubject
    have hitems : whole.inbox.items = [] := by
      rw [subject?, hidle] at hsubject
      exact List.head?_eq_none_iff.1 (Option.map_eq_none_iff.1 hsubject)
    have hpartItems : part.inbox.items = [] := by rw [h.inbox, hitems, List.filter_nil]
    have hpartEnded : part.inbox.isEnded = whole.inbox.isEnded := by
      rw [Channel.isEnded, Channel.isEnded, hpartItems, hitems, h.inbox]
    rw [deskStep, hidle, Channel.receive?, hitems] at hstep
    rw [hidle] at hdesk
    rw [deskStep, hdesk, Desk.renamed, Channel.receive?, hpartItems]
    dsimp only at hstep ⊢
    rw [hpartEnded]
    split at hstep
    · next hended =>
      cases hstep
      exact ⟨_, if_pos hended, .inr (h.over_shutDown (.inl rfl))⟩
    · cases hstep
  | some oid =>
    have hgranted : whole.outbox.standing .desk = .granted →
        part.outbox.standing .desk = .granted := fun hplace => by
      refine (h.abreast (Outbox.receiving_of_granted hplace)).granted rfl ?_ hplace
      rw [needsPlace, needsPlace, hdesk, needsPlace_renamed]
    obtain ⟨after, hafter, hturn | ⟨rfl, rfl⟩⟩ :=
      h.toShare.deskStep h.ids hdesk hsubject (hown oid hsubject) hgranted hstep
    · have hreceiving := (deskTurn_of_deskStep hstep).receiving
      refine ⟨after, hafter, .inl (hturn.paired
        (h.ids.of_deskTurn (deskTurn_of_deskStep hstep) hturn.running) fun hthere => ?_)⟩
      have hafterOpen : after.IsOpen := ⟨hturn.receiving.trans hthere, by
        rw [hturn.desk]
        exact renamed_ne_ended hturn.running⟩
      have htook : step .desk whole = some next := hstep
      have hpartTook : step .desk part = some after := hafter
      refine (h.abreast (hreceiving.symm.trans hthere)).of_own htook ⟨hthere, hturn.running⟩
        hpartTook hafterOpen rfl hturn.toShare fun hneeds => ?_
      rwa [hturn.desk, needsPlace_renamed] at hneeds
    · exact ⟨_, hafter, .inr (h.over_shutDown (.inl rfl))⟩

/-- A turn of the desk that the share knows nothing of. -/
theorem Paired.deskStep_of_stranger (h : Paired owner listing whole part) {oid : String}
    (hsubject : whole.subject? = some oid) (hother : owner oid ≠ listing)
    (hstep : whole.deskStep = some next) : Related owner listing next part := by
  have hturn := deskTurn_of_deskStep hstep
  have hidle := h.desk_of_stranger hsubject hother
  by_cases hended : next.desk = .ended
  · refine .inr ?_
    rcases onward_of_deskStep hstep with ⟨_, hrunning, _⟩ | honward | ⟨rfl, _⟩
    · exact absurd hended hrunning
    · exact absurd hended honward.running
    · exact h.over_shutDown (.inr rfl)
  · have howned := h.ids.of_deskTurn hturn hended
    have hshare := h.toShare.of_strangers
      (strangers_of_deskStep h.ids hstep hended hsubject hother) howned.book
    have hneeds : part.desk.needsPlace = false := by rw [hidle]; rfl
    refine .inl {
      toShare := hshare
      ids := howned
      running := hended
      desk := ?_
      abreast := fun hthere => ?_ }
    · rw [hidle, deskFor]
      rcases hturn.subject?_eq h.ids hended with hnext | hnext
      · rw [hnext]
        rfl
      · rw [hnext, hsubject, if_neg]
        simpa using hother
    · refine (h.abreast (hturn.receiving.symm.trans hthere)).of_stranger
        (show step .desk whole = some next from hstep) ⟨hthere, hended⟩ ?_ hshare ?_
      · rintro name hname
        cases hname
        exact hneeds
      · rw [hneeds]
        nofun

/-! ### Turns of the watchers -/

/-- What a turn of a watcher leaves is paired again. -/
theorem Paired.of_watcher (h : Paired owner listing whole part) {changed : Watcher}
    (hreplaces : whole.Replaces next id watcher changed)
    (hshare : Share owner listing next after) (hids : next.Owned owner)
    (hpart : after.desk = part.desk)
    (habreast : next.outbox.receiving = true → Abreast owner listing next after) :
    Paired owner listing next after where
  toShare := hshare
  ids := hids
  running := hreplaces.desk ▸ h.running
  desk := by
    rw [hpart, h.desk, deskFor, deskFor, hreplaces.desk, rank_congr hreplaces.listings_eq]
  abreast := habreast

/-- A turn of a watcher that the share takes, too. -/
theorem Paired.watcherStep_of_own (h : Paired owner listing whole part)
    (hwatcher : whole.watchers[id]? = some watcher) (hlisting : watcher.listing = listing)
    (hsource : Source.AlikeFor listing.symbol whole.source part.source)
    (hstep : whole.watcherStep id = some next) :
    ∃ after, part.watcherStep (whole.rank listing id) = some after ∧
      Paired owner listing next after := by
  have hpartWatcher := h.watchers id watcher hwatcher hlisting
  have hneeds : part.needsPlace false (.watcher (whole.rank listing id)) =
      whole.needsPlace false (.watcher id) := by
    rw [needsPlace, needsPlace, held_watcher hwatcher, held_watcher hpartWatcher]
  have htwin := twin?_watcher hwatcher hlisting
  obtain ⟨after, hafter, hshare⟩ := h.toShare.watcherStep h.ids hwatcher hlisting hsource
    (fun hplace => (h.abreast (Outbox.receiving_of_granted hplace)).granted htwin hneeds hplace)
    hstep
  obtain ⟨_, _, hreplaces, _⟩ := watcherTurn_of_watcherStep hstep
  obtain ⟨_, _, hpartReplaces, _⟩ := watcherTurn_of_watcherStep hafter
  refine ⟨after, hafter, h.of_watcher hreplaces hshare (h.ids.of_watcherStep hstep)
    hpartReplaces.desk fun hthere => ?_⟩
  have htook : step (.watcher id) whole = some next := hstep
  have hpartTook : step (.watcher (whole.rank listing id)) part = some after := hafter
  refine (h.abreast (hreplaces.receiving.symm.trans hthere)).of_own htook
    ⟨hthere, hreplaces.desk ▸ h.running⟩ hpartTook
    ⟨hshare.receiving.trans hthere, hpartReplaces.desk ▸ h.desk_ne_ended⟩ htwin hshare ?_
  rw [hpartReplaces.desk, hreplaces.desk]
  exact h.needsPlace_of_part

/-- A turn of a watcher that the share knows nothing of. -/
theorem Paired.watcherStep_of_stranger (h : Paired owner listing whole part)
    (hwatcher : whole.watchers[id]? = some watcher) (hother : watcher.listing ≠ listing)
    (hstep : whole.watcherStep id = some next) : Paired owner listing next part := by
  have hids := h.ids.of_watcherStep hstep
  have hshare := h.toShare.of_strangers
    (strangers_of_watcherStep h.ids hwatcher hother hstep) hids.book
  obtain ⟨_, _, hreplaces, _⟩ := watcherTurn_of_watcherStep hstep
  refine h.of_watcher hreplaces hshare hids rfl fun hthere => ?_
  refine (h.abreast (hreplaces.receiving.symm.trans hthere)).of_stranger
    (show step (.watcher id) whole = some next from hstep)
    ⟨hthere, hreplaces.desk ▸ h.running⟩ (fun name hname => ?_) hshare ?_
  · obtain ⟨hfollowed, _⟩ := Option.ite_none_right_eq_some.1 hname
    rw [listings_of_watcher hwatcher] at hfollowed
    exact absurd (Option.some.inj hfollowed) hother
  · rw [hreplaces.desk]
    exact h.needsPlace_of_part

/-! ### What comes from outside -/

/-- Nobody takes a turn, and both sessions still agree about the rest. -/
theorem Share.of_undisturbed (h : Share owner listing whole part)
    (hwhole : whole.Undisturbed next) (hpart : part.Undisturbed after)
    (hclock : after.clock = next.clock) (hlimit : after.limit = next.limit)
    (hinbox : after.inbox =
      { next.inbox with items := next.inbox.items.filter (owner ·.oid = listing) })
    (hreceiving : after.outbox.receiving = next.outbox.receiving) :
    Share owner listing next after where
  clock := hclock
  limit := hlimit
  inbox := hinbox
  receiving := hreceiving
  events := by rw [hpart.events, h.events, hwhole.events]
  book := by
    rw [hwhole.book, hpart.book]
    exact h.book
  watchers := by
    intro id watcher hwatcher hlisting
    rw [hpart.watchers, rank_congr (congrArg (List.map _) hwhole.watchers)]
    exact h.watchers id watcher (hwhole.watchers ▸ hwatcher) hlisting
  size := by
    rw [hpart.watchers, h.size, rank_congr (congrArg (List.map _) hwhole.watchers), hwhole.watchers]
  spawned := by
    rw [hpart.spawned, h.spawned, hwhole.spawned,
      rank_congr (congrArg (List.map _) hwhole.watchers)]
  owned := hwhole.book ▸ h.owned
  followed := by
    rw [hwhole.spawned, hwhole.watchers]
    exact h.followed

/-- What comes from outside keeps a share paired if it keeps its parts in step. -/
theorem Paired.of_undisturbed (h : Paired owner listing whole part)
    (hwhole : whole.Undisturbed next) (hpart : part.Undisturbed after)
    (hshare : Share owner listing next after)
    (hinbox : ∀ command ∈ next.inbox.items,
      command ∈ whole.inbox.items ∨ command.IsOwned owner)
    (habreast : next.outbox.receiving = true → Abreast owner listing next after) :
    Paired owner listing next after where
  toShare := hshare
  ids := h.ids.of_undisturbed hwhole hinbox
  running := hwhole.desk ▸ h.running
  desk := by
    rw [hpart.desk, h.desk, deskFor, deskFor, hwhole.desk,
      rank_congr (congrArg (List.map _) hwhole.watchers)]
  abreast := habreast

/-- Both lines stay as they are. -/
theorem Abreast.of_undisturbed (h : Abreast owner listing whole part)
    (hwhole : whole.Undisturbed next) (hpart : part.Undisturbed after)
    (houtbox : next.outbox = whole.outbox) (hpartOutbox : after.outbox = part.outbox) :
    Abreast owner listing next after where
  wholeQueued := (h.wholeQueued.aligned hwhole houtbox).queued
  partQueued := (h.partQueued.aligned hpart hpartOutbox).queued
  excerpts := by
    rw [houtbox, hpartOutbox, twin?_congr (congrArg (List.map _) hwhole.watchers)]
    exact h.excerpts

/-- The feeds are read by nobody meanwhile. -/
theorem Paired.withSource (h : Paired owner listing whole part) (source other : Source) :
    Paired owner listing { whole with source } { part with source := other } := by
  have hwhole : whole.Undisturbed { whole with source } := ⟨rfl, rfl, rfl, rfl, rfl⟩
  have hpart : part.Undisturbed { part with source := other } := ⟨rfl, rfl, rfl, rfl, rfl⟩
  exact h.of_undisturbed hwhole hpart
    (h.toShare.of_undisturbed hwhole hpart h.clock h.limit h.inbox h.receiving)
    (fun _ hcommand => .inl hcommand)
    fun hthere => (h.abreast hthere).of_undisturbed hwhole hpart rfl rfl

/-- A command for which there is room in the whole session finds room in the share. -/
theorem Share.send (h : Share owner listing whole part) {command : Command}
    {inbox : Channel Command} (howner : owner command.oid = listing)
    (hsend : whole.inbox.send command = .ok inbox) :
    part.inbox.send command =
      .ok { inbox with items := inbox.items.filter (owner ·.oid = listing) } := by
  obtain ⟨hroom, hinbox⟩ := Channel.eq_of_send hsend
  have hreceiving : whole.inbox.receiving = true := by
    cases hthere : whole.inbox.receiving with
    | true => rfl
    | false =>
      rw [Channel.send, hthere] at hsend
      cases hsend
  have hpartRoom : part.inbox.hasRoom = true := by
    rw [Channel.hasRoom, h.inbox]
    exact decide_eq_true (Nat.lt_of_le_of_lt (List.length_filter_le _ _) hroom)
  have hitems : inbox.items.filter (owner ·.oid = listing) =
      whole.inbox.items.filter (owner ·.oid = listing) ++ [command] := by
    rw [hinbox, List.filter_append, List.filter_cons_of_pos (by simpa using howner),
      List.filter_nil]
  rw [Channel.send, hpartRoom, h.inbox, hreceiving, hitems, hinbox, hreceiving]
  rfl

/-- A command for which there is room comes in. -/
theorem Paired.send (h : Paired owner listing whole part) {command : Command}
    (hroom : (whole.inbox.send command).isOk = true) (howned : command.IsOwned owner) :
    (owner command.oid = listing → (part.inbox.send command).isOk = true ∧
      Paired owner listing (whole.meet (.send command)) (part.meet (.send command))) ∧
    (owner command.oid ≠ listing → Paired owner listing (whole.meet (.send command)) part) := by
  have hwhole := undisturbed_meet whole (.send command)
  cases hsend : whole.inbox.send command with
  | error obstacle =>
    rw [hsend] at hroom
    cases hroom
  | ok inbox =>
    rw [meet_send hsend] at hwhole ⊢
    have hitems : ∀ other ∈ inbox.items, other ∈ whole.inbox.items ∨ other.IsOwned owner := by
      intro other hother
      rw [Channel.items_of_send hsend] at hother
      rcases List.mem_append.1 hother with hold | hlast
      · exact .inl hold
      · rw [List.mem_singleton.1 hlast]
        exact .inr howned
    refine ⟨fun howner => ?_, fun hother => ?_⟩
    · have hpart := undisturbed_meet part (.send command)
      have hsent := h.toShare.send howner hsend
      rw [meet_send hsent] at hpart ⊢
      exact ⟨by rw [hsent]; rfl, h.of_undisturbed hwhole hpart
        (h.toShare.of_undisturbed hwhole hpart h.clock h.limit rfl h.receiving) hitems
        fun hthere => (h.abreast hthere).of_undisturbed hwhole hpart rfl rfl⟩
    · have hpart : part.Undisturbed part := ⟨rfl, rfl, rfl, rfl, rfl⟩
      refine h.of_undisturbed hwhole hpart
        (h.toShare.of_undisturbed hwhole hpart h.clock h.limit ?_ h.receiving) hitems
        fun hthere => (h.abreast hthere).of_undisturbed hwhole hpart rfl rfl
      rw [h.inbox, (Channel.eq_of_send hsend).2, List.filter_append,
        List.filter_cons_of_neg (by simpa using hother), List.filter_nil, List.append_nil]

/-- The client takes an event. -/
theorem Paired.take (h : Paired owner listing whole part) {event : Event} {outbox : Outbox}
    (htake : whole.outbox.take? = some (event, outbox)) :
    (owner event.oid = listing → part.outbox.take?.isSome = true ∧
      Paired owner listing (whole.meet .take) (part.meet .take)) ∧
    (owner event.oid ≠ listing → Paired owner listing (whole.meet .take) part) := by
  have hwhole := undisturbed_meet whole .take
  have habreast := h.abreast (Outbox.receiving_of_take htake)
  have hthere := (Outbox.take?_eq_some htake).2.2.2
  have hqueued := habreast.wholeQueued.of_take htake
  rw [meet_take htake] at hwhole ⊢
  refine ⟨fun howner => ?_, fun hother => ?_⟩
  · obtain ⟨shown, hpartTake, hexcerpts⟩ :=
      habreast.excerpts.of_take_kept htake (by simpa using howner) h.receiving
    have hpartThere := (Outbox.take?_eq_some hpartTake).2.2.2
    have hpart := undisturbed_meet part .take
    rw [meet_take hpartTake] at hpart ⊢
    exact ⟨by rw [hpartTake]; rfl, h.of_undisturbed hwhole hpart
      (h.toShare.of_undisturbed hwhole hpart h.clock h.limit h.inbox
        (hpartThere.trans (h.receiving.trans hthere.symm)))
      (fun _ hcommand => .inl hcommand)
      fun _ => ⟨hqueued, habreast.partQueued.of_take hpartTake, hexcerpts⟩⟩
  · have hpart : part.Undisturbed part := ⟨rfl, rfl, rfl, rfl, rfl⟩
    exact h.of_undisturbed hwhole hpart
      (h.toShare.of_undisturbed hwhole hpart h.clock h.limit h.inbox
        (h.receiving.trans hthere.symm))
      (fun _ hcommand => .inl hcommand)
      fun _ => ⟨hqueued, habreast.partQueued,
        habreast.excerpts.of_take_other htake (by simpa using hother)⟩

/-- What happens to everybody happens to both. -/
theorem Paired.meet (h : Paired owner listing whole part) {stimulus : Stimulus}
    (hstimulus : stimulus = .endCommands ∨ stimulus = .leave ∨ ∃ n, stimulus = .wait n) :
    Paired owner listing (whole.meet stimulus) (part.meet stimulus) := by
  have hwhole := undisturbed_meet whole stimulus
  have hpart := undisturbed_meet part stimulus
  rcases hstimulus with rfl | rfl | ⟨milliseconds, rfl⟩
  · refine h.of_undisturbed hwhole hpart
      (h.toShare.of_undisturbed hwhole hpart h.clock h.limit ?_ h.receiving)
      (fun _ hcommand => .inl hcommand)
      fun hthere => (h.abreast hthere).of_undisturbed hwhole hpart rfl rfl
    show part.inbox.closeSending = _
    rw [h.inbox]
    rfl
  · exact h.of_undisturbed hwhole hpart
      (h.toShare.of_undisturbed hwhole hpart h.clock h.limit h.inbox rfl)
      (fun _ hcommand => .inl hcommand) nofun
  · exact h.of_undisturbed hwhole hpart
      (h.toShare.of_undisturbed hwhole hpart (congrArg (· + milliseconds) h.clock) h.limit h.inbox
        h.receiving)
      (fun _ hcommand => .inl hcommand)
      fun hthere => (h.abreast hthere).of_undisturbed hwhole hpart rfl rfl

/-! ## The session is over -/

/-- Once a session is over, nobody takes a turn any more. -/
theorem Over.step_eq_none (h : Over owner listing whole part) (actor : Actor) :
    step actor whole = none := by
  cases actor with
  | desk => exact deskStep_of_ended h.desk
  | watcher id =>
    cases hwatcher : whole.watchers[id]? with
    | none =>
      show whole.watcherStep id = none
      rw [watcherStep, hwatcher]
      rfl
    | some watcher =>
      exact watcherStep_of_ended hwatcher (h.watchers watcher (List.mem_of_getElem? hwatcher))

/-- What comes from outside after the session is over keeps both related if it keeps what the client
has to take in step. -/
theorem Over.of_undisturbed (h : Over owner listing whole part)
    (hwhole : whole.Undisturbed next) (hpart : part.Undisturbed after)
    (hclosed : next.inbox.receiving = false)
    (hreceiving : after.outbox.receiving = next.outbox.receiving)
    (hsieves : next.outbox.receiving = true →
      Outbox.Sieves (fun event => owner event.oid = listing) next.outbox after.outbox) :
    Over owner listing next after where
  desk := hwhole.desk.trans h.desk
  watchers := hwhole.watchers ▸ h.watchers
  closed := hclosed
  receiving := hreceiving
  events := by rw [hpart.events, h.events, hwhole.events]
  sieves := hsieves
  lane := by rw [hpart.book, h.lane, hwhole.book]

/-- The client takes an event of a session that is over. -/
theorem Over.take (h : Over owner listing whole part) {event : Event} {outbox : Outbox}
    (htake : whole.outbox.take? = some (event, outbox)) :
    (owner event.oid = listing → part.outbox.take?.isSome = true ∧
      Over owner listing (whole.meet .take) (part.meet .take)) ∧
    (owner event.oid ≠ listing → Over owner listing (whole.meet .take) part) := by
  have hwhole := undisturbed_meet whole .take
  have hsieves := h.sieves (Outbox.receiving_of_take htake)
  have hthere := (Outbox.take?_eq_some htake).2.2.2
  rw [meet_take htake] at hwhole ⊢
  refine ⟨fun howner => ?_, fun hother => ?_⟩
  · obtain ⟨shown, hpartTake, hshown⟩ :=
      hsieves.of_take_kept htake (by simpa using howner) h.receiving
    have hpart := undisturbed_meet part .take
    have hpartThere := (Outbox.take?_eq_some hpartTake).2.2.2
    rw [meet_take hpartTake] at hpart ⊢
    exact ⟨by rw [hpartTake]; rfl, h.of_undisturbed hwhole hpart h.closed
      (hpartThere.trans (h.receiving.trans hthere.symm)) fun _ => hshown⟩
  · exact h.of_undisturbed hwhole ⟨rfl, rfl, rfl, rfl, rfl⟩ h.closed
      (h.receiving.trans hthere.symm) fun _ => hsieves.of_take_other htake (by simpa using hother)

end Session

end TriggerDesk
