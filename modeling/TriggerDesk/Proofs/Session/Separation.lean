import TriggerDesk.Proofs.Session.Pairs

/-!
# Listings do not interfere

When the moves for other listings are left out of a run, there are left (`Session.excerpt`) the
turns that were taken for the listing, the commands of it that came in, the events of it that the
client took, and what is for everybody. If every order id belongs to one listing, what is left is a
run again, and gives the listing the same events, in the same order, and the same lane of the book
(`separate_along`). The feeds may show other quotes then, as long as those for the symbol of the
listing are the same.
-/

namespace TriggerDesk

open Market TriggerDesk.Order Feed

namespace Session

variable {owner : String → Listing} {listing : Listing} {session next whole part after : Session}
  {id : WatcherId} {watcher : Watcher}

/-! ## Excerpts of runs -/

/-- Whether a move can be made: whoever takes a turn does not have to wait, there is room for a
command that comes in, and there is an event to take. -/
def allows (session : Session) : Move → Bool
  | .turn actor => (step actor session).isSome
  | .stimulus (.send command) => (session.inbox.send command).isOk
  | .stimulus .take => session.outbox.take?.isSome
  | .stimulus _ | .feeds _ => true

/-- Every move can be made when its time comes. -/
def AllowsAll (session : Session) : List Move → Prop
  | [] => True
  | move :: moves => session.allows move = true ∧ (session.advance move).AllowsAll moves

/-- Whether a move is made for a listing, or for everybody. The desk takes a turn for everybody when
it has no order to see to, since it only ends then. What the feeds do is seen in the turns. -/
def concerns (owner : String → Listing) (listing : Listing) (session : Session) : Move → Bool
  | .turn .desk => session.subject?.all (owner · = listing)
  | .turn (.watcher id) => session.listings[id]? = some listing
  | .stimulus (.send command) => owner command.oid = listing
  | .stimulus .take => session.outbox.take?.all fun (event, _) => owner event.oid = listing
  | .stimulus .endCommands | .stimulus .leave | .stimulus (.wait _) => true
  | .stimulus (.push ..) | .stimulus (.breakStream ..) | .stimulus (.closeStream _)
  | .stimulus (.refuse ..) | .feeds _ => false

/-- An actor where watchers have other names. -/
def Actor.renamed (name : WatcherId → WatcherId) : Actor → Actor
  | .desk => .desk
  | .watcher id => .watcher (name id)

/-- A move in a session that has only the watchers of a listing. Before a turn the feeds show what
the session `sees`. -/
def restated (listing : Listing) (sees : Session → Source) (session : Session) : Move → List Move
  | .turn actor => [.feeds (sees session), .turn (actor.renamed (session.rank listing))]
  | .stimulus stimulus => [.stimulus stimulus]
  | .feeds source => [.feeds source]

/-- What is left of a move when the moves for other listings are left out. -/
def excerptMove (owner : String → Listing) (listing : Listing) (sees : Session → Source)
    (session : Session) (move : Move) : List Move :=
  if session.allows move && session.concerns owner listing move then
    session.restated listing sees move
  else []

/-- What is left of a run when the moves for other listings are left out. -/
def excerpt (owner : String → Listing) (listing : Listing) (sees : Session → Source)
    (session : Session) : List Move → List Move
  | [] => []
  | move :: moves =>
    session.excerptMove owner listing sees move ++
      (session.advance move).excerpt owner listing sees moves

/-- Two runs in a row can be made when the first can, and the second can after it. -/
theorem allowsAll_append {before later : List Move} (hbefore : session.AllowsAll before)
    (hlater : (session.run before).AllowsAll later) : session.AllowsAll (before ++ later) := by
  induction before generalizing session with
  | nil => exact hlater
  | cons move moves ih => exact ⟨hbefore.1, ih hbefore.2 hlater⟩

/-- Of a move that cannot be made nothing is left. -/
theorem excerptMove_of_not_allows {sees : Session → Source} {move : Move}
    (h : session.allows move = false) : session.excerptMove owner listing sees move = [] := by
  rw [excerptMove, h, Bool.false_and, if_neg Bool.false_ne_true]

/-- Of a move for another listing nothing is left. -/
theorem excerptMove_of_not_concerns {sees : Session → Source} {move : Move}
    (h : session.concerns owner listing move = false) :
    session.excerptMove owner listing sees move = [] := by
  rw [excerptMove, h, Bool.and_false, if_neg Bool.false_ne_true]

/-- A move for the listing is left, restated for the share. -/
theorem excerptMove_of_concerns {sees : Session → Source} {move : Move}
    (hallows : session.allows move = true) (h : session.concerns owner listing move = true) :
    session.excerptMove owner listing sees move = session.restated listing sees move := by
  rw [excerptMove, hallows, h, Bool.and_self, if_pos rfl]

/-! ## Runs -/

/-- A move that cannot be made changes nothing. -/
theorem advance_of_not_allows {move : Move} (h : session.allows move = false) :
    session.advance move = session := by
  cases move with
  | turn actor =>
    exact advance_turn_of_waits (Option.isNone_iff_eq_none.1 (Option.isSome_eq_false_iff.1 h))
  | feeds source => cases h
  | stimulus stimulus =>
    cases stimulus with
    | send command =>
      cases hsend : session.inbox.send command with
      | error obstacle => exact meet_send_error hsend
      | ok inbox =>
        rw [allows, hsend] at h
        cases h
    | take =>
      exact meet_take_none (Option.isNone_iff_eq_none.1 (Option.isSome_eq_false_iff.1 h))
    | endCommands | leave | push | breakStream | closeStream | refuse | wait => cases h

/-- A turn is taken after the feeds have shown something. -/
theorem run_shown {source : Source} {actor : Actor}
    (h : step actor { session with source } = some next) :
    session.AllowsAll [.feeds source, .turn actor] ∧
      session.run [.feeds source, .turn actor] = next :=
  ⟨⟨rfl, congrArg Option.isSome h, trivial⟩, advance_turn h⟩

section Advance

variable {move : Move} (sees : Session → Source) (hallows : whole.allows move = true)
include hallows

/-- A move for the listing is made in both sessions. -/
theorem Paired.advance_of_concerns (h : Paired owner listing whole part)
    (howned : ∀ command, move = .stimulus (.send command) → command.IsOwned owner)
    (hsees : Source.AlikeFor listing.symbol whole.source (sees whole))
    (hconcerns : whole.concerns owner listing move = true) :
    part.AllowsAll (whole.restated listing sees move) ∧
      Related owner listing (whole.advance move) (part.run (whole.restated listing sees move)) := by
  have hshown : Paired owner listing whole { part with source := sees whole } :=
    h.withSource whole.source (sees whole)
  cases move with
  | feeds source => cases hconcerns
  | turn actor =>
    obtain ⟨next, hstep⟩ := Option.isSome_iff_exists.1 hallows
    rw [advance_turn hstep]
    cases actor with
    | desk =>
      -- The desk may also end for lack of commands. Then there is no id, and both sessions end.
      have hown : ∀ oid, whole.subject? = some oid → owner oid = listing := fun oid hsubject => by
        simpa using (Option.all_eq_true _ _).1 hconcerns oid hsubject
      obtain ⟨after, hafter, hnext⟩ := hshown.deskStep_of_own hown hstep
      have htook : step (Actor.renamed (whole.rank listing) .desk)
          { part with source := sees whole } = some after := hafter
      obtain ⟨hall, hrun⟩ := run_shown htook
      exact ⟨hall, Eq.symm hrun ▸ hnext⟩
    | watcher id =>
      obtain ⟨watcher, _, hreplaces, _⟩ := watcherTurn_of_watcherStep hstep
      have hwatcher := hreplaces.was
      rw [concerns, listings_of_watcher hwatcher] at hconcerns
      obtain ⟨after, hafter, hnext⟩ := hshown.watcherStep_of_own hwatcher
        (by simpa using hconcerns) hsees hstep
      have htook : step (Actor.renamed (whole.rank listing) (.watcher id))
          { part with source := sees whole } = some after := hafter
      obtain ⟨hall, hrun⟩ := run_shown htook
      exact ⟨hall, Eq.symm hrun ▸ .inl hnext⟩
  | stimulus stimulus =>
    cases stimulus with
    | send command =>
      obtain ⟨hroom, hnext⟩ := (h.send hallows (howned command rfl)).1
        (by simpa [concerns] using hconcerns)
      exact ⟨⟨hroom, trivial⟩, .inl hnext⟩
    | take =>
      obtain ⟨⟨event, outbox⟩, htake⟩ := Option.isSome_iff_exists.1 hallows
      rw [concerns, htake] at hconcerns
      obtain ⟨hthere, hnext⟩ := (h.take htake).1 (by simpa using hconcerns)
      exact ⟨⟨hthere, trivial⟩, .inl hnext⟩
    | endCommands => exact ⟨⟨rfl, trivial⟩, .inl (h.meet (.inl rfl))⟩
    | leave => exact ⟨⟨rfl, trivial⟩, .inl (h.meet (.inr (.inl rfl)))⟩
    | wait milliseconds => exact ⟨⟨rfl, trivial⟩, .inl (h.meet (.inr (.inr ⟨milliseconds, rfl⟩)))⟩
    | push | breakStream | closeStream | refuse => cases hconcerns

/-- A move for another listing leaves the share as it is. -/
theorem Paired.advance_of_stranger (h : Paired owner listing whole part)
    (howned : ∀ command, move = .stimulus (.send command) → command.IsOwned owner)
    (hother : whole.concerns owner listing move = false) :
    Related owner listing (whole.advance move) part := by
  cases move with
  | feeds source => exact .inl (h.withSource source part.source)
  | turn actor =>
    obtain ⟨next, hstep⟩ := Option.isSome_iff_exists.1 hallows
    rw [advance_turn hstep]
    cases actor with
    | desk =>
      cases hsubject : whole.subject? with
      | none =>
        rw [concerns, hsubject] at hother
        cases hother
      | some oid =>
        rw [concerns, hsubject] at hother
        exact h.deskStep_of_stranger hsubject (by simpa using hother) hstep
    | watcher id =>
      obtain ⟨watcher, _, hreplaces, _⟩ := watcherTurn_of_watcherStep hstep
      have hwatcher := hreplaces.was
      rw [concerns, listings_of_watcher hwatcher] at hother
      exact .inl (h.watcherStep_of_stranger hwatcher (by simpa using hother) hstep)
  | stimulus stimulus =>
    cases stimulus with
    | send command =>
      exact .inl ((h.send hallows (howned command rfl)).2 (by simpa [concerns] using hother))
    | take =>
      obtain ⟨⟨event, outbox⟩, htake⟩ := Option.isSome_iff_exists.1 hallows
      rw [concerns, htake] at hother
      exact .inl ((h.take htake).2 (by simpa using hother))
    | endCommands | leave | wait => cases hother
    | push | breakStream | closeStream | refuse => exact .inl (h.withSource _ part.source)

/-- Nothing comes in any more. -/
theorem Over.not_send (h : Over owner listing whole part) {command : Command} :
    move ≠ .stimulus (.send command) := by
  rintro rfl
  rw [allows, Channel.send, h.closed] at hallows
  cases hallows

/-- After the session is over, a move for the listing can be made in the share too, and both stay
related. -/
theorem Over.advance_of_concerns (h : Over owner listing whole part)
    (hconcerns : whole.concerns owner listing move = true) :
    part.AllowsAll (whole.restated listing sees move) ∧
      Related owner listing (whole.advance move) (part.run (whole.restated listing sees move)) := by
  cases move with
  | feeds source => cases hconcerns
  | turn actor =>
    rw [allows, h.step_eq_none actor] at hallows
    cases hallows
  | stimulus stimulus =>
    have hwhole := undisturbed_meet whole stimulus
    have hpart := undisturbed_meet part stimulus
    cases stimulus with
    | send command => exact absurd rfl (h.not_send hallows)
    | take =>
      obtain ⟨⟨event, outbox⟩, htake⟩ := Option.isSome_iff_exists.1 hallows
      rw [concerns, htake] at hconcerns
      obtain ⟨hthere, hnext⟩ := (h.take htake).1 (by simpa using hconcerns)
      exact ⟨⟨hthere, trivial⟩, .inr hnext⟩
    | endCommands | wait =>
      exact ⟨⟨rfl, trivial⟩, .inr (h.of_undisturbed hwhole hpart h.closed h.receiving h.sieves)⟩
    | leave => exact ⟨⟨rfl, trivial⟩, .inr (h.of_undisturbed hwhole hpart h.closed rfl nofun)⟩
    | push | breakStream | closeStream | refuse => cases hconcerns

/-- After the session is over, a move for another listing changes nothing of the share. -/
theorem Over.advance_of_stranger (h : Over owner listing whole part)
    (hother : whole.concerns owner listing move = false) :
    Related owner listing (whole.advance move) part := by
  have hpart : part.Undisturbed part := ⟨rfl, rfl, rfl, rfl, rfl⟩
  cases move with
  | feeds source =>
    exact .inr (h.of_undisturbed ⟨rfl, rfl, rfl, rfl, rfl⟩ hpart h.closed h.receiving h.sieves)
  | turn actor =>
    rw [allows, h.step_eq_none actor] at hallows
    cases hallows
  | stimulus stimulus =>
    have hwhole := undisturbed_meet whole stimulus
    cases stimulus with
    | send command => exact absurd rfl (h.not_send hallows)
    | take =>
      obtain ⟨⟨event, outbox⟩, htake⟩ := Option.isSome_iff_exists.1 hallows
      rw [concerns, htake] at hother
      exact .inr ((h.take htake).2 (by simpa using hother))
    | endCommands | leave | wait => cases hother
    | push | breakStream | closeStream | refuse =>
      exact .inr (h.of_undisturbed hwhole hpart h.closed h.receiving h.sieves)

end Advance

/-- What is left of a move can be made, and both sessions are related afterwards. -/
theorem Related.advance (h : Related owner listing whole part) (sees : Session → Source)
    (move : Move) (howned : ∀ command, move = .stimulus (.send command) → command.IsOwned owner)
    (hsees : Source.AlikeFor listing.symbol whole.source (sees whole)) :
    part.AllowsAll (whole.excerptMove owner listing sees move) ∧
      Related owner listing (whole.advance move)
        (part.run (whole.excerptMove owner listing sees move)) := by
  cases hallows : whole.allows move with
  | false =>
    rw [excerptMove_of_not_allows hallows, advance_of_not_allows hallows]
    exact ⟨trivial, h⟩
  | true =>
    cases hconcerns : whole.concerns owner listing move with
    | true =>
      rw [excerptMove_of_concerns hallows hconcerns]
      rcases h with hpaired | hover
      · exact hpaired.advance_of_concerns sees hallows howned hsees hconcerns
      · exact hover.advance_of_concerns sees hallows hconcerns
    | false =>
      rw [excerptMove_of_not_concerns hconcerns]
      rcases h with hpaired | hover
      · exact ⟨trivial, hpaired.advance_of_stranger hallows howned hconcerns⟩
      · exact ⟨trivial, hover.advance_of_stranger hallows hconcerns⟩

/-- Along a run and its excerpt sessions stay related. -/
theorem Related.run (h : Related owner listing whole part) (sees : Session → Source)
    (hsees : ∀ session : Session, Source.AlikeFor listing.symbol session.source (sees session))
    (moves : List Move)
    (howned : ∀ command, Move.stimulus (.send command) ∈ moves → command.IsOwned owner) :
    part.AllowsAll (whole.excerpt owner listing sees moves) ∧
      Related owner listing (whole.run moves)
        (part.run (whole.excerpt owner listing sees moves)) := by
  induction moves generalizing whole part with
  | nil => exact ⟨trivial, h⟩
  | cons move moves ih =>
    obtain ⟨hall, hnext⟩ := h.advance sees move
      (fun command heq => howned command (heq ▸ List.mem_cons_self)) (hsees whole)
    obtain ⟨hrest, hlast⟩ :=
      ih hnext fun command hmem => howned command (List.mem_cons_of_mem _ hmem)
    rw [excerpt, run_cons, run_append]
    exact ⟨allowsAll_append hall hrest, hlast⟩

/-- A session that starts is paired with itself. -/
theorem paired_start (owner : String → Listing) (listing : Listing) (source : Source)
    (limit : Option Nat) (inboxCapacity outboxCapacity : Nat) :
    Paired owner listing (start source limit inboxCapacity outboxCapacity)
      (start source limit inboxCapacity outboxCapacity) where
  clock := rfl
  limit := rfl
  inbox := rfl
  receiving := rfl
  events := rfl
  book := .refl owner listing _
  watchers _ _ hwatcher _ := nomatch hwatcher
  size := rfl
  spawned := rfl
  owned := Book.owned_empty owner
  followed _ hid := nomatch hid
  ids := owned_start owner source limit inboxCapacity outboxCapacity
  running := nofun
  desk := rfl
  abreast _ := {
    wholeQueued := queued_start source limit inboxCapacity outboxCapacity
    partQueued := queued_start source limit inboxCapacity outboxCapacity
    excerpts := {
      orderly := Outbox.orderly_new outboxCapacity
      partOrderly := Outbox.orderly_new outboxCapacity
      capacity := rfl
      events := rfl
      taken := rfl
      line := List.Sublist.refl _ } }

/-- Listings do not interfere. Where every order id belongs to one listing, what is left of a run
when the moves for other listings are left out is a run, and gives the listing the same events, in
the same order, and the same lane in the book. The feeds may show other quotes for other symbols. -/
theorem separate_along (owner : String → Listing) (listing : Listing) (source : Source)
    (limit : Option Nat) (inboxCapacity outboxCapacity : Nat) (moves : List Move)
    (howned : ∀ command, Move.stimulus (.send command) ∈ moves → command.IsOwned owner)
    (sees : Session → Source)
    (hsees : ∀ session : Session, Source.AlikeFor listing.symbol session.source (sees session)) :
    let first := start source limit inboxCapacity outboxCapacity
    let whole := first.run moves
    let left := first.excerpt owner listing sees moves
    first.AllowsAll left ∧
      (first.run left).outbox.events = whole.outbox.events.filter (owner ·.oid = listing) ∧
      (first.run left).book.lane listing = whole.book.lane listing := by
  have hstart : Related owner listing (start source limit inboxCapacity outboxCapacity)
      (start source limit inboxCapacity outboxCapacity) :=
    .inl (paired_start owner listing source limit inboxCapacity outboxCapacity)
  obtain ⟨hall, hpaired | hover⟩ := hstart.run sees hsees moves howned
  · exact ⟨hall, hpaired.events, hpaired.book.lane⟩
  · exact ⟨hall, hover.events, hover.lane⟩

/-- The command of an alert at `X` or at `Y`. -/
def alertFor (oid symbol : String) : Command :=
  { kind := .alert, oid, symbol, brokers := ["B"], price := 50 }

/-- The ids `x` and `y` belong to the listings of those symbols. -/
def ownerOf (oid : String) : Listing := ⟨"B", if oid = "x" then "X" else "Y"⟩

/-- A quote for `Z` comes into a batch that has one quote for `X` at most, and the others trade
places. -/
def shuffled (batch : Batch) : Batch :=
  if (batch.quotesFor "X").length ≤ 1 then Batch.ofPrices "Z" [0] ++ batch.reverse else batch

/-- The batches that are shuffled are alike for `X`. -/
theorem alikeFor_shuffled (batch : Batch) : Batch.AlikeFor "X" batch (shuffled batch) := by
  unfold shuffled
  split
  · next hone =>
    refine Batch.alikeFor_of_perm hone ?_
    have hother : (Batch.ofPrices "Z" [0]).quotesFor "X" = [] := by decide +kernel
    show (List.filter _ (Batch.ofPrices "Z" [0] ++ batch.reverse)).Perm _
    rw [List.filter_append, show List.filter _ (Batch.ofPrices "Z" [0]) = [] from hother]
    exact (List.reverse_perm batch).filter _
  · exact rfl

/-- Two alerts are placed where there is room for one event, while quotes for both symbols come in
the same batches. The one fires, and the other is cancelled. -/
def mixedMoves : List Move :=
  let quotes (price : Float) := Batch.ofPrices "Y" [70] ++ Batch.ofPrices "X" [price]
  [.stimulus (.push ⟨"B", "X"⟩ (quotes 60)), .stimulus (.push ⟨"B", "Y"⟩ (quotes 60)),
    .stimulus (.send (alertFor "y" "Y")), .stimulus (.send (alertFor "x" "X")),
    .turn .desk, .turn (.watcher 0), .turn (.watcher 0), .turn .desk, .turn .desk,
    .turn .desk, .turn (.watcher 1), .turn (.watcher 1), .turn .desk, .turn .desk,
    .stimulus .take, .turn .desk, .stimulus (.push ⟨"B", "X"⟩ (quotes 40)),
    .stimulus (.send { alertFor "y" "Y" with kind := .cancel }), .turn .desk,
    .turn (.watcher 1), .turn (.watcher 1), .stimulus .take, .turn .desk, .turn (.watcher 1),
    .stimulus .take, .turn (.watcher 1)]

/-- In that run the one order fires, the other is cancelled, and the share of `X` has the same
events about the one. -/
theorem separate_along_mixed :
    let first := start ⟨none, .new⟩ none 4 1
    let left := first.excerpt ownerOf ⟨"B", "X"⟩ (·.source.recast shuffled) mixedMoves
    ((first.run mixedMoves).outbox.events.map fun event => (event.oid, event.index)) =
        [("y", none), ("x", none), ("y", none), ("x", some 0)] ∧
      left.length = 18 ∧
      first.AllowsAll left ∧
      (first.run left).outbox.events =
        (first.run mixedMoves).outbox.events.filter (ownerOf ·.oid = ⟨"B", "X"⟩) ∧
      (first.run left).book.lane ⟨"B", "X"⟩ = (first.run mixedMoves).book.lane ⟨"B", "X"⟩ := by
  have howned : ∀ command, Move.stimulus (.send command) ∈ mixedMoves →
      command.IsOwned ownerOf := by
    intro command hmem
    simp only [mixedMoves, List.mem_cons, Move.stimulus.injEq, Stimulus.send.injEq, reduceCtorEq,
      List.not_mem_nil, false_or, or_false] at hmem
    rcases hmem with rfl | rfl | rfl
    · rintro _ broker ⟨⟩
      rfl
    · rintro _ broker ⟨⟩
      rfl
    · rintro ⟨⟩
  exact ⟨by decide +kernel, by decide +kernel, separate_along ownerOf ⟨"B", "X"⟩ ⟨none, .new⟩ none 4
    1 mixedMoves howned (·.source.recast shuffled)
    fun session => Source.alikeFor_recast alikeFor_shuffled session.source⟩

end Session

end TriggerDesk
