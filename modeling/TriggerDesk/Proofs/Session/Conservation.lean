import Mathlib.Data.List.Forall2
import TriggerDesk.Proofs.Session.Chronicle

/-!
# Orders are conserved

`tells_along`: in every run, as long as the session is open, its chronicle accounts for all orders
and events. The invariant behind it is `Accounts`: it speaks of the list of pending orders in the
place of the book, and gives every order the one place where it is. Each deed keeps it
(`Accounts.record`), so every run does.
-/

namespace TriggerDesk

open Market TriggerDesk.Order Feed

/-! ## Stories -/

section Stories

variable {events : List Event} {subjects : List (Option Nat)} {i : Nat}

/-- An event more is added to the story of its subject only. -/
theorem eventsAbout_append (hlength : subjects.length = events.length) (event : Event)
    (subject : Option Nat) (i : Nat) :
    eventsAbout (events ++ [event]) (subjects ++ [subject]) i =
      eventsAbout events subjects i ++ if subject = some i then [event] else [] := by
  rw [eventsAbout, List.zip_append hlength.symm, List.filter_append, List.map_append]
  congr 1
  by_cases h : subject = some i <;> simp [h]

/-- An event about one order is not in the story of another. -/
theorem eventsAbout_append_of_ne (hlength : subjects.length = events.length) (event : Event)
    {k : Nat} (hne : i ≠ k) :
    eventsAbout (events ++ [event]) (subjects ++ [some k]) i = eventsAbout events subjects i := by
  have hne' : some k ≠ some i := fun heq => hne (Option.some.inj heq).symm
  rw [eventsAbout_append hlength, if_neg hne', List.append_nil]

/-- An order that no event is about has no story. -/
theorem eventsAbout_eq_nil (h : some i ∉ subjects) : eventsAbout events subjects i = [] := by
  rw [eventsAbout, List.map_eq_nil_iff, List.filter_eq_nil_iff]
  rintro ⟨event, subject⟩ hmem
  have hsubject := (List.of_mem_zip hmem).2
  have hne : subject ≠ some i := by
    rintro rfl
    exact h hsubject
  simpa using hne

end Stories

/-- In two lists of the same length everything on the left has a partner. -/
theorem exists_mem_zip {α β : Type} {left : List α} {right : List β} {a : α}
    (hlength : left.length = right.length) (hmem : a ∈ left) : ∃ b, (a, b) ∈ left.zip right := by
  rw [← List.map_fst_zip (Nat.le_of_eq hlength)] at hmem
  obtain ⟨⟨_, b⟩, hpair, rfl⟩ := List.mem_map.1 hmem
  exact ⟨b, hpair⟩

/-- What is at a position stays there when more is added at the end. -/
theorem getElem?_of_prefix {α : Type} {items later : List α} (h : items <+: later) {i : Nat} {a : α}
    (ha : items[i]? = some a) : later[i]? = some a := by
  obtain ⟨rest, rfl⟩ := h
  rw [List.getElem?_append_left (List.getElem?_eq_some_iff.1 ha).1]
  exact ha

/-- What stands in a list with one more item stood there before, or is that item. -/
theorem getElem?_concat_cases {α : Type} {items : List α} {a b : α} {i : Nat}
    (h : (items ++ [a])[i]? = some b) : items[i]? = some b ∨ i = items.length ∧ b = a := by
  rcases Nat.lt_trichotomy i items.length with hlt | rfl | hgt
  · exact .inl (List.getElem?_append_left hlt ▸ h)
  · rw [List.getElem?_concat_length] at h
    exact .inr ⟨rfl, (Option.some.inj h).symm⟩
  · rw [List.getElem?_eq_none (by rw [List.length_append, List.length_singleton]; omega)] at h
    cases h

/-! ## Orders at a place -/

/-- The story of a pending order: it is acknowledged, the last time as it is now. -/
structure Living (first order : Pending) (moves : Nat) (events : List Event) : Prop where
  acknowledged : Acknowledged first moves events
  last : events.getLast? = some (Event.ack order.command order.trigger.direction)
  oid : order.oid = first.oid
  command : order.command = { first.command with price := order.trigger.level }

/-- The story of an order that left the book, with an event that is about to be put. -/
structure Parting (first : Pending) (event : Event) (moves : Nat) (events : List Event) : Prop where
  acknowledged : Acknowledged first moves events
  ends : ∃ ack, events.getLast? = some ack ∧ Ends first ack event

/-- The story of an order that was told of. -/
def Told (first : Pending) (moves : Nat) (events : List Event) : Prop :=
  ∃ acks event, events = acks ++ [event] ∧ Parting first event moves acks

section Stories

variable {first order : Pending} {event : Event} {moves : Nat} {events : List Event}

/-- The story of an order that was just placed is its acknowledgement. -/
theorem Living.of_placed (command : Command) (last : Float) :
    Living (Pending.ofCommand command last) (Pending.ofCommand command last) 0
      [Event.ack (Pending.ofCommand command last).command
        (Pending.ofCommand command last).trigger.direction] where
  acknowledged := ⟨rfl, by simp [Event.ack, Event.ofCommand, Pending.ofCommand], rfl⟩
  last := rfl
  oid := rfl
  command := rfl

/-- A move puts one more acknowledgement, at the new level. -/
theorem Living.of_moved (h : Living first order moves events) (hoid : first.command.oid = first.oid)
    (level last : Float) :
    Living first (order.moveTo level last) (moves + 1)
      (events ++ [Event.ack (order.moveTo level last).command
        (order.moveTo level last).trigger.direction]) where
  acknowledged := by
    refine ⟨?_, ?_, ?_⟩
    · rw [List.head?_append, h.acknowledged.first, Option.some_or]
    · intro ack hmem
      rcases List.mem_append.1 hmem with hmem | hmem
      · exact h.acknowledged.all ack hmem
      · rw [List.mem_singleton.1 hmem]
        refine ⟨rfl, ?_⟩
        show order.command.oid = _
        rw [h.command]
        exact hoid
    · rw [List.length_append, h.acknowledged.count]
      rfl
  last := List.getLast?_concat
  oid := h.oid
  command := by
    show { order.command with price := level } = _
    rw [h.command]
    rfl

/-- The event of a living order that leaves the book ends it as it was acknowledged last. -/
theorem Living.parting (h : Living first order moves events) (hoid : first.command.oid = first.oid)
    (hconcludes : order.Concludes event) : Parting first event moves events := by
  refine ⟨h.acknowledged, _, h.last, ?_⟩
  have hkind : order.command.kind = first.command.kind := by rw [h.command]
  have hid : order.command.oid = first.oid := by
    rw [h.command]
    exact hoid
  cases hconcludes with
  | triggered index price =>
    exact ⟨hid, rfl, .inl ⟨congrArg Event.triggeredKind hkind, rfl⟩⟩
  | cancelled => exact ⟨hid, rfl, .inr rfl⟩
  | drained reason => exact ⟨hid, rfl, .inr rfl⟩

/-- An event that ends an order is no rejection and no acknowledgement. -/
theorem Ends.kind_ne {ack : Event} (h : Ends first ack event) :
    event.kind ≠ .rejected ∧ event.kind ≠ .ack := by
  rcases h.kind with ⟨hkind, _⟩ | hkind
  · rw [hkind]
    cases first.command.kind <;> exact ⟨nofun, nofun⟩
  · rw [hkind]
    exact ⟨nofun, nofun⟩

end Stories

/-! ## The account -/

/-- Every event is about an order that was accepted, or is a rejection. -/
structure Attributed (accepted : List (Listing × Pending)) (subjects : List (Option Nat))
    (events : List Event) : Prop where
  length : subjects.length = events.length
  rejections : ∀ event, (event, none) ∈ events.zip subjects → event.kind = .rejected
  about : ∀ event i, (event, some i) ∈ events.zip subjects →
    ∃ listing first, accepted[i]? = some (listing, first) ∧ event.oid = first.oid
  subject_lt : ∀ i, some i ∈ subjects → i < accepted.length

/-- One event more is attributed when it is a rejection, or names the order that it is about. -/
theorem Attributed.append {accepted later : List (Listing × Pending)}
    {subjects : List (Option Nat)} {events : List Event} (h : Attributed accepted subjects events)
    (hlater : accepted <+: later) {event : Event} {subject : Option Nat}
    (hnone : subject = none → event.kind = .rejected)
    (hsome : ∀ i, subject = some i →
      ∃ listing first, later[i]? = some (listing, first) ∧ event.oid = first.oid) :
    Attributed later (subjects ++ [subject]) (events ++ [event]) where
  length := by
    rw [List.length_append, List.length_append, h.length]
    rfl
  rejections := by
    intro found hmem
    rw [List.zip_append h.length.symm] at hmem
    rcases List.mem_append.1 hmem with hmem | hmem
    · exact h.rejections found hmem
    · cases List.mem_singleton.1 hmem
      exact hnone rfl
  about := by
    intro found i hmem
    rw [List.zip_append h.length.symm] at hmem
    rcases List.mem_append.1 hmem with hmem | hmem
    · obtain ⟨listing, first, haccepted, hoid⟩ := h.about found i hmem
      exact ⟨listing, first, getElem?_of_prefix hlater haccepted, hoid⟩
    · cases List.mem_singleton.1 hmem
      exact hsome i rfl
  subject_lt := by
    intro i hmem
    rcases List.mem_append.1 hmem with hmem | hmem
    · exact Nat.lt_of_lt_of_le (h.subject_lt i hmem) hlater.length_le
    · obtain ⟨_, _, hlater, _⟩ := hsome i (List.mem_singleton.1 hmem).symm
      exact (List.getElem?_eq_some_iff.1 hlater).1

/-- The chronicle accounts for the events that were put, the events that actors hold and the
pending orders, and every order is at one place. -/
structure Accounts (chronicle : Chronicle) (events : List Event)
    (held : Session.Actor → List Event) (entries : List (Listing × Pending))
    (place : Nat → Whereabouts) : Prop
    extends Attributed chronicle.accepted chronicle.subjects events where
  moved_lt : ∀ i ∈ chronicle.moved, i < chronicle.accepted.length
  proper : ∀ {i : Nat} {listing : Listing} {first : Pending},
    chronicle.accepted[i]? = some (listing, first) →
    first.command.kind.places = true ∧ first.command.oid = first.oid
  nodup : ∀ actor, (chronicle.hand actor).Nodup
  pending : ∀ {listing : Listing} {order : Pending}, (listing, order) ∈ entries →
    ∃ first, chronicle.accepted[chronicle.number order.oid]? = some (listing, first) ∧
      place (chronicle.number order.oid) = .pending ∧
      Living first order (chronicle.moved.count (chronicle.number order.oid))
        (eventsAbout events chronicle.subjects (chronicle.number order.oid))
  hands : ∀ actor, List.Forall₂ (fun i event => place i = .held actor ∧
      ∃ listing first, chronicle.accepted[i]? = some (listing, first) ∧
        Parting first event (chronicle.moved.count i) (eventsAbout events chronicle.subjects i))
    (chronicle.hand actor) (held actor)
  told : ∀ {i : Nat} {listing : Listing} {first : Pending},
    chronicle.accepted[i]? = some (listing, first) → place i = .told →
    Told first (chronicle.moved.count i) (eventsAbout events chronicle.subjects i)
  pending_of : ∀ {i : Nat} {listing : Listing} {first : Pending},
    chronicle.accepted[i]? = some (listing, first) → place i = .pending →
    ∃ order, (listing, order) ∈ entries ∧ chronicle.number order.oid = i
  held_of : ∀ {i : Nat} {actor : Session.Actor}, i < chronicle.accepted.length →
    place i = .held actor → i ∈ chronicle.hand actor

namespace Accounts

variable {chronicle : Chronicle} {events : List Event} {held : Session.Actor → List Event}
  {entries : List (Listing × Pending)} {place : Nat → Whereabouts} {listing : Listing}
  {order first : Pending} {event : Event} {actor : Session.Actor} {i : Nat}

/-- The number of an order that was accepted is below the count of accepted orders. -/
theorem lt_of_getElem? (h : chronicle.accepted[i]? = some (listing, first)) :
    i < chronicle.accepted.length :=
  (List.getElem?_eq_some_iff.1 h).1

/-- Pending orders with the same number have the same id. -/
theorem oid_eq (h : Accounts chronicle events held entries place) {other : Listing}
    {second : Pending} (hfirst : (listing, order) ∈ entries) (hsecond : (other, second) ∈ entries)
    (hnumber : chronicle.number order.oid = chronicle.number second.oid) :
    order.oid = second.oid := by
  obtain ⟨one, hone, _, hliving⟩ := h.pending hfirst
  obtain ⟨two, htwo, _, hliving'⟩ := h.pending hsecond
  rw [hnumber, htwo] at hone
  cases hone
  exact hliving.oid.trans hliving'.oid.symm

/-- Whatever an actor holds is at that place, with an event that ends it. -/
theorem of_hand (h : Accounts chronicle events held entries place)
    (hmem : i ∈ chronicle.hand actor) :
    ∃ event, (i, event) ∈ (chronicle.hand actor).zip (held actor) ∧ place i = .held actor ∧
      ∃ listing first, chronicle.accepted[i]? = some (listing, first) ∧
        Parting first event (chronicle.moved.count i)
          (eventsAbout events chronicle.subjects i) := by
  obtain ⟨event, hzip⟩ := exists_mem_zip (h.hands actor).length_eq hmem
  exact ⟨event, hzip, List.forall₂_zip (h.hands actor) hzip⟩

/-- An order in the hand of an actor is held there. -/
theorem place_of_hand (h : Accounts chronicle events held entries place)
    (hmem : i ∈ chronicle.hand actor) : place i = .held actor := by
  obtain ⟨_, _, hplace, _⟩ := h.of_hand hmem
  exact hplace

/-! ## Deeds -/

/-- A rejection is about no order. -/
theorem refuse (h : Accounts chronicle events held entries place) (hkind : event.kind = .rejected) :
    Accounts (chronicle.record actor (.put event)) (events ++ [event]) held entries place := by
  rw [Chronicle.record, if_pos hkind]
  have hsame : ∀ i, eventsAbout (events ++ [event]) (chronicle.subjects ++ [none]) i =
      eventsAbout events chronicle.subjects i := by
    intro i
    rw [eventsAbout_append h.length, if_neg nofun, List.append_nil]
  exact {
    toAttributed := h.toAttributed.append List.prefix_rfl (fun _ => hkind) nofun
    moved_lt := h.moved_lt
    proper := h.proper
    nodup := h.nodup
    pending := by
      intro listing order hmem
      simp only [hsame]
      exact h.pending hmem
    hands := by
      simp only [hsame]
      exact h.hands
    told := by
      simp only [hsame]
      exact h.told
    pending_of := h.pending_of
    held_of := h.held_of }

/-- A new order is acknowledged and pending, under a number of its own. -/
theorem placeOrder (h : Accounts chronicle events held entries place) {placing : Placing}
    {last : Float} (hproper : placing.IsProper)
    (horder : order = Pending.ofCommand placing.command last)
    (hfree : ∀ entry ∈ entries, entry.2.oid ≠ order.oid) :
    Accounts (chronicle.record actor (.place placing.listing order))
      (events ++ [Event.ack order.command order.trigger.direction]) held
      (entries ++ [(placing.listing, order)])
      (Function.update place chronicle.accepted.length .pending) := by
  have hnew : (chronicle.accepted ++ [(placing.listing, order)])[chronicle.accepted.length]? =
      some (placing.listing, order) := List.getElem?_concat_length
  have hprefix : chronicle.accepted <+: chronicle.accepted ++ [(placing.listing, order)] :=
    List.prefix_append _ _
  -- The new number is above all others, so no other story, place or id is touched.
  have hstory : ∀ i, i < chronicle.accepted.length →
      eventsAbout (events ++ [Event.ack order.command order.trigger.direction])
        (chronicle.subjects ++ [some chronicle.accepted.length]) i =
      eventsAbout events chronicle.subjects i :=
    fun i hlt => eventsAbout_append_of_ne h.length _ (Nat.ne_of_lt hlt)
  have hplace : ∀ i, i < chronicle.accepted.length →
      Function.update place chronicle.accepted.length .pending i = place i :=
    fun i hlt => Function.update_of_ne (Nat.ne_of_lt hlt) _ _
  have hnumber : ∀ {oid : String}, oid ≠ order.oid →
      Function.update chronicle.number order.oid chronicle.accepted.length oid =
        chronicle.number oid := fun hne => Function.update_of_ne hne _ _
  exact {
    toAttributed := by
      refine h.toAttributed.append hprefix nofun fun i hi => ?_
      cases hi
      exact ⟨_, _, hnew, by rw [horder]; rfl⟩
    moved_lt := fun i hmem => Nat.lt_of_lt_of_le (h.moved_lt i hmem) hprefix.length_le
    proper := by
      intro i listing first hsome
      rcases getElem?_concat_cases hsome with hbefore | ⟨_, hlast⟩
      · exact h.proper hbefore
      · cases hlast
        rw [horder]
        exact ⟨hproper.places, rfl⟩
    nodup := h.nodup
    pending := by
      intro listing found hmem
      rcases List.mem_append.1 hmem with hmem | hmem
      · obtain ⟨first, haccepted, hpending, hliving⟩ := h.pending hmem
        have hlt := lt_of_getElem? haccepted
        simp only [Chronicle.record, hnumber (hfree _ hmem), hplace _ hlt, hstory _ hlt]
        exact ⟨first, getElem?_of_prefix hprefix haccepted, hpending, hliving⟩
      · cases List.mem_singleton.1 hmem
        simp only [Chronicle.record, Function.update_self]
        refine ⟨order, hnew, trivial, ?_⟩
        -- No event was about this number before, so the story begins with the acknowledgement.
        have hnone : eventsAbout events chronicle.subjects chronicle.accepted.length = [] :=
          eventsAbout_eq_nil fun hmem => Nat.lt_irrefl _ (h.subject_lt _ hmem)
        have hunmoved : chronicle.moved.count chronicle.accepted.length = 0 :=
          List.count_eq_zero.2 fun hmem => Nat.lt_irrefl _ (h.moved_lt _ hmem)
        rw [eventsAbout_append h.length, if_pos rfl, hnone, hunmoved, List.nil_append, horder]
        exact .of_placed _ _
    hands := by
      intro other
      refine (h.hands other).imp ?_
      rintro i event ⟨hheld, listing, first, haccepted, hparting⟩
      have hlt := lt_of_getElem? haccepted
      simp only [Chronicle.record, hplace _ hlt, hstory _ hlt]
      exact ⟨hheld, listing, first, getElem?_of_prefix hprefix haccepted, hparting⟩
    told := by
      intro i listing first hsome htold
      rcases getElem?_concat_cases hsome with hbefore | ⟨rfl, _⟩
      · have hlt := lt_of_getElem? hbefore
        simp only [Chronicle.record, hstory _ hlt]
        exact h.told hbefore (hplace _ hlt ▸ htold)
      · rw [Function.update_self] at htold
        cases htold
    pending_of := by
      intro i listing first hsome hpending
      rcases getElem?_concat_cases hsome with hbefore | ⟨rfl, hlast⟩
      · rw [hplace _ (lt_of_getElem? hbefore)] at hpending
        obtain ⟨found, hmem, hfound⟩ := h.pending_of hbefore hpending
        exact ⟨found, List.mem_append_left _ hmem, (hnumber (hfree _ hmem)).trans hfound⟩
      · cases hlast
        exact ⟨order, List.mem_append_right _ (List.mem_singleton.2 rfl), Function.update_self ..⟩
    held_of := by
      intro i other hlt hheld
      by_cases hold : i < chronicle.accepted.length
      · exact h.held_of hold (hplace _ hold ▸ hheld)
      · have hlength : i < (chronicle.accepted ++ [(placing.listing, order)]).length := hlt
        rw [List.length_append, List.length_singleton] at hlength
        obtain rfl : i = chronicle.accepted.length := by omega
        rw [Function.update_self] at hheld
        cases hheld }

/-- The story of the order that moves gets one more acknowledgement, the others are as before. -/
theorem moveOrder (h : Accounts chronicle events held entries place) {old : Pending}
    {level last : Float} (hmem : (listing, old) ∈ entries)
    (horder : order = old.moveTo level last) :
    Accounts (chronicle.record actor (.move order))
      (events ++ [Event.ack order.command order.trigger.direction]) held
      (entries.filter (·.2.oid ≠ old.oid) ++ [(listing, order)]) place := by
  have hoid : order.oid = old.oid := by
    rw [horder]
    rfl
  obtain ⟨first, haccepted, hpending, hliving⟩ := h.pending hmem
  have hcommand := (h.proper haccepted).2
  have hstory : ∀ i, i ≠ chronicle.number old.oid →
      eventsAbout (events ++ [Event.ack order.command order.trigger.direction])
        (chronicle.subjects ++ [some (chronicle.number old.oid)]) i =
      eventsAbout events chronicle.subjects i :=
    fun i hne => eventsAbout_append_of_ne h.length _ hne
  have hcount : ∀ i, i ≠ chronicle.number old.oid →
      (chronicle.moved ++ [chronicle.number old.oid]).count i = chronicle.moved.count i := by
    intro i hne
    rw [List.count_append, List.count_singleton, if_neg (by simpa using Ne.symm hne)]
    rfl
  -- Whatever is not pending is not the order that moves.
  have hother : ∀ {i : Nat} {whereabouts : Whereabouts}, place i = whereabouts →
      whereabouts ≠ .pending → i ≠ chronicle.number old.oid := by
    rintro i whereabouts hplace hne rfl
    exact hne (hplace.symm.trans hpending)
  simp only [Chronicle.record, hoid]
  exact {
    toAttributed := by
      refine h.toAttributed.append List.prefix_rfl nofun fun i hi => ?_
      cases hi
      refine ⟨_, _, haccepted, ?_⟩
      rw [horder]
      show old.command.oid = _
      rw [hliving.command]
      exact hcommand
    moved_lt := by
      intro i hi
      rcases List.mem_append.1 hi with hi | hi
      · exact h.moved_lt i hi
      · rw [List.mem_singleton.1 hi]
        exact lt_of_getElem? haccepted
    proper := h.proper
    nodup := h.nodup
    pending := by
      intro other found hfound
      rcases List.mem_append.1 hfound with hfound | hfound
      · obtain ⟨hfound, hne⟩ := List.mem_filter.1 hfound
        have hne : chronicle.number found.oid ≠ chronicle.number old.oid := by
          intro heq
          simp [h.oid_eq hfound hmem heq] at hne
        simp only [hstory _ hne, hcount _ hne]
        exact h.pending hfound
      · cases List.mem_singleton.1 hfound
        rw [hoid]
        refine ⟨first, haccepted, hpending, ?_⟩
        rw [eventsAbout_append h.length, if_pos rfl, List.count_append, List.count_singleton_self,
          horder]
        exact hliving.of_moved hcommand level last
    hands := by
      intro other
      refine (h.hands other).imp ?_
      rintro i event ⟨hheld, hparting⟩
      have hne := hother hheld nofun
      simp only [hstory _ hne, hcount _ hne]
      exact ⟨hheld, hparting⟩
    told := by
      intro i place' found hsome htold
      have hne := hother htold nofun
      simp only [hstory _ hne, hcount _ hne]
      exact h.told hsome htold
    pending_of := by
      intro i other found hsome hplace
      obtain ⟨waiting, hwaiting, hnumber⟩ := h.pending_of hsome hplace
      -- The entry of the order that moves is replaced; its number stays with the new entry.
      by_cases hsame : waiting.oid = old.oid
      · have hi : i = chronicle.number old.oid := by rw [← hnumber, hsame]
        rw [hi, haccepted] at hsome
        cases hsome
        exact ⟨order, List.mem_append_right _ (List.mem_singleton.2 rfl), by rw [hoid, hi]⟩
      · exact ⟨waiting, List.mem_append_left _ (List.mem_filter.2 ⟨hwaiting, by simpa using hsame⟩),
          hnumber⟩
    held_of := h.held_of }

section Taking

variable {test : Listing × Pending → Bool} {orders : List Pending}

/-- What is taken was pending. -/
theorem exists_of_taken (h : Accounts chronicle events held entries place)
    (horders : orders = (entries.filter test).map (·.2))
    (hi : i ∈ orders.map (chronicle.number ·.oid)) :
    ∃ entry ∈ entries, test entry = true ∧ chronicle.number entry.2.oid = i ∧
      place i = .pending := by
  obtain ⟨order, horder, rfl⟩ := List.mem_map.1 hi
  rw [horders] at horder
  obtain ⟨entry, hentry, rfl⟩ := List.mem_map.1 horder
  obtain ⟨hmem, htest⟩ := List.mem_filter.1 hentry
  obtain ⟨_, _, hpending, _⟩ := h.pending hmem
  exact ⟨entry, hmem, htest, rfl, hpending⟩

/-- What anybody holds or has told is not taken. -/
theorem not_taken_of_place (h : Accounts chronicle events held entries place)
    (horders : orders = (entries.filter test).map (·.2)) {whereabouts : Whereabouts}
    (hplace : place i = whereabouts) (hne : whereabouts ≠ .pending) :
    i ∉ orders.map (chronicle.number ·.oid) := by
  intro hi
  obtain ⟨_, _, _, _, hpending⟩ := h.exists_of_taken horders hi
  exact hne (hplace.symm.trans hpending)

/-- The orders that are taken do not include one that is kept. -/
theorem not_taken_of_kept (h : Accounts chronicle events held entries place)
    (hnodup : (entries.map (·.2.oid)).Nodup)
    (horders : orders = (entries.filter test).map (·.2)) {entry : Listing × Pending}
    (hmem : entry ∈ entries) (htest : test entry = false) :
    chronicle.number entry.2.oid ∉ orders.map (chronicle.number ·.oid) := by
  intro hi
  obtain ⟨other, hother, htest', hnumber, _⟩ := h.exists_of_taken horders hi
  have hoid : other.2.oid = entry.2.oid := h.oid_eq hother hmem hnumber
  cases List.inj_on_of_nodup_map hnodup hother hmem hoid
  rw [htest] at htest'
  cases htest'

/-- No order is taken twice. -/
theorem nodup_taken (h : Accounts chronicle events held entries place)
    (hnodup : (entries.map (·.2.oid)).Nodup)
    (horders : orders = (entries.filter test).map (·.2)) :
    (orders.map (chronicle.number ·.oid)).Nodup := by
  have hoids : ((entries.filter test).map (·.2.oid)).Nodup :=
    hnodup.sublist (List.filter_sublist.map _)
  rw [horders, List.map_map]
  refine (List.Nodup.of_map _ hoids).map_on fun first hfirst second hsecond heq => ?_
  have hfirst := (List.mem_filter.1 hfirst).1
  have hsecond := (List.mem_filter.1 hsecond).1
  exact List.inj_on_of_nodup_map hnodup hfirst hsecond (h.oid_eq hfirst hsecond heq)

/-- Everything that is taken was acknowledged, and its event ends it. -/
theorem parting_of_taken (h : Accounts chronicle events held entries place)
    (horders : orders = (entries.filter test).map (·.2)) (horder : order ∈ orders)
    (hconcludes : order.Concludes event) :
    ∃ listing first, chronicle.accepted[chronicle.number order.oid]? = some (listing, first) ∧
      Parting first event (chronicle.moved.count (chronicle.number order.oid))
        (eventsAbout events chronicle.subjects (chronicle.number order.oid)) := by
  rw [horders] at horder
  obtain ⟨⟨listing, order⟩, hentry, rfl⟩ := List.mem_map.1 horder
  obtain ⟨first, haccepted, _, hliving⟩ := h.pending (List.mem_filter.1 hentry).1
  exact ⟨listing, first, haccepted, hliving.parting (h.proper haccepted).2 hconcludes⟩

/-- The orders that are taken out of the book are in the hand of whoever takes them. -/
theorem takeOrders (h : Accounts chronicle events held entries place)
    (hnodup : (entries.map (·.2.oid)).Nodup)
    (horders : orders = (entries.filter test).map (·.2))
    {held' : Session.Actor → List Event} (hempty : held actor = [])
    (hconcludes : List.Forall₂ Pending.Concludes orders (held' actor))
    (hothers : ∀ other, other ≠ actor → held' other = held other) :
    Accounts (chronicle.record actor (.take orders)) events held'
      (entries.filter fun entry => !test entry)
      (fun i => if i ∈ orders.map (chronicle.number ·.oid) then .held actor else place i) := by
  -- Whoever takes orders has put all events before, so the hand is what is taken now.
  have hhand : chronicle.hand actor = [] := by
    have hlength := (h.hands actor).length_eq
    rw [hempty] at hlength
    exact List.length_eq_zero_iff.1 hlength
  simp only [Chronicle.record, hhand, List.nil_append]
  exact {
    toAttributed := h.toAttributed
    moved_lt := h.moved_lt
    proper := h.proper
    nodup := (Function.forall_update_iff chronicle.hand fun _ hand => hand.Nodup).2
      ⟨h.nodup_taken hnodup horders, fun other _ => h.nodup other⟩
    pending := by
      intro listing order hmem
      obtain ⟨hmem, htest⟩ := List.mem_filter.1 hmem
      rw [if_neg (h.not_taken_of_kept hnodup horders hmem (by simpa using htest))]
      exact h.pending hmem
    hands := by
      intro other
      by_cases hactor : other = actor
      · subst hactor
        show List.Forall₂ _ (Function.update chronicle.hand other _ other) (held' other)
        rw [Function.update_self, List.forall₂_map_left_iff]
        have hall : ∀ order ∈ orders, order ∈ orders := fun _ horder => horder
        refine ((List.forall₂_and_left _ _).2 ⟨hall, hconcludes⟩).imp ?_
        rintro order event ⟨horder, hconcluded⟩
        rw [if_pos (List.mem_map.2 ⟨order, horder, rfl⟩)]
        exact ⟨rfl, h.parting_of_taken horders horder hconcluded⟩
      · show List.Forall₂ _ (Function.update chronicle.hand actor _ other) (held' other)
        rw [Function.update_of_ne hactor, hothers other hactor]
        refine (h.hands other).imp ?_
        rintro i event ⟨hheld, hparting⟩
        rw [if_neg (h.not_taken_of_place horders hheld nofun)]
        exact ⟨hheld, hparting⟩
    told := by
      intro i listing first hsome htold
      by_cases hi : i ∈ orders.map (chronicle.number ·.oid)
      · rw [if_pos hi] at htold
        cases htold
      · rw [if_neg hi] at htold
        exact h.told hsome htold
    pending_of := by
      intro i listing first hsome hplace
      by_cases hi : i ∈ orders.map (chronicle.number ·.oid)
      · rw [if_pos hi] at hplace
        cases hplace
      · rw [if_neg hi] at hplace
        obtain ⟨order, hmem, hnumber⟩ := h.pending_of hsome hplace
        refine ⟨order, List.mem_filter.2 ⟨hmem, ?_⟩, hnumber⟩
        cases htest : test (listing, order) with
        | false => rfl
        | true =>
          -- An order that is still pending does not pass the test: it would be among those taken.
          refine absurd (List.mem_map.2 ⟨order, ?_, hnumber⟩) hi
          rw [horders]
          exact List.mem_map.2 ⟨_, List.mem_filter.2 ⟨hmem, htest⟩, rfl⟩
    held_of := by
      intro i other hlt hheld
      by_cases hi : i ∈ orders.map (chronicle.number ·.oid)
      · rw [if_pos hi] at hheld
        cases hheld
        show i ∈ Function.update chronicle.hand actor _ actor
        rw [Function.update_self]
        exact hi
      · rw [if_neg hi] at hheld
        have hmem := h.held_of hlt hheld
        have hactor : other ≠ actor := by
          rintro rfl
          rw [hhand] at hmem
          cases hmem
        show i ∈ Function.update chronicle.hand actor _ other
        rw [Function.update_of_ne hactor]
        exact hmem }

end Taking

/-- The event that an actor puts ends the first order in its hand. -/
theorem conclude (h : Accounts chronicle events held entries place)
    {held' : Session.Actor → List Event} (hheld : held actor = event :: held' actor)
    (hothers : ∀ other, other ≠ actor → held' other = held other) :
    ∃ k, Accounts (chronicle.record actor (.put event)) (events ++ [event]) held' entries
      (Function.update place k .told) := by
  obtain ⟨k, rest, hk, hrest, hhand⟩ :
      ∃ k rest, (place k = .held actor ∧ ∃ listing first,
        chronicle.accepted[k]? = some (listing, first) ∧ Parting first event
          (chronicle.moved.count k) (eventsAbout events chronicle.subjects k)) ∧ _ ∧
        chronicle.hand actor = k :: rest :=
    List.forall₂_cons_right_iff.1 (hheld ▸ h.hands actor)
  obtain ⟨hplace, listing, first, haccepted, hparting⟩ := hk
  obtain ⟨ack, hack, hends⟩ := hparting.ends
  have hnodup := h.nodup actor
  rw [hhand, List.nodup_cons] at hnodup
  have hstory : ∀ i, i ≠ k →
      eventsAbout (events ++ [event]) (chronicle.subjects ++ [some k]) i =
        eventsAbout events chronicle.subjects i :=
    fun i hne => eventsAbout_append_of_ne h.length _ hne
  refine ⟨k, ?_⟩
  simp only [Chronicle.record, if_neg hends.kind_ne.1, hhand, List.head?_cons, List.tail_cons]
  exact {
    toAttributed := by
      refine h.toAttributed.append List.prefix_rfl nofun fun i hi => ?_
      cases hi
      exact ⟨listing, first, haccepted, hends.oid⟩
    moved_lt := h.moved_lt
    proper := h.proper
    nodup := (Function.forall_update_iff chronicle.hand fun _ hand => hand.Nodup).2
      ⟨hnodup.2, fun other _ => h.nodup other⟩
    pending := by
      intro listing order hmem
      obtain ⟨first, haccepted, hpending, hliving⟩ := h.pending hmem
      have hne : chronicle.number order.oid ≠ k := by
        intro heq
        rw [heq, hplace] at hpending
        cases hpending
      rw [hstory _ hne, Function.update_of_ne hne]
      exact ⟨first, haccepted, hpending, hliving⟩
    hands := by
      -- The concluded order is in no hand any more.
      have hne : ∀ other, ∀ i ∈ Function.update chronicle.hand actor rest other, i ≠ k := by
        refine (Function.forall_update_iff chronicle.hand fun _ hand => ∀ i ∈ hand, i ≠ k).2
          ⟨?_, ?_⟩
        · rintro i hmem rfl
          exact hnodup.1 hmem
        · rintro other hactor i hmem rfl
          have hother := h.place_of_hand hmem
          rw [hplace] at hother
          cases hother
          exact hactor rfl
      have hold := (Function.forall_update_iff chronicle.hand fun other hand =>
        List.Forall₂ (fun i event => place i = .held other ∧ ∃ listing first,
          chronicle.accepted[i]? = some (listing, first) ∧ Parting first event
            (chronicle.moved.count i) (eventsAbout events chronicle.subjects i))
          hand (held' other)).2
        ⟨hrest, fun other hactor => hothers other hactor ▸ h.hands other⟩
      intro other
      refine ((List.forall₂_and_left _ _).2 ⟨hne other, hold other⟩).imp ?_
      rintro i event ⟨hi, hheld, hparting⟩
      rw [hstory i hi, Function.update_of_ne hi]
      exact ⟨hheld, hparting⟩
    told := by
      intro i listing' found hsome htold
      by_cases hi : i = k
      · subst hi
        rw [haccepted] at hsome
        cases hsome
        rw [eventsAbout_append h.length, if_pos rfl]
        exact ⟨_, event, rfl, hparting⟩
      · rw [Function.update_of_ne hi] at htold
        rw [hstory i hi]
        exact h.told hsome htold
    pending_of := by
      intro i listing' found hsome hpending
      have hne : i ≠ k := by
        rintro rfl
        rw [Function.update_self] at hpending
        cases hpending
      rw [Function.update_of_ne hne] at hpending
      exact h.pending_of hsome hpending
    held_of := by
      intro i other hlt hother
      have hne : i ≠ k := by
        rintro rfl
        rw [Function.update_self] at hother
        cases hother
      rw [Function.update_of_ne hne] at hother
      -- The order that is concluded was the first in the hand, so the others are in the rest.
      have hmem := h.held_of hlt hother
      by_cases hactor : other = actor
      · subst hactor
        show i ∈ Function.update chronicle.hand other rest other
        rw [Function.update_self]
        rw [hhand] at hmem
        exact (List.mem_cons.1 hmem).resolve_left hne
      · show i ∈ Function.update chronicle.hand actor rest other
        rw [Function.update_of_ne hactor]
        exact hmem }

/-- Every deed that has its effect is accounted for. -/
theorem record {session next : Session} {later : List (Listing × Pending)} {deed : Deed}
    (h : Accounts chronicle session.outbox.events session.held entries place)
    (hnodup : (entries.map (·.2.oid)).Nodup)
    (heffect : Session.Effect session next actor entries later deed) :
    ∃ place', Accounts (chronicle.record actor deed) next.outbox.events next.held later place' := by
  cases heffect with
  | nothing hlater hevents hheld =>
    rw [hlater, hevents, funext hheld]
    exact ⟨place, h⟩
  | place placing last order hproper horder hfree hlater hevents hheld =>
    rw [hlater, hevents, funext hheld]
    exact ⟨_, h.placeOrder hproper horder hfree⟩
  | move listing old order level last hmem horder hlater hevents hheld =>
    rw [hlater, hevents, funext hheld]
    exact ⟨place, h.moveOrder hmem horder⟩
  | take orders test horders hlater hevents hempty hconcludes hothers =>
    rw [hlater, hevents]
    exact ⟨_, h.takeOrders hnodup horders hempty hconcludes hothers⟩
  | refuse event hlater hkind hevents hheld =>
    rw [hlater, hevents, funext hheld]
    exact ⟨place, h.refuse hkind⟩
  | conclude event hlater hevents hheld hothers =>
    rw [hlater, hevents]
    obtain ⟨k, hk⟩ := h.conclude hheld hothers
    exact ⟨_, hk⟩

/-! ## What the account tells -/

end Accounts

/-! ## Runs -/

namespace Session

/-- The session is sound, and the chronicle accounts for it. -/
structure Accounted (chronicle : Chronicle) (session : Session) : Prop where
  sound : session.Sound
  accounts : ∃ (roster : Roster) (place : Nat → Whereabouts), roster.Describes session.book ∧
    Accounts chronicle session.outbox.events session.held roster.entries place

variable {session next : Session} {chronicle : Chronicle}

/-- A chronicle that accounts for a session accounts for it after a move. -/
theorem Accounted.advance (h : session.Accounted chronicle) {move : Move}
    (hopen : (session.advance move).IsOpen) :
    (session.advance move).Accounted (chronicle.follow session move) := by
  obtain ⟨roster, place, hroster, haccounts⟩ := h.accounts
  cases move with
  | turn actor =>
    cases hstep : step actor session with
    | none =>
      rw [advance_turn_of_waits hstep, Chronicle.follow, hstep]
      exact h
    | some next =>
      rw [advance_turn hstep] at hopen ⊢
      rw [Chronicle.follow, hstep]
      obtain ⟨later, hlater, heffect⟩ := effect_of_step h.sound hroster hstep hopen
      obtain ⟨place', haccounts'⟩ := haccounts.record hroster.nodup heffect
      exact ⟨h.sound.of_step hstep hopen, later, place', hlater, haccounts'⟩
  | stimulus stimulus =>
    have hsame := undisturbed_meet session stimulus
    refine ⟨h.sound.of_undisturbed hsame, roster, place, ?_, ?_⟩
    · show roster.Describes (session.meet stimulus).book
      rw [hsame.book]
      exact hroster
    · show Accounts _ (session.meet stimulus).outbox.events (session.meet stimulus).held _ _
      rw [hsame.events, funext hsame.held_eq]
      exact haccounts
  | feeds source =>
    exact ⟨h.sound.of_undisturbed ⟨rfl, rfl, rfl, rfl, rfl⟩, roster, place, hroster, haccounts⟩

/-- A chronicle that accounts for a session does so after any moves that leave it open. -/
theorem Accounted.run (h : session.Accounted chronicle) {moves : List Move}
    (hopen : (session.run moves).IsOpen) :
    (session.run moves).Accounted (chronicle.along session moves) := by
  induction moves generalizing session chronicle with
  | nil => exact h
  | cons move rest ih => exact ih (h.advance (isOpen_of_run hopen)) hopen

end Session

end TriggerDesk
