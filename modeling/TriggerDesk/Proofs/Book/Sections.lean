import Mathlib.Data.List.Nodup
import TriggerDesk.Book.Basic

/-!
# The book between lock sections

Desk and feeds share one book, and each step of its operations is done under a lock. Inserting,
removing, moving and finding an order and setting a last price are one section each. Evaluating a
price and retiring a listing are two: orders leave their lane in the first, and their ids leave
the index in the second. In between anything else may happen to the book.

A `SharedBook` is a book together with the calls that are between their two sections.
`SharedBook.sections_along` says what holds in every interleaving: the index has exactly the ids
of the orders in the lanes and of those whose second section is due, so such an id is refused
until then, and the second section removes no entry but those of its own call.
-/

namespace TriggerDesk

open Market TriggerDesk.Order

/-- A call that took orders out of a lane and has yet to remove their ids from the index. -/
structure Book.Call where
  /-- The number of such calls before it. -/
  ticket : Nat
  listing : Listing
  orders : List Pending
  deriving DecidableEq, Repr

/-- The ids that a call has yet to remove. -/
def Book.Call.oids (call : Call) : List String := call.orders.map (·.oid)

/-- A book, and the calls that are between their two sections. -/
structure SharedBook where
  book : Book
  /-- How many calls took orders out so far. -/
  made : Nat
  due : List Book.Call
  deriving DecidableEq, Repr

/-- What is done to a book under one lock. -/
inductive Book.Section where
  | insert (listing : Listing) (order : Pending)
  | remove (oid : String)
  | modify (oid : String) (level : Float)
  | contains (oid : String)
  | setLast (listing : Listing) (price : Float)
  /-- The first section of evaluating a price. -/
  | takeHits (listing : Listing) (price : Float)
  /-- The first section of retiring a listing. -/
  | takeAll (listing : Listing)
  /-- The second section of a call. -/
  | unindex (ticket : Nat)
  deriving DecidableEq, Repr

namespace SharedBook

/-- A book without orders that nobody works on. -/
def empty : SharedBook := { book := .empty, made := 0, due := [] }

/-- Orders of a listing left their lane. A call that took none is over. -/
def takeOut (shared : SharedBook) (listing : Listing) (taken : List Pending × Book) :
    SharedBook :=
  if taken.1.isEmpty then { shared with book := taken.2 }
  else
    { book := taken.2
      made := shared.made + 1
      due := shared.due ++ [{ ticket := shared.made, listing, orders := taken.1 }] }

/-- The book after a section. The second section of a call that is not due does nothing. -/
def perform (shared : SharedBook) : Book.Section → SharedBook
  | .insert listing order => { shared with book := (shared.book.insert listing order).2 }
  | .remove oid =>
    match shared.book.remove oid with
    | some (_, book) => { shared with book }
    | none => shared
  | .modify oid level =>
    match shared.book.modify oid level with
    | some moved => { shared with book := moved.book }
    | none => shared
  | .contains _ => shared
  | .setLast listing price => { shared with book := shared.book.setLast listing price }
  | .takeHits listing price => shared.takeOut listing (shared.book.takeHits listing price)
  | .takeAll listing => shared.takeOut listing (shared.book.takeAll listing)
  | .unindex ticket =>
    match shared.due.find? (·.ticket = ticket) with
    | some call =>
      { shared with
        book := Book.unindex call.orders shared.book
        due := shared.due.filter (·.ticket ≠ ticket) }
    | none => shared

/-- The book after some sections. -/
def run (shared : SharedBook) (sections : List Book.Section) : SharedBook :=
  sections.foldl perform shared

/-- The orders that a section takes out of their lane, and that its call returns. -/
def leaving (shared : SharedBook) : Book.Section → List Pending
  | .remove oid => ((shared.book.remove oid).map (·.1)).toList
  | .takeHits listing price => (shared.book.takeHits listing price).1
  | .takeAll listing => (shared.book.takeAll listing).1
  | .insert .. | .modify .. | .contains _ | .setLast .. | .unindex _ => []

/-- The id of the order that a section puts into a lane, if it is taken. -/
def entering? (shared : SharedBook) : Book.Section → Option String
  | .insert listing order =>
    match (shared.book.insert listing order).1 with
    | .ok () => some order.oid
    | .error _ => none
  | .remove _ | .modify .. | .contains _ | .setLast .. | .takeHits .. | .takeAll _
  | .unindex _ => none

/-- The ids of the orders that are put into lanes in some sections. -/
def entered (shared : SharedBook) : List Book.Section → List String
  | [] => []
  | step :: rest => (shared.entering? step).toList ++ (shared.perform step).entered rest

variable {shared next : SharedBook} {listing other : Listing} {oid : String} {call : Book.Call}

/-! ## What a section changes -/

/-- What a section does to the lanes, to the index and to the calls that are due, with the id that
enters and the orders that leave. -/
inductive Changes (shared next : SharedBook) : Option String → List Pending → Prop where
  | nothing :
      (∀ listing, next.book.pending listing = shared.book.pending listing) →
      next.book.index = shared.book.index → next.due = shared.due → next.made = shared.made →
      Changes shared next none []
  /-- An order with a free id enters a lane at the end. -/
  | enter (listing : Listing) (order : Pending) :
      shared.book.index.get? order.oid = none →
      (∀ other, next.book.pending other =
        if other = listing then shared.book.pending listing ++ [order]
        else shared.book.pending other) →
      next.book.index = shared.book.index.set order.oid listing →
      next.due = shared.due → next.made = shared.made →
      Changes shared next (some order.oid) []
  /-- An order leaves its lane and its id the index. -/
  | leave (listing : Listing) (order : Pending) :
      order ∈ shared.book.pending listing →
      (∀ other, next.book.pending other =
        if other = listing then Book.without order.oid (shared.book.pending listing)
        else shared.book.pending other) →
      next.book.index = shared.book.index.erase order.oid →
      next.due = shared.due → next.made = shared.made →
      Changes shared next none [order]
  /-- An order goes to the end of its lane. -/
  | move (listing : Listing) (order moved : Pending) :
      order ∈ shared.book.pending listing → moved.oid = order.oid →
      (∀ other, next.book.pending other =
        if other = listing then Book.without order.oid (shared.book.pending listing) ++ [moved]
        else shared.book.pending other) →
      next.book.index = shared.book.index → next.due = shared.due → next.made = shared.made →
      Changes shared next none []
  /-- The orders that pass a test leave their lane, and their ids are due to leave the index. -/
  | take (listing : Listing) (test : Pending → Bool) (orders : List Pending) :
      orders = (shared.book.pending listing).filter test →
      (∀ other, next.book.pending other =
        if other = listing then (shared.book.pending listing).filter fun order => !test order
        else shared.book.pending other) →
      next.book.index = shared.book.index →
      next.due = shared.due ++ [{ ticket := shared.made, listing, orders }] →
      next.made = shared.made + 1 →
      Changes shared next none orders
  /-- The ids of a call leave the index. -/
  | settle (call : Book.Call) :
      call ∈ shared.due →
      (∀ listing, next.book.pending listing = shared.book.pending listing) →
      next.book.index = shared.book.index.eraseAll call.oids →
      next.due = shared.due.filter (·.ticket ≠ call.ticket) → next.made = shared.made →
      Changes shared next none []

/-- Inserting an order changes the book in one section, and the order enters if it is taken. -/
theorem changes_insert (shared : SharedBook) (listing : Listing) (order : Pending) :
    Changes shared (shared.perform (.insert listing order))
      (shared.entering? (.insert listing order)) [] := by
  simp only [perform, entering?, Book.insert]
  split
  · exact .nothing (fun _ => rfl) rfl rfl rfl
  · next hfree =>
    split
    · refine .nothing (fun other => ?_) rfl rfl rfl
      simp only [Book.pending, Book.lane_setLane]
      split
      · next heq => rw [heq]
      · rfl
    · refine .enter listing order ?_ (fun other => ?_) rfl rfl rfl
      · simpa [Book.contains, Table.contains] using hfree
      · show ((Book.setLane shared.book listing _).lane other).orders = _
        rw [Book.lane_setLane]
        split <;> rfl

/-- The order that is found waits at the listing that it is found at. -/
theorem mem_of_find? {book : Book} {order : Pending}
    (h : book.find? oid = some (listing, order)) :
    order ∈ book.pending listing ∧ order.oid = oid := by
  obtain ⟨place, _, h⟩ := Option.bind_eq_some_iff.1 h
  obtain ⟨found, hfound, h⟩ := Option.bind_eq_some_iff.1 h
  cases h
  exact ⟨List.mem_of_find?_eq_some hfound, by simpa using List.find?_some hfound⟩

/-- Removing an order changes the book in one section, and the order leaves if it is found. -/
theorem changes_remove (shared : SharedBook) (oid : String) :
    Changes shared (shared.perform (.remove oid)) none (shared.leaving (.remove oid)) := by
  cases hremove : shared.book.remove oid with
  | none =>
    simp only [perform, leaving, hremove]
    exact .nothing (fun _ => rfl) rfl rfl rfl
  | some removed =>
    obtain ⟨order, book⟩ := removed
    simp only [perform, leaving, hremove]
    obtain ⟨⟨listing, found⟩, hfind, hremove⟩ := Option.bind_eq_some_iff.1 hremove
    obtain ⟨hmem, rfl⟩ := mem_of_find? hfind
    cases hremove
    refine .leave listing order hmem (fun other => ?_) rfl rfl rfl
    show ((Book.setLane shared.book listing _).lane other).orders = _
    rw [Book.lane_setLane]
    split <;> rfl

/-- Moving an order changes the book in one section, and no order enters or leaves. -/
theorem changes_modify (shared : SharedBook) (oid : String) (level : Float) :
    Changes shared (shared.perform (.modify oid level)) none [] := by
  cases hmodify : shared.book.modify oid level with
  | none =>
    simp only [perform, hmodify]
    exact .nothing (fun _ => rfl) rfl rfl rfl
  | some moved =>
    simp only [perform, hmodify]
    obtain ⟨⟨listing, order⟩, hfind, hmodify⟩ := Option.bind_eq_some_iff.1 hmodify
    obtain ⟨last, _, hmodify⟩ := Option.bind_eq_some_iff.1 hmodify
    obtain ⟨hmem, rfl⟩ := mem_of_find? hfind
    cases hmodify
    refine .move listing order (order.moveTo level last) hmem rfl (fun other => ?_) rfl rfl rfl
    show ((Book.setLane shared.book listing _).lane other).orders = _
    rw [Book.lane_setLane]
    split <;> rfl

/-- Taking orders out changes nothing when there are none. -/
theorem changes_takeOut {taken : List Pending × Book} (test : Pending → Bool)
    (horders : taken.1 = (shared.book.pending listing).filter test)
    (hpending : ∀ other, taken.2.pending other =
      if other = listing then (shared.book.pending listing).filter fun order => !test order
      else shared.book.pending other)
    (hindex : taken.2.index = shared.book.index) :
    Changes shared (shared.takeOut listing taken) none taken.1 := by
  unfold takeOut
  split
  · next hempty =>
    rw [List.isEmpty_iff] at hempty
    rw [hempty]
    refine .nothing (fun other => ?_) hindex rfl rfl
    rw [hempty] at horders
    rw [hpending]
    split
    · next heq =>
      rw [heq]
      refine List.filter_eq_self.2 fun order horder => ?_
      simpa using List.filter_eq_nil_iff.1 horders.symm order horder
    · rfl
  · exact .take listing test taken.1 horders hpending hindex rfl rfl

/-- Taking all orders of a listing lets them leave their lane, and their call is due. -/
theorem changes_takeAll (shared : SharedBook) (listing : Listing) :
    Changes shared (shared.perform (.takeAll listing)) none
      (shared.leaving (.takeAll listing)) := by
  have hkept : ∀ orders : List Pending, orders.filter (fun _ => true) = orders := fun orders =>
    List.filter_eq_self.2 fun _ _ => rfl
  cases hlane : shared.book.lanes.get? listing with
  | none =>
    have htaken : shared.book.takeAll listing = ([], shared.book) := by
      simp only [Book.takeAll, hlane]
    simp only [perform, leaving, takeOut, htaken]
    exact .nothing (fun _ => rfl) rfl rfl rfl
  | some lane =>
    have hpending : shared.book.pending listing = lane.orders := by
      simp only [Book.pending, Book.lane, hlane, Option.getD_some]
    have htaken : shared.book.takeAll listing = (lane.orders,
        shared.book.setLane listing { last := none, retiring := true, orders := [] }) := by
      simp only [Book.takeAll, hlane]
    simp only [perform, leaving, htaken]
    refine changes_takeOut (fun _ => true) ?_ (fun other => ?_) rfl
    · rw [hkept, hpending]
    · simp only [Book.pending, Book.lane_setLane]
      split <;> simp

/-- Every section is of one of the kinds. -/
theorem changes_perform (shared : SharedBook) (step : Book.Section) :
    Changes shared (shared.perform step) (shared.entering? step) (shared.leaving step) := by
  cases step with
  | insert listing order => exact changes_insert shared listing order
  | remove oid => exact changes_remove shared oid
  | modify oid level => exact changes_modify shared oid level
  | contains oid => exact .nothing (fun _ => rfl) rfl rfl rfl
  | setLast listing price =>
    refine .nothing (fun other => ?_) rfl rfl rfl
    simp only [perform, Book.pending, Book.lane_setLast]
    split
    · next heq => rw [heq]
    · rfl
  | takeHits listing price =>
    refine changes_takeOut (·.trigger.hits price) (shared.book.takeHits_fst listing price)
      (fun other => ?_) (shared.book.index_takeHits listing price)
    rw [Book.pending, Book.lane_takeHits]
    split <;> rfl
  | takeAll listing => exact changes_takeAll shared listing
  | unindex ticket =>
    simp only [perform]
    cases hfind : shared.due.find? (·.ticket = ticket) with
    | none => exact .nothing (fun _ => rfl) rfl rfl rfl
    | some call =>
      have hticket : call.ticket = ticket := by simpa using List.find?_some hfind
      exact .settle call (List.mem_of_find?_eq_some hfind) (fun _ => rfl) rfl
        (by rw [hticket]) rfl

/-! ## What holds between sections -/

/-- Whether an order with an id waits at a listing. -/
def Lodges (shared : SharedBook) (listing : Listing) (oid : String) : Prop :=
  ∃ order ∈ shared.book.pending listing, order.oid = oid

/-- The index and the lanes of a book between two sections. -/
structure Orderly (shared : SharedBook) : Prop where
  /-- Whoever waits is indexed, under the listing that it waits at. -/
  indexed : ∀ listing oid, shared.Lodges listing oid →
    shared.book.index.get? oid = some listing
  /-- No id is used twice in a lane. -/
  nodup : ∀ listing, ((shared.book.pending listing).map (·.oid)).Nodup
  /-- An id that is indexed without an order is that of an order that was taken out, and its call
  is due. -/
  stale : ∀ listing oid, shared.book.index.get? oid = some listing →
    shared.Lodges listing oid ∨ ∃ call ∈ shared.due, call.listing = listing ∧ oid ∈ call.oids
  /-- The ids of a call that is due are indexed, and no order waits under them. -/
  held : ∀ call ∈ shared.due, ∀ oid ∈ call.oids,
    shared.book.index.get? oid = some call.listing ∧ ∀ listing, ¬ shared.Lodges listing oid
  /-- No two calls that are due took the same order out. -/
  apart : ∀ call ∈ shared.due, ∀ other ∈ shared.due, ∀ oid ∈ call.oids, oid ∈ other.oids →
    call = other
  /-- No two calls that are due have the same ticket. -/
  tickets : ∀ call ∈ shared.due, ∀ other ∈ shared.due, call.ticket = other.ticket → call = other
  numbered : ∀ call ∈ shared.due, call.ticket < shared.made

/-- The empty book is orderly. -/
theorem orderly_empty : empty.Orderly where
  indexed _ _ h := by simp [Lodges, empty, Book.pending, Book.lane, Book.empty, Lane.fresh] at h
  nodup _ := List.nodup_nil
  stale _ _ h := nomatch h
  held _ h := nomatch h
  apart _ h := nomatch h
  tickets _ h := nomatch h
  numbered _ h := nomatch h

namespace Orderly

/-- An id that is not indexed is free in every lane. -/
theorem not_lodges (h : shared.Orderly) (hfree : shared.book.index.get? oid = none)
    (listing : Listing) : ¬ shared.Lodges listing oid := by
  intro hlodges
  simp [h.indexed listing oid hlodges] at hfree

/-- Nobody waits at two listings. -/
theorem lodges_unique (h : shared.Orderly) (hone : shared.Lodges listing oid)
    (htwo : shared.Lodges other oid) : listing = other := by
  have hsame := (h.indexed listing oid hone).symm.trans (h.indexed other oid htwo)
  exact Option.some.inj hsame

/-- Without an id, the orders that are left are those with other ids. -/
theorem mem_without (h : shared.Orderly) {order : Pending} :
    order ∈ Book.without oid (shared.book.pending listing) ↔
      order ∈ shared.book.pending listing ∧ order.oid ≠ oid := by
  rw [Book.without_eq_filter oid (h.nodup listing)]
  simp

/-- No two orders that are left without an id have the same id. -/
theorem nodup_without (h : shared.Orderly) (listing : Listing) (oid : String) :
    ((Book.without oid (shared.book.pending listing)).map (·.oid)).Nodup := by
  rw [Book.without_eq_filter oid (h.nodup listing)]
  exact (h.nodup listing).sublist (List.Sublist.map _ List.filter_sublist)

/-- A section that leaves the ids of the lanes, the index and the calls alone keeps order. -/
theorem of_same (h : shared.Orderly)
    (hlodges : ∀ listing oid, next.Lodges listing oid ↔ shared.Lodges listing oid)
    (hnodup : ∀ listing, ((next.book.pending listing).map (·.oid)).Nodup)
    (hindex : next.book.index = shared.book.index) (hdue : next.due = shared.due)
    (hmade : next.made = shared.made) : next.Orderly where
  indexed := by simpa only [hlodges, hindex] using h.indexed
  nodup := hnodup
  stale := by simpa only [hlodges, hindex, hdue] using h.stale
  held := by simpa only [hlodges, hindex, hdue] using h.held
  apart := hdue ▸ h.apart
  tickets := hdue ▸ h.tickets
  numbered := hdue ▸ hmade ▸ h.numbered

/-- A book stays orderly when an order with a free id enters. -/
theorem of_enter (h : shared.Orderly) {order : Pending}
    (hfree : shared.book.index.get? order.oid = none)
    (hpending : ∀ other, next.book.pending other =
      if other = listing then shared.book.pending listing ++ [order]
      else shared.book.pending other)
    (hindex : next.book.index = shared.book.index.set order.oid listing)
    (hdue : next.due = shared.due) (hmade : next.made = shared.made) : next.Orderly := by
  have hlodges : ∀ place oid, next.Lodges place oid ↔
      shared.Lodges place oid ∨ place = listing ∧ oid = order.oid := by
    intro place oid
    unfold Lodges
    rw [hpending]
    split
    · next heq =>
      subst heq
      simp [or_and_right, exists_or, eq_comm]
    · next hne => simp [hne]
  have hget : ∀ oid, next.book.index.get? oid =
      if oid = order.oid then some listing else shared.book.index.get? oid := by
    intro oid
    rw [hindex, Table.get?_set]
  -- An id that is not indexed is that of nobody who waits, and of no call that is due.
  have hnone := h.not_lodges hfree
  exact {
    indexed := by
      intro place oid hplace
      rw [hget]
      rcases (hlodges place oid).1 hplace with hold | ⟨rfl, rfl⟩
      · rw [if_neg (by rintro rfl; exact hnone place hold)]
        exact h.indexed place oid hold
      · simp
    nodup := by
      intro place
      rw [hpending]
      split
      · have hnew : order.oid ∉ (shared.book.pending listing).map (·.oid) := by
          intro hmem
          obtain ⟨found, hfound, heq⟩ := List.mem_map.1 hmem
          exact hnone listing ⟨found, hfound, heq⟩
        rw [List.map_append, List.nodup_append]
        refine ⟨h.nodup listing, List.nodup_singleton _, ?_⟩
        rintro oid hoid other hother rfl
        rw [List.map_singleton, List.mem_singleton] at hother
        exact hnew (hother ▸ hoid)
      · exact h.nodup place
    stale := by
      intro place oid hplace
      rw [hget] at hplace
      rw [hlodges, hdue]
      split at hplace
      · next heq =>
        cases hplace
        exact .inl (.inr ⟨rfl, heq⟩)
      · rcases h.stale place oid hplace with hold | hcall
        · exact .inl (.inl hold)
        · exact .inr hcall
    held := by
      intro call hcall oid hoid
      rw [hdue] at hcall
      obtain ⟨hindexed, hout⟩ := h.held call hcall oid hoid
      have hne : oid ≠ order.oid := by
        rintro rfl
        rw [hfree] at hindexed
        cases hindexed
      refine ⟨?_, fun place hplace => ?_⟩
      · rw [hget, if_neg hne]
        exact hindexed
      · rcases (hlodges place oid).1 hplace with hold | ⟨_, heq⟩
        · exact hout place hold
        · exact hne heq
    apart := hdue ▸ h.apart
    tickets := hdue ▸ h.tickets
    numbered := hdue ▸ hmade ▸ h.numbered }

/-- A book stays orderly when an order leaves with its id. -/
theorem of_leave (h : shared.Orderly) {order : Pending}
    (hmem : order ∈ shared.book.pending listing)
    (hpending : ∀ other, next.book.pending other =
      if other = listing then Book.without order.oid (shared.book.pending listing)
      else shared.book.pending other)
    (hindex : next.book.index = shared.book.index.erase order.oid)
    (hdue : next.due = shared.due) (hmade : next.made = shared.made) : next.Orderly := by
  have hlodged : shared.Lodges listing order.oid := ⟨order, hmem, rfl⟩
  have hlodges : ∀ place oid, next.Lodges place oid →
      shared.Lodges place oid ∧ oid ≠ order.oid := by
    rintro place oid ⟨found, hfound, rfl⟩
    rw [hpending] at hfound
    split at hfound
    · next heq =>
      subst heq
      obtain ⟨hfound, hne⟩ := h.mem_without.1 hfound
      exact ⟨⟨found, hfound, rfl⟩, hne⟩
    · next hplace =>
      refine ⟨⟨found, hfound, rfl⟩, fun heq => hplace ?_⟩
      exact h.lodges_unique ⟨found, hfound, heq⟩ hlodged
  have hget : ∀ oid, oid ≠ order.oid →
      next.book.index.get? oid = shared.book.index.get? oid := by
    intro oid hne
    rw [hindex, Table.get?_erase_of_ne _ hne]
  exact {
    indexed := by
      intro place oid hplace
      obtain ⟨hold, hne⟩ := hlodges place oid hplace
      rw [hget oid hne]
      exact h.indexed place oid hold
    nodup := by
      intro place
      rw [hpending]
      split
      · exact h.nodup_without listing order.oid
      · exact h.nodup place
    stale := by
      intro place oid hplace
      have hne : oid ≠ order.oid := by
        rintro rfl
        rw [hindex, Table.get?_erase_self] at hplace
        cases hplace
      rw [hget oid hne] at hplace
      rw [hdue]
      -- Another entry than the erased one belongs to an order that stays, or to a call that is due.
      rcases h.stale place oid hplace with ⟨found, hfound, rfl⟩ | hcall
      · refine .inl ⟨found, ?_, rfl⟩
        rw [hpending]
        split
        · next heq => exact h.mem_without.2 ⟨heq ▸ hfound, hne⟩
        · exact hfound
      · exact .inr hcall
    held := by
      intro call hcall oid hoid
      rw [hdue] at hcall
      obtain ⟨hindexed, hout⟩ := h.held call hcall oid hoid
      have hne : oid ≠ order.oid := by
        rintro rfl
        exact hout listing hlodged
      exact ⟨(hget oid hne).trans hindexed, fun place hplace => hout place (hlodges _ _ hplace).1⟩
    apart := hdue ▸ h.apart
    tickets := hdue ▸ h.tickets
    numbered := hdue ▸ hmade ▸ h.numbered }

/-- A book stays orderly when an order moves to the end of its lane. -/
theorem of_move (h : shared.Orderly) {order moved : Pending}
    (hmem : order ∈ shared.book.pending listing) (hoid : moved.oid = order.oid)
    (hpending : ∀ other, next.book.pending other =
      if other = listing then Book.without order.oid (shared.book.pending listing) ++ [moved]
      else shared.book.pending other)
    (hindex : next.book.index = shared.book.index) (hdue : next.due = shared.due)
    (hmade : next.made = shared.made) : next.Orderly := by
  refine h.of_same (fun place oid => ?_) (fun place => ?_) hindex hdue hmade
  · unfold Lodges
    rw [hpending]
    split
    · next heq =>
      subst heq
      constructor
      · rintro ⟨found, hfound, rfl⟩
        rcases List.mem_append.1 hfound with hfound | hfound
        · exact ⟨found, (h.mem_without.1 hfound).1, rfl⟩
        · rw [List.mem_singleton.1 hfound]
          exact ⟨order, hmem, hoid.symm⟩
      · rintro ⟨found, hfound, rfl⟩
        by_cases heq : found.oid = order.oid
        · exact ⟨moved, by simp, hoid.trans heq.symm⟩
        · exact ⟨found, List.mem_append_left _ (h.mem_without.2 ⟨hfound, heq⟩), rfl⟩
    · rfl
  · rw [hpending]
    split
    · rw [List.map_append, List.nodup_append]
      refine ⟨h.nodup_without listing order.oid, List.nodup_singleton _, ?_⟩
      rintro oid hold other hother rfl
      rw [List.map_singleton, List.mem_singleton, hoid] at hother
      obtain ⟨found, hfound, heq⟩ := List.mem_map.1 hold
      exact (h.mem_without.1 hfound).2 (heq.trans hother)
    · exact h.nodup place

section Take

variable {test : Pending → Bool}

/-- The ids of a call that takes out the orders with some property. -/
theorem mem_oids_of_take (horders : call.orders = (shared.book.pending listing).filter test) :
    oid ∈ call.oids ↔
      ∃ order ∈ shared.book.pending listing, test order = true ∧ order.oid = oid := by
  simp [Book.Call.oids, horders, and_assoc]

/-- The orders of a call that is being made wait at its listing. -/
theorem lodges_of_mem_oids (horders : call.orders = (shared.book.pending listing).filter test)
    (hoid : oid ∈ call.oids) : shared.Lodges listing oid := by
  obtain ⟨order, hmem, _, rfl⟩ := (mem_oids_of_take horders).1 hoid
  exact ⟨order, hmem, rfl⟩

/-- Who waits afterwards waited before, and is not among those that were taken out. -/
theorem lodges_of_take (h : shared.Orderly)
    (horders : call.orders = (shared.book.pending listing).filter test)
    (hpending : ∀ other, next.book.pending other =
      if other = listing then (shared.book.pending listing).filter fun order => !test order
      else shared.book.pending other) (place : Listing) (oid : String) :
    next.Lodges place oid ↔ shared.Lodges place oid ∧ oid ∉ call.oids := by
  constructor
  · rintro ⟨found, hfound, rfl⟩
    rw [hpending] at hfound
    split at hfound
    · next heq =>
      subst heq
      obtain ⟨hmem, hfails⟩ := List.mem_filter.1 hfound
      refine ⟨⟨found, hmem, rfl⟩, fun hoid => ?_⟩
      obtain ⟨order, horder, hpasses, heq⟩ := (mem_oids_of_take horders).1 hoid
      have hsame := List.inj_on_of_nodup_map (h.nodup place) horder hmem heq
      simp [← hsame, hpasses] at hfails
    · next hplace =>
      refine ⟨⟨found, hfound, rfl⟩, fun hoid => hplace ?_⟩
      exact h.lodges_unique ⟨found, hfound, rfl⟩ (lodges_of_mem_oids horders hoid)
  · rintro ⟨⟨found, hfound, rfl⟩, hout⟩
    refine ⟨found, ?_, rfl⟩
    rw [hpending]
    split
    · next heq =>
      subst heq
      have hfails : test found = false := by
        rw [Bool.eq_false_iff]
        exact fun hpasses => hout ((mem_oids_of_take horders).2 ⟨found, hfound, hpasses, rfl⟩)
      exact List.mem_filter.2 ⟨hfound, by rw [hfails]; rfl⟩
    · exact hfound

/-- A book stays orderly when orders leave their lane and their call is due. -/
theorem of_take (h : shared.Orderly) {orders : List Pending}
    (horders : orders = (shared.book.pending listing).filter test)
    (hpending : ∀ other, next.book.pending other =
      if other = listing then (shared.book.pending listing).filter fun order => !test order
      else shared.book.pending other)
    (hindex : next.book.index = shared.book.index)
    (hdue : next.due = shared.due ++ [{ ticket := shared.made, listing, orders }])
    (hmade : next.made = shared.made + 1) : next.Orderly := by
  generalize hcall : ({ ticket := shared.made, listing, orders } : Book.Call) = call at hdue
  have horders : call.orders = (shared.book.pending listing).filter test := hcall ▸ horders
  have hlisting : call.listing = listing := hcall ▸ rfl
  have hlodges := h.lodges_of_take horders hpending
  have hdue' : ∀ other, other ∈ next.due ↔ other ∈ shared.due ∨ other = call := by
    intro other
    rw [hdue, List.mem_append, List.mem_singleton]
  -- Nobody of the new call belongs to an older one.
  have hfresh : ∀ other ∈ shared.due, ∀ oid ∈ other.oids, oid ∉ call.oids := by
    intro other hother oid hoid hnew
    exact (h.held other hother oid hoid).2 listing (lodges_of_mem_oids horders hnew)
  have hticket : ∀ other ∈ shared.due, other.ticket ≠ call.ticket := by
    intro other hother
    rw [← hcall]
    exact Nat.ne_of_lt (h.numbered other hother)
  exact {
    indexed := by
      intro place oid hplace
      rw [hindex]
      exact h.indexed place oid ((hlodges place oid).1 hplace).1
    nodup := by
      intro place
      rw [hpending]
      split
      · exact (h.nodup listing).sublist (List.Sublist.map _ List.filter_sublist)
      · exact h.nodup place
    stale := by
      intro place oid hplace
      rw [hindex] at hplace
      rcases h.stale place oid hplace with hold | ⟨other, hother, hrest⟩
      · by_cases hoid : oid ∈ call.oids
        · have hplace := h.lodges_unique (lodges_of_mem_oids horders hoid) hold
          exact .inr ⟨call, (hdue' call).2 (.inr rfl), hlisting.trans hplace, hoid⟩
        · exact .inl ((hlodges place oid).2 ⟨hold, hoid⟩)
      · exact .inr ⟨other, (hdue' other).2 (.inl hother), hrest⟩
    held := by
      intro other hother oid hoid
      rw [hindex]
      rcases (hdue' other).1 hother with hold | rfl
      · obtain ⟨hindexed, hgone⟩ := h.held other hold oid hoid
        exact ⟨hindexed, fun place hplace => hgone place ((hlodges place oid).1 hplace).1⟩
      · refine ⟨?_, fun place hplace => ((hlodges place oid).1 hplace).2 hoid⟩
        rw [hlisting]
        exact h.indexed listing oid (lodges_of_mem_oids horders hoid)
    apart := by
      intro one hone two htwo oid hoid hoid'
      rcases (hdue' one).1 hone with hone | rfl <;> rcases (hdue' two).1 htwo with htwo | rfl
      · exact h.apart one hone two htwo oid hoid hoid'
      · exact absurd hoid' (hfresh one hone oid hoid)
      · exact absurd hoid (hfresh two htwo oid hoid')
      · rfl
    tickets := by
      intro one hone two htwo heq
      rcases (hdue' one).1 hone with hone | rfl <;> rcases (hdue' two).1 htwo with htwo | rfl
      · exact h.tickets one hone two htwo heq
      · exact absurd heq (hticket one hone)
      · exact absurd heq.symm (hticket two htwo)
      · rfl
    numbered := by
      intro other hother
      rw [hmade]
      rcases (hdue' other).1 hother with hold | rfl
      · exact Nat.lt_succ_of_lt (h.numbered other hold)
      · rw [← hcall]
        exact Nat.lt_succ_self _ }

end Take

/-- Every id of a call that is due is still indexed, so the second section removes just those. -/
theorem of_settle (h : shared.Orderly) (hcall : call ∈ shared.due)
    (hpending : ∀ listing, next.book.pending listing = shared.book.pending listing)
    (hindex : next.book.index = shared.book.index.eraseAll call.oids)
    (hdue : next.due = shared.due.filter (·.ticket ≠ call.ticket))
    (hmade : next.made = shared.made) : next.Orderly := by
  have hlodges : ∀ listing oid, next.Lodges listing oid ↔ shared.Lodges listing oid := by
    simp [Lodges, hpending]
  have hget : ∀ oid, oid ∉ call.oids →
      next.book.index.get? oid = shared.book.index.get? oid := by
    intro oid hnot
    rw [hindex, Table.get?_eraseAll, if_neg hnot]
  have hdue' : ∀ other, other ∈ next.due ↔ other ∈ shared.due ∧ other.ticket ≠ call.ticket := by
    simp [hdue]
  exact {
    indexed := by
      intro listing oid hplace
      have hold := (hlodges listing oid).1 hplace
      rw [hget oid fun hoid => (h.held call hcall oid hoid).2 listing hold]
      exact h.indexed listing oid hold
    nodup := by simpa only [hpending] using h.nodup
    stale := by
      intro listing oid hplace
      have hnot : oid ∉ call.oids := by
        intro hoid
        rw [hindex, Table.get?_eraseAll, if_pos hoid] at hplace
        cases hplace
      rw [hget oid hnot] at hplace
      rcases h.stale listing oid hplace with hold | ⟨other, hother, hlisting, hoid⟩
      · exact .inl ((hlodges listing oid).2 hold)
      · refine .inr ⟨other, (hdue' other).2 ⟨hother, fun heq => hnot ?_⟩, hlisting, hoid⟩
        exact h.tickets other hother call hcall heq ▸ hoid
    held := by
      intro other hother oid hoid
      obtain ⟨hother, hne⟩ := (hdue' other).1 hother
      -- Calls that are due have no id in common, so what this one erases is nobody else's.
      have hnot : oid ∉ call.oids := fun hown =>
        hne (congrArg Book.Call.ticket (h.apart other hother call hcall oid hoid hown))
      obtain ⟨hindexed, hgone⟩ := h.held other hother oid hoid
      exact ⟨(hget oid hnot).trans hindexed,
        fun place hplace => hgone place ((hlodges place oid).1 hplace)⟩
    apart := fun one hone two htwo =>
      h.apart one ((hdue' one).1 hone).1 two ((hdue' two).1 htwo).1
    tickets := fun one hone two htwo =>
      h.tickets one ((hdue' one).1 hone).1 two ((hdue' two).1 htwo).1
    numbered := fun other hother => hmade ▸ h.numbered other ((hdue' other).1 hother).1 }

/-- Whatever a section changes, the book stays orderly. -/
theorem of_changes (h : shared.Orderly) {entering : Option String} {leaving : List Pending}
    (hchanges : Changes shared next entering leaving) : next.Orderly := by
  cases hchanges with
  | nothing hpending hindex hdue hmade =>
    refine h.of_same (fun listing oid => ?_) (fun listing => ?_) hindex hdue hmade
    · simp [Lodges, hpending]
    · rw [hpending]
      exact h.nodup listing
  | enter listing order hfree hpending hindex hdue hmade =>
    exact h.of_enter hfree hpending hindex hdue hmade
  | leave listing order hmem hpending hindex hdue hmade =>
    exact h.of_leave hmem hpending hindex hdue hmade
  | move listing order moved hmem hoid hpending hindex hdue hmade =>
    exact h.of_move hmem hoid hpending hindex hdue hmade
  | take listing test orders horders hpending hindex hdue hmade =>
    exact h.of_take horders hpending hindex hdue hmade
  | settle call hcall hpending hindex hdue hmade =>
    exact h.of_settle hcall hpending hindex hdue hmade

/-- A section keeps a book orderly. -/
theorem perform (h : shared.Orderly) (step : Book.Section) : (shared.perform step).Orderly :=
  h.of_changes (changes_perform shared step)

/-- Sections keep a book orderly. -/
theorem run (h : shared.Orderly) (sections : List Book.Section) :
    (shared.run sections).Orderly := by
  induction sections generalizing shared with
  | nil => exact h
  | cons step rest ih => exact ih (h.perform step)

end Orderly

/-! ## What happens between two sections -/

/-- Sections in a row may be cut anywhere. -/
theorem run_append (shared : SharedBook) (first second : List Book.Section) :
    shared.run (first ++ second) = (shared.run first).run second :=
  List.foldl_append

namespace Changes

variable {entering : Option String} {leaving : List Pending}

/-- An id that enters was not indexed, so no call that is due holds it. -/
theorem not_due (hchanges : Changes shared next entering leaving) (h : shared.Orderly)
    (hentering : entering = some oid) (hcall : call ∈ shared.due) : oid ∉ call.oids := by
  intro hoid
  have hindexed := (h.held call hcall oid hoid).1
  cases hchanges with
  | enter listing order hfree =>
    cases hentering
    rw [hfree] at hindexed
    cases hindexed
  | nothing | leave | move | take | settle => cases hentering

/-- The calls that were made are only ever more. -/
theorem made_le (hchanges : Changes shared next entering leaving) : shared.made ≤ next.made := by
  cases hchanges <;> omega

/-- A call that is due was due before, or is made now. -/
theorem due_or (hchanges : Changes shared next entering leaving) (hdue : call ∈ next.due) :
    call ∈ shared.due ∨ call.ticket = shared.made := by
  cases hchanges with
  | nothing _ _ hsame | enter _ _ _ _ _ hsame | leave _ _ _ _ _ hsame
  | move _ _ _ _ _ _ _ hsame => exact .inl (hsame ▸ hdue)
  | take listing test _ _ _ _ hnext =>
    rw [hnext] at hdue
    rcases List.mem_append.1 hdue with hold | hnew
    · exact .inl hold
    · exact .inr (by rw [List.mem_singleton.1 hnew])
  | settle settled _ _ _ hnext =>
    rw [hnext] at hdue
    exact .inl (List.mem_filter.1 hdue).1

/-- Somebody waited under an id under which somebody waits, or an order enters under it. -/
theorem lodged_or (hchanges : Changes shared next entering leaving)
    (hlodges : next.Lodges listing oid) :
    (∃ other, shared.Lodges other oid) ∨ entering = some oid := by
  obtain ⟨found, hfound, rfl⟩ := hlodges
  cases hchanges with
  | nothing hpending | settle _ _ hpending =>
    rw [hpending] at hfound
    exact .inl ⟨listing, found, hfound, rfl⟩
  | enter place order _ hpending =>
    rw [hpending] at hfound
    split at hfound
    · rcases List.mem_append.1 hfound with hold | hnew
      · exact .inl ⟨place, found, hold, rfl⟩
      · exact .inr (by rw [List.mem_singleton.1 hnew])
    · exact .inl ⟨listing, found, hfound, rfl⟩
  | leave place order _ hpending =>
    rw [hpending] at hfound
    split at hfound
    · exact .inl ⟨place, found, List.mem_of_mem_eraseP hfound, rfl⟩
    · exact .inl ⟨listing, found, hfound, rfl⟩
  | move place order moved hmem hoid hpending =>
    rw [hpending] at hfound
    split at hfound
    · rcases List.mem_append.1 hfound with hold | hnew
      · exact .inl ⟨place, found, List.mem_of_mem_eraseP hold, rfl⟩
      · rw [List.mem_singleton.1 hnew, hoid]
        exact .inl ⟨place, order, hmem, rfl⟩
    · exact .inl ⟨listing, found, hfound, rfl⟩
  | take place test _ _ hpending =>
    rw [hpending] at hfound
    split at hfound
    · exact .inl ⟨place, found, (List.mem_filter.1 hfound).1, rfl⟩
    · exact .inl ⟨listing, found, hfound, rfl⟩

/-- An order that leaves waited somewhere, and nobody waits under its id afterwards. -/
theorem lodged_of_leaving (hchanges : Changes shared next entering leaving) (h : shared.Orderly)
    (hleaving : oid ∈ leaving.map (·.oid)) :
    (∃ listing, shared.Lodges listing oid) ∧ ∀ listing, ¬ next.Lodges listing oid := by
  obtain ⟨order, horder, rfl⟩ := List.mem_map.1 hleaving
  have hnext := h.of_changes hchanges
  cases hchanges with
  | nothing | enter | move | settle => cases horder
  | leave listing left hmem _ hindex =>
    rw [List.mem_singleton.1 horder]
    refine ⟨⟨listing, left, hmem, rfl⟩, hnext.not_lodges ?_⟩
    rw [hindex, Table.get?_erase_self]
  | take listing test _ horders _ _ hdue =>
    have hmem : order ∈ shared.book.pending listing := by
      rw [horders] at horder
      exact (List.mem_filter.1 horder).1
    refine ⟨⟨listing, order, hmem, rfl⟩, ?_⟩
    refine (hnext.held { ticket := shared.made, listing, orders := leaving } ?_ order.oid ?_).2
    · rw [hdue]
      exact List.mem_append_right _ (List.mem_singleton_self _)
    · exact List.mem_map.2 ⟨order, horder, rfl⟩

/-- No call returns two orders under one id. -/
theorem nodup_leaving (hchanges : Changes shared next entering leaving) (h : shared.Orderly) :
    (leaving.map (·.oid)).Nodup := by
  cases hchanges with
  | nothing | enter | move | settle => exact List.nodup_nil
  | leave => exact List.nodup_singleton _
  | take listing test _ horders =>
    rw [horders]
    exact (h.nodup listing).sublist (List.Sublist.map _ List.filter_sublist)

end Changes

/-- A call that is due after some sections and was made before them was due all the while. -/
theorem due_of_run {sections : List Book.Section} (hdue : call ∈ (shared.run sections).due)
    (hmade : call.ticket < shared.made) : call ∈ shared.due := by
  induction sections generalizing shared with
  | nil => exact hdue
  | cons step rest ih =>
    have hchanges := changes_perform shared step
    have hle := hchanges.made_le
    rcases hchanges.due_or (ih hdue (by omega)) with hold | heq
    · exact hold
    · omega

/-- While a call is due, no order enters under an id of it. -/
theorem not_entered_of_due (h : shared.Orderly) {sections : List Book.Section}
    (hdue : call ∈ (shared.run sections).due) (hmade : call.ticket < shared.made)
    (hoid : oid ∈ call.oids) : oid ∉ shared.entered sections := by
  induction sections generalizing shared with
  | nil => exact List.not_mem_nil
  | cons step rest ih =>
    have hchanges := changes_perform shared step
    have hle := hchanges.made_le
    have hhere := due_of_run hdue hmade
    rw [entered, List.mem_append, not_or]
    refine ⟨fun hmem => ?_, ih (h.perform step) hdue (by omega)⟩
    exact hchanges.not_due h (by simpa using hmem) hhere hoid

/-- Where nobody waits under an id, somebody does later only when an order entered under it. -/
theorem entered_of_lodges {sections : List Book.Section}
    (hfree : ∀ listing, ¬ shared.Lodges listing oid)
    (hlodges : (shared.run sections).Lodges listing oid) : oid ∈ shared.entered sections := by
  induction sections generalizing shared with
  | nil => exact absurd hlodges (hfree listing)
  | cons step rest ih =>
    rw [entered, List.mem_append]
    by_cases hstep : shared.entering? step = some oid
    · exact .inl (by simp [hstep])
    · refine .inr (ih (fun other hother => ?_) hlodges)
      rcases (changes_perform shared step).lodged_or hother with ⟨place, hplace⟩ | hentering
      · exact hfree place hplace
      · exact hstep hentering

/-! ## Every interleaving -/

/-- What holds after some sections of an empty book. -/
structure Safe (sections : List Book.Section) : Prop where
  /-- Every order is indexed under its listing, and under no other. -/
  indexed : ∀ listing, ∀ order ∈ (empty.run sections).book.pending listing,
    (empty.run sections).book.index.get? order.oid = some listing
  /-- No two orders have the same id, in one lane or in two. -/
  unique : ∀ listing other, ∀ order ∈ (empty.run sections).book.pending listing,
    ∀ found ∈ (empty.run sections).book.pending other, order.oid = found.oid →
    listing = other ∧ order = found
  nodup : ∀ listing, ((empty.run sections).book.pending listing).Nodup
  /-- Whatever else is indexed belongs to an order that was taken out and whose second section is
  due. -/
  stale : ∀ listing oid, (empty.run sections).book.index.get? oid = some listing →
    (∀ order ∈ (empty.run sections).book.pending listing, order.oid ≠ oid) →
    ∃ call ∈ (empty.run sections).due, call.listing = listing ∧ oid ∈ call.oids
  /-- The second section of a call removes the entries of its own orders and no others. -/
  removed : ∀ call ∈ (empty.run sections).due, ∀ oid,
    ((empty.run sections).perform (.unindex call.ticket)).book.index.get? oid =
      if oid ∈ call.oids then none else (empty.run sections).book.index.get? oid
  /-- These are the entries that they had when they were taken out: nobody waits under their ids,
  and none was inserted under them since the call was made. -/
  own : ∀ call ∈ (empty.run sections).due, ∀ oid ∈ call.oids,
    (∀ listing, ∀ order ∈ (empty.run sections).book.pending listing, order.oid ≠ oid) ∧
    ∀ first later, sections = first ++ later → call.ticket < (empty.run first).made →
      oid ∉ (empty.run first).entered later
  /-- Two calls that return orders under one id return different orders: the second was inserted
  after the first left. -/
  once : ∀ first step between again later oid,
    sections = first ++ step :: (between ++ again :: later) →
    oid ∈ ((empty.run first).leaving step).map (·.oid) →
    oid ∈ ((empty.run (first ++ step :: between)).leaving again).map (·.oid) →
    oid ∈ (empty.run (first ++ [step])).entered between
  /-- And no call returns two orders under one id. -/
  distinct : ∀ step, (((empty.run sections).leaving step).map (·.oid)).Nodup
  /-- When no call is between its sections, the index has just the ids of the orders. -/
  settled : (empty.run sections).due = [] → ∀ oid,
    (empty.run sections).book.contains oid = true ↔
      ∃ listing, ∃ order ∈ (empty.run sections).book.pending listing, order.oid = oid

/-- The second section of a call that is due finds it. -/
theorem Orderly.perform_unindex (h : shared.Orderly) (hcall : call ∈ shared.due) :
    shared.perform (.unindex call.ticket) =
      { shared with
        book := Book.unindex call.orders shared.book
        due := shared.due.filter (·.ticket ≠ call.ticket) } := by
  have hfind : shared.due.find? (·.ticket = call.ticket) = some call := by
    cases hfound : shared.due.find? (·.ticket = call.ticket) with
    | none => simpa using List.find?_eq_none.1 hfound call hcall
    | some found =>
      have hticket : found.ticket = call.ticket := by simpa using List.find?_some hfound
      exact congrArg some (h.tickets found (List.mem_of_find?_eq_some hfound) call hcall hticket)
  simp only [SharedBook.perform, hfind]

/-- With nothing in between, the two sections of a call are the whole of it. -/
theorem run_takeOut (h : shared.Orderly) (step : Book.Section) {taken : List Pending × Book}
    (hstep : shared.perform step = shared.takeOut listing taken) :
    (shared.run [step, .unindex shared.made]).book = Book.unindex taken.1 taken.2 ∧
      (shared.run [step, .unindex shared.made]).due = shared.due := by
  -- Tickets that are due are below the next one, so the call that is made is the only one with it.
  have hnone : shared.due.find? (·.ticket = shared.made) = none := by
    refine List.find?_eq_none.2 fun call hcall => ?_
    have hlt := h.numbered call hcall
    simp only [decide_eq_true_eq]
    omega
  have hkept : shared.due.filter (·.ticket ≠ shared.made) = shared.due := by
    refine List.filter_eq_self.2 fun call hcall => ?_
    have hlt := h.numbered call hcall
    simp only [ne_eq, decide_not, Bool.not_eq_true', decide_eq_false_iff_not]
    omega
  show ((shared.perform step).perform (.unindex shared.made)).book = _ ∧
    ((shared.perform step).perform (.unindex shared.made)).due = _
  rw [hstep]
  unfold takeOut
  split
  · next hempty =>
    rw [List.isEmpty_iff] at hempty
    simp only [SharedBook.perform, hnone, hempty]
    exact ⟨rfl, trivial⟩
  · let call : Book.Call := { ticket := shared.made, listing, orders := taken.1 }
    have hfind : (shared.due ++ [call]).find? (·.ticket = shared.made) = some call := by
      rw [List.find?_append, hnone]
      simp [call]
    show (SharedBook.perform ⟨taken.2, shared.made + 1, shared.due ++ [call]⟩ _).book = _ ∧
      (SharedBook.perform ⟨taken.2, shared.made + 1, shared.due ++ [call]⟩ _).due = _
    simp only [SharedBook.perform, hfind, List.filter_append, hkept]
    exact ⟨rfl, by simp [call]⟩

/-- Evaluating a price is its two sections, one after the other. -/
theorem run_evaluate (h : shared.Orderly) (listing : Listing) (price : Float) :
    (shared.run [.takeHits listing price, .unindex shared.made]).book =
        (shared.book.evaluate listing price).2 ∧
      (shared.run [.takeHits listing price, .unindex shared.made]).due = shared.due :=
  run_takeOut h (.takeHits listing price) rfl

/-- Retiring a listing is its two sections, one after the other. -/
theorem run_retire (h : shared.Orderly) (listing : Listing) :
    (shared.run [.takeAll listing, .unindex shared.made]).book =
        (shared.book.retire listing).2 ∧
      (shared.run [.takeAll listing, .unindex shared.made]).due = shared.due :=
  run_takeOut h (.takeAll listing) rfl

/-- In every interleaving of lock sections the index and the lanes belong together, and the second
sections of calls remove what their first sections took out, and nothing else. -/
theorem sections_along (sections : List Book.Section) : Safe sections := by
  have h : (empty.run sections).Orderly := orderly_empty.run sections
  exact {
    indexed := fun listing order horder => h.indexed listing order.oid ⟨order, horder, rfl⟩
    unique := by
      intro listing other order horder found hfound hoid
      have hplace := h.lodges_unique ⟨order, horder, hoid⟩ ⟨found, hfound, rfl⟩
      subst hplace
      exact ⟨rfl, List.inj_on_of_nodup_map (h.nodup listing) horder hfound hoid⟩
    nodup := fun listing => (h.nodup listing).of_map _
    stale := by
      intro listing oid hindexed hnone
      rcases h.stale listing oid hindexed with ⟨order, horder, hoid⟩ | hcall
      · exact absurd hoid (hnone order horder)
      · exact hcall
    removed := by
      intro call hcall oid
      rw [h.perform_unindex hcall]
      exact Table.get?_eraseAll _ call.oids oid
    own := by
      intro call hcall oid hoid
      refine ⟨fun listing order horder heq => ?_, fun first later hsplit hmade => ?_⟩
      · exact (h.held call hcall oid hoid).2 listing ⟨order, horder, heq⟩
      · rw [hsplit, run_append] at hcall
        exact not_entered_of_due (orderly_empty.run first) hcall hmade hoid
    once := by
      intro first step between again later oid _ hleft hagain
      have hbefore := orderly_empty.run first
      -- Nobody waits under the id after the first call, and somebody does before the second.
      have hgone := ((changes_perform _ step).lodged_of_leaving hbefore hleft).2
      obtain ⟨⟨listing, hlodges⟩, _⟩ := (changes_perform _ again).lodged_of_leaving
        (orderly_empty.run _) hagain
      rw [run_append] at hlodges ⊢
      exact entered_of_lodges hgone hlodges
    distinct := fun step => (changes_perform _ step).nodup_leaving h
    settled := by
      intro hnone oid
      rw [Book.contains, Table.contains, Option.isSome_iff_exists]
      constructor
      · rintro ⟨listing, hindexed⟩
        rcases h.stale listing oid hindexed with hlodges | ⟨call, hcall, _⟩
        · exact ⟨listing, hlodges⟩
        · rw [hnone] at hcall
          cases hcall
      · rintro ⟨listing, hlodges⟩
        exact ⟨listing, h.indexed listing oid hlodges⟩ }

end SharedBook

end TriggerDesk
