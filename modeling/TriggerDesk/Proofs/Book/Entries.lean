import TriggerDesk.Proofs.Book.Refinement

/-!
# What operations do to the list

The list of pending orders behind a book, before and after each operation that succeeds. This is
the form in which the rest of the theory uses the refinement: a book that a roster describes is
described by another roster afterwards, and only the entries are said.
-/

namespace TriggerDesk

open Market TriggerDesk.Order

namespace Roster.Describes

variable {roster : Roster} {book next : Book} {listing : Listing} {oid : String} {order : Pending}
  {orders : List Pending}

/-- A book with the same lanes and the same index has the same orders. -/
theorem of_alike (h : roster.Describes book)
    (hlane : ∀ listing, next.lane listing = book.lane listing) (hindex : next.index = book.index) :
    ∃ later : Roster, later.Describes next ∧ later.entries = roster.entries :=
  ⟨{ roster with known := fun listing => (next.lanes.get? listing).isSome },
    { lane := fun listing => (hlane listing).trans (h.lane listing)
      known := fun _ => rfl
      index := hindex ▸ h.index
      nodup := h.nodup
      live := h.live
      lost := h.lost }, rfl⟩

/-- An order that is inserted was not there, and comes to the end. -/
theorem of_insert (h : roster.Describes book)
    (hinsert : book.insert listing order = (.ok (), next)) :
    roster.contains order.oid = false ∧
      ∃ later : Roster, later.Describes next ∧
        later.entries = roster.entries ++ [(listing, order)] := by
  obtain ⟨hresult, hnext⟩ := h.insert listing order
  rw [hinsert] at hresult hnext
  unfold Roster.insert at hresult hnext
  split at hresult
  · cases hresult
  · next hfree =>
    split at hresult
    · cases hresult
    · next hlive =>
      rw [if_neg hfree, if_neg hlive] at hnext
      exact ⟨by simpa using hfree, _, hnext, rfl⟩

/-- An order that is removed was there, and the others stay in their order. -/
theorem of_remove (h : roster.Describes book) (hremove : book.remove oid = some (order, next)) :
    ∃ listing, (listing, order) ∈ roster.entries ∧ order.oid = oid ∧
      ∃ later : Roster, later.Describes next ∧ later.entries = roster.without oid := by
  rcases h.remove oid with ⟨hnone, _⟩ | ⟨order', book', later, hbook, hroster, hnext⟩
  · rw [hremove] at hnone
    cases hnone
  · rw [hremove] at hbook
    cases hbook
    obtain ⟨⟨listing, found⟩, hfind, hroster⟩ := Option.bind_eq_some_iff.1 hroster
    cases hroster
    exact ⟨listing, List.mem_of_find?_eq_some hfind, by simpa using List.find?_some hfind, _,
      hnext, rfl⟩

/-- An order that is moved was there, and comes to the end, armed at the last price of its
listing. -/
theorem of_modify (h : roster.Describes book) {level : Float} {moved : Book.Moved}
    (hmodify : book.modify oid level = some moved) :
    ∃ listing old last, (listing, old) ∈ roster.entries ∧ old.oid = oid ∧
      book.last? listing = some last ∧ moved.order = old.moveTo level last ∧
      ∃ later : Roster, later.Describes moved.book ∧
        later.entries = roster.without oid ++ [(listing, moved.order)] := by
  rcases h.modify oid level with ⟨hnone, _⟩ | ⟨moved', later, hbook, hroster, hnext⟩
  · rw [hmodify] at hnone
    cases hnone
  · rw [hmodify] at hbook
    cases hbook
    obtain ⟨⟨listing, old⟩, hfind, hroster⟩ := Option.bind_eq_some_iff.1 hroster
    obtain ⟨last, hlast, hroster⟩ := Option.bind_eq_some_iff.1 hroster
    simp only [Option.pure_def, Option.some.injEq, Prod.mk.injEq] at hroster
    obtain ⟨⟨_, horder⟩, hlater⟩ := hroster
    refine ⟨listing, old, last, List.mem_of_find?_eq_some hfind,
      by simpa using List.find?_some hfind, (h.last_eq listing).trans hlast, horder.symm, later,
      hnext, ?_⟩
    rw [← hlater, ← horder]

/-- A price takes the entries out that it hits, and leaves the others in their order. -/
theorem of_evaluate (h : roster.Describes book) {price : Float}
    (hevaluate : book.evaluate listing price = (orders, next)) :
    orders = (roster.entries.filter (isHit listing price)).map (·.2) ∧
      ∃ later : Roster, later.Describes next ∧
        later.entries = roster.entries.filter fun entry => !isHit listing price entry := by
  obtain ⟨hresult, hnext⟩ := h.evaluate listing price
  rw [hevaluate] at hresult hnext
  exact ⟨hresult, _, hnext, rfl⟩

/-- The loss of a feed takes the entries of its listing out, and leaves the others in their
order. -/
theorem of_retire (h : roster.Describes book) (hlast : book.last? listing ≠ none)
    (hretire : book.retire listing = (orders, next)) :
    orders = (roster.entries.filter (decide <| ·.1 = listing)).map (·.2) ∧
      ∃ later : Roster, later.Describes next ∧
        later.entries = roster.entries.filter fun entry => !decide (entry.1 = listing) := by
  have hknown : roster.known listing = true := by
    rw [← h.known]
    cases hget : book.lanes.get? listing with
    | some _ => rfl
    | none =>
      rw [Book.last?, Book.lane, hget] at hlast
      exact absurd rfl hlast
  obtain ⟨hresult, hnext⟩ := h.retire hknown
  rw [hretire] at hresult hnext
  refine ⟨hresult, _, hnext, ?_⟩
  simp only [Roster.retire, ne_eq, decide_not]

/-! ## What waits at a listing -/

/-- Without an id, the orders of a listing are those of other ids. -/
theorem pending_without (h : roster.Describes book) (oid : String) (listing : Listing) :
    ordersAt listing (roster.without oid) = (book.pending listing).filter (·.oid ≠ oid) := by
  rw [without, ordersAt_filter, h.pending_eq]
  rfl

/-- An order waits at one listing only. -/
theorem pending_without_of_ne (h : roster.Describes book)
    (hmem : (listing, order) ∈ roster.entries) (hoid : order.oid = oid) {other : Listing}
    (hne : other ≠ listing) :
    (book.pending other).filter (·.oid ≠ oid) = book.pending other := by
  rw [← h.pending_without, h.ordersAt_without hmem hoid, if_neg hne, h.pending_eq]

/-- At a listing wait the orders from before, and behind them the one that is inserted there. -/
theorem pending_of_insert (h : roster.Describes book)
    (hinsert : book.insert listing order = (.ok (), next)) (other : Listing) :
    next.pending other = book.pending other ++ if listing = other then [order] else [] := by
  obtain ⟨_, later, hlater, hentries⟩ := h.of_insert hinsert
  rw [hlater.pending_eq, h.pending_eq, pending, hentries, ordersAt_append, ordersAt_singleton,
    pending]

/-- At a listing wait the orders from before, but for the one that is removed. -/
theorem pending_of_remove (h : roster.Describes book)
    (hremove : book.remove oid = some (order, next)) (other : Listing) :
    next.pending other = (book.pending other).filter (·.oid ≠ order.oid) := by
  obtain ⟨_, _, hoid, later, hlater, hentries⟩ := h.of_remove hremove
  rw [hlater.pending_eq, pending, hentries, h.pending_without, hoid]

/-- An order that is moved comes last at its listing. -/
theorem pending_of_modify (h : roster.Describes book) {level : Float} {moved : Book.Moved}
    (hmodify : book.modify oid level = some moved) :
    ∃ listing old last, (listing, old) ∈ roster.entries ∧ book.last? listing = some last ∧
      moved.order = old.moveTo level last ∧ ∀ other, moved.book.pending other =
        (book.pending other).filter (·.oid ≠ moved.order.oid) ++
          if listing = other then [moved.order] else [] := by
  obtain ⟨listing, old, last, hmem, hoid, hlast, horder, later, hlater, hentries⟩ :=
    h.of_modify hmodify
  have hmoved : moved.order.oid = oid := by
    rw [horder]
    exact hoid
  refine ⟨listing, old, last, hmem, hlast, horder, fun other => ?_⟩
  rw [hlater.pending_eq, pending, hentries, ordersAt_append, ordersAt_singleton,
    h.pending_without, hmoved]

/-- The entry of an id is the only one. -/
theorem filter_oid (h : roster.Describes book) (hmem : (listing, order) ∈ roster.entries)
    (hoid : order.oid = oid) :
    roster.entries.filter (decide <| ·.2.oid = oid) = [(listing, order)] := by
  have hnone : (roster.without oid).filter (decide <| ·.2.oid = oid) = [] := by
    refine List.filter_eq_nil_iff.2 fun entry hentry => ?_
    simpa using (List.mem_filter.1 hentry).2
  have hperm := (h.perm_without hmem hoid).filter (decide <| ·.2.oid = oid)
  rw [List.filter_append, hnone, List.nil_append] at hperm
  simpa [hoid] using hperm

end Roster.Describes

end TriggerDesk
