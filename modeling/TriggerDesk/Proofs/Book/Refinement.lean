import TriggerDesk.Proofs.Book.Roster

/-!
# The book refines the roster

`Roster.Describes` relates a book to the roster with the same orders. Every operation keeps the
relation and is answered alike on both sides (`Roster.Describes.perform`), so a whole run is
(`Book.run_eq_roster_run`).
-/

namespace TriggerDesk

open Market TriggerDesk.Order

namespace Roster

variable {roster : Roster} {book : Book} {listing other : Listing} {oid : String}
  {order : Pending} {entry : Listing × Pending}

/-! ## Entries and the orders of a listing -/

/-- The orders of a listing are those that have an entry there. -/
theorem mem_ordersAt {entries : List (Listing × Pending)} :
    order ∈ ordersAt listing entries ↔ (listing, order) ∈ entries := by
  simp only [ordersAt, List.mem_map, List.mem_filter, decide_eq_true_eq]
  constructor
  · rintro ⟨⟨_, _⟩, ⟨hmem, rfl⟩, rfl⟩
    exact hmem
  · exact fun h => ⟨_, ⟨h, rfl⟩, rfl⟩

/-- Orders of entries in a row are in the same row. -/
theorem ordersAt_append (first second : List (Listing × Pending)) :
    ordersAt listing (first ++ second) = ordersAt listing first ++ ordersAt listing second := by
  simp [ordersAt]

/-- An entry is an order of its own listing only. -/
theorem ordersAt_singleton :
    ordersAt listing [entry] = if entry.1 = listing then [entry.2] else [] := by
  by_cases h : entry.1 = listing <;> simp [ordersAt, h]

/-- The orders of a listing among the entries that pass a test. -/
theorem ordersAt_filter (entries : List (Listing × Pending)) (test : Listing × Pending → Bool) :
    ordersAt listing (entries.filter test) =
      (ordersAt listing entries).filter fun order => test (listing, order) := by
  simp only [ordersAt, List.filter_map, List.filter_filter]
  congr 1
  apply List.filter_congr
  rintro ⟨place, order⟩ _
  by_cases h : place = listing <;> simp [h]

/-- What a book with the same orders holds for a listing. -/
def lane (roster : Roster) (listing : Listing) : Lane :=
  { last := roster.last listing
    retiring := roster.retiring listing
    orders := roster.pending listing }

/-- The id of an order with its listing. -/
def tag (entry : Listing × Pending) : String × Listing := (entry.2.oid, entry.1)

/-- The book has the orders of the roster, in lanes and with an index. -/
structure Describes (roster : Roster) (book : Book) : Prop where
  lane : ∀ listing, book.lane listing = roster.lane listing
  known : ∀ listing, (book.lanes.get? listing).isSome = roster.known listing
  index : book.index.entries.Perm (roster.entries.map tag)
  /-- No id is used twice. -/
  nodup : (roster.entries.map (·.2.oid)).Nodup
  /-- A listing without a last price has no orders. -/
  live : ∀ entry ∈ roster.entries, roster.last entry.1 ≠ none
  /-- A listing whose feed was lost and not replaced has no last price. -/
  lost : ∀ listing, roster.retiring listing = true → roster.last listing = none

/-- The empty roster describes the empty book. -/
theorem describes_empty : empty.Describes Book.empty where
  lane _ := rfl
  known _ := rfl
  index := List.Perm.refl _
  nodup := List.nodup_nil
  live _ h := nomatch h
  lost _ h := nomatch h

namespace Describes

/-! ## Finding an order -/

/-- The index of a described book is well formed. -/
theorem wellFormed_index (h : roster.Describes book) : book.index.WellFormed := by
  have hkeys : book.index.keys.Perm (roster.entries.map (·.2.oid)) := by
    simpa [Table.keys, tag, Function.comp_def] using h.index.map (·.1)
  exact hkeys.nodup_iff.2 h.nodup

/-- The index has the listing of every order, and nothing else. -/
theorem index_eq_some (h : roster.Describes book) :
    book.index.get? oid = some listing ↔
      ∃ order, (listing, order) ∈ roster.entries ∧ order.oid = oid := by
  rw [h.wellFormed_index.get?_eq_some_iff, h.index.mem_iff, List.mem_map]
  constructor
  · rintro ⟨⟨place, order⟩, hmem, htag⟩
    cases htag
    exact ⟨order, hmem, rfl⟩
  · rintro ⟨order, hmem, rfl⟩
    exact ⟨_, hmem, rfl⟩

/-- An id is in use in the book exactly when it is in the roster. -/
theorem contains_eq (h : roster.Describes book) (oid : String) :
    book.contains oid = roster.contains oid := by
  rw [Book.contains, Table.contains_eq_any, h.index.any_eq, List.any_map]
  rfl

/-- As many ids are in use as the roster has entries. -/
theorem size_eq (h : roster.Describes book) : book.size = roster.entries.length := by
  rw [Book.size, Table.size, h.index.length_eq, List.length_map]

/-- The orders of a listing are those of the roster, in the same order. -/
theorem pending_eq (h : roster.Describes book) (listing : Listing) :
    book.pending listing = roster.pending listing := by
  rw [Book.pending, h.lane]
  rfl

/-- An order waits at a listing exactly when it has an entry there. -/
theorem mem_pending (h : roster.Describes book) {listing : Listing} {order : Pending} :
    order ∈ book.pending listing ↔ (listing, order) ∈ roster.entries := by
  rw [h.pending_eq]
  exact mem_ordersAt

/-- A listing has the same last price in both. -/
theorem last_eq (h : roster.Describes book) (listing : Listing) :
    book.last? listing = roster.last listing := by
  rw [Book.last?, h.lane]
  rfl

/-- A listing is marked in both or in neither. -/
theorem isRetiring_eq (h : roster.Describes book) (listing : Listing) :
    book.isRetiring listing = roster.retiring listing := by
  rw [Book.isRetiring, h.lane]
  rfl

/-- An id belongs to one entry only. -/
theorem eq_of_oid (h : roster.Describes book) {first second : Listing × Pending}
    (hfirst : first ∈ roster.entries) (hsecond : second ∈ roster.entries)
    (hoid : first.2.oid = second.2.oid) : first = second :=
  List.inj_on_of_nodup_map h.nodup hfirst hsecond hoid

/-- An order is found in the book exactly as in the roster. -/
theorem find?_eq (h : roster.Describes book) (oid : String) :
    book.find? oid = roster.find? oid := by
  cases hfind : roster.find? oid with
  | none =>
    have hnone : book.index.get? oid = none := by
      rw [Option.eq_none_iff_forall_ne_some]
      intro listing hindex
      obtain ⟨order, hmem, hoid⟩ := h.index_eq_some.1 hindex
      have hno := List.find?_eq_none.1 hfind _ hmem
      simp [hoid] at hno
    simp [Book.find?, hnone]
  | some entry =>
    obtain ⟨listing, order⟩ := entry
    have hmem : (listing, order) ∈ roster.entries := List.mem_of_find?_eq_some hfind
    have hoid : order.oid = oid := by simpa using List.find?_some hfind
    have hindex : book.index.get? oid = some listing := h.index_eq_some.2 ⟨order, hmem, hoid⟩
    have horder : (book.pending listing).find? (·.oid = oid) = some order := by
      rw [h.pending_eq]
      obtain ⟨found, hfound⟩ : ∃ found, (roster.pending listing).find? (·.oid = oid) = some found :=
        Option.isSome_iff_exists.1 <| List.find?_isSome.2
          ⟨order, mem_ordersAt.2 hmem, by simpa using hoid⟩
      have hsame : found.oid = oid := by simpa using List.find?_some hfound
      have hentry := mem_ordersAt.1 (List.mem_of_find?_eq_some hfound)
      cases h.eq_of_oid hmem hentry (hoid.trans hsame.symm)
      exact hfound
    simp [Book.find?, hindex, horder]

/-! ## Placing and taking out an order -/

/-- No two orders of a listing have the same id. -/
theorem nodup_ordersAt (h : roster.Describes book) (listing : Listing) :
    ((ordersAt listing roster.entries).map (·.oid)).Nodup := by
  have hsub : ((ordersAt listing roster.entries).map (·.oid)).Sublist
      (roster.entries.map (·.2.oid)) := by
    rw [ordersAt, List.map_map]
    exact List.filter_sublist.map _
  exact h.nodup.sublist hsub

/-- Without an order, its lane has lost it and the others are as before. -/
theorem ordersAt_without (h : roster.Describes book) (hmem : (listing, order) ∈ roster.entries)
    (hoid : order.oid = oid) (other : Listing) :
    ordersAt other (roster.without oid) =
      if other = listing then Book.without oid (roster.pending listing)
      else roster.pending other := by
  rw [without, ordersAt_filter]
  split
  · next heq =>
    subst heq
    exact (Book.without_eq_filter oid (h.nodup_ordersAt other)).symm
  · next hne =>
    refine List.filter_eq_self.2 fun found hfound => ?_
    have hother : found.oid ≠ oid := by
      rintro rfl
      cases h.eq_of_oid hmem (mem_ordersAt.1 hfound) hoid
      exact hne rfl
    simpa using hother

/-- The list is what is left without an order, and that order. -/
theorem perm_without (h : roster.Describes book) (hmem : (listing, order) ∈ roster.entries)
    (hoid : order.oid = oid) :
    roster.entries.Perm (roster.without oid ++ [(listing, order)]) := by
  -- No other entry has the id, so to drop the id is to drop the entry.
  have herase : roster.entries.erase (listing, order) = roster.without oid := by
    rw [(List.Nodup.of_map _ h.nodup).erase_eq_filter, without]
    apply List.filter_congr
    intro entry hentry
    have hiff : entry = (listing, order) ↔ entry.2.oid = oid := by
      constructor
      · rintro rfl
        exact hoid
      · exact fun he => h.eq_of_oid hentry hmem (he.trans hoid.symm)
    rw [Bool.eq_iff_iff, bne_iff_ne, decide_eq_true_eq, Ne, Ne, hiff]
  calc roster.entries
    _ |>.Perm ((listing, order) :: roster.entries.erase (listing, order)) :=
        List.perm_cons_erase hmem
    _ |>.Perm (roster.entries.erase (listing, order) ++ [(listing, order)]) :=
        (List.perm_append_singleton _ _).symm
    _ = roster.without oid ++ [(listing, order)] := by rw [herase]

/-- A listing has a lane once one is set. -/
theorem known_setLane (h : roster.Describes book) (listing other : Listing) (lane : Lane) :
    ((book.setLane listing lane).lanes.get? other).isSome = (roster.meet listing).known other := by
  simp only [Roster.meet, Book.setLane, Table.get?_set, Function.update_apply]
  split
  · rfl
  · exact h.known other

/-- A listing that gets a lane shows what it showed before. -/
theorem meet (h : roster.Describes book) (listing : Listing) :
    (roster.meet listing).Describes (book.setLane listing (book.lane listing)) where
  lane other := by
    rw [Book.lane_setLane]
    split
    · next heq => exact heq ▸ h.lane listing
    · exact h.lane other
  known other := h.known_setLane listing other _
  index := h.index
  nodup := h.nodup
  live := h.live
  lost := h.lost

/-- An order with a free id enters the lane of a listing with a last price. -/
theorem append (h : roster.Describes book) (hfree : book.contains order.oid = false)
    (hlive : roster.last listing ≠ none) :
    { roster.meet listing with entries := roster.entries ++ [(listing, order)] }.Describes
      { lanes := book.lanes.set listing
          { book.lane listing with orders := (book.lane listing).orders ++ [order] }
        index := book.index.set order.oid listing } where
  lane other := by
    show (book.setLane listing _).lane other = _
    rw [Book.lane_setLane, Roster.lane, pending, ordersAt_append, ordersAt_singleton]
    by_cases hother : other = listing
    · subst hother
      rw [if_pos rfl, if_pos rfl, h.lane]
      rfl
    · rw [if_neg hother, if_neg (Ne.symm hother), List.append_nil]
      exact h.lane other
  known other := h.known_setLane listing other _
  index := by
    rw [Table.entries_set_of_not_contains hfree, List.map_append]
    exact h.index.append_right _
  nodup := by
    -- The id is free, so no entry has it.
    rw [h.contains_eq] at hfree
    rw [List.map_append, List.map_singleton, ← List.concat_eq_append]
    refine h.nodup.concat fun hmem => ?_
    obtain ⟨entry, hentry, hoid⟩ := List.mem_map.1 hmem
    have hno := List.any_eq_false.1 hfree entry hentry
    simp [hoid] at hno
  live entry hentry := by
    rcases List.mem_append.1 hentry with hentry | hentry
    · exact h.live entry hentry
    · cases List.mem_singleton.1 hentry
      exact hlive
  lost := h.lost

/-- Both sides take an order or refuse it for the same reason. -/
theorem insert (h : roster.Describes book) (listing : Listing) (order : Pending) :
    (book.insert listing order).1 = (roster.insert listing order).1 ∧
      (roster.insert listing order).2.Describes (book.insert listing order).2 := by
  unfold Book.insert Roster.insert
  rw [← h.contains_eq, ← h.last_eq, Book.last?]
  by_cases hused : book.contains order.oid
  · rw [if_pos hused, if_pos hused]
    exact ⟨rfl, h⟩
  -- An order with a free id makes its listing known even when it is refused.
  by_cases hnone : (book.lane listing).last.isNone
  · rw [if_neg hused, if_neg hused, if_pos hnone, if_pos hnone]
    exact ⟨rfl, h.meet listing⟩
  · have hlive : roster.last listing ≠ none := by
      rw [← h.last_eq, Book.last?]
      simpa using hnone
    rw [if_neg hused, if_neg hused, if_neg hnone, if_neg hnone]
    exact ⟨rfl, h.append (by simpa using hused) hlive⟩

/-- A listing with orders has a lane. -/
theorem known_of_mem (h : roster.Describes book) (hmem : (listing, order) ∈ roster.entries) :
    roster.known listing = true := by
  have hpending : order ∈ (book.lane listing).orders := by
    rw [h.lane]
    exact mem_ordersAt.2 hmem
  rw [← h.known]
  cases hget : book.lanes.get? listing with
  | some _ => rfl
  | none =>
    rw [Book.lane, hget] at hpending
    exact absurd hpending List.not_mem_nil

/-- A listing that is known is not met again. -/
theorem meet_of_known (hknown : roster.known listing = true) : roster.meet listing = roster := by
  have hupdate : Function.update roster.known listing true = roster.known := by
    rw [← hknown]
    exact Function.update_eq_self listing _
  rw [Roster.meet, hupdate]

/-- Both sides give the same order out, if any. -/
theorem remove (h : roster.Describes book) (oid : String) :
    (book.remove oid = none ∧ roster.remove oid = none) ∨
      ∃ order book' roster', book.remove oid = some (order, book') ∧
        roster.remove oid = some (order, roster') ∧ roster'.Describes book' := by
  unfold Book.remove Roster.remove
  rw [h.find?_eq]
  cases hfind : roster.find? oid with
  | none => exact .inl ⟨rfl, rfl⟩
  | some entry =>
    obtain ⟨listing, order⟩ := entry
    have hmem : (listing, order) ∈ roster.entries := List.mem_of_find?_eq_some hfind
    have hoid : order.oid = oid := by simpa using List.find?_some hfind
    refine .inr ⟨order, _, _, rfl, rfl, ?_⟩
    exact {
      lane := by
        intro other
        show (book.setLane listing _).lane other = _
        rw [Book.lane_setLane, Roster.lane, Roster.pending, h.ordersAt_without hmem hoid]
        split
        · next heq =>
          subst heq
          rw [h.lane]
          rfl
        · exact h.lane other
      known := by
        intro other
        rw [← meet_of_known (h.known_of_mem hmem)]
        exact h.known_setLane listing other _
      index := by
        have hfilter : (roster.without oid).map tag =
            (roster.entries.map tag).filter (·.1 ≠ oid) := by
          rw [List.filter_map]
          rfl
        rw [hfilter]
        exact h.index.filter _
      nodup := h.nodup.sublist (List.filter_sublist.map _)
      live := fun entry hentry => h.live entry (List.mem_of_mem_filter hentry)
      lost := h.lost }

/-- An order that moves is at the end of its lane and of the list, under the same id. -/
theorem replace (h : roster.Describes book) (hmem : (listing, order) ∈ roster.entries)
    (hoid : order.oid = oid) {moved : Pending} (hmoved : moved.oid = oid) :
    { roster with entries := roster.without oid ++ [(listing, moved)] }.Describes
      (book.setLane listing
        { book.lane listing with
          orders := Book.without oid (book.lane listing).orders ++ [moved] }) where
  lane other := by
    rw [Book.lane_setLane, Roster.lane, Roster.pending, ordersAt_append, ordersAt_singleton,
      h.ordersAt_without hmem hoid]
    by_cases hother : other = listing
    · subst hother
      rw [if_pos rfl, if_pos rfl, if_pos rfl, h.lane]
      rfl
    · rw [if_neg hother, if_neg hother, if_neg (Ne.symm hother), List.append_nil]
      exact h.lane other
  known other := by
    rw [← meet_of_known (h.known_of_mem hmem)]
    exact h.known_setLane listing other _
  index := by
    have htag : tag (listing, moved) = tag (listing, order) := by
      rw [tag, tag, hmoved, hoid]
    have hperm := (h.perm_without hmem hoid).map tag
    rw [List.map_append, List.map_singleton, ← htag, ← List.map_singleton,
      ← List.map_append] at hperm
    exact h.index.trans hperm
  nodup := by
    have hperm := (h.perm_without hmem hoid).map (·.2.oid)
    rw [List.map_append, List.map_singleton] at hperm ⊢
    have hsame : (listing, moved).2.oid = (listing, order).2.oid := hmoved.trans hoid.symm
    exact hsame ▸ hperm.nodup_iff.1 h.nodup
  live entry hentry := by
    rcases List.mem_append.1 hentry with hentry | hentry
    · exact h.live entry (List.mem_of_mem_filter hentry)
    · cases List.mem_singleton.1 hentry
      exact h.live (listing, order) hmem
  lost := h.lost

/-- Both sides move the same order, if any, from the same level to the same place. -/
theorem modify (h : roster.Describes book) (oid : String) (level : Float) :
    (book.modify oid level = none ∧ roster.modify oid level = none) ∨
      ∃ moved roster', book.modify oid level = some moved ∧
        roster.modify oid level = some ((moved.level, moved.order), roster') ∧
        roster'.Describes moved.book := by
  unfold Book.modify Roster.modify
  rw [h.find?_eq]
  cases hfind : roster.find? oid with
  | none => exact .inl ⟨rfl, rfl⟩
  | some entry =>
    obtain ⟨listing, order⟩ := entry
    have hmem : (listing, order) ∈ roster.entries := List.mem_of_find?_eq_some hfind
    have hoid : order.oid = oid := by simpa using List.find?_some hfind
    -- A listing with orders has a last price, so the book finds one to arm the trigger at.
    obtain ⟨last, hlast⟩ := Option.ne_none_iff_exists'.1 (h.live _ hmem)
    have hlane : (book.lane listing).last = some last := (h.last_eq listing).trans hlast
    have hmoved : (order.moveTo level last).oid = oid := hoid
    refine .inr ⟨{
        level := order.trigger.level
        order := order.moveTo level last
        book := book.setLane listing
          { book.lane listing with
            orders := Book.without oid (book.lane listing).orders ++ [order.moveTo level last] } },
      _, ?_, ?_, h.replace hmem hoid hmoved⟩
    · simp [hlane]
    · simp [hlast]

/-! ## What a feed does -/

/-- Setting a last price keeps the description. -/
theorem setLast (h : roster.Describes book) (listing : Listing) (price : Float) :
    (roster.setLast listing price).Describes (book.setLast listing price) where
  lane other := by
    rw [Book.setLast, Book.lane_setLane, Roster.lane, Roster.setLast]
    by_cases hother : other = listing
    · subst hother
      simp only [if_pos, Function.update_self, h.lane]
      rfl
    · simp only [if_neg hother, Function.update_of_ne hother, h.lane]
      rfl
  known other := h.known_setLane listing other _
  index := h.index
  nodup := h.nodup
  live entry hentry := by
    show Function.update roster.last listing (some price) entry.1 ≠ none
    rw [Function.update_apply]
    split
    · exact Option.some_ne_none price
    · exact h.live entry hentry
  lost other hother := by
    -- The listing is live now, so one whose feed is lost is another.
    have hne : other ≠ listing := by
      rintro rfl
      simp [Roster.setLast] at hother
    have hold : roster.retiring other = true := by
      simpa [Roster.setLast, Function.update_of_ne hne] using hother
    simpa [Roster.setLast, Function.update_of_ne hne] using h.lost other hold

/-- Once the ids of the orders that pass a test are removed, the index has those of the rest. -/
theorem index_unindex (h : roster.Describes book) (test : Listing × Pending → Bool) :
    (book.index.eraseAll (((roster.entries.filter test).map (·.2)).map (·.oid))).entries.Perm
      ((roster.entries.filter fun entry => !test entry).map tag) := by
  rw [Table.entries_eraseAll]
  refine (h.index.filter _).trans (List.Perm.of_eq ?_)
  rw [List.filter_map]
  congr 1
  apply List.filter_congr
  intro entry hentry
  -- An id that is removed belongs to an order that passes, and to no other.
  have hiff : entry.2.oid ∈ ((roster.entries.filter test).map (·.2)).map (·.oid) ↔
      test entry = true := by
    rw [List.map_map, List.mem_map]
    constructor
    · rintro ⟨passed, hpassed, hoid⟩
      obtain ⟨hmem, htest⟩ := List.mem_filter.1 hpassed
      exact h.eq_of_oid hmem hentry hoid ▸ htest
    · exact fun htest => ⟨entry, List.mem_filter.2 ⟨hentry, htest⟩, rfl⟩
  simp only [Function.comp_apply, tag, hiff]
  cases test entry <;> rfl

/-- Both sides take out the orders that a price reaches. -/
theorem evaluate (h : roster.Describes book) (listing : Listing) (price : Float) :
    (book.evaluate listing price).1 = (roster.evaluate listing price).1 ∧
      (roster.evaluate listing price).2.Describes (book.evaluate listing price).2 := by
  -- The lane is filtered by its triggers, the list by listing and trigger at once.
  have hhit : (book.takeHits listing price).1 = (roster.evaluate listing price).1 := by
    rw [Book.takeHits_fst, h.pending_eq, Roster.pending, ordersAt, List.filter_map,
      List.filter_filter]
    show _ = (roster.entries.filter (isHit listing price)).map (·.2)
    congr 1
    apply List.filter_congr
    intro entry _
    simp [isHit, Bool.and_comm]
  refine ⟨hhit, ?_⟩
  exact {
    lane := by
      intro other
      show (book.takeHits listing price).2.lane other = _
      rw [Book.lane_takeHits, Roster.lane, Roster.pending]
      simp only [Roster.evaluate, ordersAt_filter]
      by_cases hother : other = listing
      · subst hother
        rw [if_pos rfl, h.pending_eq, h.lane]
        simp [isHit, Roster.lane, Roster.pending]
      · rw [if_neg hother, h.lane]
        simp [isHit, hother, Roster.lane, Roster.pending]
    known := by
      intro other
      exact (Book.isSome_takeHits book listing other price).trans (h.known other)
    index := by
      show ((book.takeHits listing price).2.index.eraseAll
        ((book.takeHits listing price).1.map (·.oid))).entries.Perm _
      rw [Book.index_takeHits, hhit]
      exact h.index_unindex (isHit listing price)
    nodup := h.nodup.sublist (List.filter_sublist.map _)
    live := fun entry hentry => h.live entry (List.mem_of_mem_filter hentry)
    lost := h.lost }

/-- Both sides take out all orders of a listing that has a lane. -/
theorem retire (h : roster.Describes book) (hknown : roster.known listing = true) :
    (book.retire listing).1 = (roster.retire listing).1 ∧
      (roster.retire listing).2.Describes (book.retire listing).2 := by
  obtain ⟨lane, hlane⟩ := Option.isSome_iff_exists.1 ((h.known listing).trans hknown)
  -- There is a lane, so all of its orders are taken and it is marked.
  have hall : book.takeAll listing = (roster.pending listing,
      book.setLane listing { last := none, retiring := true, orders := [] }) := by
    rw [Book.takeAll, hlane]
    have horders : lane.orders = book.pending listing := by
      rw [Book.pending, Book.lane, hlane]
      rfl
    simp only [horders, h.pending_eq]
  have hpart : roster.pending listing =
      (roster.entries.filter (decide <| ·.1 = listing)).map (·.2) := rfl
  rw [Book.retire, hall]
  refine ⟨rfl, ?_⟩
  exact {
    lane := by
      intro other
      show (book.setLane listing _).lane other = _
      rw [Book.lane_setLane, Roster.lane, Roster.pending]
      simp only [Roster.retire, ordersAt_filter]
      by_cases hother : other = listing
      · subst hother
        simp
      · rw [if_neg hother, h.lane]
        simp [hother, Roster.lane, Roster.pending]
    known := by
      intro other
      rw [← meet_of_known hknown]
      exact h.known_setLane listing other _
    index := by
      show (book.index.eraseAll ((roster.pending listing).map (·.oid))).entries.Perm
        ((roster.entries.filter (·.1 ≠ listing)).map tag)
      rw [hpart]
      simpa using h.index_unindex (decide <| ·.1 = listing)
    nodup := h.nodup.sublist (List.filter_sublist.map _)
    live := by
      intro entry hentry
      obtain ⟨hmem, hne⟩ := List.mem_filter.1 hentry
      rw [decide_eq_true_eq] at hne
      simpa [Roster.retire, Function.update_of_ne hne] using h.live entry hmem
    lost := by
      intro other hother
      by_cases heq : other = listing
      · simp [Roster.retire, heq]
      · have hold : roster.retiring other = true := by
          simpa [Roster.retire, Function.update_of_ne heq] using hother
        simpa [Roster.retire, Function.update_of_ne heq] using h.lost other hold }

/-- A listing without a lane has nothing to retire. -/
theorem retire_of_not_known (h : roster.Describes book) (hnew : roster.known listing = false) :
    book.retire listing = ([], book) := by
  have hlane : book.lanes.get? listing = none := by
    rw [← Option.isNone_iff_eq_none, ← Option.isSome_eq_false_iff, h.known, hnew]
  rw [Book.retire, Book.takeAll, hlane]
  rfl

/-! ## Operations -/

/-- Each operation is answered alike and keeps the relation. -/
theorem perform (h : roster.Describes book) (operation : Book.Operation) :
    (book.perform operation).1 = (roster.perform operation).1 ∧
      (roster.perform operation).2.Describes (book.perform operation).2 := by
  cases operation with
  | insert listing order =>
    obtain ⟨hresult, hnext⟩ := h.insert listing order
    exact ⟨congrArg Book.Answer.inserted hresult, hnext⟩
  | remove oid =>
    rcases h.remove oid with ⟨hbook, hroster⟩ | ⟨order, book', roster', hbook, hroster, hnext⟩
    · simp only [Book.perform, Roster.perform, hbook, hroster]
      exact ⟨trivial, h⟩
    · simp only [Book.perform, Roster.perform, hbook, hroster]
      exact ⟨trivial, hnext⟩
  | modify oid level =>
    rcases h.modify oid level with ⟨hbook, hroster⟩ | ⟨moved, roster', hbook, hroster, hnext⟩
    · simp only [Book.perform, Roster.perform, hbook, hroster]
      exact ⟨trivial, h⟩
    · simp only [Book.perform, Roster.perform, hbook, hroster]
      exact ⟨trivial, hnext⟩
  | setLast listing price => exact ⟨rfl, h.setLast listing price⟩
  | evaluate listing price =>
    obtain ⟨horders, hnext⟩ := h.evaluate listing price
    exact ⟨congrArg Book.Answer.taken horders, hnext⟩
  | retire listing =>
    cases hknown : roster.known listing with
    | true =>
      obtain ⟨horders, hnext⟩ := h.retire hknown
      rw [Roster.perform, if_pos hknown]
      exact ⟨congrArg Book.Answer.taken horders, hnext⟩
    | false =>
      have hnot : ¬ roster.known listing = true := by simp [hknown]
      rw [Roster.perform, if_neg hnot, Book.perform, h.retire_of_not_known hknown]
      exact ⟨rfl, h⟩

/-- Any operations are answered alike and keep the relation. -/
theorem run (h : roster.Describes book) (operations : List Book.Operation) :
    (book.run operations).1 = (roster.run operations).1 ∧
      (roster.run operations).2.Describes (book.run operations).2 := by
  induction operations generalizing roster book with
  | nil => exact ⟨rfl, h⟩
  | cons operation rest ih =>
    obtain ⟨hanswer, hnext⟩ := h.perform operation
    obtain ⟨hanswers, hlast⟩ := ih hnext
    refine ⟨?_, hlast⟩
    rw [Book.run, Roster.run]
    exact congrArg₂ List.cons hanswer hanswers

end Describes

end Roster

/-! ## The book and the roster -/

/-- After any operations on an empty book, every answer and everything that the book shows is
that of the roster; no order id is used twice, and a listing without a last price has no
orders. -/
theorem Book.run_eq_roster_run (operations : List Book.Operation) :
    let (answers, book) := Book.empty.run operations
    let (expected, roster) := Roster.empty.run operations
    answers = expected ∧
      book.size = roster.entries.length ∧
      (∀ oid, book.contains oid = roster.contains oid) ∧
      (∀ listing, book.pending listing = roster.pending listing ∧
        book.last? listing = roster.last listing ∧
        book.isRetiring listing = roster.retiring listing) ∧
      (roster.entries.map (·.2.oid)).Nodup ∧
      ∀ listing, book.last? listing = none → book.pending listing = [] := by
  obtain ⟨hanswers, h⟩ := Roster.describes_empty.run operations
  refine ⟨hanswers, h.size_eq, h.contains_eq, fun listing => ?_, h.nodup, fun listing hnone => ?_⟩
  · exact ⟨h.pending_eq listing, h.last_eq listing, h.isRetiring_eq listing⟩
  · rw [h.pending_eq, List.eq_nil_iff_forall_not_mem]
    intro order hmem
    exact h.live _ (Roster.mem_ordersAt.1 hmem) ((h.last_eq listing).symm.trans hnone)

/-- At a listing that nothing is known about, the feed is lost without a mark: there is no lane
to mark. -/
theorem Book.not_isRetiring_retire_unknown :
    (Book.empty.retire ⟨"B", "X"⟩).2.isRetiring ⟨"B", "X"⟩ = false ∧
      (Roster.empty.retire ⟨"B", "X"⟩).2.retiring ⟨"B", "X"⟩ = true := by
  decide

end TriggerDesk
