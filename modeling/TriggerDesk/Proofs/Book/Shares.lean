import TriggerDesk.Book.Basic

/-!
# What a book is to one listing

The orders of all listings share one index of ids. As long as every id belongs to one listing
(`Book.Owned`), those who deal with a listing see only its lane and what the index has under its
ids (`Book.AlikeAt`): what is done at the listing gives the same in two books that are alike to it,
and what is done at others leaves a book alike to what it was.
-/

namespace TriggerDesk

open Market TriggerDesk.Order

namespace Book

variable {owner : String → Listing} {book other next : Book} {listing place : Listing}
  {oid : String} {order : Pending} {price level : Float}

/-- Orders wait at the listings that their ids belong to, and the index finds them there. -/
structure Owned (owner : String → Listing) (book : Book) : Prop where
  orders : ∀ (listing : Listing) (order : Pending), order ∈ book.pending listing →
    owner order.oid = listing ∧ order.command.oid = order.oid
  index : ∀ (oid : String) (listing : Listing), book.index.get? oid = some listing →
    owner oid = listing

/-- Two books have the same lane for a listing and the same under the ids that belong to it. -/
structure AlikeAt (owner : String → Listing) (listing : Listing) (book other : Book) : Prop where
  lane : other.lane listing = book.lane listing
  index : ∀ oid, owner oid = listing → other.index.get? oid = book.index.get? oid

/-- An order that is found waits at the listing that the index gives for its id. -/
theorem mem_of_find?_eq_some (h : book.find? oid = some (listing, order)) :
    book.index.get? oid = some listing ∧ order ∈ book.pending listing ∧ order.oid = oid := by
  obtain ⟨found, hindex, h⟩ := Option.bind_eq_some_iff.1 h
  obtain ⟨waiting, hwaiting, h⟩ := Option.bind_eq_some_iff.1 h
  cases h
  exact ⟨hindex, List.mem_of_find?_eq_some hwaiting, by simpa using List.find?_some hwaiting⟩

/-- An id that is found is taken out of the lane and of the index. -/
theorem remove_of_found (hfind : book.find? oid = some (listing, order)) :
    book.remove oid = some (order,
      { lanes := book.lanes.set listing
          { book.lane listing with orders := without oid (book.lane listing).orders }
        index := book.index.erase oid }) := by
  simp only [Book.remove, hfind, Option.bind_eq_bind, Option.bind_some, Option.pure_def]

/-- An id that is found at a listing with a last price is moved. -/
theorem modify_of_found (hfind : book.find? oid = some (listing, order)) (level : Float) :
    book.modify oid level = (book.last? listing).map fun last =>
      { level := order.trigger.level, order := order.moveTo level last
        book := book.setLane listing { book.lane listing with
          orders := without oid (book.lane listing).orders ++ [order.moveTo level last] } } := by
  simp only [Book.modify, hfind, Option.bind_eq_bind, Option.bind_some, Book.last?]
  cases (book.lane listing).last <;> rfl

/-! ## Ids stay where they belong -/

/-- In an empty book every order is where it belongs. -/
theorem owned_empty (owner : String → Listing) : empty.Owned owner where
  orders _ _ h := nomatch h
  index _ _ h := nomatch h

namespace Owned

/-- The listing where an order is found is that of its id. -/
theorem of_find? (h : book.Owned owner) (hfind : book.find? oid = some (listing, order)) :
    owner oid = listing ∧ order.oid = oid ∧ order.command.oid = oid := by
  obtain ⟨hindex, hmem, hoid⟩ := mem_of_find?_eq_some hfind
  exact ⟨h.index oid listing hindex, hoid, (h.orders listing order hmem).2.trans hoid⟩

/-- An order that is removed by an id has it. -/
theorem oid_of_remove (h : book.Owned owner) (hremove : book.remove oid = some (order, next)) :
    order.command.oid = oid := by
  obtain ⟨⟨listing, found⟩, hfind, hremove⟩ := Option.bind_eq_some_iff.1 hremove
  cases hremove
  exact (h.of_find? hfind).2.2

/-- An order that is moved by an id has it. -/
theorem oid_of_modify (h : book.Owned owner) {moved : Moved}
    (hmodify : book.modify oid level = some moved) : moved.order.command.oid = oid := by
  obtain ⟨⟨listing, found⟩, hfind, hmodify⟩ := Option.bind_eq_some_iff.1 hmodify
  obtain ⟨last, _, hmodify⟩ := Option.bind_eq_some_iff.1 hmodify
  cases hmodify
  exact (h.of_find? hfind).2.2

/-- Orders and ids that come in belong where they come in. -/
theorem mono (h : book.Owned owner)
    (horders : ∀ (listing : Listing) (order : Pending), order ∈ next.pending listing →
      order ∈ book.pending listing ∨ owner order.oid = listing ∧ order.command.oid = order.oid)
    (hindex : ∀ (oid : String) (listing : Listing), next.index.get? oid = some listing →
      book.index.get? oid = some listing ∨ owner oid = listing) : next.Owned owner where
  orders listing order hmem := (horders listing order hmem).elim (h.orders listing order) id
  index oid listing hget := (hindex oid listing hget).elim (h.index oid listing) id

/-- The orders of one lane are exchanged for others that belong there. -/
theorem of_lane (h : book.Owned owner) {lane : Lane}
    (hlane : ∀ listing, next.lane listing = if listing = place then lane else book.lane listing)
    (horders : ∀ order ∈ lane.orders,
      order ∈ book.pending place ∨ owner order.oid = place ∧ order.command.oid = order.oid)
    (hindex : ∀ (oid : String) (listing : Listing), next.index.get? oid = some listing →
      book.index.get? oid = some listing ∨ owner oid = listing) : next.Owned owner := by
  refine h.mono (fun listing order hmem => ?_) hindex
  rw [pending, hlane] at hmem
  split at hmem
  · next heq =>
    subst heq
    exact horders order hmem
  · exact .inl hmem

/-- Whether an order is taken or not, ids stay where they belong. -/
theorem insert (h : book.Owned owner) (howner : owner order.oid = place)
    (hoid : order.command.oid = order.oid) : (book.insert place order).2.Owned owner := by
  unfold Book.insert
  dsimp only
  split
  · exact h
  · split
    · exact h.of_lane (fun other => lane_setLane book place other _) (fun _ hmem => .inl hmem)
        fun _ _ hget => .inl hget
    · refine h.of_lane (fun other => lane_setLane book place other _)
        (fun waiting hwaiting => ?_) fun oid listing hget => ?_
      · rcases List.mem_append.1 hwaiting with hold | hnew
        · exact .inl hold
        · cases List.mem_singleton.1 hnew
          exact .inr ⟨howner, hoid⟩
      · rw [Table.get?_set] at hget
        split at hget
        · next heq =>
          cases hget
          exact .inr (heq ▸ howner)
        · exact .inl hget

/-- Removing an order leaves the others where they belong. -/
theorem remove (h : book.Owned owner) (hremove : book.remove oid = some (order, next)) :
    next.Owned owner := by
  obtain ⟨⟨listing, found⟩, _, hremove⟩ := Option.bind_eq_some_iff.1 hremove
  cases hremove
  refine h.of_lane (fun other => lane_setLane book listing other _)
    (fun waiting hwaiting => .inl (List.mem_of_mem_eraseP hwaiting)) fun other place hget => .inl ?_
  rw [Table.get?_erase] at hget
  split at hget
  · cases hget
  · exact hget

/-- Moving an order leaves it where it belongs. -/
theorem modify (h : book.Owned owner) {moved : Moved}
    (hmodify : book.modify oid level = some moved) : moved.book.Owned owner := by
  obtain ⟨⟨listing, found⟩, hfind, hmodify⟩ := Option.bind_eq_some_iff.1 hmodify
  obtain ⟨last, _, hmodify⟩ := Option.bind_eq_some_iff.1 hmodify
  cases hmodify
  obtain ⟨howner, hoid, hcommand⟩ := h.of_find? hfind
  refine h.of_lane (fun other => lane_setLane book listing other _) (fun waiting hwaiting => ?_)
    fun _ _ hget => .inl hget
  rcases List.mem_append.1 hwaiting with hold | hmoved
  · exact .inl (List.mem_of_mem_eraseP hold)
  · cases List.mem_singleton.1 hmoved
    exact .inr ⟨(congrArg owner hoid).trans howner, hcommand.trans hoid.symm⟩

/-- A new last price leaves the orders where they belong. -/
theorem setLast (h : book.Owned owner) (place : Listing) (price : Float) :
    (book.setLast place price).Owned owner :=
  h.of_lane (fun other => lane_setLast book place other price) (fun _ hmem => .inl hmem)
    fun _ _ hget => .inl hget

/-- Ids that are removed from the index belong nowhere. -/
theorem unindex (h : book.Owned owner) (orders : List Pending) :
    (Book.unindex orders book).Owned owner := by
  refine h.mono (fun _ _ hmem => .inl hmem) fun other place hget => .inl ?_
  rw [Book.unindex, Table.get?_eraseAll] at hget
  split at hget
  · cases hget
  · exact hget

/-- A price leaves the orders that it does not hit where they belong. -/
theorem evaluate (h : book.Owned owner) (place : Listing) (price : Float) :
    (book.evaluate place price).2.Owned owner := by
  have htaken : (book.takeHits place price).2.Owned owner := by
    refine h.of_lane (fun other => lane_takeHits book place other price)
      (fun waiting hwaiting => .inl (List.mem_filter.1 hwaiting).1) fun _ _ hget => .inl ?_
    rwa [index_takeHits] at hget
  exact htaken.unindex _

/-- The loss of a feed leaves the orders of other listings where they belong. -/
theorem retire (h : book.Owned owner) (place : Listing) : (book.retire place).2.Owned owner := by
  have htaken : (book.takeAll place).2.Owned owner := by
    unfold takeAll
    split
    · exact h
    · exact h.of_lane (fun other => lane_setLane book place other _) (fun _ hmem => nomatch hmem)
        fun _ _ hget => .inl hget
  exact htaken.unindex _

end Owned

/-! ## What is done elsewhere -/

namespace AlikeAt

/-- A book is like itself at every listing. -/
theorem refl (owner : String → Listing) (listing : Listing) (book : Book) :
    AlikeAt owner listing book book :=
  ⟨rfl, fun _ _ => rfl⟩

/-- A book that is like one that is like a third is like the third. -/
theorem trans {last : Book} (first : AlikeAt owner listing book next)
    (second : AlikeAt owner listing next last) : AlikeAt owner listing book last where
  lane := second.lane.trans first.lane
  index oid hoid := (second.index oid hoid).trans (first.index oid hoid)

/-- What is alike to a book stays so while the book stays alike to what it was. -/
theorem of_alikeAt (h : AlikeAt owner listing book other)
    (hnext : AlikeAt owner listing book next) : AlikeAt owner listing next other where
  lane := h.lane.trans hnext.lane.symm
  index oid hoid := (h.index oid hoid).trans (hnext.index oid hoid).symm

end AlikeAt

/-- The lane of another listing and ids that belong to others change. -/
theorem alikeAt_of_lane {lane : Lane} (hne : place ≠ listing)
    (hlane : ∀ listing, next.lane listing = if listing = place then lane else book.lane listing)
    (hindex : ∀ oid, owner oid = listing → next.index.get? oid = book.index.get? oid) :
    AlikeAt owner listing book next :=
  ⟨by rw [hlane, if_neg (Ne.symm hne)], hindex⟩

/-- An order that is inserted elsewhere leaves the listing alone. -/
theorem alikeAt_insert_of_ne (hne : place ≠ listing) (howner : owner order.oid = place)
    (hinsert : book.insert place order = (.ok (), next)) : AlikeAt owner listing book next := by
  have hlane := (lane_of_insert hinsert).2
  unfold insert at hinsert
  dsimp only at hinsert
  split at hinsert
  · cases hinsert
  · split at hinsert
    · cases hinsert
    · cases hinsert
      refine alikeAt_of_lane hne hlane fun oid hoid => Table.get?_set_of_ne _ _ ?_
      rintro rfl
      exact hne (howner.symm.trans hoid)

/-- An order that is removed elsewhere leaves the listing alone. -/
theorem Owned.alikeAt_remove_of_ne (h : book.Owned owner) (hne : owner oid ≠ listing)
    (hremove : book.remove oid = some (order, next)) : AlikeAt owner listing book next := by
  obtain ⟨⟨place, found⟩, hfind, hremove⟩ := Option.bind_eq_some_iff.1 hremove
  cases hremove
  have hplace := (h.of_find? hfind).1
  refine alikeAt_of_lane (hplace ▸ hne) (fun other => lane_setLane book place other _)
    fun other hother => Table.get?_erase_of_ne _ ?_
  rintro rfl
  exact hne hother

/-- An order that is moved elsewhere leaves the listing alone. -/
theorem Owned.alikeAt_modify_of_ne (h : book.Owned owner) (hne : owner oid ≠ listing)
    {moved : Moved} (hmodify : book.modify oid level = some moved) :
    AlikeAt owner listing book moved.book := by
  obtain ⟨⟨place, found⟩, hfind, hmodify⟩ := Option.bind_eq_some_iff.1 hmodify
  obtain ⟨last, _, hmodify⟩ := Option.bind_eq_some_iff.1 hmodify
  cases hmodify
  have hplace := (h.of_find? hfind).1
  exact alikeAt_of_lane (hplace ▸ hne) (fun other => lane_setLane book place other _)
    fun _ _ => rfl

/-- A price that comes elsewhere leaves the listing alone. -/
theorem alikeAt_setLast_of_ne (hne : place ≠ listing) (price : Float) :
    AlikeAt owner listing book (book.setLast place price) :=
  alikeAt_of_lane hne (fun other => lane_setLast book place other price) fun _ _ => rfl

/-- Removing the ids of orders of another listing removes no id of this one. -/
theorem get?_unindex_of_ne {orders : List Pending} (hne : place ≠ listing)
    (horders : ∀ order ∈ orders, owner order.oid = place) (hoid : owner oid = listing) :
    (unindex orders book).index.get? oid = book.index.get? oid := by
  rw [unindex, Table.get?_eraseAll, if_neg]
  intro hmem
  obtain ⟨order, horder, rfl⟩ := List.mem_map.1 hmem
  exact hne ((horders order horder).symm.trans hoid)

/-- Orders that fire elsewhere leave the listing alone. -/
theorem Owned.alikeAt_evaluate_of_ne (h : book.Owned owner) (hne : place ≠ listing)
    (price : Float) : AlikeAt owner listing book (book.evaluate place price).2 := by
  have hhits : ∀ order ∈ (book.takeHits place price).1, owner order.oid = place := by
    intro order horder
    rw [takeHits_fst] at horder
    exact (h.orders place order (List.mem_filter.1 horder).1).1
  refine alikeAt_of_lane hne (fun other => lane_evaluate book place other price) fun oid hoid => ?_
  exact (get?_unindex_of_ne hne hhits hoid).trans
    (congrArg (Table.get? · oid) (index_takeHits book place price))

/-- A feed that is lost elsewhere leaves the listing alone. -/
theorem Owned.alikeAt_retire_of_ne (h : book.Owned owner) (hne : place ≠ listing) :
    AlikeAt owner listing book (book.retire place).2 := by
  have hall : ∀ order ∈ (book.takeAll place).1, owner order.oid = place := by
    intro order horder
    have hmem : order ∈ (book.retire place).1 := horder
    rw [retire_fst] at hmem
    exact (h.orders place order hmem).1
  refine ⟨lane_retire_of_ne book (Ne.symm hne), fun oid hoid => ?_⟩
  exact (get?_unindex_of_ne hne hall hoid).trans
    (congrArg (Table.get? · oid) (index_takeAll book place))

/-! ## What is done at the listing -/

namespace AlikeAt

/-- The last price of the listing is the same in both books. -/
theorem last?_eq (h : AlikeAt owner listing book other) :
    other.last? listing = book.last? listing :=
  congrArg Lane.last h.lane

/-- The listing is retiring in both books or in neither. -/
theorem isRetiring_eq (h : AlikeAt owner listing book other) :
    other.isRetiring listing = book.isRetiring listing :=
  congrArg Lane.retiring h.lane

/-- Alike books have the same orders waiting at the listing. -/
theorem pending_eq (h : AlikeAt owner listing book other) :
    other.pending listing = book.pending listing :=
  congrArg Lane.orders h.lane

/-- Alike books have the same ids of the listing in use. -/
theorem contains_eq (h : AlikeAt owner listing book other) (howner : owner oid = listing) :
    other.contains oid = book.contains oid :=
  congrArg Option.isSome (h.index oid howner)

/-- An id is found at its listing or nowhere. -/
theorem find?_eq (h : AlikeAt owner listing book other) (hbook : book.Owned owner)
    (howner : owner oid = listing) : other.find? oid = book.find? oid := by
  unfold find?
  rw [h.index oid howner]
  cases hget : book.index.get? oid with
  | none => rfl
  | some place =>
    have hplace : place = listing := (hbook.index oid place hget).symm.trans howner
    rw [hplace, Option.bind_eq_bind, Option.bind_some, Option.bind_eq_bind, Option.bind_some,
      h.pending_eq]

/-- Books stay alike when the same is put into the lane of each and into the index of each. -/
theorem of_lane {later : Book} {lane : Lane} (h : AlikeAt owner listing book other)
    (hnext : next.lane listing = lane) (hlater : later.lane listing = lane)
    (hindex : ∀ oid, owner oid = listing → other.index.get? oid = book.index.get? oid →
      later.index.get? oid = next.index.get? oid) : AlikeAt owner listing next later where
  lane := hlater.trans hnext.symm
  index oid hoid := hindex oid hoid (h.index oid hoid)

/-- An order is inserted in both books, or refused for the same reason. -/
theorem insert (h : AlikeAt owner listing book other) (howner : owner order.oid = listing) :
    (other.insert listing order).1 = (book.insert listing order).1 ∧
      AlikeAt owner listing (book.insert listing order).2 (other.insert listing order).2 := by
  unfold Book.insert
  rw [h.contains_eq howner, h.lane]
  dsimp only
  split
  · exact ⟨rfl, h⟩
  · split
    · exact ⟨rfl, h.of_lane (by rw [lane_setLane, if_pos rfl]) (by rw [lane_setLane, if_pos rfl])
        fun _ _ hget => hget⟩
    · refine ⟨rfl, h.of_lane ((lane_setLane book listing listing _).trans (if_pos rfl))
        ((lane_setLane other listing listing _).trans (if_pos rfl)) fun oid _ hget => ?_⟩
      show (other.index.set order.oid listing).get? oid =
        (book.index.set order.oid listing).get? oid
      rw [Table.get?_set, Table.get?_set, hget]

/-- Both give the same order out, or none. -/
theorem remove (h : AlikeAt owner listing book other) (hbook : book.Owned owner)
    (howner : owner oid = listing) :
    book.remove oid = none ∧ other.remove oid = none ∨
      ∃ order next later, book.remove oid = some (order, next) ∧
        other.remove oid = some (order, later) ∧ AlikeAt owner listing next later := by
  have hfound := h.find?_eq hbook howner
  cases hfind : book.find? oid with
  | none =>
    rw [hfind] at hfound
    exact .inl ⟨remove_of_find? hfind, remove_of_find? hfound⟩
  | some entry =>
    obtain ⟨place, order⟩ := entry
    obtain rfl : place = listing := (hbook.of_find? hfind).1.symm.trans howner
    refine .inr ⟨order, _, _, remove_of_found hfind, remove_of_found (hfound.trans hfind),
      h.of_lane ((lane_setLane book place place _).trans (if_pos rfl))
        ((lane_setLane other place place _).trans ?_) fun kept _ hget => ?_⟩
    · rw [if_pos rfl, h.lane]
    · show (other.index.erase oid).get? kept = (book.index.erase oid).get? kept
      rw [Table.get?_erase, Table.get?_erase, hget]

/-- Both move the same order, or none. -/
theorem modify (h : AlikeAt owner listing book other) (hbook : book.Owned owner)
    (howner : owner oid = listing) (level : Float) :
    book.modify oid level = none ∧ other.modify oid level = none ∨
      ∃ moved again : Moved, book.modify oid level = some moved ∧
        other.modify oid level = some again ∧ again.order = moved.order ∧
        AlikeAt owner listing moved.book again.book := by
  have hfound := h.find?_eq hbook howner
  cases hfind : book.find? oid with
  | none =>
    rw [hfind] at hfound
    exact .inl ⟨modify_of_find? hfind level, modify_of_find? hfound level⟩
  | some entry =>
    obtain ⟨place, order⟩ := entry
    -- An order whose id belongs to the listing waits there and nowhere else.
    obtain rfl : place = listing := (hbook.of_find? hfind).1.symm.trans howner
    have hmodify := modify_of_found hfind level
    have hagain := modify_of_found (hfound.trans hfind) level
    rw [h.last?_eq] at hagain
    cases hlast : book.last? place with
    | none => exact .inl ⟨by rw [hmodify, hlast]; rfl, by rw [hagain, hlast]; rfl⟩
    | some last =>
      rw [hlast, Option.map_some] at hmodify hagain
      refine .inr ⟨_, _, hmodify, hagain, rfl, h.of_lane
        ((lane_setLane book place place _).trans (if_pos rfl))
        ((lane_setLane other place place _).trans ?_) fun _ _ hget => hget⟩
      rw [if_pos rfl, h.lane]

/-- The last price changes in both books. -/
theorem setLast (h : AlikeAt owner listing book other) (price : Float) :
    AlikeAt owner listing (book.setLast listing price) (other.setLast listing price) :=
  h.of_lane ((lane_setLast book listing listing price).trans (if_pos rfl))
    (by rw [lane_setLast, if_pos rfl, h.lane]) fun _ _ hget => hget

/-- Books stay alike when the same ids leave the index. -/
theorem unindex (h : AlikeAt owner listing book other) (orders : List Pending) :
    AlikeAt owner listing (Book.unindex orders book) (Book.unindex orders other) :=
  h.of_lane rfl h.lane fun oid _ hget => by
    show (other.index.eraseAll _).get? oid = (book.index.eraseAll _).get? oid
    rw [Table.get?_eraseAll, Table.get?_eraseAll, hget]

/-- The same orders fire in alike books, which stay alike. -/
theorem evaluate (h : AlikeAt owner listing book other) (price : Float) :
    (other.evaluate listing price).1 = (book.evaluate listing price).1 ∧
      AlikeAt owner listing (book.evaluate listing price).2 (other.evaluate listing price).2 := by
  have hhits : (other.takeHits listing price).1 = (book.takeHits listing price).1 := by
    rw [takeHits_fst, takeHits_fst, h.pending_eq]
  have htaken : AlikeAt owner listing (book.takeHits listing price).2
      (other.takeHits listing price).2 :=
    h.of_lane ((lane_takeHits book listing listing price).trans (if_pos rfl))
      (by rw [lane_takeHits, if_pos rfl, h.lane, h.pending_eq])
      fun oid _ hget => by rwa [index_takeHits, index_takeHits]
  refine ⟨hhits, ?_⟩
  show AlikeAt owner listing (Book.unindex (book.takeHits listing price).1 _)
    (Book.unindex (other.takeHits listing price).1 _)
  rw [hhits]
  exact htaken.unindex _

/-- The same orders are drained in alike books, which stay alike. -/
theorem retire (h : AlikeAt owner listing book other) (hlast : book.last? listing ≠ none) :
    (other.retire listing).1 = (book.retire listing).1 ∧
      AlikeAt owner listing (book.retire listing).2 (other.retire listing).2 := by
  have horders : (other.retire listing).1 = (book.retire listing).1 := by
    rw [retire_fst, retire_fst, h.pending_eq]
  refine ⟨horders, h.of_lane (lane_retire_self book hlast)
    (lane_retire_self other (h.last?_eq.symm ▸ hlast)) fun oid _ hget => ?_⟩
  have hall : (other.takeAll listing).1 = (book.takeAll listing).1 := horders
  show (Book.unindex (other.takeAll listing).1 (other.takeAll listing).2).index.get? oid =
    (Book.unindex (book.takeAll listing).1 (book.takeAll listing).2).index.get? oid
  rw [Book.unindex, Book.unindex, Table.get?_eraseAll, Table.get?_eraseAll, index_takeAll,
    index_takeAll, hget, hall]

end AlikeAt

end Book

end TriggerDesk
