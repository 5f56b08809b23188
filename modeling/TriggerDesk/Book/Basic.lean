import TriggerDesk.Market.Listing
import TriggerDesk.Order.Event
import TriggerDesk.Table

/-!
# The book of pending orders

A session keeps its pending orders in a book: a lane for each listing, with the last price and
the orders that wait there, oldest first, and an index that finds the listing of an order by its
id. A lane without a last price has no live feed and takes no order.

The operations that a feed uses come in two steps, because an order that fires leaves its lane
first and the index later: `takeHits` then `unindex` is `evaluate`, and `takeAll` then `unindex`
is `retire`. Every other operation is one step.
-/

namespace TriggerDesk

open Market TriggerDesk.Order

/-- An order that waits for its trigger. Its command carries the current level as price. -/
structure Order.Pending where
  oid : String
  trigger : Trigger
  command : Command
  deriving DecidableEq, Repr

/-- The pending order of a command when the last price is known. -/
def Order.Pending.ofCommand (command : Command) (last : Float) : Pending :=
  { oid := command.oid, trigger := Trigger.arm command.price last, command }

/-- The same order at another level. -/
def Order.Pending.moveTo (order : Pending) (level last : Float) : Pending :=
  { order with
    trigger := Trigger.arm level last
    command := { order.command with price := level } }

/-- What a book holds for one listing. -/
structure Lane where
  /-- The last price, while a feed is live. -/
  last : Option Float
  /-- Whether the feed that was lost last has not been replaced. -/
  retiring : Bool
  /-- The pending orders: the one placed or moved last is at the end. -/
  orders : List Pending
  deriving DecidableEq, Repr

/-- The lane of a listing that nothing is known about. -/
def Lane.fresh : Lane := { last := none, retiring := false, orders := [] }

/-- Pending orders by listing, and the listing of each order by its id. -/
structure Book where
  lanes : Table Listing Lane
  index : Table String Listing
  deriving DecidableEq, Repr

namespace Book

/-- The book without orders. -/
def empty : Book := { lanes := .empty, index := .empty }

/-- The lane of a listing. -/
def lane (book : Book) (listing : Listing) : Lane :=
  (book.lanes.get? listing).getD Lane.fresh

/-- The book with another lane for a listing. -/
def setLane (book : Book) (listing : Listing) (lane : Lane) : Book :=
  { book with lanes := book.lanes.set listing lane }

/-- Setting a lane changes that lane only. -/
@[simp]
theorem lane_setLane (book : Book) (listing other : Listing) (lane : Lane) :
    (book.setLane listing lane).lane other = if other = listing then lane else book.lane other := by
  simp only [Book.lane, setLane, Table.get?_set]
  split <;> rfl

/-! ## What a book shows -/

/-- The last price of a listing, while its feed is live. -/
def last? (book : Book) (listing : Listing) : Option Float := (book.lane listing).last

/-- Whether the feed of a listing was lost and not replaced. -/
def isRetiring (book : Book) (listing : Listing) : Bool := (book.lane listing).retiring

/-- The orders that wait at a listing. -/
def pending (book : Book) (listing : Listing) : List Pending := (book.lane listing).orders

/-- Whether an order id is in use. -/
def contains (book : Book) (oid : String) : Bool := book.index.contains oid

/-- The number of order ids in use. -/
def size (book : Book) : Nat := book.index.size

/-! ## What a session does to a book -/

/-- Why an order is not taken. -/
inductive Refusal where
  | duplicateOid
  | noFeed (listing : Listing)
  deriving DecidableEq, Repr

def Refusal.message : Refusal → String
  | duplicateOid => "duplicate order id"
  | noFeed listing => s!"no live feed for {listing.name}"

/-- Puts an order at the end of a lane. An id in use is refused first, then a lane without a
last price. A listing that an order with a free id was brought to has a lane from then on. -/
def insert (book : Book) (listing : Listing) (order : Pending) : Except Refusal Unit × Book :=
  let lane := book.lane listing
  if book.contains order.oid then (.error .duplicateOid, book)
  else if lane.last.isNone then (.error (.noFeed listing), book.setLane listing lane)
  else
    (.ok (),
      { lanes := book.lanes.set listing { lane with orders := lane.orders ++ [order] }
        index := book.index.set order.oid listing })

/-- An order by its id, with its listing. -/
def find? (book : Book) (oid : String) : Option (Listing × Pending) := do
  let listing ← book.index.get? oid
  let order ← (book.pending listing).find? (·.oid = oid)
  return (listing, order)

/-- A list of orders without the first one with an id. -/
def without (oid : String) (orders : List Pending) : List Pending :=
  orders.eraseP (·.oid = oid)

/-- Where no id is used twice, one order is all that goes. -/
theorem without_eq_filter {orders : List Pending} (oid : String)
    (h : (orders.map (·.oid)).Nodup) : without oid orders = orders.filter (·.oid ≠ oid) := by
  unfold without
  induction orders with
  | nil => rfl
  | cons order rest ih =>
    obtain ⟨hnew, hrest⟩ := List.nodup_cons.1 h
    by_cases hoid : order.oid = oid
    · have hkept : rest.filter (·.oid ≠ oid) = rest := by
        refine List.filter_eq_self.2 fun other hother => ?_
        have hne : other.oid ≠ oid := by
          rintro rfl
          exact hnew (List.mem_map.2 ⟨other, hother, hoid.symm⟩)
        simpa using hne
      simpa [hoid] using hkept.symm
    · simpa [hoid] using ih hrest

/-- Takes an order out. -/
def remove (book : Book) (oid : String) : Option (Pending × Book) := do
  let (listing, order) ← book.find? oid
  let lane := book.lane listing
  return (order,
    { lanes := book.lanes.set listing { lane with orders := without oid lane.orders }
      index := book.index.erase oid })

/-- What moving an order gives: the level it had, the order at its new level, and the book. -/
structure Moved where
  level : Float
  order : Pending
  book : Book
  deriving DecidableEq, Repr

/-- Moves an order to another level, armed at the last price of its listing, and to the end of
its lane. The order stays in the book all the while. -/
def modify (book : Book) (oid : String) (level : Float) : Option Moved := do
  let (listing, order) ← book.find? oid
  let lane := book.lane listing
  let last ← lane.last
  let moved := order.moveTo level last
  return { level := order.trigger.level, order := moved
           book := book.setLane listing
             { lane with orders := without oid lane.orders ++ [moved] } }

/-! ## Orders that are not found -/

/-- An order that is not found cannot be taken out. -/
theorem remove_of_find? {book : Book} {oid : String} (h : book.find? oid = none) :
    book.remove oid = none := by
  rw [remove, h]
  rfl

/-- An order that is not found cannot be moved. -/
theorem modify_of_find? {book : Book} {oid : String} (h : book.find? oid = none)
    (level : Float) : book.modify oid level = none := by
  rw [modify, h]
  rfl

/-! ## What a feed does to a book -/

/-- Sets the last price of a listing: its feed is live. -/
def setLast (book : Book) (listing : Listing) (price : Float) : Book :=
  book.setLane listing { book.lane listing with last := some price, retiring := false }

/-- Takes the orders that a price reaches out of their lane, in order. -/
def takeHits (book : Book) (listing : Listing) (price : Float) : List Pending × Book :=
  let lane := book.lane listing
  let (hit, kept) := lane.orders.partition (·.trigger.hits price)
  (hit, if hit.isEmpty then book else book.setLane listing { lane with orders := kept })

/-- The orders that a price takes out are those that it hits, in order. -/
theorem takeHits_fst (book : Book) (listing : Listing) (price : Float) :
    (book.takeHits listing price).1 =
      (book.pending listing).filter (·.trigger.hits price) := by
  rw [takeHits, List.partition_eq_filter_filter]
  rfl

/-- The orders that the price does not reach stay. -/
theorem lane_takeHits (book : Book) (listing other : Listing) (price : Float) :
    (book.takeHits listing price).2.lane other =
      if other = listing then
        { book.lane listing with
          orders := (book.pending listing).filter fun order => !order.trigger.hits price }
      else book.lane other := by
  rw [takeHits, List.partition_eq_filter_filter]
  by_cases hempty : ((book.lane listing).orders.filter (·.trigger.hits price)).isEmpty
  · have hkept : (book.pending listing).filter (fun order => !order.trigger.hits price) =
        (book.lane listing).orders := by
      refine List.filter_eq_self.2 fun order horder => ?_
      have hno := List.filter_eq_nil_iff.1 (List.isEmpty_iff.1 hempty) order horder
      simpa using hno
    simp only [hempty, if_true, hkept]
    split
    · next heq => rw [heq]
    · rfl
  · simp only [Bool.not_eq_true] at hempty
    simp only [hempty, Bool.false_eq_true, if_false, lane_setLane]
    rfl

/-- Taking hits out of their lane leaves the index. -/
@[simp]
theorem index_takeHits (book : Book) (listing : Listing) (price : Float) :
    (book.takeHits listing price).2.index = book.index := by
  rw [takeHits]
  split
  dsimp only
  split <;> rfl

/-- No listing gets its first lane. -/
theorem isSome_takeHits (book : Book) (listing other : Listing) (price : Float) :
    ((book.takeHits listing price).2.lanes.get? other).isSome =
      (book.lanes.get? other).isSome := by
  rw [takeHits]
  split
  next hit kept hparts =>
    dsimp only
    split
    · rfl
    · next hsome =>
      rw [setLane, Table.get?_set]
      split
      · next heq =>
        rw [heq]
        cases hget : book.lanes.get? listing with
        | some _ => rfl
        | none =>
          -- The lane of a listing that has none is empty.
          rw [lane, hget] at hparts
          cases hparts
          exact absurd rfl hsome
      · rfl

/-- Empties the lane of a listing whose feed is lost. A listing without a lane stays so. -/
def takeAll (book : Book) (listing : Listing) : List Pending × Book :=
  match book.lanes.get? listing with
  | none => ([], book)
  | some lane =>
    (lane.orders, book.setLane listing { last := none, retiring := true, orders := [] })

/-- Emptying a lane leaves the index. -/
@[simp]
theorem index_takeAll (book : Book) (listing : Listing) :
    (book.takeAll listing).2.index = book.index := by
  unfold takeAll
  cases book.lanes.get? listing <;> rfl

/-- Removes the ids of orders that left their lane. -/
def unindex (orders : List Pending) (book : Book) : Book :=
  { book with index := book.index.eraseAll (orders.map (·.oid)) }

/-- Takes out the orders that a price reaches. -/
def evaluate (book : Book) (listing : Listing) (price : Float) : List Pending × Book :=
  let (hit, book) := book.takeHits listing price
  (hit, unindex hit book)

/-- Takes out all orders of a listing whose feed is lost. -/
def retire (book : Book) (listing : Listing) : List Pending × Book :=
  let (drained, book) := book.takeAll listing
  (drained, unindex drained book)

/-- The orders that leave with a lost feed are those that waited. -/
theorem retire_fst (book : Book) (listing : Listing) :
    (book.retire listing).1 = book.pending listing := by
  show (book.takeAll listing).1 = (book.lane listing).orders
  unfold takeAll lane
  cases book.lanes.get? listing <;> rfl

/-! ## What becomes of the lanes -/

/-- A last price makes its listing live, and leaves the other lanes. -/
@[simp]
theorem lane_setLast (book : Book) (listing other : Listing) (price : Float) :
    (book.setLast listing price).lane other =
      if other = listing then
        { book.lane listing with last := some price, retiring := false }
      else book.lane other :=
  lane_setLane _ _ _ _

/-- A price takes the hits out of their lane, and leaves the other lanes. -/
@[simp]
theorem lane_evaluate (book : Book) (listing other : Listing) (price : Float) :
    (book.evaluate listing price).2.lane other =
      if other = listing then
        { book.lane listing with
          orders := (book.pending listing).filter fun order => !order.trigger.hits price }
      else book.lane other :=
  lane_takeHits book listing other price

/-- Other listings do not notice that a feed is lost. -/
theorem lane_retire_of_ne (book : Book) {listing other : Listing} (h : other ≠ listing) :
    (book.retire listing).2.lane other = book.lane other := by
  show (book.takeAll listing).2.lane other = _
  unfold takeAll
  split
  · rfl
  · simp [h]

/-- A lane with a last price is empty and marked after that. -/
theorem lane_retire_self (book : Book) {listing : Listing} (h : book.last? listing ≠ none) :
    (book.retire listing).2.lane listing = { last := none, retiring := true, orders := [] } := by
  show (book.takeAll listing).2.lane listing = _
  unfold takeAll
  split
  · next hnone =>
    rw [last?, lane, hnone] at h
    exact absurd rfl h
  · simp

/-- No order of a listing waits any more when its feed is lost. -/
theorem pending_retire (book : Book) (listing other : Listing) :
    (book.retire listing).2.pending other =
      if other = listing then [] else book.pending other := by
  split
  · next heq =>
    subst heq
    show ((book.takeAll other).2.lane other).orders = []
    unfold takeAll
    split
    · next hnone =>
      rw [lane, hnone]
      rfl
    · simp
  · next hne => exact congrArg Lane.orders (lane_retire_of_ne book hne)

/-- An order that is taken stands at the end of its lane, and the feed of the lane is live. -/
theorem lane_of_insert {book next : Book} {listing : Listing} {order : Pending}
    (h : book.insert listing order = (.ok (), next)) :
    (∃ last, book.last? listing = some last) ∧ ∀ other, next.lane other =
      if other = listing then
        { book.lane listing with orders := book.pending listing ++ [order] }
      else book.lane other := by
  unfold insert at h
  dsimp only at h
  split at h
  · cases h
  · split at h
    · cases h
    · next hlast =>
      cases h
      simp only [Option.isNone_iff_eq_none] at hlast
      exact ⟨Option.ne_none_iff_exists'.1 hlast, fun other => lane_setLane book listing other _⟩

/-- An order that is moved is armed at the last price, and stands at the end of its lane. -/
theorem lane_of_modify {book : Book} {oid : String} {level : Float} {moved : Moved}
    (h : book.modify oid level = some moved) :
    ∃ listing old last, book.find? oid = some (listing, old) ∧ book.last? listing = some last ∧
      moved.order = old.moveTo level last ∧ ∀ other, moved.book.lane other =
        if other = listing then
          { book.lane listing with
            orders := without oid (book.pending listing) ++ [moved.order] }
        else book.lane other := by
  obtain ⟨⟨listing, old⟩, hfind, h⟩ := Option.bind_eq_some_iff.1 h
  obtain ⟨last, hlast, h⟩ := Option.bind_eq_some_iff.1 h
  cases h
  exact ⟨listing, old, last, hfind, hlast, rfl, fun other => lane_setLane book listing other _⟩

/-- The last prices and the marks of two books are the same. -/
def SameFeeds (book next : Book) : Prop :=
  ∀ listing, next.last? listing = book.last? listing ∧
    next.isRetiring listing = book.isRetiring listing

/-- Another list of orders in one lane changes no last price and no mark. -/
theorem sameFeeds_of_lane {book next : Book} {listing : Listing} {orders : List Pending}
    (h : ∀ other, next.lane other =
      if other = listing then { book.lane listing with orders } else book.lane other) :
    book.SameFeeds next := by
  intro other
  unfold last? isRetiring
  rw [h other]
  split
  · next heq =>
    rw [heq]
    exact ⟨rfl, rfl⟩
  · exact ⟨rfl, rfl⟩

/-- An order that is inserted changes no last price and no mark. -/
theorem sameFeeds_of_insert {book next : Book} {listing : Listing} {order : Pending}
    (h : book.insert listing order = (.ok (), next)) : book.SameFeeds next :=
  sameFeeds_of_lane (lane_of_insert h).2

/-- An order that is taken out changes no last price and no mark. -/
theorem sameFeeds_of_remove {book next : Book} {oid : String} {order : Pending}
    (h : book.remove oid = some (order, next)) : book.SameFeeds next := by
  obtain ⟨⟨listing, found⟩, _, h⟩ := Option.bind_eq_some_iff.1 h
  cases h
  exact sameFeeds_of_lane fun other => lane_setLane book listing other _

/-- An order that is moved changes no last price and no mark. -/
theorem sameFeeds_of_modify {book : Book} {oid : String} {level : Float} {moved : Moved}
    (h : book.modify oid level = some moved) : book.SameFeeds moved.book := by
  obtain ⟨_, _, _, _, _, _, hlane⟩ := lane_of_modify h
  exact sameFeeds_of_lane hlane

end Book

end TriggerDesk
