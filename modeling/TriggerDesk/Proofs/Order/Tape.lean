import Mathlib.Data.List.Induction
import Mathlib.Data.List.Nodup
import TriggerDesk.Proofs.Order.Crossing
import TriggerDesk.Session.Watching

/-!
# Tapes

A tape has what happens at a listing while its feed is followed, one mark after the other: prices
come, and orders are placed, moved and cancelled. It says by itself which orders wait at its end
(`waiting`) and which events are due, in which order and with which index (`fires`): an order
fires at the first valid price that reaches its trigger, unless it is moved or cancelled before.

`Stands` follows one order from the mark that places or moves it: it waits until a valid price
crosses its level (`Stands.mem_waiting`), and fires then and only then (`Stands.mem_fires`,
`Stands.filter_firesAfter`).
-/

namespace TriggerDesk

open Market TriggerDesk.Order

/-- One thing that happens at a listing while its feed is followed. -/
inductive Mark where
  /-- A price, valid or not. -/
  | tick (price : Float)
  /-- An order begins to wait. -/
  | place (order : Pending)
  /-- An order is moved. It is given as it is afterwards. -/
  | move (order : Pending)
  /-- The order with an id is cancelled. -/
  | drop (oid : String)
  deriving DecidableEq, Repr

namespace Mark

/-- The price of a tick, if it is valid. -/
def price? : Mark → Option Float
  | tick price => if isValidPrice price then some price else none
  | place _ | move _ | drop _ => none

/-- The order that waits from here on. -/
def order? : Mark → Option Pending
  | place order | move order => some order
  | tick _ | drop _ => none

/-- Whether an order does not wait any more as it did: it fires, is moved or is cancelled. -/
def ends (order : Pending) : Mark → Bool
  | tick price => isValidPrice price && order.trigger.hits price
  | place other | move other => other.oid = order.oid
  | drop oid => oid = order.oid

/-- What becomes of the orders that wait. -/
def act (mark : Mark) (orders : List Pending) : List Pending :=
  (orders.filter fun order => !mark.ends order) ++ mark.order?.toList

/-- An order that is placed takes the place of one with its id, at the end. -/
theorem act_place (order : Pending) (orders : List Pending) :
    (place order).act orders = orders.filter (·.oid ≠ order.oid) ++ [order] := by
  simp [act, ends, order?, eq_comm]

/-- An order that is moved comes to the end. -/
theorem act_move (order : Pending) (orders : List Pending) :
    (move order).act orders = orders.filter (·.oid ≠ order.oid) ++ [order] := by
  simp [act, ends, order?, eq_comm]

/-- An order that is cancelled does not wait any more. -/
theorem act_drop (oid : String) (orders : List Pending) :
    (drop oid).act orders = orders.filter (·.oid ≠ oid) := by
  simp [act, ends, order?, eq_comm]

/-- The orders that a valid price does not reach wait on. -/
theorem act_tick (price : Float) (orders : List Pending) :
    (tick price).act orders =
      if isValidPrice price then orders.filter fun order => !order.trigger.hits price
      else orders := by
  cases hvalid : isValidPrice price <;> simp [act, ends, order?, hvalid]

/-- An order that is placed or moved bears the id of its command, and one that is moved is armed
at the last price of the moment. -/
structure Fits (last : Float) (mark : Mark) : Prop where
  named : ∀ order, mark.order? = some order → order.command.oid = order.oid
  prompt : ∀ order, mark = .move order → order.trigger = Trigger.arm order.trigger.level last

/-- A tick says nothing of an order. -/
theorem fits_tick (last price : Float) : (tick price).Fits last :=
  ⟨nofun, nofun⟩

end Mark

namespace Tape

variable {tape more before after : List Mark} {mark : Mark} {order : Pending} {first price : Float}

/-- The valid prices, in order. -/
def prices (tape : List Mark) : List Float := tape.filterMap Mark.price?

/-- The last price at the end of a tape that begins at some price. -/
def lastPrice (first : Float) (tape : List Mark) : Float := (prices tape).getLastD first

/-- The orders that wait at the end: those that were placed or moved and not ended since, in that
order. -/
def waiting : List Mark → List Pending
  | [] => []
  | mark :: rest =>
    (mark.order?.filter fun order => !rest.any (Mark.ends order)).toList ++ waiting rest

/-- The events that are due at a mark: one for each order that waits and that the price reaches,
with the number of valid prices before. -/
def firesAt (before : List Mark) (mark : Mark) : List Event :=
  match mark.price? with
  | none => []
  | some price =>
    Session.firedEvents ((waiting before).filter (·.trigger.hits price)) (prices before).length
      price

/-- The events that are due at some marks that come after others. -/
def firesAfter (before : List Mark) : List Mark → List Event
  | [] => []
  | mark :: rest => firesAt before mark ++ firesAfter (before ++ [mark]) rest

/-- The events that are due. -/
def fires (tape : List Mark) : List Event := firesAfter [] tape

/-! ## One more mark -/

/-- One more mark brings its price, if that is valid. -/
theorem prices_concat (tape : List Mark) (mark : Mark) :
    prices (tape ++ [mark]) = prices tape ++ mark.price?.toList := by
  rw [prices, List.filterMap_append, prices]
  cases hprice : mark.price? <;> simp [hprice]

/-- The last price is that of the last mark, or the one before. -/
theorem lastPrice_concat (first : Float) (tape : List Mark) (mark : Mark) :
    lastPrice first (tape ++ [mark]) = mark.price?.getD (lastPrice first tape) := by
  rw [lastPrice, prices_concat]
  cases mark.price? with
  | none => rw [Option.toList_none, List.append_nil, Option.getD_none, lastPrice]
  | some price => rw [Option.toList_some, List.getLastD_concat, Option.getD_some]

/-- The orders that wait after one more mark are what it makes of those before. -/
theorem waiting_concat (tape : List Mark) (mark : Mark) :
    waiting (tape ++ [mark]) = mark.act (waiting tape) := by
  induction tape with
  | nil => cases horder : mark.order? <;> simp [waiting, Mark.act, horder]
  | cons earlier rest ih =>
    -- What is new ends the order of the first mark, if it waits, like any other.
    have hfront :
        (earlier.order?.filter fun order => !(rest ++ [mark]).any (Mark.ends order)).toList =
        (earlier.order?.filter fun order => !rest.any (Mark.ends order)).toList.filter
          fun order => !mark.ends order := by
      cases earlier.order? with
      | none => rfl
      | some order =>
        cases hended : rest.any (Mark.ends order) <;> cases hends : mark.ends order <;>
          simp [Option.filter, hended, hends]
    rw [List.cons_append, waiting, waiting, ih, hfront, Mark.act, Mark.act, List.filter_append,
      List.append_assoc]

/-- The events after some marks are those of the first of them, and then those of the rest. -/
theorem firesAfter_append (before tape more : List Mark) :
    firesAfter before (tape ++ more) =
      firesAfter before tape ++ firesAfter (before ++ tape) more := by
  induction tape generalizing before with
  | nil => simp only [List.nil_append, firesAfter, List.append_nil]
  | cons earlier rest ih =>
    simp only [List.cons_append, firesAfter, ih, List.append_assoc, List.nil_append]

/-- The events of a tape are those of its beginning, and then those of the rest. -/
theorem fires_append (tape more : List Mark) :
    fires (tape ++ more) = fires tape ++ firesAfter tape more :=
  firesAfter_append [] tape more

/-- One more mark brings the events that are due at it. -/
theorem fires_concat (tape : List Mark) (mark : Mark) :
    fires (tape ++ [mark]) = fires tape ++ firesAt tape mark := by
  rw [fires_append, firesAfter, firesAfter, List.append_nil]

/-- Without a price, no event is due. -/
theorem firesAt_of_price? (h : mark.price? = none) (before : List Mark) :
    firesAt before mark = [] := by
  rw [firesAt, h]

/-- At a valid price, an event is due for every waiting order that it reaches. -/
theorem firesAt_tick (before : List Mark) (price : Float) :
    firesAt before (.tick price) =
      if isValidPrice price then
        Session.firedEvents ((waiting before).filter (·.trigger.hits price)) (prices before).length
          price
      else [] := by
  cases hvalid : isValidPrice price <;> simp [firesAt, Mark.price?, hvalid]

/-- What every mark of a tape should say of its order. -/
def Fits (first : Float) (tape : List Mark) : Prop :=
  ∀ before mark after, tape = before ++ mark :: after → mark.Fits (lastPrice first before)

/-- An empty tape says nothing. -/
theorem fits_nil (first : Float) : Fits first [] := by
  intro before mark after hsplit
  cases List.append_ne_nil_of_right_ne_nil before (List.cons_ne_nil mark after) hsplit.symm

/-- One more mark fits if it says what it should. -/
theorem Fits.concat (h : Fits first tape) (hmark : mark.Fits (lastPrice first tape)) :
    Fits first (tape ++ [mark]) := by
  intro before found after hsplit
  rcases List.eq_nil_or_concat after with rfl | ⟨rest, final, rfl⟩
  · obtain ⟨rfl, hlast⟩ := List.append_inj' hsplit rfl
    exact List.singleton_inj.1 hlast ▸ hmark
  · rw [List.concat_eq_append, ← List.cons_append, ← List.append_assoc] at hsplit
    exact h before found rest (List.append_inj' hsplit rfl).1

/-- The beginning of a tape that fits does, too. -/
theorem Fits.of_append (h : Fits first (tape ++ more)) : Fits first tape := by
  rintro before mark after rfl
  refine h before mark (after ++ more) ?_
  rw [List.append_assoc, List.cons_append]

/-! ## One order -/

/-- An order waits exactly if it was placed or moved and nothing has ended it since. -/
theorem mem_waiting : order ∈ waiting tape ↔ ∃ before mark after, tape = before ++ mark :: after ∧
    mark.order? = some order ∧ ∀ later ∈ after, later.ends order = false := by
  induction tape with
  | nil =>
    refine ⟨nofun, fun ⟨before, mark, after, hsplit, _⟩ => ?_⟩
    cases List.append_ne_nil_of_right_ne_nil before (List.cons_ne_nil mark after) hsplit.symm
  | cons earlier rest ih =>
    have hown : order ∈ (earlier.order?.filter fun order => !rest.any (Mark.ends order)).toList ↔
        earlier.order? = some order ∧ ∀ later ∈ rest, later.ends order = false := by
      simp [Option.filter_eq_some_iff]
    rw [waiting, List.mem_append, hown, ih]
    constructor
    · rintro (⟨horder, hnone⟩ | ⟨before, mark, after, rfl, horder, hnone⟩)
      · exact ⟨[], earlier, rest, rfl, horder, hnone⟩
      · exact ⟨earlier :: before, mark, after, rfl, horder, hnone⟩
    · rintro ⟨before, mark, after, hsplit, horder, hnone⟩
      cases before with
      | nil =>
        cases hsplit
        exact .inl ⟨horder, hnone⟩
      | cons _ before =>
        cases hsplit
        exact .inr ⟨before, mark, after, rfl, horder, hnone⟩

/-- An event is due at a mark if the mark is a valid price that reaches an order, and it is the
event of that order. -/
theorem mem_firesAt {event : Event} : event ∈ firesAt before mark ↔
    ∃ price order, mark = .tick price ∧ isValidPrice price = true ∧ order ∈ waiting before ∧
      order.trigger.hits price = true ∧
      event = Event.triggered order.command order.trigger.direction (prices before).length
        price := by
  cases mark with
  | place | move | drop => exact ⟨nofun, nofun⟩
  | tick price =>
    rw [firesAt_tick]
    cases hvalid : isValidPrice price with
    | false => simp [hvalid]
    | true =>
      rw [if_pos rfl, Session.firedEvents, List.mem_map]
      constructor
      · rintro ⟨order, horder, rfl⟩
        obtain ⟨hmem, hhits⟩ := List.mem_filter.1 horder
        exact ⟨price, order, rfl, hvalid, hmem, hhits, rfl⟩
      · rintro ⟨_, order, hmark, _, hmem, hhits, rfl⟩
        cases hmark
        exact ⟨order, List.mem_filter.2 ⟨hmem, hhits⟩, rfl⟩

/-- An event is due exactly if it is of an order that waits when a valid price comes that reaches
it. -/
theorem mem_firesAfter {start : List Mark} {event : Event} : event ∈ firesAfter start tape ↔
    ∃ before price after order, tape = before ++ .tick price :: after ∧
      isValidPrice price = true ∧ order ∈ waiting (start ++ before) ∧
      order.trigger.hits price = true ∧
      event = Event.triggered order.command order.trigger.direction
        (prices (start ++ before)).length price := by
  induction tape generalizing start with
  | nil =>
    refine ⟨nofun, fun ⟨before, price, after, _, hsplit, _⟩ => ?_⟩
    cases List.append_ne_nil_of_right_ne_nil before (List.cons_ne_nil (.tick price) after)
      hsplit.symm
  | cons earlier rest ih =>
    rw [firesAfter, List.mem_append, ih, mem_firesAt]
    constructor
    · rintro (⟨price, order, rfl, hdue⟩ | ⟨before, price, after, order, rfl, hdue⟩)
      · exact ⟨[], price, rest, order, rfl, (List.append_nil start).symm ▸ hdue⟩
      · rw [List.append_assoc] at hdue
        exact ⟨earlier :: before, price, after, order, rfl, hdue⟩
    · rintro ⟨before, price, after, order, hsplit, hdue⟩
      cases before with
      | nil =>
        cases hsplit
        exact .inl ⟨price, order, rfl, List.append_nil start ▸ hdue⟩
      | cons _ before =>
        cases hsplit
        refine .inr ⟨before, price, after, order, rfl, ?_⟩
        rw [List.append_assoc]
        exact hdue

/-! ## Ids -/

/-- An id is that of one order that waits. -/
theorem nodup_waiting (tape : List Mark) : ((waiting tape).map (·.oid)).Nodup := by
  induction tape using List.reverseRecOn with
  | nil => exact List.nodup_nil
  | append_singleton tape mark ih =>
    have hput : ∀ order : Pending,
        (((waiting tape).filter (·.oid ≠ order.oid) ++ [order]).map (·.oid)).Nodup := by
      intro order
      rw [List.map_append, List.map_singleton, List.nodup_append]
      refine ⟨ih.sublist (List.filter_sublist.map _), List.nodup_singleton _, ?_⟩
      intro oid hoid other hother heq
      obtain ⟨found, hfound, rfl⟩ := List.mem_map.1 hoid
      rw [List.mem_singleton.1 hother] at heq
      exact of_decide_eq_true (List.mem_filter.1 hfound).2 heq
    rw [waiting_concat]
    cases mark with
    | tick price =>
      rw [Mark.act_tick]
      split
      · exact ih.sublist (List.filter_sublist.map _)
      · exact ih
    | drop oid => exact Mark.act_drop oid _ ▸ ih.sublist (List.filter_sublist.map _)
    | place order => exact Mark.act_place order _ ▸ hput order
    | move order => exact Mark.act_move order _ ▸ hput order

/-- Orders that wait under one id are the same. -/
theorem eq_of_oid {other : Pending} (hmem : order ∈ waiting tape) (hother : other ∈ waiting tape)
    (hoid : other.oid = order.oid) : other = order :=
  List.inj_on_of_nodup_map (nodup_waiting tape) hother hmem hoid

/-- An order that waits bears the id of its command. -/
theorem Fits.of_waiting (h : Fits first tape) (hmem : order ∈ waiting tape) :
    order.command.oid = order.oid := by
  obtain ⟨before, mark, after, hsplit, horder, _⟩ := mem_waiting.1 hmem
  exact (h before mark after hsplit).named order horder

/-- An id is free until an order is placed or moved under it. -/
theorem oid_ne_of_waiting {oid : String} (hbefore : ∀ order ∈ waiting before, order.oid ≠ oid)
    (hafter : ∀ mark ∈ after, ∀ order, mark.order? = some order → order.oid ≠ oid) :
    ∀ order ∈ waiting (before ++ after), order.oid ≠ oid := by
  induction after using List.reverseRecOn with
  | nil => rwa [List.append_nil]
  | append_singleton after mark ih =>
    intro order hmem
    rw [← List.append_assoc, waiting_concat, Mark.act, List.mem_append] at hmem
    rcases hmem with hkept | hnew
    · exact ih (fun found hfound => hafter found (List.mem_append_left _ hfound)) order
        (List.mem_filter.1 hkept).1
    · exact hafter mark (List.mem_append_right _ (List.mem_singleton_self mark)) order
        (Option.mem_toList.1 hnew)

/-- Who alone waits under an id fires alone under it. -/
theorem filter_firesAt (hnamed : ∀ found ∈ waiting before, found.command.oid = found.oid)
    (hprice : isValidPrice price = true) (hmem : order ∈ waiting before)
    (hhits : order.trigger.hits price = true) :
    (firesAt before (.tick price)).filter (·.oid = order.oid) =
      [Event.triggered order.command order.trigger.direction (prices before).length price] := by
  have halone : ((waiting before).filter (·.trigger.hits price)).filter
      (·.command.oid = order.oid) = [order] := by
    have hsame : ∀ found ∈ (waiting before).filter (·.trigger.hits price),
        decide (found.command.oid = order.oid) = (found == order) := by
      intro found hfound
      have hwaits := (List.mem_filter.1 hfound).1
      rw [hnamed found hwaits, Bool.beq_eq_decide_eq, decide_eq_decide]
      exact ⟨eq_of_oid hmem hwaits, fun heq => heq ▸ rfl⟩
    have hnodup := (List.Nodup.of_map _ (nodup_waiting before)).filter (·.trigger.hits price)
    rw [List.filter_congr hsame, List.filter_beq,
      List.count_eq_one_of_mem hnodup (List.mem_filter.2 ⟨hmem, hhits⟩)]
    rfl
  rw [firesAt_tick, if_pos hprice, Session.firedEvents, List.filter_map]
  exact congrArg _ halone

/-! ## Orders that are armed at the last price -/

/-- The last price is valid, wherever the tape is cut. -/
theorem isValidPrice_lastPrice (hfirst : isValidPrice first = true) (tape : List Mark) :
    isValidPrice (lastPrice first tape) = true := by
  induction tape using List.reverseRecOn with
  | nil => exact hfirst
  | append_singleton tape mark ih =>
    rw [lastPrice_concat]
    cases hprice : mark.price? with
    | none => exact ih
    | some price =>
      cases mark with
      | place | move | drop => cases hprice
      | tick =>
        rw [Mark.price?, Option.ite_none_right_eq_some] at hprice
        obtain ⟨hvalid, heq⟩ := hprice
        exact Option.some.inj heq ▸ hvalid

/-- An order at a finite level is armed at a last price. -/
structure IsArmedAt (last : Float) (order : Pending) : Prop where
  finite : order.trigger.level.isFinite = true
  trigger : order.trigger = Trigger.arm order.trigger.level last

/-- No valid price among some marks crosses the level of an order, seen from a last price, and the
order is not moved or cancelled. -/
structure Spares (last : Float) (order : Pending) (marks : List Mark) : Prop where
  prices : ∀ price, .tick price ∈ marks → isValidPrice price = true →
    ¬ Crosses last order.trigger.level price
  orders : ∀ mark ∈ marks, ∀ other, mark.order? = some other → other.oid ≠ order.oid
  drops : ∀ oid, .drop oid ∈ marks → oid ≠ order.oid

variable {last : Float} {marks : List Mark}

/-- The trigger of an armed order is hit exactly when the price crosses its level. -/
theorem IsArmedAt.hits_iff (h : IsArmedAt last order) (hlast : last.isFinite = true) :
    order.trigger.hits price = true ↔ Crosses last order.trigger.level price := by
  rw [h.trigger]
  exact Trigger.hits_arm_iff h.finite hlast

/-- Marks that spare an order do not end it. -/
theorem Spares.ends (h : Spares last order marks) (harmed : IsArmedAt last order)
    (hlast : last.isFinite = true) : ∀ mark ∈ marks, mark.ends order = false := by
  intro mark hmark
  cases mark with
  | tick price =>
    rw [Mark.ends, Bool.and_eq_false_imp]
    intro hvalid
    rw [← Bool.not_eq_true, harmed.hits_iff hlast]
    exact h.prices price hmark hvalid
  | place other | move other => exact decide_eq_false (h.orders _ hmark other rfl)
  | drop oid => exact decide_eq_false (h.drops oid hmark)

/-- Marks that spare an order have spared it up to any of them. -/
theorem Spares.of_append (h : Spares last order (marks ++ more)) : Spares last order marks where
  prices price hmem := h.prices price (List.mem_append_left _ hmem)
  orders mark hmem := h.orders mark (List.mem_append_left _ hmem)
  drops oid hmem := h.drops oid (List.mem_append_left _ hmem)

/-- An order was placed or moved by a mark, armed at the last price of that moment, and what came
since has spared it. -/
structure Stands (first : Float) (order : Pending) (before : List Mark) (mark : Mark)
    (since : List Mark) : Prop where
  begins : mark.order? = some order
  armed : IsArmedAt (lastPrice first before) order
  spares : Spares (lastPrice first before) order since

namespace Stands

/-- What came since an order stands has not ended it. -/
theorem ends (h : Stands first order before mark marks) (hfirst : isValidPrice first = true) :
    ∀ later ∈ marks, later.ends order = false :=
  h.spares.ends h.armed (isValidPrice_iff.1 (isValidPrice_lastPrice hfirst before)).1

/-- An order that stands waits. -/
theorem mem_waiting (h : Stands first order before mark marks)
    (hfirst : isValidPrice first = true) : order ∈ waiting (before ++ mark :: marks) :=
  Tape.mem_waiting.2 ⟨before, mark, marks, rfl, h.begins, h.ends hfirst⟩

/-- An order has stood since it was placed or moved. -/
theorem of_append (h : Stands first order before mark (marks ++ more)) :
    Stands first order before mark marks :=
  ⟨h.begins, h.armed, h.spares.of_append⟩

/-- A price that crosses the level of a standing order hits its trigger. -/
theorem hits_of_crosses (h : Stands first order before mark marks)
    (hfirst : isValidPrice first = true)
    (hcrosses : Crosses (lastPrice first before) order.trigger.level price) :
    order.trigger.hits price = true :=
  (h.armed.hits_iff (isValidPrice_iff.1 (isValidPrice_lastPrice hfirst before)).1).2 hcrosses

/-- A standing order fires at the first valid price that crosses its level, seen from the last price
that it was armed at. -/
theorem mem_fires (h : Stands first order before mark marks) (hfirst : isValidPrice first = true)
    (hprice : isValidPrice price = true)
    (hcrosses : Crosses (lastPrice first before) order.trigger.level price) :
    Event.triggered order.command order.trigger.direction
        (prices (before ++ mark :: marks)).length price ∈
      fires (before ++ mark :: marks ++ .tick price :: after) := by
  rw [fires_append, List.mem_append]
  refine .inr (mem_firesAfter.2 ⟨[], price, after, order, rfl, hprice, ?_⟩)
  rw [List.append_nil]
  exact ⟨h.mem_waiting hfirst, h.hits_of_crosses hfirst hcrosses, rfl⟩

/-- Nobody else waits under the id of a standing order. -/
theorem eq_of_waiting (h : Stands first order before mark marks)
    (hfirst : isValidPrice first = true) (hfits : Fits first (before ++ mark :: marks))
    {other : Pending} (hwaits : other ∈ waiting (before ++ mark :: marks))
    (hoid : other.command.oid = order.oid) : other = order :=
  eq_of_oid (h.mem_waiting hfirst) hwaits ((hfits.of_waiting hwaits).symm.trans hoid)

/-- A standing order does not fire at the last price that it was armed at, unless that is its
level. -/
theorem filter_firesAt_eq_nil (h : Stands first order before mark marks)
    (hfirst : isValidPrice first = true) (hfits : Fits first (before ++ mark :: marks))
    (hprice : (price == lastPrice first before) = true)
    (hne : (order.trigger.level == lastPrice first before) = false) :
    (firesAt (before ++ mark :: marks) (.tick price)).filter (·.oid = order.oid) = [] := by
  refine List.filter_eq_nil_iff.2 fun event hevent hoid => ?_
  obtain ⟨_, other, htick, _, hwaits, hhits, rfl⟩ := mem_firesAt.1 hevent
  cases htick
  rw [h.eq_of_waiting hfirst hfits hwaits (of_decide_eq_true hoid), h.armed.trigger,
    Trigger.hits_arm_self hprice hne] at hhits
  cases hhits

/-- Nothing is due under its id while it waits. -/
theorem filter_firesAfter_eq_nil (h : Stands first order before mark marks)
    (hfirst : isValidPrice first = true) (hfits : Fits first (before ++ mark :: marks)) :
    (firesAfter (before ++ [mark]) marks).filter (·.oid = order.oid) = [] := by
  refine List.filter_eq_nil_iff.2 fun event hevent hoid => ?_
  obtain ⟨early, price, late, other, rfl, hvalid, hwaits, hhits, rfl⟩ := mem_firesAfter.1 hevent
  rw [List.append_assoc, List.singleton_append] at hwaits
  rw [← List.cons_append, ← List.append_assoc] at hfits
  have hsame := h.of_append.eq_of_waiting hfirst hfits.of_append hwaits (of_decide_eq_true hoid)
  have hends := h.ends hfirst (.tick price) (List.mem_append_right _ List.mem_cons_self)
  rw [Mark.ends, hvalid, ← hsame, hhits] at hends
  cases hends

/-- After a valid price that crosses its level nobody waits under its id, until another order is
placed or moved under it. -/
theorem oid_ne_of_crosses (h : Stands first order before mark marks)
    (hfirst : isValidPrice first = true) (hprice : isValidPrice price = true)
    (hcrosses : Crosses (lastPrice first before) order.trigger.level price)
    (hafter : ∀ mark ∈ after, ∀ other, mark.order? = some other → other.oid ≠ order.oid) :
    ∀ other ∈ waiting (before ++ mark :: marks ++ [.tick price] ++ after),
      other.oid ≠ order.oid := by
  refine oid_ne_of_waiting (fun other hmem hoid => ?_) hafter
  rw [waiting_concat, Mark.act_tick, if_pos hprice] at hmem
  obtain ⟨hwaits, hnot⟩ := List.mem_filter.1 hmem
  rw [eq_of_oid (h.mem_waiting hfirst) hwaits hoid, h.hits_of_crosses hfirst hcrosses] at hnot
  cases hnot

/-- What is due under its id since then is that event only, until another order is placed or
moved under the id. -/
theorem filter_firesAfter (h : Stands first order before mark marks)
    (hfirst : isValidPrice first = true) (hprice : isValidPrice price = true)
    (hcrosses : Crosses (lastPrice first before) order.trigger.level price)
    (hfits : Fits first (before ++ mark :: marks ++ .tick price :: after))
    (hafter : ∀ mark ∈ after, ∀ other, mark.order? = some other → other.oid ≠ order.oid) :
    (firesAfter (before ++ [mark]) (marks ++ .tick price :: after)).filter (·.oid = order.oid) =
      [Event.triggered order.command order.trigger.direction
        (prices (before ++ mark :: marks)).length price] := by
  have hbefore := hfits.of_append
  have hat := filter_firesAt (fun _ hfound => hbefore.of_waiting hfound) hprice
    (h.mem_waiting hfirst) (h.hits_of_crosses hfirst hcrosses)
  have hlater : (firesAfter (before ++ mark :: marks ++ [.tick price]) after).filter
      (·.oid = order.oid) = [] := by
    refine List.filter_eq_nil_iff.2 fun event hevent hoid => ?_
    obtain ⟨early, found, late, other, rfl, _, hwaits, _, rfl⟩ := mem_firesAfter.1 hevent
    rw [List.append_cons (before ++ mark :: marks), ← List.append_assoc] at hfits
    have hother := hfits.of_append.of_waiting hwaits
    refine h.oid_ne_of_crosses hfirst hprice hcrosses (fun found hfound => ?_) other hwaits
      (hother.symm.trans (of_decide_eq_true hoid))
    exact hafter found (List.mem_append_left _ hfound)
  rw [firesAfter_append, firesAfter, List.filter_append, List.filter_append,
    ← List.append_cons, hat, hlater, h.filter_firesAfter_eq_nil hfirst hbefore]
  rfl

end Stands

end Tape

end TriggerDesk
