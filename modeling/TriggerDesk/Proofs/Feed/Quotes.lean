import Mathlib.Data.List.Forall2
import TriggerDesk.Feed.Brokers

/-!
# What a feed shows to those who follow one symbol

Who follows a symbol looks at the quotes for it in a batch and passes over all others. `AlikeFor`
says that two batches have the same quotes for a symbol, whatever other quotes they have and
wherever these stand, and that two sources show such batches. Who follows the symbol reads the same
from both.
-/

namespace TriggerDesk

namespace Market.Batch

variable {batch other : Batch} {symbol : String}

/-- The quotes of a batch for a symbol. -/
def quotesFor (batch : Batch) (symbol : String) : Batch :=
  batch.filter fun (name, _) => sameSymbol name symbol

/-- Two batches have the same quotes for a symbol. -/
def AlikeFor (symbol : String) (batch other : Batch) : Prop :=
  other.quotesFor symbol = batch.quotesFor symbol

/-- Where a symbol has one quote at most, the order of the quotes does not matter. -/
theorem alikeFor_of_perm (hone : (batch.quotesFor symbol).length ≤ 1)
    (h : (other.quotesFor symbol).Perm (batch.quotesFor symbol)) : AlikeFor symbol batch other := by
  unfold AlikeFor
  cases hquotes : batch.quotesFor symbol with
  | nil => exact (hquotes ▸ h).eq_nil
  | cons quote rest =>
    have hrest : rest = [] := by
      rw [hquotes, List.length_cons] at hone
      exact List.eq_nil_of_length_eq_zero (by omega)
    subst hrest
    exact (hquotes ▸ h).eq_singleton

namespace AlikeFor

/-- Batches that are alike for a symbol have the same ticks for it. -/
theorem ticksFor_eq (h : AlikeFor symbol batch other) :
    other.ticksFor symbol = batch.ticksFor symbol := by
  show (other.quotesFor symbol).flatMap (fun (_, quote) => quote.ticks) = _
  rw [show other.quotesFor symbol = batch.quotesFor symbol from h]
  rfl

/-- Batches that are alike for a symbol have the same last price for it. -/
theorem lastFor?_eq (h : AlikeFor symbol batch other) :
    other.lastFor? symbol = batch.lastFor? symbol := by
  unfold lastFor?
  rw [← List.head?_filter, ← List.head?_filter]
  exact congrArg (fun quotes => (List.head? quotes).map fun (_, quote) => quote.last) h

end AlikeFor

end Market.Batch

namespace Feed

open Market

variable {symbol : String} {source other : Source}

/-- Two items are batches with the same quotes for a symbol, or the same failure. -/
inductive Item.AlikeFor (symbol : String) : Item → Item → Prop
  | batch {batch other : Batch} : Batch.AlikeFor symbol batch other →
      AlikeFor symbol (.batch batch) (.batch other)
  | failure (failure : Failure) : AlikeFor symbol (.failure failure) (.failure failure)

/-- Two readings give alike items, or both give none. -/
inductive Reading.AlikeFor (symbol : String) : Reading → Reading → Prop
  | item {item other : Item} : Item.AlikeFor symbol item other →
      AlikeFor symbol (.item item) (.item other)
  | pending : AlikeFor symbol .pending .pending
  | ended : AlikeFor symbol .ended .ended

/-- Two streams hold alike items, and end alike. -/
structure StreamsAlike (symbol : String) (stream other : Channel Item) : Prop where
  sending : other.sending = stream.sending
  items : List.Forall₂ (Item.AlikeFor symbol) stream.items other.items

/-- Two sources have alike streams, and take subscribers alike. -/
structure Source.AlikeFor (symbol : String) (source other : Source) : Prop where
  brokers : other.brokers = source.brokers
  refusals : other.replay.refusals = source.replay.refusals
  waiting : other.replay.waiting = source.replay.waiting
  length : other.replay.streams.length = source.replay.streams.length
  streams : ∀ id : StreamId,
    Option.Rel (StreamsAlike symbol) source.replay.streams[id]? other.replay.streams[id]?

namespace Source.AlikeFor

/-- A subscriber gets the same stream, or the same failure. -/
theorem subscribe_eq (h : Source.AlikeFor symbol source other) (listing : Listing) :
    (other.subscribe listing).1 = (source.subscribe listing).1 := by
  have hknows : other.knows listing.broker = source.knows listing.broker := by
    rw [knows, knows, h.brokers]
  unfold Source.subscribe
  rw [hknows]
  split
  · unfold Replay.subscribe
    simp only [Replay.countOpen, h.refusals, h.waiting]
    cases source.replay.refusals.get? listing with
    | some reason => rfl
    | none =>
      cases source.replay.waiting.get? listing with
      | some id => rfl
      | none => exact congrArg Except.ok h.length
  · rfl

/-- A reader reads alike items. -/
theorem peek (h : Source.AlikeFor symbol source other) (id : StreamId) :
    Reading.AlikeFor symbol (source.replay.peek id) (other.replay.peek id) := by
  have hstream := h.streams id
  unfold Replay.peek
  cases hsource : source.replay.streams[id]? with
  | none =>
    rw [hsource] at hstream
    generalize other.replay.streams[id]? = shown at hstream
    cases hstream
    exact .ended
  | some stream =>
    rw [hsource] at hstream
    generalize other.replay.streams[id]? = shown at hstream
    cases hstream with
    | @some _ shown halike =>
      obtain ⟨hsending, hitems⟩ := halike
      dsimp only
      generalize stream.items = read, shown.items = seen at hitems
      rw [hsending]
      cases hitems with
      | nil =>
        cases stream.sending with
        | true => exact .pending
        | false => exact .ended
      | cons hitem _ => exact .item hitem

end Source.AlikeFor

/-! ## Other quotes for other symbols -/

/-- The item with another batch. -/
def Item.recast (change : Batch → Batch) : Item → Item
  | .batch quotes => .batch (change quotes)
  | .failure cause => .failure cause

/-- The source with other batches in its streams. -/
def Source.recast (change : Batch → Batch) (source : Source) : Source :=
  { source with replay := { source.replay with
      streams := source.replay.streams.map fun stream =>
        { stream with items := stream.items.map (Item.recast change) } } }

/-- A source whose batches get other quotes for other symbols shows the symbol the same. -/
theorem Source.alikeFor_recast {change : Batch → Batch}
    (h : ∀ batch, Batch.AlikeFor symbol batch (change batch)) (source : Source) :
    Source.AlikeFor symbol source (source.recast change) where
  brokers := rfl
  refusals := rfl
  waiting := rfl
  length := List.length_map _
  streams id := by
    show Option.Rel _ source.replay.streams[id]? (source.replay.streams.map _)[id]?
    rw [List.getElem?_map]
    cases source.replay.streams[id]? with
    | none => exact .none
    | some stream =>
      refine .some ⟨rfl, List.forall₂_map_right_iff.2 (List.forall₂_same.2 fun item _ => ?_)⟩
      cases item with
      | batch quotes => exact .batch (h quotes)
      | failure failure => exact .failure failure

end Feed

end TriggerDesk
