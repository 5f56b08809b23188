import Mathlib.Data.List.Nodup
import TriggerDesk.Feed.Brokers

/-!
# The streams of a replay feed

What the operations of a replay feed do to what is unread in its streams (`Replay.content?`), and
what they keep (`Replay.Sound`): a listing has a current stream of its own, with its senders, and a
stream that waits is the current one of its listing. So an item that is sent goes to the current
stream if somebody reads it or will, and is refused only where that stream is full
(`Replay.sends`); and nobody takes the stream that waits but the next subscriber
(`Source.gives`).
-/

namespace TriggerDesk.Feed

open Market

namespace Replay

variable {replay : Replay} {listing other : Listing} {id seen : StreamId} {item : Item}
  {items unread : List Item} {stream : Channel Item} {change : Channel Item → Channel Item}

/-- Whether a stream has somebody to read it, and what is unread. -/
def content? (replay : Replay) (id : StreamId) : Option (Bool × List Item) :=
  replay.streams[id]?.map fun stream => (stream.receiving, stream.items)

/-- What is in a stream is read off its channel. -/
theorem content?_eq_some {receiving : Bool} :
    replay.content? id = some (receiving, unread) ↔
      ∃ stream, replay.streams[id]? = some stream ∧ stream.receiving = receiving ∧
        stream.items = unread := by
  simp only [content?, Option.map_eq_some_iff, Prod.mk.injEq]

/-- A stream with contents has been made. -/
theorem lt_of_content? {content : Bool × List Item} (h : replay.content? id = some content) :
    id < replay.streams.length := by
  obtain ⟨stream, hstream, -⟩ := Option.map_eq_some_iff.1 h
  exact (List.getElem?_eq_some_iff.1 hstream).1

/-- An item that is there to read is the first that is unread. -/
theorem content?_of_peek (h : replay.peek id = .item item) :
    ∃ receiving rest, replay.content? id = some (receiving, item :: rest) := by
  unfold peek at h
  split at h
  · cases h
  · next stream hstream =>
    split at h
    · next first rest hitems =>
      cases h
      exact ⟨stream.receiving, rest, content?_eq_some.2 ⟨stream, hstream, rfl, hitems⟩⟩
    · split at h <;> cases h

/-! ## What the operations do to what is unread -/

/-- A change of one stream leaves the others. -/
theorem getElem?_modifyStream (replay : Replay) (id seen : StreamId)
    (change : Channel Item → Channel Item) :
    (replay.modifyStream id change).streams[seen]? =
      if id = seen then replay.streams[seen]?.map change else replay.streams[seen]? := by
  rw [modifyStream, List.getElem?_modify]
  split <;> simp

/-- What becomes of a stream depends on the stream that is there. -/
theorem modifyStream_congr {same : Channel Item → Channel Item}
    (h : ∀ stream, replay.streams[id]? = some stream → change stream = same stream) :
    replay.modifyStream id change = replay.modifyStream id same := by
  have hstreams : (replay.modifyStream id change).streams =
      (replay.modifyStream id same).streams := by
    refine List.ext_getElem? fun seen => ?_
    rw [getElem?_modifyStream, getElem?_modifyStream]
    split
    · next heq =>
      rw [heq] at h
      exact Option.map_congr fun stream hstream => h stream hstream
    · rfl
  exact congrArg (fun streams => { replay with streams }) hstreams

/-- A change of a stream changes what is in it as it changes the channel. -/
theorem content?_modifyStream {view : Bool × List Item → Bool × List Item}
    (h : ∀ stream : Channel Item,
      ((change stream).receiving, (change stream).items) = view (stream.receiving, stream.items))
    (replay : Replay) (id seen : StreamId) :
    (replay.modifyStream id change).content? seen =
      if id = seen then (replay.content? seen).map view else replay.content? seen := by
  unfold content?
  rw [getElem?_modifyStream]
  split
  · rw [Option.map_map, Option.map_map]
    exact congrArg (Option.map · _) (funext h)
  · rfl

/-- Reading on takes the first item. -/
theorem content?_advance (replay : Replay) (id seen : StreamId) :
    (replay.advance id).content? seen =
      if id = seen then (replay.content? seen).map fun content => (content.1, content.2.tail)
      else replay.content? seen :=
  content?_modifyStream (fun _ => rfl) replay id seen

/-- A subscriber that leaves takes nothing with it: what was unread is gone. -/
theorem content?_unsubscribe (replay : Replay) (id seen : StreamId) :
    (replay.unsubscribe id).content? seen =
      if id = seen then (replay.content? seen).map fun _ => (false, [])
      else replay.content? seen :=
  content?_modifyStream (fun _ => rfl) replay id seen

/-- A stream with one item more. -/
def extend (item : Item) (stream : Channel Item) : Channel Item :=
  { stream with items := stream.items ++ [item] }

/-- An item is added at the end of a stream. -/
theorem content?_extend (replay : Replay) (item : Item) (id seen : StreamId) :
    (replay.modifyStream id (extend item)).content? seen =
      if id = seen then (replay.content? seen).map fun content => (content.1, content.2 ++ [item])
      else replay.content? seen :=
  content?_modifyStream (fun _ => rfl) replay id seen

/-- The senders leave a stream as it is for its reader. -/
theorem content?_closeSending (replay : Replay) (id seen : StreamId) :
    (replay.modifyStream id Channel.closeSending).content? seen = replay.content? seen := by
  unfold content?
  rw [getElem?_modifyStream]
  split
  · rw [Option.map_map]
    rfl
  · rfl

/-- Without a current stream there is nothing to end. -/
theorem endCurrent_of_none (h : replay.current.get? listing = none) :
    replay.endCurrent listing = replay := by
  rw [endCurrent, h]

/-- The current stream ends for its senders. -/
theorem endCurrent_of_some (h : replay.current.get? listing = some id) :
    replay.endCurrent listing = replay.modifyStream id Channel.closeSending := by
  rw [endCurrent, h]

/-- Without a waiting stream there is nothing to drop. -/
theorem dropWaiting_of_none (h : replay.waiting.get? listing = none) :
    replay.dropWaiting listing = replay := by
  rw [dropWaiting, h]

/-- A waiting stream that is dropped ends for its reader and does not wait any more. -/
theorem dropWaiting_of_some (h : replay.waiting.get? listing = some id) :
    replay.dropWaiting listing =
      { replay.modifyStream id Channel.closeReceiving with
        waiting := replay.waiting.erase listing } := by
  rw [dropWaiting, h]

/-- Only streams are different after the senders left one. -/
theorem endCurrent_eq (replay : Replay) (listing : Listing) :
    replay.endCurrent listing =
      { replay with streams := (replay.endCurrent listing).streams } := by
  unfold endCurrent
  split <;> rfl

/-- Only the current stream ends. -/
theorem getElem?_endCurrent (replay : Replay) (listing : Listing) (seen : StreamId) :
    (replay.endCurrent listing).streams[seen]? =
      if replay.current.get? listing = some seen then
        replay.streams[seen]?.map Channel.closeSending
      else replay.streams[seen]? := by
  cases hcurrent : replay.current.get? listing with
  | none =>
    rw [endCurrent_of_none hcurrent, if_neg nofun]
  | some id =>
    rw [endCurrent_of_some hcurrent, getElem?_modifyStream]
    exact if_congr (Option.some_inj).symm rfl rfl

/-- Ending a stream makes none. -/
theorem length_endCurrent (replay : Replay) (listing : Listing) :
    (replay.endCurrent listing).streams.length = replay.streams.length := by
  unfold endCurrent
  split
  · rfl
  · exact List.length_modify _ _ _

/-- Ending a stream leaves what is unread in it. -/
theorem content?_endCurrent (replay : Replay) (listing : Listing) (seen : StreamId) :
    (replay.endCurrent listing).content? seen = replay.content? seen := by
  unfold endCurrent
  split
  · rfl
  · exact content?_closeSending replay _ seen

/-- A new stream with items. -/
def streamOf (items : List Item) : Channel Item :=
  { capacity := streamCapacity, items, sending := true, receiving := true }

/-- The feed with a new stream as the current one of a listing. -/
def withStream (replay : Replay) (listing : Listing) (items : List Item) : Replay :=
  { replay with
    streams := (replay.endCurrent listing).streams ++ [streamOf items]
    current := replay.current.set listing replay.streams.length }

/-- A new stream is the current one, without items. -/
theorem startStream_eq (replay : Replay) (listing : Listing) :
    replay.startStream listing = (replay.streams.length, replay.withStream listing []) := by
  unfold startStream
  rw [endCurrent_eq]
  rfl

/-- What streams there are with one more. -/
theorem getElem?_withStream (replay : Replay) (listing : Listing) (items : List Item)
    (seen : StreamId) :
    (replay.withStream listing items).streams[seen]? =
      if seen = replay.streams.length then some (streamOf items)
      else (replay.endCurrent listing).streams[seen]? := by
  show ((replay.endCurrent listing).streams ++ [_])[seen]? = _
  rw [List.getElem?_append, length_endCurrent]
  split
  · next hlt => rw [if_neg (Nat.ne_of_lt hlt)]
  · next hge =>
    split
    · next heq => rw [heq, Nat.sub_self]; rfl
    · next hne =>
      have hlength : (replay.endCurrent listing).streams.length ≤ seen := by
        rw [length_endCurrent]
        exact Nat.le_of_not_lt hge
      have hone : [streamOf items].length ≤ seen - replay.streams.length :=
        Nat.sub_pos_of_lt (Nat.lt_of_le_of_ne (Nat.le_of_not_lt hge) (Ne.symm hne))
      rw [List.getElem?_eq_none hlength, List.getElem?_eq_none hone]

/-- What is in the streams when there is one more. -/
theorem content?_withStream (replay : Replay) (listing : Listing) (items : List Item)
    (seen : StreamId) :
    (replay.withStream listing items).content? seen =
      if seen = replay.streams.length then some (true, items) else replay.content? seen := by
  rw [content?, getElem?_withStream]
  split
  · rfl
  · exact content?_endCurrent replay listing seen

/-- A new stream has a reader and the items that it is given. -/
theorem content?_withStream_self (replay : Replay) (listing : Listing) (items : List Item) :
    (replay.withStream listing items).content? replay.streams.length = some (true, items) := by
  rw [content?_withStream, if_pos rfl]

/-! ## What the operations keep -/

/-- Every listing has a current stream of its own, which its senders have not left, and a stream
that waits is a current one that nobody left. -/
structure Sound (replay : Replay) : Prop where
  capacity : ∀ (id : StreamId) stream, replay.streams[id]? = some stream →
    stream.capacity = streamCapacity
  bounded : ∀ (id : StreamId) stream, replay.streams[id]? = some stream →
    stream.items.length ≤ streamCapacity
  sends : ∀ listing id, replay.current.get? listing = some id →
    ∃ stream, replay.streams[id]? = some stream ∧ stream.sending = true
  own : ∀ listing other id, replay.current.get? listing = some id →
    replay.current.get? other = some id → other = listing
  waits : ∀ listing id, replay.waiting.get? listing = some id →
    replay.current.get? listing = some id ∧ ∃ unread, replay.content? id = some (true, unread)

/-- A feed without streams is sound. -/
theorem sound_new : Sound new where
  capacity _ _ h := by cases h
  bounded _ _ h := by cases h
  sends _ _ h := by cases h
  own _ _ _ h := by cases h
  waits _ _ h := by cases h

/-- The current stream of a listing has been made. -/
theorem Sound.lt (h : replay.Sound) (hcurrent : replay.current.get? listing = some id) :
    id < replay.streams.length := by
  obtain ⟨stream, hstream, -⟩ := h.sends listing id hcurrent
  exact (List.getElem?_eq_some_iff.1 hstream).1

/-- Only what is said of streams and of tables counts. -/
theorem Sound.of_eq {next : Replay} (h : replay.Sound) (hstreams : next.streams = replay.streams)
    (hcurrent : next.current = replay.current) (hwaiting : next.waiting = replay.waiting) :
    next.Sound := by
  obtain ⟨streams, current, waiting, refusals, opens⟩ := next
  cases hstreams
  cases hcurrent
  cases hwaiting
  exact ⟨h.capacity, h.bounded, h.sends, h.own, h.waits⟩

/-- A stream may change if its senders stay where it is a current one, and its reader too where it
waits. -/
theorem Sound.modifyStream (h : replay.Sound) (hcapacity : ∀ stream : Channel Item,
      (change stream).capacity = stream.capacity)
    (hsending : (∃ listing, replay.current.get? listing = some id) →
      ∀ stream : Channel Item, (change stream).sending = stream.sending)
    (hbounded : ∀ stream, replay.streams[id]? = some stream →
      (change stream).items.length ≤ streamCapacity)
    (hwaiting : (∃ listing, replay.waiting.get? listing = some id) →
      ∀ stream : Channel Item, (change stream).receiving = stream.receiving) :
    (replay.modifyStream id change).Sound where
  capacity seen stream hstream := by
    rw [getElem?_modifyStream] at hstream
    split at hstream
    · obtain ⟨old, hold, rfl⟩ := Option.map_eq_some_iff.1 hstream
      exact (hcapacity old).trans (h.capacity seen old hold)
    · exact h.capacity seen stream hstream
  bounded seen stream hstream := by
    rw [getElem?_modifyStream] at hstream
    split at hstream
    · next heq =>
      obtain ⟨old, hold, rfl⟩ := Option.map_eq_some_iff.1 hstream
      exact hbounded old (heq ▸ hold)
    · exact h.bounded seen stream hstream
  sends listing seen hcurrent := by
    obtain ⟨stream, hstream, hopen⟩ := h.sends listing seen hcurrent
    rw [getElem?_modifyStream, hstream]
    split
    · next heq =>
      -- A stream that is still current keeps its senders when it changes.
      subst heq
      exact ⟨_, rfl, (hsending ⟨listing, hcurrent⟩ stream).trans hopen⟩
    · exact ⟨_, rfl, hopen⟩
  own := h.own
  waits listing seen hwaits := by
    obtain ⟨hcurrent, unread, hcontent⟩ := h.waits listing seen hwaits
    refine ⟨hcurrent, ?_⟩
    obtain ⟨stream, hstream, hreceiving, rfl⟩ := content?_eq_some.1 hcontent
    rw [content?, getElem?_modifyStream, hstream]
    split
    · next heq =>
      subst heq
      refine ⟨_, congrArg (fun receiving => some (receiving, (change stream).items)) ?_⟩
      rw [hwaiting ⟨listing, hwaits⟩, hreceiving]
    · exact ⟨_, congrArg (fun receiving => some (receiving, stream.items)) hreceiving⟩

/-- A feed stays sound when a listing without a waiting stream gets a new one. -/
theorem Sound.withStream (h : replay.Sound) (hnone : replay.waiting.get? listing = none)
    (hitems : items.length ≤ streamCapacity) : (replay.withStream listing items).Sound := by
  have hcurrent : ∀ other, (replay.withStream listing items).current.get? other =
      if other = listing then some replay.streams.length else replay.current.get? other :=
    fun other => Table.get?_set replay.current listing other replay.streams.length
  constructor
  case capacity =>
    intro seen stream hstream
    rw [getElem?_withStream] at hstream
    split at hstream
    · cases hstream
      rfl
    · rw [getElem?_endCurrent] at hstream
      split at hstream
      · obtain ⟨old, hold, rfl⟩ := Option.map_eq_some_iff.1 hstream
        exact h.capacity seen old hold
      · exact h.capacity seen stream hstream
  case bounded =>
    intro seen stream hstream
    rw [getElem?_withStream] at hstream
    split at hstream
    · cases hstream
      exact hitems
    · rw [getElem?_endCurrent] at hstream
      split at hstream
      · obtain ⟨old, hold, rfl⟩ := Option.map_eq_some_iff.1 hstream
        exact h.bounded seen old hold
      · exact h.bounded seen stream hstream
  case sends =>
    intro other seen hother
    rw [hcurrent] at hother
    rw [getElem?_withStream]
    split at hother
    · cases hother
      exact ⟨_, if_pos rfl, rfl⟩
    · next hne =>
      -- The stream of another listing is not the one that ends.
      have hnot : replay.current.get? listing ≠ some seen := fun hlisting =>
        hne (h.own listing other seen hlisting hother)
      rw [if_neg (Nat.ne_of_lt (h.lt hother)), getElem?_endCurrent, if_neg hnot]
      exact h.sends other seen hother
  case own =>
    intro first second seen hfirst hsecond
    rw [hcurrent] at hfirst hsecond
    split at hfirst
    · next heq =>
      split at hsecond
      · next hsame => exact hsame.trans heq.symm
      · cases hfirst
        exact absurd (h.lt hsecond) (Nat.lt_irrefl _)
    · split at hsecond
      · cases hsecond
        exact absurd (h.lt hfirst) (Nat.lt_irrefl _)
      · exact h.own first second seen hfirst hsecond
  case waits =>
    intro other seen hwaits
    obtain ⟨hother, unread, hcontent⟩ := h.waits other seen hwaits
    have hne : other ≠ listing := by
      rintro rfl
      rw [show replay.waiting.get? other = some seen from hwaits] at hnone
      cases hnone
    rw [hcurrent, if_neg hne, content?_withStream, if_neg (Nat.ne_of_lt (h.lt hother))]
    exact ⟨hother, unread, hcontent⟩

/-- The current stream of a listing may be made to wait. -/
theorem Sound.setWaiting (h : replay.Sound) (hcurrent : replay.current.get? listing = some id)
    (hcontent : replay.content? id = some (true, unread)) :
    Sound { replay with waiting := replay.waiting.set listing id } where
  capacity := h.capacity
  bounded := h.bounded
  sends := h.sends
  own := h.own
  waits other seen hwaits := by
    rw [Table.get?_set] at hwaits
    split at hwaits
    · next heq =>
      cases hwaits
      subst heq
      exact ⟨hcurrent, unread, hcontent⟩
    · exact h.waits other seen hwaits

/-- A listing without a stream that waits may lose its current one. -/
theorem Sound.eraseCurrent (h : replay.Sound) (hnone : replay.waiting.get? listing = none) :
    Sound { replay with current := replay.current.erase listing } where
  capacity := h.capacity
  bounded := h.bounded
  sends other seen hcurrent := by
    rw [Table.get?_erase] at hcurrent
    split at hcurrent
    · cases hcurrent
    · exact h.sends other seen hcurrent
  own first second seen hfirst hsecond := by
    rw [Table.get?_erase] at hfirst hsecond
    split at hfirst
    · cases hfirst
    · split at hsecond
      · cases hsecond
      · exact h.own first second seen hfirst hsecond
  waits other seen hwaits := by
    rw [Table.get?_erase]
    split
    · next heq =>
      subst heq
      rw [show replay.waiting.get? other = some seen from hwaits] at hnone
      cases hnone
    · exact h.waits other seen hwaits

/-- A feed stays sound when a stream stops waiting. -/
theorem Sound.eraseWaiting (h : replay.Sound) (listing : Listing) :
    Sound { replay with waiting := replay.waiting.erase listing } where
  capacity := h.capacity
  bounded := h.bounded
  sends := h.sends
  own := h.own
  waits other seen hwaits := by
    rw [Table.get?_erase] at hwaits
    split at hwaits
    · cases hwaits
    · exact h.waits other seen hwaits

/-! ## Closing a listing -/

/-- What closing a listing comes to. -/
theorem close_eq (replay : Replay) (listing : Listing) :
    replay.close listing =
      { (replay.endCurrent listing).dropWaiting listing with
        current := replay.current.erase listing } := by
  unfold close dropWaiting
  rw [endCurrent_eq]
  dsimp only
  split <;> rfl

/-- What waits for a listing is lost with it. -/
theorem content?_close (replay : Replay) (listing : Listing) (seen : StreamId) :
    (replay.close listing).content? seen =
      if replay.waiting.get? listing = some seen then
        (replay.content? seen).map fun _ => (false, [])
      else replay.content? seen := by
  have hwaiting : (replay.endCurrent listing).waiting = replay.waiting := by rw [endCurrent_eq]
  have hdrop : (replay.close listing).content? seen =
      ((replay.endCurrent listing).dropWaiting listing).content? seen := by
    rw [close_eq]
    rfl
  rw [hdrop]
  cases hnone : replay.waiting.get? listing with
  | none => rw [dropWaiting_of_none (hwaiting ▸ hnone), content?_endCurrent, if_neg nofun]
  | some id =>
    rw [dropWaiting_of_some (hwaiting ▸ hnone), ← content?_endCurrent replay listing]
    refine (content?_unsubscribe (replay.endCurrent listing) id seen).trans ?_
    exact if_congr (Option.some_inj).symm rfl rfl

/-- Closing a listing makes no stream. -/
theorem length_close (replay : Replay) (listing : Listing) :
    (replay.close listing).streams.length = replay.streams.length := by
  rw [close_eq, ← length_endCurrent replay listing]
  unfold dropWaiting
  split
  · rfl
  · exact List.length_modify _ _ _

/-- A listing that is closed has no current stream. -/
theorem current_close (replay : Replay) (listing : Listing) :
    (replay.close listing).current = replay.current.erase listing := by
  rw [close_eq]

/-- A listing that is closed has no waiting stream. -/
theorem waiting_close (replay : Replay) (listing other : Listing) :
    (replay.close listing).waiting.get? other =
      if other = listing then none else replay.waiting.get? other := by
  have hwaiting : (replay.endCurrent listing).waiting = replay.waiting := by rw [endCurrent_eq]
  have hdrop : (replay.close listing).waiting =
      ((replay.endCurrent listing).dropWaiting listing).waiting := by
    rw [close_eq]
  rw [hdrop]
  cases hnone : replay.waiting.get? listing with
  | none =>
    rw [dropWaiting_of_none (hwaiting ▸ hnone), hwaiting]
    split
    · next heq => rw [heq, hnone]
    · rfl
  | some id =>
    rw [dropWaiting_of_some (hwaiting ▸ hnone), hwaiting]
    exact Table.get?_erase replay.waiting listing other

/-- Without a current stream, a listing has no waiting one. -/
theorem Sound.waiting_of_current_none (h : replay.Sound)
    (hcurrent : replay.current.get? listing = none) : replay.waiting.get? listing = none := by
  refine Option.eq_none_iff_forall_ne_some.2 fun id hwaits => ?_
  rw [(h.waits listing id hwaits).1] at hcurrent
  cases hcurrent

/-- A feed stays sound when a listing is closed. -/
theorem Sound.close (h : replay.Sound) (listing : Listing) : (replay.close listing).Sound := by
  rw [close_eq]
  -- A stream that nobody names can lose both of its sides.
  have hunnamed : ∀ id, replay.current.get? listing = some id →
      ¬∃ other, (replay.current.erase listing).get? other = some id := by
    rintro id hcurrent ⟨other, hother⟩
    rw [Table.get?_erase] at hother
    split at hother
    · cases hother
    · next hne => exact hne (h.own listing other id hcurrent hother)
  cases hcurrent : replay.current.get? listing with
  | none =>
    have hnone := h.waiting_of_current_none hcurrent
    rw [endCurrent_of_none hcurrent, dropWaiting_of_none hnone]
    exact h.eraseCurrent hnone
  | some id =>
    rw [endCurrent_of_some hcurrent]
    cases hwaits : replay.waiting.get? listing with
    | none =>
      have hkept : (replay.modifyStream id Channel.closeSending).waiting.get? listing = none :=
        hwaits
      rw [dropWaiting_of_none hkept]
      exact (h.eraseCurrent hwaits).modifyStream (fun _ => rfl)
        (fun hnamed => absurd hnamed (hunnamed id hcurrent)) (h.bounded id) fun _ _ => rfl
    | some held =>
      obtain ⟨hheld, -⟩ := h.waits listing held hwaits
      -- What waits is the current stream, so the same one loses both sides.
      obtain rfl : id = held := Option.some_inj.1 (hcurrent.symm.trans hheld)
      have hkept : (replay.modifyStream id Channel.closeSending).waiting.get? listing = some id :=
        hwaits
      rw [dropWaiting_of_some hkept]
      have herased : ∀ other, (replay.waiting.erase listing).get? other ≠ some id := by
        intro other hother
        rw [Table.get?_erase] at hother
        split at hother
        · cases hother
        · next hne => exact hne (h.own listing other id hheld (h.waits other id hother).1)
      have hbare := (h.eraseWaiting listing).eraseCurrent (Table.get?_erase_self _ listing)
      have hended := hbare.modifyStream
        (fun stream : Channel Item => (rfl : stream.closeSending.capacity = stream.capacity))
        (fun hnamed => absurd hnamed (hunnamed id hcurrent)) (h.bounded id) (fun _ _ => rfl)
      exact hended.modifyStream
        (fun stream : Channel Item => (rfl : stream.closeReceiving.capacity = stream.capacity))
        (fun _ _ => rfl)
        (fun _ _ => Nat.zero_le streamCapacity)
        (fun hnamed => absurd hnamed.choose_spec (herased hnamed.choose))

/-! ## Sending -/

/-- A listing is read if its current stream has a reader. -/
theorem readCurrent?_eq_some :
    replay.readCurrent? listing = some id ↔
      replay.current.get? listing = some id ∧
        ∃ unread, replay.content? id = some (true, unread) := by
  simp only [readCurrent?, Option.bind_eq_bind, Option.bind_eq_some_iff,
    Option.ite_none_right_eq_some, Option.some.injEq, content?_eq_some]
  constructor
  · rintro ⟨current, hcurrent, stream, hstream, hreceiving, rfl⟩
    exact ⟨hcurrent, stream.items, stream, hstream, hreceiving, rfl⟩
  · rintro ⟨hcurrent, unread, stream, hstream, hreceiving, -⟩
    exact ⟨id, hcurrent, stream, hstream, hreceiving, rfl⟩

/-- What is put into a new stream is in it. -/
theorem modifyStream_withStream (replay : Replay) (listing : Listing) (items : List Item) :
    (replay.withStream listing []).modifyStream replay.streams.length
      (fun _ => streamOf items) = replay.withStream listing items := by
  have hstreams : ((replay.withStream listing []).modifyStream replay.streams.length
      (fun _ => streamOf items)).streams = (replay.withStream listing items).streams := by
    refine List.ext_getElem? fun seen => ?_
    rw [getElem?_modifyStream, getElem?_withStream, getElem?_withStream]
    by_cases h : replay.streams.length = seen
    · rw [if_pos h, if_pos h.symm, if_pos h.symm]
      rfl
    · rw [if_neg h, if_neg (Ne.symm h), if_neg (Ne.symm h)]
  exact congrArg (fun streams => { replay.withStream listing items with streams }) hstreams

/-- The feed after an item for a listing whose stream nobody reads: it is the first of a new stream
that waits. -/
def start (replay : Replay) (listing : Listing) (item : Item) : Replay :=
  { replay.withStream listing [item] with
    waiting := replay.waiting.set listing replay.streams.length }

/-- What the start of a stream with an item comes to. -/
theorem start_eq (replay : Replay) (listing : Listing) (item : Item) :
    replay.start listing item =
      Replay.modifyStream { replay.withStream listing [] with
        waiting := replay.waiting.set listing replay.streams.length }
        replay.streams.length (extend item) := by
  have hsame : (replay.withStream listing []).modifyStream replay.streams.length (extend item) =
      replay.withStream listing [item] := by
    rw [← modifyStream_withStream replay listing [item]]
    refine modifyStream_congr fun stream hstream => ?_
    rw [getElem?_withStream, if_pos rfl] at hstream
    cases hstream
    rfl
  rw [start, ← hsame]
  rfl

/-- What comes of sending an item. -/
inductive Sends (replay : Replay) (listing : Listing) (item : Item) : Bool × Replay → Prop where
  | sent {id : StreamId} {unread : List Item} : replay.current.get? listing = some id →
      replay.content? id = some (true, unread) → unread.length < streamCapacity →
      Sends replay listing item (true, replay.modifyStream id (extend item))
  | full {id : StreamId} {unread : List Item} : replay.current.get? listing = some id →
      replay.content? id = some (true, unread) → unread.length = streamCapacity →
      Sends replay listing item (false, replay)
  | started : replay.readCurrent? listing = none → replay.waiting.get? listing = none →
      Sends replay listing item (true, replay.start listing item)

/-- A listing that nobody reads has no waiting stream, for that one has a reader. -/
theorem Sound.waiting_of_readCurrent?_none (h : replay.Sound)
    (hread : replay.readCurrent? listing = none) : replay.waiting.get? listing = none := by
  refine Option.eq_none_iff_forall_ne_some.2 fun id hwaits => ?_
  rw [readCurrent?_eq_some.2 (h.waits listing id hwaits)] at hread
  cases hread

/-- An item for a listing that nobody reads is the first of a new stream. -/
theorem send_of_readCurrent?_none (h : replay.Sound)
    (hread : replay.readCurrent? listing = none) (item : Item) :
    replay.send listing item = (true, replay.start listing item) := by
  have hwaiting := h.waiting_of_readCurrent?_none hread
  have hstream : (replay.withStream listing []).streams[replay.streams.length]? =
      some (streamOf []) := by
    rw [getElem?_withStream, if_pos rfl]
  unfold send target
  rw [hread, dropWaiting_of_none hwaiting, startStream_eq]
  dsimp only
  rw [hstream]
  exact congrArg
    (fun next : Replay => (true, { next with
      waiting := replay.waiting.set listing replay.streams.length }))
    (modifyStream_withStream replay listing [item])

/-- An item goes to the current stream of its listing, or starts one that waits; only a full stream
refuses it. -/
theorem sends (h : replay.Sound) (listing : Listing) (item : Item) :
    Sends replay listing item (replay.send listing item) := by
  cases hread : replay.readCurrent? listing with
  | none =>
    rw [send_of_readCurrent?_none h hread]
    exact .started hread (h.waiting_of_readCurrent?_none hread)
  | some id =>
    obtain ⟨hcurrent, unread, hcontent⟩ := readCurrent?_eq_some.1 hread
    obtain ⟨stream, hstream, hreceiving, rfl⟩ := content?_eq_some.1 hcontent
    have hcapacity := h.capacity id stream hstream
    unfold send target
    rw [hread]
    dsimp only
    rw [hstream]
    dsimp only
    by_cases hroom : stream.items.length < streamCapacity
    · have hsent : stream.send item = .ok (extend item stream) := by
        simp [Channel.send, Channel.hasRoom, hreceiving, hcapacity, hroom, extend]
      have hsame : replay.modifyStream id (fun _ => extend item stream) =
          replay.modifyStream id (extend item) := by
        refine modifyStream_congr fun old hold => ?_
        rw [hstream] at hold
        cases hold
        rfl
      rw [hsent]
      dsimp only
      rw [hsame]
      exact .sent hcurrent hcontent hroom
    -- A reader is there, so lack of room is the only obstacle left.
    · have hfull : stream.send item = .error .full := by
        simp [Channel.send, Channel.hasRoom, hreceiving, hcapacity, hroom]
      rw [hfull]
      exact .full hcurrent hcontent
        (Nat.le_antisymm (h.bounded id stream hstream) (Nat.le_of_not_lt hroom))

/-- The feed is as sound after an item was sent. -/
theorem Sends.sound {sent : Bool} {next : Replay} (hsends : Sends replay listing item (sent, next))
    (h : replay.Sound) : next.Sound := by
  cases hsends with
  | sent hcurrent hcontent hroom =>
    refine h.modifyStream (fun _ => rfl) (fun _ _ => rfl) ?_ (fun _ _ => rfl)
    intro stream hstream
    obtain ⟨found, hfound, -, rfl⟩ := content?_eq_some.1 hcontent
    rw [hstream] at hfound
    cases hfound
    rw [extend, List.length_append, List.length_singleton]
    exact hroom
  | full => exact h
  | started hread hwaiting =>
    have hcapacity : [item].length ≤ streamCapacity := by
      rw [List.length_singleton]
      decide
    exact (h.withStream hwaiting hcapacity).setWaiting (Table.get?_set_self _ listing _)
      (content?_withStream_self replay listing [item])

/-! ## Streams that are made -/

/-- No stream is made or comes to wait, or one is made and waits. -/
inductive Makes (replay : Replay) (listing : Listing) (next : Replay) : Prop where
  | none : next.streams.length = replay.streams.length → next.waiting = replay.waiting →
      Makes replay listing next
  | one : next.streams.length = replay.streams.length + 1 →
      (∀ other, next.waiting.get? other =
        if other = listing then some replay.streams.length else replay.waiting.get? other) →
      Makes replay listing next

/-- A change of a stream makes none. -/
theorem Makes.modifyStream {next : Replay} (h : Makes replay listing next) (stream : StreamId)
    (change : Channel Item → Channel Item) :
    Makes replay listing (next.modifyStream stream change) := by
  have hlength : (next.modifyStream stream change).streams.length = next.streams.length :=
    List.length_modify _ _ _
  cases h with
  | none hsame hwaiting => exact .none (hlength.trans hsame) hwaiting
  | one hmore hwaiting => exact .one (hlength.trans hmore) hwaiting

/-- Dropping a stream makes none. -/
theorem length_dropWaiting (replay : Replay) (listing : Listing) :
    (replay.dropWaiting listing).streams.length = replay.streams.length := by
  unfold dropWaiting
  split
  · rfl
  · exact List.length_modify _ _ _

/-- Dropping the stream of a listing leaves those of others. -/
theorem waiting_dropWaiting_of_ne (replay : Replay) {listing other : Listing}
    (h : other ≠ listing) :
    (replay.dropWaiting listing).waiting.get? other = replay.waiting.get? other := by
  unfold dropWaiting
  split
  · rfl
  · exact Table.get?_erase_of_ne _ h

/-- What an item is sent to is there or is made. -/
theorem makes_target (replay : Replay) (listing : Listing) :
    Makes replay listing (replay.target listing).2 := by
  unfold target
  cases replay.readCurrent? listing with
  | some id => exact .none rfl rfl
  | none =>
    dsimp only
    rw [startStream_eq]
    refine .one ?_ fun other => ?_
    · show (((replay.dropWaiting listing).endCurrent listing).streams ++ [streamOf []]).length = _
      rw [List.length_append, length_endCurrent, length_dropWaiting]
      rfl
    · show ((replay.dropWaiting listing).waiting.set listing
        (replay.dropWaiting listing).streams.length).get? other = _
      rw [Table.get?_set, length_dropWaiting]
      split
      · rfl
      · next hne => exact waiting_dropWaiting_of_ne replay hne

/-- Sending an item makes a stream only where none is read, and then the stream waits. -/
theorem makes_send (replay : Replay) (listing : Listing) (item : Item) :
    Makes replay listing (replay.send listing item).2 := by
  have hmakes := makes_target replay listing
  unfold send
  dsimp only
  split
  · exact hmakes
  · split
    · exact hmakes.modifyStream _ _
    · exact hmakes

/-! ## Subscribing -/

/-- What comes of a subscription. -/
inductive Subscribes (replay : Replay) (listing : Listing) :
    Except Failure StreamId × Replay → Prop where
  | refused {reason : String} : replay.refusals.get? listing = some reason →
      Subscribes replay listing (.error (.refused reason), replay.countOpen listing)
  | handed {id : StreamId} : replay.waiting.get? listing = some id →
      Subscribes replay listing
        (.ok id, { replay.countOpen listing with waiting := replay.waiting.erase listing })
  | started : replay.waiting.get? listing = none →
      Subscribes replay listing
        (.ok replay.streams.length, (replay.countOpen listing).withStream listing [])

/-- A subscriber gets the stream that waits, or a new one, unless the listing is refused. -/
theorem subscribes (replay : Replay) (listing : Listing) :
    Subscribes replay listing (replay.subscribe listing) := by
  unfold subscribe
  dsimp only
  cases hrefusal : (replay.countOpen listing).refusals.get? listing with
  | some reason => exact .refused hrefusal
  | none =>
    cases hwaits : (replay.countOpen listing).waiting.get? listing with
    | some id => exact .handed hwaits
    | none =>
      dsimp only
      rw [startStream_eq]
      exact .started hwaits

/-- A subscription that is counted leaves the feed sound. -/
theorem Sound.countOpen (h : replay.Sound) (listing : Listing) :
    (replay.countOpen listing).Sound := h.of_eq rfl rfl rfl

/-- What a subscriber finds: what is unread in the streams is as it was, and the stream that it gets
was waiting for it, and does not any more, or is new. -/
structure Gives (replay : Replay) (listing : Listing) (given : Except Failure StreamId)
    (next : Replay) : Prop where
  length : replay.streams.length ≤ next.streams.length
  content : ∀ id, id < replay.streams.length → next.content? id = replay.content? id
  waiting : ∀ other id, next.waiting.get? other = some id → replay.waiting.get? other = some id
  given : ∀ id, given = .ok id →
    replay.waiting.get? listing = some id ∧ next.waiting.get? listing = none ∨
      id = replay.streams.length ∧ id < next.streams.length

/-- A subscriber finds the stream that waits, or a new one, or a failure. -/
theorem gives (replay : Replay) (listing : Listing) :
    Gives replay listing (replay.subscribe listing).1 (replay.subscribe listing).2 := by
  have hsubscribes := replay.subscribes listing
  generalize replay.subscribe listing = outcome at hsubscribes
  cases hsubscribes with
  | refused => exact ⟨Nat.le_refl _, fun _ _ => rfl, fun _ _ h => h, nofun⟩
  | handed hgiven =>
    refine ⟨Nat.le_refl _, fun _ _ => rfl, fun other id hwaits => ?_, fun id hid => .inl ?_⟩
    · rw [Table.get?_erase] at hwaits
      split at hwaits
      · cases hwaits
      · exact hwaits
    · cases hid
      exact ⟨hgiven, Table.get?_erase_self _ listing⟩
  | started =>
    have hlength : ((replay.countOpen listing).withStream listing []).streams.length =
        replay.streams.length + 1 := by
      show (((replay.countOpen listing).endCurrent listing).streams ++ [streamOf []]).length = _
      rw [List.length_append, length_endCurrent]
      rfl
    refine ⟨hlength ▸ Nat.le_succ _, fun id hlt => ?_, fun _ _ h => h, fun id hid => .inr ?_⟩
    · exact (content?_withStream _ _ _ _).trans (if_neg (Nat.ne_of_lt hlt))
    · cases hid
      exact ⟨rfl, hlength ▸ Nat.lt_succ_self _⟩

end Replay

/-- A source gives what its feed does, and nothing for a broker that it does not know. -/
theorem Source.gives (source : Source) (listing : Listing) :
    Replay.Gives source.replay listing (source.subscribe listing).1
      (source.subscribe listing).2.replay := by
  unfold Source.subscribe
  split
  · exact source.replay.gives listing
  · exact ⟨Nat.le_refl _, fun _ _ => rfl, fun _ _ h => h, nofun⟩

end TriggerDesk.Feed
