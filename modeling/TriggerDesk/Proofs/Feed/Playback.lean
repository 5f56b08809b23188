import TriggerDesk.Proofs.Feed.Streams

/-!
# What the subscribers of a replay feed read

A replay feed with everybody who uses it: some push items, some subscribe, read and leave, in any
order (`Playback.run`). Each item that is accepted is noted with the stream that is then the current
one of its listing, and each subscriber with what it has read. Whatever was done, a subscriber has
read the first items of its own stream in their order, and nobody else reads that stream
(`Playback.run_faithful`).

`Playback.Kept` is what every act keeps. A subscriber that is there has read and has still to read
exactly what was accepted for its stream, and who waits for a stream has all of it before them.
-/

namespace TriggerDesk.Feed

open Market

/-- What is done to a replay feed, or by one of its subscribers, who are numbered in the order in
which they came. -/
inductive Act where
  | push (listing : Listing) (batch : Batch)
  | breakStream (listing : Listing) (reason : String)
  | refuse (listing : Listing) (reason : String)
  | subscribe (listing : Listing)
  | close (listing : Listing)
  | read (number : Nat)
  | leave (number : Nat)
  deriving DecidableEq

/-- An item that was accepted, with the current stream of its listing at that time. -/
structure Posting where
  listing : Listing
  stream : Option StreamId
  item : Item

/-- Who subscribed to a listing, with what it has read. -/
structure Subscriber where
  listing : Listing
  stream : StreamId
  present : Bool
  reads : List Item

/-- A replay feed with its record. -/
structure Playback where
  replay : Replay
  postings : List Posting
  subscribers : List Subscriber

namespace Playback

variable {play : Playback} {listing : Listing} {id : StreamId} {item : Item} {number : Nat}
  {unread : List Item} {subscriber : Subscriber}

/-- A feed that nobody has used. -/
def new : Playback := { replay := .new, postings := [], subscribers := [] }

/-- Notes what came of sending an item. -/
def note (play : Playback) (listing : Listing) (item : Item) (sent : Bool × Replay) : Playback :=
  { play with
    replay := sent.2
    postings :=
      if sent.1 then play.postings ++ [⟨listing, sent.2.current.get? listing, item⟩]
      else play.postings }

/-- A subscriber reads. -/
def read (play : Playback) (number : Nat) : Playback :=
  match play.subscribers[number]? with
  | none => play
  | some subscriber =>
    match subscriber.present, play.replay.peek subscriber.stream with
    | true, .item item =>
      { play with
        replay := play.replay.advance subscriber.stream
        subscribers :=
          play.subscribers.set number { subscriber with reads := subscriber.reads ++ [item] } }
    | _, _ => play

/-- A subscriber leaves. -/
def leave (play : Playback) (number : Nat) : Playback :=
  match play.subscribers[number]? with
  | none => play
  | some subscriber =>
    { play with
      replay := play.replay.unsubscribe subscriber.stream
      subscribers := play.subscribers.set number { subscriber with present := false } }

/-- What an act makes of a feed. -/
def step (play : Playback) : Act → Playback
  | .push listing batch => play.note listing (.batch batch) (play.replay.push listing batch)
  | .breakStream listing reason =>
    play.note listing (.failure (.broken reason)) (play.replay.breakStream listing reason)
  | .refuse listing reason => { play with replay := play.replay.refuse listing reason }
  | .subscribe listing =>
    match play.replay.subscribe listing with
    | (.ok stream, replay) =>
      { play with
        replay
        subscribers := play.subscribers ++ [{ listing, stream, present := true, reads := [] }] }
    | (.error _, replay) => { play with replay }
  | .close listing => { play with replay := play.replay.close listing }
  | .read number => play.read number
  | .leave number => play.leave number

/-- The feed after some acts. -/
def run (acts : List Act) : Playback := acts.foldl step new

/-- The items that were accepted while a stream was the current one, in their order. -/
def itemsOf (play : Playback) (id : StreamId) : List Item :=
  (play.postings.filter (·.stream = some id)).map (·.item)

/-! ## What every act keeps -/

/-- What a subscriber has read is the beginning of what was accepted for its stream. As long as it
is there, the rest is unread. -/
structure Served (play : Playback) (subscriber : Subscriber) : Prop where
  stream : ∃ unread, play.replay.content? subscriber.stream = some (subscriber.present, unread) ∧
    (subscriber.present = true →
      subscriber.reads ++ unread = play.itemsOf subscriber.stream)
  reads : subscriber.reads <+: play.itemsOf subscriber.stream

/-- An accepted item has a stream, of its own listing. -/
structure Posted (play : Playback) (posting : Posting) (id : StreamId) : Prop where
  stream : posting.stream = some id
  lt : id < play.replay.streams.length
  current : ∀ listing, play.replay.current.get? listing = some id → listing = posting.listing
  subscriber : ∀ subscriber ∈ play.subscribers, subscriber.stream = id →
    subscriber.listing = posting.listing

/-- What holds of a feed and its record after any acts. -/
structure Kept (play : Playback) : Prop where
  sound : play.replay.Sound
  served : ∀ subscriber ∈ play.subscribers, play.Served subscriber
  apart : (play.subscribers.map (·.stream)).Nodup
  seated : ∀ subscriber ∈ play.subscribers, ∀ listing,
    play.replay.current.get? listing = some subscriber.stream → listing = subscriber.listing
  waits : ∀ listing id, play.replay.waiting.get? listing = some id →
    play.replay.content? id = some (true, play.itemsOf id) ∧
      ∀ subscriber ∈ play.subscribers, subscriber.stream ≠ id
  posted : ∀ posting ∈ play.postings, ∃ id, play.Posted posting id
  since : ∀ listing id, play.replay.current.get? listing = some id →
    ∃ earlier, play.postings.filter (·.listing = listing) =
        earlier ++ play.postings.filter (·.stream = some id) ∧
      ∀ posting ∈ earlier, posting.stream ≠ some id

/-- Nothing was accepted by a new feed, and nobody reads it. -/
theorem kept_new : Kept new where
  sound := Replay.sound_new
  served _ h := by cases h
  apart := List.nodup_nil
  seated _ h := by cases h
  waits _ _ h := by cases h
  posted _ h := by cases h
  since _ _ h := by cases h

/-- Nothing was accepted for a stream that is not there. -/
theorem Kept.filter_eq_nil (h : play.Kept) (hid : play.replay.streams.length ≤ id) :
    play.postings.filter (·.stream = some id) = [] := by
  refine List.filter_eq_nil_iff.2 fun posting hposting hstream => ?_
  obtain ⟨stream, hposted⟩ := h.posted posting hposting
  have hsame := hposted.stream.symm.trans (of_decide_eq_true hstream)
  cases hsame
  exact absurd hposted.lt (Nat.not_lt.2 hid)

/-- For a stream that is not open yet nothing was accepted. -/
theorem Kept.itemsOf_eq_nil (h : play.Kept) (hid : play.replay.streams.length ≤ id) :
    play.itemsOf id = [] := by
  rw [itemsOf, h.filter_eq_nil hid, List.map_nil]

/-- Whoever subscribed reads a stream that was opened. -/
theorem Kept.lt (h : play.Kept) (hsubscriber : subscriber ∈ play.subscribers) :
    subscriber.stream < play.replay.streams.length := by
  obtain ⟨unread, hcontent, -⟩ := (h.served subscriber hsubscriber).stream
  exact Replay.lt_of_content? hcontent

/-- The feed may change as long as its subscribers find what they had, and no stream becomes the
current one of a listing or waits. -/
theorem Kept.withReplay {next : Replay} (h : play.Kept) (hsound : next.Sound)
    (hlength : play.replay.streams.length ≤ next.streams.length)
    (hcontent : ∀ subscriber ∈ play.subscribers,
      next.content? subscriber.stream = play.replay.content? subscriber.stream)
    (hcurrent : ∀ listing id, next.current.get? listing = some id →
      play.replay.current.get? listing = some id)
    (hwaits : ∀ listing id, next.waiting.get? listing = some id →
      play.replay.waiting.get? listing = some id ∧ next.content? id = play.replay.content? id) :
    Kept { play with replay := next } where
  sound := hsound
  served subscriber hsubscriber := by
    obtain ⟨hstream, hreads⟩ := h.served subscriber hsubscriber
    refine ⟨?_, hreads⟩
    rw [hcontent subscriber hsubscriber]
    exact hstream
  apart := h.apart
  seated subscriber hsubscriber listing hlisting :=
    h.seated subscriber hsubscriber listing (hcurrent listing _ hlisting)
  waits listing id hid := by
    obtain ⟨hold, hsame⟩ := hwaits listing id hid
    obtain ⟨hunread, hapart⟩ := h.waits listing id hold
    exact ⟨hsame.trans hunread, hapart⟩
  posted posting hposting := by
    obtain ⟨id, hstream, hlt, hown, hsubscriber⟩ := h.posted posting hposting
    exact ⟨id, hstream, Nat.lt_of_lt_of_le hlt hlength,
      fun listing hlisting => hown listing (hcurrent listing id hlisting), hsubscriber⟩
  since listing id hid := h.since listing id (hcurrent listing id hid)

/-! ## Subscribers come -/

/-- A subscriber may take a stream that nobody has, with all that was accepted for it. -/
theorem Kept.subscribe (h : play.Kept)
    (hcurrent : play.replay.current.get? listing = some id)
    (hcontent : play.replay.content? id = some (true, play.itemsOf id))
    (hfree : ∀ subscriber ∈ play.subscribers, subscriber.stream ≠ id)
    (hwaits : ∀ other, play.replay.waiting.get? other ≠ some id) :
    Kept { play with
      subscribers := play.subscribers ++ [{ listing, stream := id, present := true, reads := [] }] }
    where
  sound := h.sound
  served subscriber hsubscriber := by
    rcases List.mem_append.1 hsubscriber with hold | hnew
    · exact ⟨(h.served subscriber hold).stream, (h.served subscriber hold).reads⟩
    · rw [List.mem_singleton] at hnew
      subst hnew
      exact ⟨⟨_, hcontent, fun _ => rfl⟩, List.nil_prefix⟩
  apart := by
    rw [List.map_append, List.nodup_append]
    refine ⟨h.apart, List.nodup_singleton id, ?_⟩
    -- The new subscriber is the only one at the stream that it takes.
    intro first hfirst second hsecond
    obtain ⟨subscriber, hsubscriber, rfl⟩ := List.mem_map.1 hfirst
    rw [List.mem_singleton.1 hsecond]
    exact hfree subscriber hsubscriber
  seated subscriber hsubscriber other hother := by
    rcases List.mem_append.1 hsubscriber with hold | hnew
    · exact h.seated subscriber hold other hother
    · rw [List.mem_singleton] at hnew
      subst hnew
      exact h.sound.own listing other id hcurrent hother
  waits other waiting hother := by
    obtain ⟨hunread, hapart⟩ := h.waits other waiting hother
    refine ⟨hunread, fun subscriber hsubscriber => ?_⟩
    rcases List.mem_append.1 hsubscriber with hold | hnew
    · exact hapart subscriber hold
    · rw [List.mem_singleton] at hnew
      subst hnew
      rintro rfl
      exact hwaits other hother
  posted posting hposting := by
    obtain ⟨stream, hstream, hlt, hown, hold⟩ := h.posted posting hposting
    refine ⟨stream, hstream, hlt, hown, fun subscriber hsubscriber heq => ?_⟩
    rcases List.mem_append.1 hsubscriber with hmem | hnew
    · exact hold subscriber hmem heq
    · rw [List.mem_singleton] at hnew
      subst hnew
      cases heq
      exact hown listing hcurrent
  since := h.since

/-- A listing without a stream that waits may get a new stream. -/
theorem Kept.withStream (h : play.Kept) (hnone : play.replay.waiting.get? listing = none) :
    Kept { play with replay := play.replay.withStream listing [] } := by
  -- The new stream comes after all others, so whoever reads or wrote has an older one.
  have hold : ∀ {seen}, seen < play.replay.streams.length →
      (play.replay.withStream listing []).content? seen = play.replay.content? seen := by
    intro seen hlt
    rw [Replay.content?_withStream, if_neg (Nat.ne_of_lt hlt)]
  have hcurrent : ∀ {other seen},
      (play.replay.withStream listing []).current.get? other = some seen →
      other = listing ∧ seen = play.replay.streams.length ∨
        play.replay.current.get? other = some seen := by
    intro other seen hother
    rw [show (play.replay.withStream listing []).current.get? other = _ from
      Table.get?_set play.replay.current listing other _] at hother
    split at hother
    · next heq => exact .inl ⟨heq, (Option.some_inj.1 hother).symm⟩
    · exact .inr hother
  constructor
  case sound => exact h.sound.withStream hnone (Nat.zero_le streamCapacity)
  case served =>
    intro subscriber hsubscriber
    obtain ⟨hstream, hreads⟩ := h.served subscriber hsubscriber
    refine ⟨?_, hreads⟩
    rw [hold (h.lt hsubscriber)]
    exact hstream
  case apart => exact h.apart
  case seated =>
    intro subscriber hsubscriber other hother
    rcases hcurrent hother with ⟨-, hnew⟩ | hother
    · exact absurd (h.lt hsubscriber) (hnew ▸ Nat.lt_irrefl _)
    · exact h.seated subscriber hsubscriber other hother
  case waits =>
    intro other seen hother
    obtain ⟨hunread, hapart⟩ := h.waits other seen hother
    exact ⟨(hold (Replay.lt_of_content? hunread)).trans hunread, hapart⟩
  case posted =>
    intro posting hposting
    obtain ⟨seen, hstream, hlt, hown, hsubscriber⟩ := h.posted posting hposting
    refine ⟨seen, hstream, ?_, fun other hother => ?_, hsubscriber⟩
    · show seen < (_ ++ [_]).length
      rw [List.length_append, Replay.length_endCurrent]
      exact Nat.lt_succ_of_lt hlt
    · rcases hcurrent hother with ⟨-, hnew⟩ | hother
      · exact absurd hlt (hnew ▸ Nat.lt_irrefl _)
      · exact hown other hother
  case since =>
    intro other seen hother
    rcases hcurrent hother with ⟨rfl, rfl⟩ | hother
    · refine ⟨play.postings.filter (·.listing = other), ?_, ?_⟩
      · rw [h.filter_eq_nil (Nat.le_refl _), List.append_nil]
      · intro posting hposting heq
        obtain ⟨seen, hposted⟩ := h.posted posting (List.mem_of_mem_filter hposting)
        cases hposted.stream.symm.trans heq
        exact Nat.lt_irrefl _ hposted.lt
    · exact h.since other seen hother

/-- The current stream of a listing may wait if nobody has it. -/
theorem Kept.setWaiting (h : play.Kept)
    (hcurrent : play.replay.current.get? listing = some id)
    (hcontent : play.replay.content? id = some (true, play.itemsOf id))
    (hfree : ∀ subscriber ∈ play.subscribers, subscriber.stream ≠ id) :
    Kept { play with
      replay := { play.replay with waiting := play.replay.waiting.set listing id } } where
  sound := h.sound.setWaiting hcurrent hcontent
  served subscriber hsubscriber :=
    ⟨(h.served subscriber hsubscriber).stream, (h.served subscriber hsubscriber).reads⟩
  apart := h.apart
  seated := h.seated
  waits other seen hother := by
    rw [Table.get?_set] at hother
    split at hother
    · cases hother
      exact ⟨hcontent, hfree⟩
    · exact h.waits other seen hother
  posted posting hposting := by
    obtain ⟨seen, hposted⟩ := h.posted posting hposting
    exact ⟨seen, hposted.stream, hposted.lt, hposted.current, hposted.subscriber⟩
  since := h.since

/-! ## Items are accepted -/

/-- The feed after its current stream for a listing took an item. -/
def extend (play : Playback) (listing : Listing) (id : StreamId) (item : Item) : Playback :=
  { play with
    replay := play.replay.modifyStream id (Replay.extend item)
    postings := play.postings ++ [⟨listing, some id, item⟩] }

/-- Taking an item adds it to what was accepted for its stream, and to no other stream. -/
theorem itemsOf_extend (play : Playback) (listing : Listing) (id seen : StreamId) (item : Item) :
    (play.extend listing id item).itemsOf seen =
      if id = seen then play.itemsOf seen ++ [item] else play.itemsOf seen := by
  show ((play.postings ++ [_]).filter _).map _ = _
  rw [List.filter_append, List.map_append]
  split
  · next heq =>
    subst heq
    rw [List.filter_singleton, decide_eq_true (rfl : some id = some id)]
    rfl
  · next hne =>
    rw [List.filter_singleton, decide_eq_false fun heq => hne (Option.some_inj.1 heq)]
    exact List.append_nil _

/-- What is unread and what was accepted grow by the same item. -/
theorem Kept.extend (h : play.Kept) (hcurrent : play.replay.current.get? listing = some id)
    (hcontent : play.replay.content? id = some (true, unread))
    (hroom : unread.length < streamCapacity) : (play.extend listing id item).Kept where
  sound := (Replay.Sends.sent hcurrent hcontent hroom).sound h.sound
  served subscriber hsubscriber := by
    obtain ⟨⟨left, hleft, hall⟩, hreads⟩ := h.served subscriber hsubscriber
    constructor
    case stream =>
      rw [itemsOf_extend]
      show ∃ unread, (play.replay.modifyStream id _).content? subscriber.stream = _ ∧ _
      rw [Replay.content?_extend, hleft]
      split
      · refine ⟨left ++ [item], rfl, fun hpresent => ?_⟩
        rw [← List.append_assoc, hall hpresent]
      · exact ⟨left, rfl, hall⟩
    case reads =>
      rw [itemsOf_extend]
      split
      · exact hreads.trans (List.prefix_append _ _)
      · exact hreads
  apart := h.apart
  seated := h.seated
  waits other seen hother := by
    obtain ⟨hunread, hfree⟩ := h.waits other seen hother
    refine ⟨?_, hfree⟩
    rw [itemsOf_extend]
    show (play.replay.modifyStream id _).content? seen = _
    rw [Replay.content?_extend, hunread]
    split <;> rfl
  posted posting hposting := by
    have hlength : (play.extend listing id item).replay.streams.length =
        play.replay.streams.length := List.length_modify _ _ _
    rcases List.mem_append.1 hposting with hold | hnew
    · obtain ⟨seen, hposted⟩ := h.posted posting hold
      exact ⟨seen, hposted.stream, hlength ▸ hposted.lt, hposted.current, hposted.subscriber⟩
    · rw [List.mem_singleton] at hnew
      subst hnew
      refine ⟨id, rfl, hlength ▸ h.sound.lt hcurrent,
        fun other hother => h.sound.own listing other id hcurrent hother, ?_⟩
      rintro subscriber hsubscriber rfl
      exact (h.seated subscriber hsubscriber listing hcurrent).symm
  since other seen hother := by
    obtain ⟨earlier, hposted, hearlier⟩ := h.since other seen hother
    refine ⟨earlier, ?_, hearlier⟩
    show (play.postings ++ [_]).filter _ = _ ++ (play.postings ++ [_]).filter _
    rw [List.filter_append, List.filter_append, hposted, List.append_assoc]
    congr 2
    -- The item is one of the listing exactly if it went to the current stream of the listing.
    have hsame : listing = other ↔ some id = some seen := by
      rw [Option.some_inj]
      refine ⟨?_, ?_⟩
      · rintro rfl
        exact Option.some_inj.1 (hcurrent.symm.trans hother)
      · rintro rfl
        exact h.sound.own other listing id hother hcurrent
    rw [List.filter_singleton, List.filter_singleton, decide_eq_decide.2 hsame]

/-- A stream that is opened for a listing is its current one. -/
theorem current_withStream (replay : Replay) (listing : Listing) :
    (replay.withStream listing []).current.get? listing = some replay.streams.length :=
  Table.get?_set_self replay.current listing replay.streams.length

/-- An item that starts a stream is the first that the new stream takes. -/
theorem note_start (play : Playback) (listing : Listing) (item : Item) :
    play.note listing item (true, play.replay.start listing item) =
      Playback.extend { play with
        replay := { play.replay.withStream listing [] with
          waiting := play.replay.waiting.set listing play.replay.streams.length } }
        listing play.replay.streams.length item := by
  unfold note extend
  dsimp only
  rw [Replay.start_eq, if_pos rfl]
  exact congrArg
    (fun stream => Playback.mk _ (play.postings ++ [⟨listing, stream, item⟩]) play.subscribers)
    (current_withStream play.replay listing)

/-- Sending an item keeps the record in order, whatever comes of it. -/
theorem Kept.note {sent : Bool × Replay} (h : play.Kept)
    (hsends : Replay.Sends play.replay listing item sent) : (play.note listing item sent).Kept := by
  cases hsends with
  | @sent id unread hcurrent hcontent hroom =>
    have hkept : (play.extend listing id item).Kept := h.extend hcurrent hcontent hroom
    rw [Playback.extend, ← hcurrent] at hkept
    exact hkept
  | full => exact h
  | started hread hwaiting =>
    have hcurrent := current_withStream play.replay listing
    have hcontent := Replay.content?_withStream_self play.replay listing []
    have hnone := h.itemsOf_eq_nil (Nat.le_refl _)
    have hfree : ∀ subscriber ∈ play.subscribers,
        subscriber.stream ≠ play.replay.streams.length :=
      fun subscriber hsubscriber => Nat.ne_of_lt (h.lt hsubscriber)
    have hwaits := (h.withStream hwaiting).setWaiting hcurrent
      (hcontent.trans (congrArg (fun items => some (true, items)) hnone.symm)) hfree
    rw [note_start]
    exact hwaits.extend hcurrent hcontent (by decide)

/-! ## Subscribers read and leave -/

/-- A subscriber may change with its stream, which stays its own. -/
theorem Kept.reseat {next : Replay} {changed : Subscriber} (h : play.Kept)
    (hfound : play.subscribers[number]? = some subscriber)
    (hstream : changed.stream = subscriber.stream) (hlisting : changed.listing = subscriber.listing)
    (hsound : next.Sound) (hlength : next.streams.length = play.replay.streams.length)
    (hcurrent : next.current = play.replay.current) (hwaiting : next.waiting = play.replay.waiting)
    (hothers : ∀ seen, subscriber.stream ≠ seen → next.content? seen = play.replay.content? seen)
    (hserved : Served { play with replay := next } changed) :
    Kept { play with replay := next, subscribers := play.subscribers.set number changed } := by
  obtain ⟨hlt, hget⟩ := List.getElem?_eq_some_iff.1 hfound
  have hmem : subscriber ∈ play.subscribers := hget ▸ List.getElem_mem hlt
  have hstreams : (play.subscribers.set number changed).map (·.stream) =
      play.subscribers.map (·.stream) := by
    refine List.ext_getElem? fun place => ?_
    rw [List.getElem?_map, List.getElem?_map, List.getElem?_set]
    split
    · next heq =>
      subst heq
      rw [hfound]
      exact congrArg some hstream
    · rfl
  have hapart : ((play.subscribers.set number changed).map (·.stream)).Nodup := by
    rw [hstreams]
    exact h.apart
  -- Whoever has another stream is as before.
  have hcases : ∀ other ∈ play.subscribers.set number changed,
      other = changed ∨ other ∈ play.subscribers ∧ subscriber.stream ≠ other.stream := by
    intro other hother
    by_cases hsame : other.stream = changed.stream
    · exact .inl (List.inj_on_of_nodup_map hapart hother (List.mem_set hlt changed) hsame)
    · rcases List.mem_or_eq_of_mem_set hother with hold | rfl
      · exact .inr ⟨hold, fun heq => hsame (heq.symm.trans hstream.symm)⟩
      · exact absurd rfl hsame
  constructor
  case sound => exact hsound
  case served =>
    intro other hother
    rcases hcases other hother with rfl | ⟨hold, hne⟩
    · exact ⟨hserved.stream, hserved.reads⟩
    · obtain ⟨hunread, hreads⟩ := h.served other hold
      refine ⟨?_, hreads⟩
      rw [hothers other.stream hne]
      exact hunread
  case apart => exact hapart
  case seated =>
    intro other hother listing hlisted
    rw [hcurrent] at hlisted
    rcases hcases other hother with rfl | ⟨hold, -⟩
    · rw [hlisting]
      exact h.seated subscriber hmem listing (hstream ▸ hlisted)
    · exact h.seated other hold listing hlisted
  case waits =>
    intro listing seen hwaits
    rw [hwaiting] at hwaits
    obtain ⟨hunread, hfree⟩ := h.waits listing seen hwaits
    refine ⟨(hothers seen (hfree subscriber hmem)).trans hunread, fun other hother => ?_⟩
    rcases hcases other hother with rfl | ⟨hold, -⟩
    · rw [hstream]
      exact hfree subscriber hmem
    · exact hfree other hold
  case posted =>
    intro posting hposting
    obtain ⟨seen, hposted⟩ := h.posted posting hposting
    refine ⟨seen, hposted.stream, hlength ▸ hposted.lt, hcurrent ▸ hposted.current, ?_⟩
    intro other hother heq
    rcases hcases other hother with rfl | ⟨hold, -⟩
    · rw [hlisting]
      exact hposted.subscriber subscriber hmem (hstream.symm.trans heq)
    · exact hposted.subscriber other hold heq
  case since =>
    intro listing seen hlisted
    rw [hcurrent] at hlisted
    exact h.since listing seen hlisted

/-- A stream that somebody reads waits for nobody. -/
theorem Kept.not_waiting (h : play.Kept) (hsubscriber : subscriber ∈ play.subscribers) :
    ¬∃ listing, play.replay.waiting.get? listing = some subscriber.stream :=
  fun ⟨listing, hwaits⟩ => (h.waits listing _ hwaits).2 subscriber hsubscriber rfl

/-- What is read was the first unread item. -/
theorem Kept.read (h : play.Kept) (number : Nat) : (play.read number).Kept := by
  unfold Playback.read
  cases hfound : play.subscribers[number]? with
  | none => exact h
  | some subscriber =>
    dsimp only
    split
    · next item hpresent hpeek =>
      have hmem := List.mem_of_getElem? hfound
      obtain ⟨receiving, rest, hcontent⟩ := Replay.content?_of_peek hpeek
      obtain ⟨⟨unread, hunread, hall⟩, -⟩ := h.served subscriber hmem
      cases hcontent.symm.trans hunread
      have hread : (play.replay.advance subscriber.stream).content? subscriber.stream =
          some (subscriber.present, rest) := by
        rw [Replay.content?_advance, if_pos rfl, hcontent]
        rfl
      have hitems : subscriber.reads ++ [item] ++ rest = play.itemsOf subscriber.stream := by
        rw [List.append_assoc]
        exact hall hpresent
      refine h.reseat hfound rfl rfl ?_ (List.length_modify _ _ _) rfl rfl ?_ ?_
      · refine h.sound.modifyStream (fun _ => rfl) (fun _ _ => rfl) ?_ (fun _ _ => rfl)
        intro stream hstream
        refine Nat.le_trans ?_ (h.sound.bounded _ stream hstream)
        exact (List.tail_sublist stream.items).length_le
      · intro seen hne
        rw [Replay.content?_advance, if_neg hne]
      · exact ⟨⟨rest, hread, fun _ => hitems⟩, hitems ▸ List.prefix_append _ rest⟩
    · exact h

/-- A subscriber who leaves keeps the record in order. -/
theorem Kept.leave (h : play.Kept) (number : Nat) : (play.leave number).Kept := by
  unfold Playback.leave
  cases hfound : play.subscribers[number]? with
  | none => exact h
  | some subscriber =>
    have hmem := List.mem_of_getElem? hfound
    obtain ⟨⟨unread, hunread, -⟩, hreads⟩ := h.served subscriber hmem
    refine h.reseat hfound rfl rfl ?_ (List.length_modify _ _ _) rfl rfl ?_ ?_
    · exact h.sound.modifyStream (fun _ => rfl) (fun _ _ => rfl)
        (fun _ _ => Nat.zero_le streamCapacity)
        (fun hwaits => absurd hwaits (h.not_waiting hmem))
    · intro seen hne
      rw [Replay.content?_unsubscribe, if_neg hne]
    · refine ⟨⟨[], ?_, nofun⟩, hreads⟩
      show (play.replay.unsubscribe subscriber.stream).content? subscriber.stream = _
      rw [Replay.content?_unsubscribe, if_pos rfl, hunread]
      rfl

/-! ## Every act -/

/-- Closing the streams of a listing keeps the record in order. -/
theorem Kept.close (h : play.Kept) (listing : Listing) :
    Kept { play with replay := play.replay.close listing } := by
  refine h.withReplay (h.sound.close listing) (Nat.le_of_eq (Replay.length_close _ _).symm) ?_ ?_ ?_
  · intro subscriber hsubscriber
    rw [Replay.content?_close, if_neg fun hwaits => h.not_waiting hsubscriber ⟨listing, hwaits⟩]
  · intro other id hother
    rw [Replay.current_close, Table.get?_erase] at hother
    split at hother
    · cases hother
    · exact hother
  · intro other id hother
    rw [Replay.waiting_close] at hother
    split at hother
    · cases hother
    · next hne =>
      have hnot : play.replay.waiting.get? listing ≠ some id := fun hwaits =>
        hne (h.sound.own listing other id (h.sound.waits listing id hwaits).1
          (h.sound.waits other id hother).1)
      rw [Replay.content?_close, if_neg hnot]
      exact ⟨hother, rfl⟩

/-- Every act keeps the record of a feed in order. -/
theorem Kept.step (h : play.Kept) (act : Act) : (play.step act).Kept := by
  cases act with
  | push listing batch => exact h.note (Replay.sends h.sound listing _)
  | breakStream listing reason => exact h.note (Replay.sends h.sound listing _)
  | refuse listing reason =>
    exact h.withReplay (h.sound.of_eq rfl rfl rfl) (Nat.le_refl _) (fun _ _ => rfl)
      (fun _ _ hcurrent => hcurrent) (fun _ _ hwaits => ⟨hwaits, rfl⟩)
  | subscribe listing =>
    have hcounted : Kept { play with replay := play.replay.countOpen listing } :=
      h.withReplay (h.sound.countOpen listing) (Nat.le_refl _) (fun _ _ => rfl)
        (fun _ _ hcurrent => hcurrent) (fun _ _ hwaits => ⟨hwaits, rfl⟩)
    have hsubscribes := Replay.subscribes play.replay listing
    show Kept (match play.replay.subscribe listing with
      | (.ok stream, replay) => _
      | (.error _, replay) => _)
    generalize play.replay.subscribe listing = given at hsubscribes
    cases hsubscribes with
    | refused => exact hcounted
    | @handed id hwaits =>
      obtain ⟨hcontent, hfree⟩ := h.waits listing id hwaits
      obtain ⟨hcurrent, -⟩ := h.sound.waits listing id hwaits
      -- Once the stream is handed over, it waits under no listing.
      have hothers : ∀ other seen, (play.replay.waiting.erase listing).get? other = some seen →
          play.replay.waiting.get? other = some seen ∧ seen ≠ id := by
        intro other seen hother
        rw [Table.get?_erase] at hother
        split at hother
        · cases hother
        · next hne =>
          refine ⟨hother, ?_⟩
          rintro rfl
          exact hne (h.sound.own listing other seen hcurrent (h.sound.waits other seen hother).1)
      have htaken := hcounted.withReplay (hcounted.sound.eraseWaiting listing) (Nat.le_refl _)
        (fun _ _ => rfl) (fun _ _ hcurrent => hcurrent)
        (fun other seen hother => ⟨(hothers other seen hother).1, rfl⟩)
      exact htaken.subscribe hcurrent hcontent hfree
        fun other hother => (hothers other id hother).2 rfl
    | started hwaiting =>
      have hadded := hcounted.withStream hwaiting
      refine hadded.subscribe (current_withStream _ listing) ?_ ?_ ?_
      · exact (Replay.content?_withStream_self (play.replay.countOpen listing) listing []).trans
          (congrArg (fun items => some (true, items))
            (hcounted.itemsOf_eq_nil (Nat.le_refl _)).symm)
      · exact fun subscriber hsubscriber => Nat.ne_of_lt (hcounted.lt hsubscriber)
      · intro other hother
        obtain ⟨hcurrent, -⟩ := h.sound.waits other _ hother
        exact Nat.lt_irrefl _ (h.sound.lt hcurrent)
  | close listing => exact h.close listing
  | read number => exact h.read number
  | leave number => exact h.leave number

/-- After any acts the record of a feed is in order. -/
theorem kept_run (acts : List Act) : (run acts).Kept := by
  have hfrom : ∀ play : Playback, play.Kept → (acts.foldl step play).Kept := by
    induction acts with
    | nil => exact fun play h => h
    | cons act acts ih => exact fun play h => ih (play.step act) (h.step act)
  exact hfrom new kept_new

/-! ## Counting subscriptions -/

/-- Sending an item counts no opening. -/
theorem opens_of_sends {replay : Replay} {sent : Bool × Replay}
    (hsends : Replay.Sends replay listing item sent) : sent.2.opens = replay.opens := by
  cases hsends <;> rfl

/-- Counting an opening adds one for its listing, and nothing for any other. -/
theorem openCount_countOpen (replay : Replay) (listing other : Listing) :
    (replay.countOpen listing).openCount other =
      replay.openCount other + if other = listing then 1 else 0 := by
  unfold Replay.openCount Replay.countOpen
  dsimp only
  rw [Table.get?_set]
  split
  · next heq =>
    subst heq
    rfl
  · rfl

/-- A subscription counts one opening, also when it fails. -/
theorem opens_of_subscribes {replay next : Replay} {given : Except Failure StreamId}
    (hsubscribes : Replay.Subscribes replay listing (given, next)) :
    next.opens = (replay.countOpen listing).opens := by
  cases hsubscribes <;> rfl

/-- Every subscription counts, and nothing else does. -/
theorem openCount_step (h : play.Kept) (act : Act) (listing : Listing) :
    (play.step act).replay.openCount listing =
      play.replay.openCount listing + if act = .subscribe listing then 1 else 0 := by
  have hsame : ∀ {next : Replay}, next.opens = play.replay.opens →
      next.openCount listing = play.replay.openCount listing :=
    fun hopens => congrArg (fun opens : Table Listing Nat => (opens.get? listing).getD 0) hopens
  cases act with
  | push other batch => exact hsame (opens_of_sends (Replay.sends h.sound other _))
  | breakStream other reason => exact hsame (opens_of_sends (Replay.sends h.sound other _))
  | refuse other reason => exact hsame rfl
  | subscribe other =>
    -- A failed subscription is counted like any other, since it is counted before it is tried.
    have hcount : ∀ {given next}, Replay.Subscribes play.replay other (given, next) →
        next.openCount listing = play.replay.openCount listing +
          if Act.subscribe other = .subscribe listing then 1 else 0 := by
      intro given next hsubscribes
      have hopens := opens_of_subscribes hsubscribes
      rw [show next.openCount listing = (play.replay.countOpen other).openCount listing from
        congrArg (fun opens : Table Listing Nat => (opens.get? listing).getD 0) hopens,
        openCount_countOpen]
      exact congrArg (play.replay.openCount listing + ·)
        (if_congr
          ⟨fun heq => congrArg Act.subscribe heq.symm, fun heq => (Act.subscribe.inj heq).symm⟩
          rfl rfl)
    have hsubscribes := Replay.subscribes play.replay other
    unfold step
    dsimp only
    split
    · next heq => exact hcount (heq ▸ hsubscribes)
    · next heq => exact hcount (heq ▸ hsubscribes)
  | close other =>
    refine hsame ?_
    show (play.replay.close other).opens = _
    rw [Replay.close_eq]
    unfold Replay.dropWaiting
    rw [Replay.endCurrent_eq]
    split <;> rfl
  | read number =>
    unfold step read
    dsimp only
    split
    · rfl
    · split <;> rfl
  | leave number =>
    unfold step leave
    dsimp only
    split <;> rfl

/-- The openings that are counted for a listing are the subscriptions to it that were tried. -/
theorem openCount_run (acts : List Act) (listing : Listing) :
    (run acts).replay.openCount listing = acts.count (.subscribe listing) := by
  have hfrom : ∀ play : Playback, play.Kept → (acts.foldl step play).replay.openCount listing =
      play.replay.openCount listing + acts.count (.subscribe listing) := by
    induction acts with
    | nil => exact fun play _ => rfl
    | cons act acts ih =>
      intro play h
      rw [List.foldl_cons, ih (play.step act) (h.step act), openCount_step h, List.count_cons,
        Nat.add_assoc, Nat.add_comm (ite _ _ _)]
      simp only [beq_iff_eq]
  exact (hfrom new kept_new).trans (Nat.zero_add _)

/-! ## What is read -/

/-- The current stream of a listing has somebody to read it, and no room. -/
def Full (replay : Replay) (listing : Listing) : Prop :=
  ∃ id stream, replay.current.get? listing = some id ∧ replay.streams[id]? = some stream ∧
    stream.receiving = true ∧ stream.items.length = streamCapacity

/-- What holds of a replay feed and those who read it, after some acts. An item is accepted for one
stream, and no two subscribers have the same stream, so no item is read twice. -/
structure Faithful (acts : List Act) (play : Playback) : Prop where
  /-- A stream that waits is the one that items are pushed to. -/
  waits : ∀ listing id, play.replay.waiting.get? listing = some id →
    play.replay.current.get? listing = some id ∧
      ∃ stream, play.replay.streams[id]? = some stream ∧ stream.isOpen = true
  /-- Who subscribes where a stream waits has before it all that was accepted for the stream. -/
  takes : ∀ listing id given next, play.replay.waiting.get? listing = some id →
    play.replay.subscribe listing = (.ok given, next) →
    given = id ∧ ∃ stream, next.streams[id]? = some stream ∧ stream.items = play.itemsOf id
  /-- Since the current stream took its first item, all that was accepted for its listing is its. -/
  since : ∀ listing id, play.replay.current.get? listing = some id →
    ∃ earlier, play.postings.filter (·.listing = listing) =
        earlier ++ play.postings.filter (·.stream = some id) ∧
      ∀ posting ∈ earlier, posting.stream ≠ some id
  reads : ∀ subscriber ∈ play.subscribers,
    subscriber.reads <+: play.itemsOf subscriber.stream
  /-- What a subscriber has not read is still before it. -/
  unread : ∀ subscriber ∈ play.subscribers, subscriber.present = true →
    ∃ stream, play.replay.streams[subscriber.stream]? = some stream ∧
      subscriber.reads ++ stream.items = play.itemsOf subscriber.stream
  apart : (play.subscribers.map (·.stream)).Nodup
  keyed : ∀ posting ∈ play.postings, ∃ id, posting.stream = some id ∧
    ∀ subscriber ∈ play.subscribers, subscriber.stream = id →
      subscriber.listing = posting.listing
  declines : ∀ listing batch,
    (play.replay.push listing batch).1 = false ↔ Full play.replay listing
  declinesBreak : ∀ listing reason,
    (play.replay.breakStream listing reason).1 = false ↔ Full play.replay listing
  /-- A subscription that fails is counted, and changes nothing else. -/
  fails : ∀ listing failure next, play.replay.subscribe listing = (.error failure, next) →
    next = play.replay.countOpen listing
  opens : ∀ listing, play.replay.openCount listing = acts.count (.subscribe listing)

/-- The stream of a listing is full when it has a reader and as many unread items as it has
places. -/
theorem full_iff {replay : Replay} :
    Full replay listing ↔ ∃ id unread, replay.current.get? listing = some id ∧
      replay.content? id = some (true, unread) ∧ unread.length = streamCapacity := by
  constructor
  · rintro ⟨id, stream, hcurrent, hstream, hreceiving, hlength⟩
    exact ⟨id, stream.items, hcurrent,
      Replay.content?_eq_some.2 ⟨stream, hstream, hreceiving, rfl⟩, hlength⟩
  · rintro ⟨id, unread, hcurrent, hcontent, hlength⟩
    obtain ⟨stream, hstream, hreceiving, rfl⟩ := Replay.content?_eq_some.1 hcontent
    exact ⟨id, stream, hcurrent, hstream, hreceiving, hlength⟩

/-- Only a full stream refuses an item. -/
theorem sent_eq_false_iff {replay : Replay} {sent : Bool × Replay}
    (hsends : Replay.Sends replay listing item sent) :
    sent.1 = false ↔ Full replay listing := by
  rw [full_iff]
  cases hsends with
  | sent hcurrent hcontent hroom =>
    refine iff_of_false nofun ?_
    rintro ⟨other, unread, hother, hunread, hlength⟩
    cases hcurrent.symm.trans hother
    cases hcontent.symm.trans hunread
    exact Nat.ne_of_lt hroom hlength
  | full hcurrent hcontent hlength => exact iff_of_true rfl ⟨_, _, hcurrent, hcontent, hlength⟩
  | started hread =>
    refine iff_of_false nofun ?_
    rintro ⟨id, unread, hcurrent, hcontent, -⟩
    rw [Replay.readCurrent?_eq_some.2 ⟨hcurrent, unread, hcontent⟩] at hread
    cases hread

/-- However a replay feed is used, it is faithful to those who read it. -/
theorem run_faithful (acts : List Act) : Faithful acts (run acts) := by
  have h := kept_run acts
  constructor
  case waits =>
    intro listing id hwaits
    obtain ⟨hcurrent, unread, hcontent⟩ := h.sound.waits listing id hwaits
    obtain ⟨stream, hstream, hreceiving, -⟩ := Replay.content?_eq_some.1 hcontent
    obtain ⟨found, hfound, hsending⟩ := h.sound.sends listing id hcurrent
    cases hstream.symm.trans hfound
    exact ⟨hcurrent, stream, hstream, by rw [Channel.isOpen, hsending, hreceiving]; rfl⟩
  case takes =>
    intro listing id given next hwaits hgiven
    have hsubscribes := Replay.subscribes (run acts).replay listing
    rw [hgiven] at hsubscribes
    obtain ⟨stream, hstream, -, hitems⟩ :=
      Replay.content?_eq_some.1 (h.waits listing id hwaits).1
    cases hsubscribes with
    | handed hother =>
      -- The subscriber is given the stream that waits, and not a new one.
      cases hother.symm.trans hwaits
      exact ⟨rfl, stream, hstream, hitems⟩
    | started hnone =>
      rw [hwaits] at hnone
      cases hnone
  case since => exact h.since
  case reads => exact fun subscriber hsubscriber => (h.served subscriber hsubscriber).reads
  case unread =>
    intro subscriber hsubscriber hpresent
    obtain ⟨unread, hcontent, hall⟩ := (h.served subscriber hsubscriber).stream
    obtain ⟨stream, hstream, -, rfl⟩ := Replay.content?_eq_some.1 hcontent
    exact ⟨stream, hstream, hall hpresent⟩
  case apart => exact h.apart
  case keyed =>
    intro posting hposting
    obtain ⟨id, hposted⟩ := h.posted posting hposting
    exact ⟨id, hposted.stream, hposted.subscriber⟩
  case declines => exact fun listing _ => sent_eq_false_iff (Replay.sends h.sound listing _)
  case declinesBreak => exact fun listing _ => sent_eq_false_iff (Replay.sends h.sound listing _)
  case fails =>
    intro listing failure next hgiven
    have hsubscribes := Replay.subscribes (run acts).replay listing
    rw [hgiven] at hsubscribes
    cases hsubscribes
    rfl
  case opens => exact openCount_run acts

end Playback

end TriggerDesk.Feed
