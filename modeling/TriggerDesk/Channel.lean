/-!
# Bounded channels

A channel carries items from one side to the other, first in, first out. It holds at most
`capacity` items; each side can leave it. An item sent to a channel whose receiver left is
lost, and a channel whose senders left ends once it is empty.
-/

namespace TriggerDesk

/-- A bounded queue between a sending and a receiving side. -/
structure Channel (α : Type) where
  capacity : Nat
  items : List α
  /-- Whether the sending side is there. -/
  sending : Bool
  /-- Whether the receiving side is there. -/
  receiving : Bool
  deriving DecidableEq, Repr

namespace Channel

variable {α : Type}

/-- A channel without items, with both sides. -/
def new (capacity : Nat) : Channel α :=
  { capacity, items := [], sending := true, receiving := true }

/-- Why an item cannot be sent now. -/
inductive Obstacle where
  | full
  | closed
  deriving DecidableEq, Repr

/-- Whether there is room for one more item. -/
def hasRoom (channel : Channel α) : Bool := channel.items.length < channel.capacity

/-- Sends an item without waiting. -/
def send (channel : Channel α) (item : α) : Except Obstacle (Channel α) :=
  if !channel.receiving then .error .closed
  else if !channel.hasRoom then .error .full
  else .ok { channel with items := channel.items ++ [item] }

/-- Takes the oldest item. -/
def receive? (channel : Channel α) : Option (α × Channel α) :=
  match channel.items with
  | [] => none
  | item :: rest => some (item, { channel with items := rest })

/-- Whether no item is left and none can come. -/
def isEnded (channel : Channel α) : Bool := channel.items.isEmpty && !channel.sending

/-- Whether both sides are there. -/
def isOpen (channel : Channel α) : Bool := channel.sending && channel.receiving

/-- The channel after its senders left. -/
def closeSending (channel : Channel α) : Channel α := { channel with sending := false }

/-- The channel after its receiver left: what it held is lost. -/
def closeReceiving (channel : Channel α) : Channel α :=
  { channel with items := [], receiving := false }

/-- What is sent comes behind everything else, where there is room. -/
theorem eq_of_send {channel next : Channel α} {item : α} (h : channel.send item = .ok next) :
    channel.items.length < channel.capacity ∧
      next = { channel with items := channel.items ++ [item] } := by
  unfold send at h
  split at h
  · cases h
  · split at h
    · cases h
    · next hroom =>
      cases h
      exact ⟨by simpa [hasRoom] using hroom, rfl⟩

/-- As long as somebody receives, only a full channel refuses. -/
theorem send_ne_closed {channel : Channel α} {item : α} (h : channel.receiving = true) :
    channel.send item ≠ .error .closed := by
  intro hclosed
  rw [send, h] at hclosed
  split at hclosed
  · next hleft => cases hleft
  · split at hclosed <;> cases hclosed

/-- An open channel has its receiver. -/
theorem receiving_of_isOpen {channel : Channel α} (h : channel.isOpen = true) :
    channel.receiving = true := by
  rw [isOpen, Bool.and_eq_true] at h
  exact h.2

/-- What is received was first. -/
theorem eq_of_receive {channel next : Channel α} {item : α}
    (h : channel.receive? = some (item, next)) :
    channel.items = item :: next.items ∧ next = { channel with items := next.items } := by
  unfold receive? at h
  split at h
  · cases h
  · next hitems =>
    cases h
    exact ⟨hitems, rfl⟩

/-- A channel that has taken an item has no more than fit. -/
theorem length_le_of_send {channel next : Channel α} {item : α}
    (h : channel.send item = .ok next) : next.items.length ≤ next.capacity := by
  obtain ⟨hroom, rfl⟩ := eq_of_send h
  simpa using Nat.succ_le_of_lt hroom

/-- An item that is sent comes last. -/
theorem items_of_send {channel next : Channel α} {item : α}
    (h : channel.send item = .ok next) : next.items = channel.items ++ [item] := by
  rw [(eq_of_send h).2]

/-- The item that is taken was the first one, and both sides are where they were. -/
theorem items_of_receive {channel next : Channel α} {item : α}
    (h : channel.receive? = some (item, next)) :
    channel.items = item :: next.items ∧ next.isOpen = channel.isOpen := by
  obtain ⟨hitems, hnext⟩ := eq_of_receive h
  rw [hnext]
  exact ⟨hitems, rfl⟩

/-- Sending leaves both sides where they are. -/
theorem isOpen_of_send {channel next : Channel α} {item : α}
    (h : channel.send item = .ok next) : next.isOpen = channel.isOpen := by
  rw [(eq_of_send h).2]
  rfl

end Channel

end TriggerDesk
