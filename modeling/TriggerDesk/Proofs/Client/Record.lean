import TriggerDesk.Client.Ledger

/-!
# What a client knows of one order id

A ledger is a record for each order id: nothing, an order that was sent, or one that was
confirmed. `Ledger.Has` reads a record off a ledger; what events and calls do to a ledger is said
record by record, in `Ledger.Has.observe` and `Ledger.Has.submit`. Only ledgers that keep all
confirmed orders are considered there. What is sent does not depend on how much a ledger keeps
(`Ledger.sent_observe`, `Ledger.sent_submit`).
-/

namespace TriggerDesk

open TriggerDesk.Order

namespace Client

/-- What a ledger has about one order id. -/
inductive Record where
  | absent
  | sent (command : Command)
  | confirmed (command : Command)
  deriving DecidableEq, Repr

namespace Record

def sent? : Record → Option Command
  | sent command => some command
  | absent | confirmed _ => none

def confirmed? : Record → Option Command
  | confirmed command => some command
  | absent | sent _ => none

/-- The order is live, at a new level if one is given. -/
def confirm (level : Option Float) : Record → Record
  | absent => absent
  | sent command | confirmed command =>
    confirmed { command with price := level.getD command.price }

/-- An order that was only sent is forgotten. -/
def discardSent : Record → Record
  | sent _ => absent
  | absent => absent
  | confirmed command => confirmed command

/-- What an event about its id makes of a record. -/
def hear (record : Record) (event : Event) : Record :=
  match event.kind with
  | .ack => record.confirm (some event.level)
  | .alert | .fill => record.confirm none
  | .cancelled => .absent
  | .rejected => record.discardSent

/-- Where no order was only sent, none is forgotten. -/
theorem discardSent_of_sent?_eq_none {record : Record} (h : record.sent? = none) :
    record.discardSent = record := by
  cases record with
  | absent | confirmed => rfl
  | sent command => cases h

/-- What is not known is never confirmed. -/
theorem hear_absent (event : Event) : absent.hear event = absent := by
  unfold hear
  split <;> rfl

end Record

namespace Ledger

variable {ledger next : Ledger} {oid : String} {record : Record}

/-- The ledger has this about an id. -/
structure Has (ledger : Ledger) (oid : String) (record : Record) : Prop where
  sent : ledger.sent.get? oid = record.sent?
  confirmed : ledger.confirmed.get? oid = record.confirmed?

/-- An id is known exactly when its record is not absent. -/
theorem Has.isKnown (h : ledger.Has oid record) : ledger.isKnown oid = true ↔ record ≠ .absent := by
  rw [Ledger.isKnown, Table.contains, Table.contains, h.sent, h.confirmed]
  cases record <;> simp [Record.sent?, Record.confirmed?]

/-! ## What events do -/

/-- A ledger that retains every order forgets none. -/
theorem trim_of_retention (h : ledger.retention = 0) : ledger.trim = ledger := by
  rw [trim, if_pos h]

/-- Moving an order changes neither the queue of the ledger nor how much it keeps. -/
theorem queue_confirmSent (ledger : Ledger) (oid : String) :
    (ledger.confirmSent oid).queue = ledger.queue ∧
      (ledger.confirmSent oid).retention = ledger.retention := by
  unfold confirmSent
  split <;> exact ⟨rfl, rfl⟩

/-- A ledger that keeps everything moves the order, and sets its level if one is given. -/
theorem confirm_of_retention (h : ledger.retention = 0) (level : Option Float) :
    ledger.confirm oid level =
      match (ledger.confirmSent oid).confirmed.get? oid, level with
      | some command, some level => (ledger.confirmSent oid).setLevel oid command level
      | some _, none | none, _ => ledger.confirmSent oid := by
  have hkept : (ledger.confirmSent oid).retention = 0 := (queue_confirmSent ledger oid).2.trans h
  unfold Ledger.confirm
  dsimp only
  cases (ledger.confirmSent oid).confirmed.get? oid with
  | none => rfl
  | some command =>
    cases level with
    | none => exact trim_of_retention hkept
    | some level => exact trim_of_retention hkept

/-- The record of an order that was sent becomes a confirmed one; other records stay. -/
theorem Has.confirmSent (h : ledger.Has oid record) (other : String) :
    (ledger.confirmSent other).Has oid (if other = oid then record.confirm none else record) := by
  unfold Ledger.confirmSent
  by_cases hother : other = oid
  · subst hother
    rw [if_pos rfl, h.sent]
    cases record with
    | absent | confirmed => exact ⟨h.sent, h.confirmed⟩
    | sent command => exact ⟨Table.get?_erase_self _ _, Table.get?_set_self _ _ _⟩
  · rw [if_neg hother]
    split
    · exact h
    · exact ⟨(Table.get?_erase_of_ne _ (Ne.symm hother)).trans h.sent,
        (Table.get?_set_of_ne _ _ (Ne.symm hother)).trans h.confirmed⟩

/-- A new level confirms the record of its order, and leaves every other. -/
theorem Has.setLevel (h : ledger.Has oid record) {other : String} {command : Command}
    (hcommand : ledger.confirmed.get? other = some command) (level : Float) :
    (ledger.setLevel other command level).Has oid
      (if other = oid then record.confirm (some level) else record) := by
  by_cases hother : other = oid
  · subst hother
    rw [if_pos rfl]
    rw [h.confirmed] at hcommand
    cases record with
    | absent | sent => cases hcommand
    | confirmed found =>
      cases hcommand
      exact ⟨h.sent, Table.get?_set_self _ _ _⟩
  · rw [if_neg hother]
    exact ⟨h.sent, (Table.get?_set_of_ne _ _ (Ne.symm hother)).trans h.confirmed⟩

/-- Confirming an order changes its record, and leaves every other. -/
theorem Has.confirm (h : ledger.Has oid record) (hretention : ledger.retention = 0)
    (other : String) (level : Option Float) :
    (ledger.confirm other level).Has oid
      (if other = oid then record.confirm level else record) := by
  have hsent := h.confirmSent other
  rw [confirm_of_retention hretention]
  split
  · next command level hcommand =>
    have hlevel := hsent.setLevel hcommand level
    by_cases heq : other = oid
    · simp only [if_pos heq] at hlevel ⊢
      cases record <;> exact hlevel
    · simp only [if_neg heq] at hlevel ⊢
      exact hlevel
  · exact hsent
  · next hnone =>
    -- Without an order there was nothing to confirm, and the record stays absent.
    split
    · next heq =>
      subst heq
      rw [if_pos rfl] at hsent
      have habsent := hsent.confirmed.symm.trans hnone
      cases record with
      | absent => exact hsent
      | sent | confirmed => cases habsent
    · next hne =>
      rw [if_neg hne] at hsent
      exact hsent

/-- Forgetting an order leaves its record absent, and every other as it was. -/
theorem Has.forget (h : ledger.Has oid record) (other : String) :
    (ledger.forget other).Has oid (if other = oid then .absent else record) := by
  split
  · next heq =>
    subst heq
    exact ⟨Table.get?_erase_self _ _, Table.get?_erase_self _ _⟩
  · next hne =>
    exact ⟨(Table.get?_erase_of_ne _ (Ne.symm hne)).trans h.sent,
      (Table.get?_erase_of_ne _ (Ne.symm hne)).trans h.confirmed⟩

/-- Forgetting an order that was only sent changes its record, and leaves every other. -/
theorem Has.discardSent (h : ledger.Has oid record) (other : String) :
    (ledger.discardSent other).Has oid (if other = oid then record.discardSent else record) := by
  split
  · next heq =>
    subst heq
    refine ⟨(Table.get?_erase_self _ _).trans ?_, h.confirmed.trans ?_⟩ <;> cases record <;> rfl
  · next hne => exact ⟨(Table.get?_erase_of_ne _ (Ne.symm hne)).trans h.sent, h.confirmed⟩

/-- An event changes the record of its id, as `Record.hear` says, and no other record. -/
theorem Has.observe (h : ledger.Has oid record) (hretention : ledger.retention = 0)
    (event : Event) :
    (ledger.observe event).Has oid (if event.oid = oid then record.hear event else record) := by
  unfold Ledger.observe Record.hear
  cases event.kind with
  | ack => exact h.confirm hretention _ _
  | alert | fill => exact h.confirm hretention _ _
  | cancelled => exact h.forget _
  | rejected => exact h.discardSent _

/-- Forgetting orders that are too many concerns only what is confirmed. -/
theorem queue_trim (ledger : Ledger) :
    ledger.trim.queue = ledger.queue ∧ ledger.trim.retention = ledger.retention ∧
      ledger.trim.sent = ledger.sent := by
  unfold trim
  split <;> exact ⟨rfl, rfl, rfl⟩

/-- Confirming an order changes neither the queue nor the retention, and takes it out of what is
sent. -/
theorem queue_confirm (ledger : Ledger) (oid : String) (level : Option Float) :
    (ledger.confirm oid level).queue = ledger.queue ∧
      (ledger.confirm oid level).retention = ledger.retention ∧
      (ledger.confirm oid level).sent = (ledger.confirmSent oid).sent := by
  obtain ⟨hqueue, hretention⟩ := queue_confirmSent ledger oid
  unfold Ledger.confirm
  dsimp only
  cases (ledger.confirmSent oid).confirmed.get? oid with
  | none => exact ⟨hqueue, hretention, rfl⟩
  | some command =>
    cases level with
    | none =>
      obtain ⟨hsame, hkept, hsent⟩ := queue_trim (ledger.confirmSent oid)
      exact ⟨hsame.trans hqueue, hkept.trans hretention, hsent⟩
    | some level =>
      obtain ⟨hsame, hkept, hsent⟩ :=
        queue_trim ((ledger.confirmSent oid).setLevel oid command level)
      exact ⟨hsame.trans hqueue, hkept.trans hretention, hsent⟩

/-- Events change neither the queue of the ledger nor how much it keeps. -/
theorem queue_observe (ledger : Ledger) (event : Event) :
    (ledger.observe event).queue = ledger.queue ∧
      (ledger.observe event).retention = ledger.retention := by
  unfold Ledger.observe
  cases event.kind with
  | ack | alert | fill =>
    obtain ⟨hqueue, hretention, _⟩ := queue_confirm ledger event.oid _
    exact ⟨hqueue, hretention⟩
  | cancelled | rejected => exact ⟨rfl, rfl⟩

/-- Confirming a sent order takes its id out of what is sent, and no other. -/
theorem sent_confirmSent (ledger : Ledger) (other : String) :
    (ledger.confirmSent other).sent.get? oid =
      if oid = other then none else ledger.sent.get? oid := by
  unfold confirmSent
  split
  · next hnone =>
    split
    · next heq => exact heq ▸ hnone
    · rfl
  · exact Table.get?_erase _ _ _

/-- After any event about its id an order is not sent any more, however much the ledger keeps. -/
theorem sent_observe (ledger : Ledger) (event : Event) (oid : String) :
    (ledger.observe event).sent.get? oid =
      if oid = event.oid then none else ledger.sent.get? oid := by
  unfold Ledger.observe
  cases event.kind with
  | ack | alert | fill =>
    dsimp only
    rw [(queue_confirm ledger event.oid _).2.2]
    exact sent_confirmSent ledger event.oid
  | cancelled | rejected => exact Table.get?_erase _ _ _

/-! ## What calls do -/

/-- What the client asks of its ledger. -/
inductive Call where
  /-- To send a command: to place an order, or any other. -/
  | submit (command : Command)
  | cancel (oid : String)
  | modify (oid : String) (price : Float)
  deriving DecidableEq, Repr

/-- What comes of a call. -/
def answer (ledger : Ledger) : Call → Except Refusal Ledger
  | .submit command => ledger.submit command
  | .cancel oid => ledger.cancel oid
  | .modify oid price => ledger.modify oid price

/-- A call that is not refused submits a command. To cancel or move an order places none. -/
theorem exists_submit_of_answer {call : Call} (h : ledger.answer call = .ok next) :
    ∃ command, ledger.submit command = .ok next ∧
      (call = .submit command ∨ command.kind.places = false) := by
  cases call with
  | submit command => exact ⟨command, h, .inl rfl⟩
  | cancel oid =>
    simp only [answer, Ledger.cancel_eq] at h
    split at h
    · cases h
    · exact ⟨_, h, .inr rfl⟩
  | modify oid price =>
    simp only [answer, Ledger.modify_eq] at h
    split at h
    · cases h
    · exact ⟨_, h, .inr rfl⟩

/-- A command that is enqueued is in the queue, and nothing else changes. -/
theorem enqueue_eq_ok {command : Command} (h : ledger.enqueue command = .ok next) :
    ∃ queue, ledger.queue.send command = .ok queue ∧ next = { ledger with queue } := by
  unfold enqueue at h
  split at h
  · next queue hqueue =>
    cases h
    exact ⟨queue, hqueue, rfl⟩
  · cases h
  · cases h

/-- A command that is submitted goes to the end of the queue. -/
theorem queue_of_submit {command : Command} (h : ledger.submit command = .ok next) :
    ledger.queue.send command = .ok next.queue ∧ next.retention = ledger.retention := by
  rw [submit_eq] at h
  split at h
  · split at h
    · cases h
    · obtain ⟨queue, hsend, rfl⟩ := enqueue_eq_ok h
      exact ⟨hsend, rfl⟩
  · obtain ⟨queue, hsend, rfl⟩ := enqueue_eq_ok h
    exact ⟨hsend, rfl⟩

/-- A command that places an order is sent under its id, and nothing else changes in what is
sent. -/
theorem sent_submit {command : Command} (h : ledger.submit command = .ok next) (oid : String) :
    next.sent.get? oid =
      if command.kind.places ∧ command.oid = oid then some command else ledger.sent.get? oid := by
  rw [submit_eq] at h
  split at h
  · next hplaces =>
    split at h
    · cases h
    · obtain ⟨queue, _, rfl⟩ := enqueue_eq_ok h
      rw [Table.get?_set]
      by_cases hoid : oid = command.oid
      · rw [if_pos hoid, if_pos ⟨hplaces, hoid.symm⟩]
      · rw [if_neg hoid, if_neg fun hasked => hoid hasked.2.symm]
  · next hplaces =>
    obtain ⟨queue, _, rfl⟩ := enqueue_eq_ok h
    rw [if_neg fun hasked => hplaces hasked.1]

/-- An order is submitted under an id that is not known, and is sent then. Nothing else changes
in the records. -/
theorem Has.submit (h : ledger.Has oid record) {command : Command}
    (hsubmit : ledger.submit command = .ok next) :
    if command.kind.places ∧ command.oid = oid then
      record = .absent ∧ next.Has oid (.sent command)
    else next.Has oid record := by
  rw [Ledger.submit_eq] at hsubmit
  split at hsubmit
  · next hplaces =>
    split at hsubmit
    · cases hsubmit
    · next hunknown =>
      obtain ⟨queue, _, rfl⟩ := enqueue_eq_ok hsubmit
      split
      · next hasked =>
        have habsent : record = .absent := by
          rw [hasked.2] at hunknown
          exact Decidable.byContradiction fun hne => hunknown (h.isKnown.2 hne)
        subst habsent
        rw [← hasked.2] at h ⊢
        exact ⟨rfl, Table.get?_set_self _ _ _, h.confirmed⟩
      · next hother =>
        have hne : oid ≠ command.oid := fun heq => hother ⟨hplaces, heq.symm⟩
        exact ⟨(Table.get?_set_of_ne _ _ hne).trans h.sent, h.confirmed⟩
  · next hplaces =>
    obtain ⟨queue, _, rfl⟩ := enqueue_eq_ok hsubmit
    rw [if_neg fun hasked => hplaces hasked.1]
    exact ⟨h.sent, h.confirmed⟩

end Ledger

end Client

end TriggerDesk
