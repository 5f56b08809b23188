import Mathlib.Data.List.Dedup
import Mathlib.Data.List.Induction
import Mathlib.Data.List.Perm.Basic
import TriggerDesk.Proofs.Client.Calls
import TriggerDesk.Proofs.Client.Record

/-!
# What a ledger keeps

A ledger is run from empty through calls, events and what the other side of its queue does. What
an event does comes in two parts: `Ledger.heard` is the ledger that still keeps everything, and
`Ledger.trim` forgets what is too much of it. In a tidy ledger (`Ledger.IsTidy`) the history lists
the confirmed orders as the table has them, so what is forgotten is a front part of both
(`Ledger.forgetFirst_eq`). `Ledger.tracks_along` says of every run what the history is and how
long it gets, what is forgotten, and which order every confirmed entry is.
-/

namespace TriggerDesk

namespace Table

variable {α β : Type} [DecidableEq α]

/-- The keys of a table are those that it contains. -/
theorem mem_keys {table : Table α β} {key : α} :
    key ∈ table.keys ↔ table.contains key = true := by
  rw [contains_eq_any, keys, List.any_eq_true, List.mem_map]
  simp only [decide_eq_true_eq]

/-- A key that is there stays in its place when its value is set. -/
theorem keys_set_of_contains {table : Table α β} {key : α} (h : table.contains key = true)
    (value : β) : (table.set key value).keys = table.keys :=
  (keys_setIn ..).trans (if_pos (mem_keys.2 h))

/-- Erasing a key takes it out of the keys, and the others stay in order. -/
theorem keys_erase (table : Table α β) (key : α) :
    (table.erase key).keys = table.keys.filter (· ≠ key) := by
  rw [keys, keys, erase, List.filter_map]
  rfl

end Table

namespace Client

open TriggerDesk.Order

namespace Record

/-- The order of a record. -/
def order? : Record → Option Command
  | absent => none
  | sent command | confirmed command => some command

/-- An event keeps the order that it is about, at the level that it acknowledges. -/
theorem exists_of_order?_hear {record : Record} {event : Event} {command : Command}
    (h : (record.hear event).order? = some command) :
    ∃ before, record.order? = some before ∧
      command =
        { before with
          price := (if event.kind = .ack then some event.level else none).getD before.price } := by
  unfold hear at h
  cases hkind : event.kind with
  | ack =>
    rw [hkind] at h
    cases record with
    | absent => cases h
    | sent before | confirmed before => exact ⟨before, rfl, (Option.some.inj h).symm⟩
  | alert | fill =>
    rw [hkind] at h
    cases record with
    | absent => cases h
    | sent before | confirmed before => exact ⟨before, rfl, (Option.some.inj h).symm⟩
  | cancelled =>
    rw [hkind] at h
    cases h
  | rejected =>
    rw [hkind] at h
    cases record with
    | absent | sent => cases h
    | confirmed before => exact ⟨before, rfl, (Option.some.inj h).symm⟩

end Record

namespace Ledger

variable {ledger start : Ledger} {oid : String} {record : Record}

/-! ## Runs -/

/-- What happens to a ledger. -/
inductive Happening where
  | call (errand : Errand)
  /-- A command is taken from the queue. -/
  | read
  /-- Nobody takes commands from the queue any more. -/
  | close
  | hear (event : Event)
  deriving DecidableEq, Repr

/-- The ledger after something happened. -/
def after (ledger : Ledger) : Happening → Ledger
  | .call errand => (ledger.perform errand).ledger
  | .read =>
    match ledger.queue.receive? with
    | some (_, queue) => { ledger with queue }
    | none => ledger
  | .close => { ledger with queue := ledger.queue.closeReceiving }
  | .hear event => ledger.observe event

/-- The ledger after some things happened, in order. -/
def run (ledger : Ledger) (happenings : List Happening) : Ledger := happenings.foldl after ledger

/-- A happening more happens after the others. -/
theorem run_concat (ledger : Ledger) (happenings : List Happening) (happening : Happening) :
    ledger.run (happenings ++ [happening]) = (ledger.run happenings).after happening :=
  List.foldl_concat ..

/-! ## Records along a run -/

/-- A ledger has one record about an id. -/
theorem Has.unique {other : Record} (h : ledger.Has oid record) (hother : ledger.Has oid other) :
    record = other := by
  have hsent := h.sent.symm.trans hother.sent
  have hconfirmed := h.confirmed.symm.trans hother.confirmed
  cases record <;> cases other <;> simp_all [Record.sent?, Record.confirmed?]

/-- The order that a happening puts into a ledger: a call asks for it, and the ledger takes it. -/
inductive Places (ledger : Ledger) : Happening → Command → Prop where
  | call {errand : Errand} {order : Command} : ledger.Asks errand order → ledger.Takes order →
      order.kind.places = true → Places ledger (.call errand) order

/-- A call sends the command that it asks for, or changes nothing. -/
theorem after_call (ledger : Ledger) (errand : Errand) :
    (∃ command, ledger.Asks errand command ∧ ledger.Takes command ∧
        ledger.after (.call errand) = ledger.sending command) ∨
      ledger.after (.call errand) = ledger := by
  rw [after]
  cases carried_perform ledger errand with
  | submitted command hasks _ houtcome =>
    rw [houtcome]
    rcases trySubmit_cases ledger command with ⟨htakes, hsent⟩ | ⟨_, refusal, hrefused⟩
    · exact .inl ⟨command, hasks, htakes, congrArg Outcome.ledger hsent⟩
    · exact .inr (congrArg Outcome.ledger hrefused)
  | refused refusal _ houtcome => exact .inr (congrArg Outcome.ledger houtcome)

/-- A call that a ledger takes goes well, and the ledger is sending the command. -/
theorem submit_of_takes {command : Command} (h : ledger.Takes command) :
    ledger.submit command = .ok (ledger.sending command) := by
  rcases trySubmit_cases ledger command with ⟨_, hsent⟩ | ⟨hrefuses, _⟩
  · rw [submit, hsent]
    rfl
  · exact absurd h hrefuses

/-- The ledger after an event, before the orders that are too many are forgotten. -/
def heard (ledger : Ledger) (event : Event) : Ledger :=
  { { ledger with retention := 0 }.observe event with retention := ledger.retention }

/-- An event changes the record of its order only. -/
theorem Has.heard (h : ledger.Has oid record) (event : Event) :
    (ledger.heard event).Has oid (if event.oid = oid then record.hear event else record) := by
  have hkeeping : { ledger with retention := 0 }.Has oid record := ⟨h.sent, h.confirmed⟩
  obtain ⟨hsent, hconfirmed⟩ := hkeeping.observe rfl event
  exact ⟨hsent, hconfirmed⟩

/-! ## Tidy ledgers -/

/-- An order that is sent is not confirmed, and the history lists the confirmed orders, of which
there are not too many. -/
structure IsTidy (ledger : Ledger) : Prop where
  apart : ∀ oid, ∃ record, ledger.Has oid record
  keys : ledger.confirmed.keys = ledger.history
  nodup : ledger.history.Nodup
  bounded : ledger.retention ≠ 0 → ledger.confirmed.size ≤ ledger.retention

/-- A new ledger is tidy. -/
theorem IsTidy.new (capacity retention : Nat) : (new capacity retention).IsTidy where
  apart _ := ⟨.absent, rfl, rfl⟩
  keys := rfl
  nodup := List.nodup_nil
  bounded _ := Nat.zero_le _

/-- Whether an event confirms an order: it says that one is live that was only sent. -/
def confirms (ledger : Ledger) (event : Event) : Bool :=
  match event.kind with
  | .ack | .alert | .fill => ledger.sent.contains event.oid
  | .cancelled | .rejected => false

/-- The ids that the history would list after an event if nothing were forgotten. -/
def grown (ledger : Ledger) (event : Event) : List String :=
  if ledger.confirms event then ledger.history ++ [event.oid]
  else if event.kind = .cancelled then ledger.history.filter (· ≠ event.oid)
  else ledger.history

/-- To confirm an order puts it at the end of the history and of the table alike. -/
theorem IsTidy.confirmSent (h : ledger.IsTidy) (oid : String) :
    (ledger.confirmSent oid).history =
        (if ledger.sent.contains oid then ledger.history ++ [oid] else ledger.history) ∧
      (ledger.confirmSent oid).confirmed.keys = (ledger.confirmSent oid).history := by
  unfold Ledger.confirmSent Table.contains
  cases hsent : ledger.sent.get? oid with
  | none => exact ⟨rfl, h.keys⟩
  | some command =>
    have hnew : ledger.confirmed.contains oid = false := by
      obtain ⟨record, hrecord⟩ := h.apart oid
      have hfound := hrecord.sent.symm.trans hsent
      cases record with
      | absent | confirmed => cases hfound
      | sent => rw [Table.contains, hrecord.confirmed]; rfl
    refine ⟨rfl, ?_⟩
    show Table.keys _ = _
    rw [Table.keys, Table.entries_set_of_not_contains hnew, List.map_append]
    exact congrArg (· ++ [oid]) h.keys

/-- Confirming a sent order does the same whatever the retention is. -/
theorem confirmSent_of_retention (ledger : Ledger) (oid : String) :
    { ledger with retention := 0 }.confirmSent oid =
      { ledger.confirmSent oid with retention := 0 } := by
  unfold confirmSent
  dsimp only
  split <;> rfl

/-- To keep everything makes no difference to a confirmation before the ledger is trimmed. -/
theorem confirm_keeping (ledger : Ledger) (oid : String) (level : Option Float) :
    { { ledger with retention := 0 }.confirm oid level with retention := ledger.retention } =
      match (ledger.confirmSent oid).confirmed.get? oid, level with
      | some command, some level => (ledger.confirmSent oid).setLevel oid command level
      | some _, none | none, _ => ledger.confirmSent oid := by
  rw [confirm_of_retention rfl, confirmSent_of_retention]
  dsimp only
  rw [← (queue_confirmSent ledger oid).2]
  cases (ledger.confirmSent oid).confirmed.get? oid with
  | none => rfl
  | some command => cases level <;> rfl

/-- Before anything is forgotten, confirming an order adds its id to the history unless it is
confirmed already. -/
theorem IsTidy.confirm_keeping (h : ledger.IsTidy) (oid : String) (level : Option Float) :
    ({ ledger with retention := 0 }.confirm oid level).history =
        (if ledger.sent.contains oid then ledger.history ++ [oid] else ledger.history) ∧
      ({ ledger with retention := 0 }.confirm oid level).confirmed.keys =
        ({ ledger with retention := 0 }.confirm oid level).history := by
  obtain ⟨hhistory, hkeys⟩ := h.confirmSent oid
  rw [confirm_of_retention rfl, confirmSent_of_retention]
  split
  · next command level hfound =>
    refine ⟨hhistory, Eq.trans ?_ hkeys⟩
    exact Table.keys_set_of_contains (by rw [Table.contains, hfound]; rfl) _
  · exact ⟨hhistory, hkeys⟩
  · exact ⟨hhistory, hkeys⟩

/-- The history lists the confirmed orders also before some are forgotten. -/
theorem IsTidy.heard (h : ledger.IsTidy) (event : Event) :
    (ledger.heard event).history = ledger.grown event ∧
      (ledger.heard event).confirmed.keys = (ledger.heard event).history := by
  unfold Ledger.heard Ledger.observe grown confirms
  cases event.kind with
  | ack | alert | fill => exact h.confirm_keeping event.oid _
  | cancelled => exact ⟨rfl, (Table.keys_erase _ _).trans (congrArg _ h.keys)⟩
  | rejected => exact ⟨rfl, h.keys⟩

/-- The history does not list an order that is only sent. -/
theorem IsTidy.not_mem_of_sent (h : ledger.IsTidy) (hsent : ledger.sent.contains oid = true) :
    oid ∉ ledger.history := by
  intro hmem
  rw [← h.keys, Table.mem_keys] at hmem
  obtain ⟨record, hrecord⟩ := h.apart oid
  rw [Table.contains, hrecord.sent] at hsent
  rw [Table.contains, hrecord.confirmed] at hmem
  cases record with
  | absent | sent => cases hmem
  | confirmed => cases hsent

/-- The order that an event confirms was sent. -/
theorem sent_of_confirms {event : Event} (h : ledger.confirms event = true) :
    ledger.sent.contains event.oid = true := by
  unfold confirms at h
  split at h
  · exact h
  · exact h
  · exact h
  · cases h
  · cases h

/-- The history that an event would make lists no id twice. -/
theorem IsTidy.nodup_grown (h : ledger.IsTidy) (event : Event) : (ledger.grown event).Nodup := by
  unfold grown
  split
  · next hconfirms =>
    have hnew := h.not_mem_of_sent (sent_of_confirms hconfirms)
    exact List.nodup_append_comm.2 (List.nodup_cons.2 ⟨hnew, h.nodup⟩)
  · split
    · exact h.nodup.filter _
    · exact h.nodup

/-! ## Forgetting -/

/-- Orders are forgotten from the front of the table as from the front of the history, until so
many are left. -/
theorem forgetFirst_eq (retention : Nat) {history : List String}
    {confirmed : Table String Command} (hkeys : confirmed.keys = history)
    (hnodup : history.Nodup) :
    forgetFirst retention history confirmed =
      (history.drop (confirmed.size - retention),
        ⟨confirmed.entries.drop (confirmed.size - retention)⟩) := by
  obtain ⟨entries⟩ := confirmed
  unfold Table.size
  induction entries generalizing history with
  | nil =>
    cases hkeys
    simp [forgetFirst, Table.keys]
  | cons entry rest ih =>
    cases hkeys
    obtain ⟨hnew, hrest⟩ := List.nodup_cons.1 hnodup
    show forgetFirst retention (entry.1 :: rest.map (·.1)) _ = _
    rw [forgetFirst]
    split
    · next hmany =>
      have hmany : retention < rest.length + 1 := hmany
      have herase : (⟨entry :: rest⟩ : Table String Command).erase entry.1 = ⟨rest⟩ := by
        refine congrArg Table.mk ?_
        rw [List.filter_cons_of_neg (by simp), List.filter_eq_self]
        intro other hother
        exact decide_eq_true fun heq => hnew (List.mem_map.2 ⟨other, hother, heq⟩)
      have hcount : (entry :: rest).length - retention = (rest.length - retention) + 1 := by
        rw [List.length_cons]
        omega
      rw [herase, ih hrest rfl, hcount]
      rfl
    · next hfew =>
      have hcount : (entry :: rest).length - retention = 0 :=
        Nat.sub_eq_zero_of_le (Nat.le_of_not_lt hfew)
      rw [hcount]
      rfl

/-- How many orders a ledger forgets. -/
def excess (ledger : Ledger) : Nat :=
  if ledger.retention = 0 then 0 else ledger.confirmed.size - ledger.retention

/-- A ledger that lists its orders is trimmed by what is too much at the front. -/
theorem trim_eq (hkeys : ledger.confirmed.keys = ledger.history)
    (hnodup : ledger.history.Nodup) :
    ledger.trim =
      { ledger with
        history := ledger.history.drop ledger.excess
        confirmed := ⟨ledger.confirmed.entries.drop ledger.excess⟩ } := by
  unfold trim excess
  split
  · rfl
  · rw [forgetFirst_eq _ hkeys hnodup]

/-- A ledger that has not too many orders forgets none. -/
theorem trim_of_excess (hkeys : ledger.confirmed.keys = ledger.history)
    (hnodup : ledger.history.Nodup) (h : ledger.excess = 0) : ledger.trim = ledger := by
  rw [trim_eq hkeys hnodup, h]
  rfl

/-- There are as many confirmed orders as the history lists. -/
theorem size_of_keys {history : List String} (hkeys : ledger.confirmed.keys = history) :
    ledger.confirmed.size = history.length := by
  rw [← hkeys, Table.keys, List.length_map, Table.size]

/-- Only an event that confirms an order makes a tidy ledger too large, and then by that order. -/
theorem IsTidy.excess_heard (h : ledger.IsTidy) (event : Event) :
    (ledger.heard event).excess =
      if ledger.confirms event ∧ ledger.retention ≠ 0 then
        ledger.history.length + 1 - ledger.retention
      else 0 := by
  obtain ⟨hgrown, hkeys⟩ := h.heard event
  have hbound : ledger.retention ≠ 0 → ledger.history.length ≤ ledger.retention :=
    fun hne => size_of_keys h.keys ▸ h.bounded hne
  show (if ledger.retention = 0 then 0 else _ - ledger.retention) = _
  rw [size_of_keys hkeys, hgrown, grown]
  have hfilter := List.length_filter_le (· ≠ event.oid) ledger.history
  split_ifs <;> simp_all
  omega

/-- A tidy ledger has nothing to forget. -/
theorem IsTidy.trim (h : ledger.IsTidy) : ledger.trim = ledger := by
  refine trim_of_excess h.keys h.nodup ?_
  unfold excess
  split
  · rfl
  · next hne => exact Nat.sub_eq_zero_of_le (h.bounded hne)

/-- Confirming an order is doing so without forgetting, and then forgetting what is too much. -/
theorem IsTidy.confirm_eq (h : ledger.IsTidy) (oid : String) (level : Option Float) :
    ledger.confirm oid level =
      Ledger.trim { { ledger with retention := 0 }.confirm oid level with
        retention := ledger.retention } := by
  rw [Ledger.confirm_keeping]
  unfold Ledger.confirm
  dsimp only
  cases hfound : (ledger.confirmSent oid).confirmed.get? oid with
  | some command => cases level <;> rfl
  | none =>
    -- What is not confirmed now was not sent, so there is nothing new to trim.
    have hsame : ledger.confirmSent oid = ledger := by
      unfold Ledger.confirmSent at hfound ⊢
      split
      · rfl
      · next command hsent =>
        rw [hsent] at hfound
        cases (Table.get?_set_self _ _ _).symm.trans hfound
    rw [hsame]
    exact h.trim.symm

/-- An event is heard, and then a tidy ledger is trimmed. -/
theorem IsTidy.observe_eq (h : ledger.IsTidy) (event : Event) :
    ledger.observe event = (ledger.heard event).trim := by
  obtain ⟨hgrown, hkeys⟩ := h.heard event
  have hnodup : (ledger.heard event).history.Nodup := hgrown ▸ h.nodup_grown event
  have huntrimmed : ledger.confirms event = false →
      (ledger.heard event).trim = ledger.heard event := by
    intro hconfirms
    refine trim_of_excess hkeys hnodup ?_
    rw [h.excess_heard, if_neg (by simp [hconfirms])]
  unfold confirms Ledger.heard Ledger.observe at *
  cases hkind : event.kind with
  | ack | alert | fill => exact h.confirm_eq event.oid _
  | cancelled | rejected =>
    rw [hkind] at huntrimmed
    exact (huntrimmed rfl).symm

/-- What a ledger forgets when it hears an event: the orders that were confirmed first, as many as
there are too many, and never the one that the event is about. -/
structure Forgets (ledger : Ledger) (event : Event) (forgotten : List String) : Prop where
  oldest : (ledger.heard event).history = forgotten ++ (ledger.observe event).history
  confirmed : ∀ oid, (ledger.observe event).confirmed.get? oid =
    if oid ∈ forgotten then none else (ledger.heard event).confirmed.get? oid
  excess : forgotten.length =
    if ledger.retention = 0 then 0 else (ledger.heard event).confirmed.size - ledger.retention
  spared : event.oid ∉ forgotten

/-- A table that loses its front loses the orders that its keys begin with. -/
theorem get?_drop {table : Table String Command} (h : table.keys.Nodup) (count : Nat)
    (oid : String) :
    (⟨table.entries.drop count⟩ : Table String Command).get? oid =
      if oid ∈ table.keys.take count then none else table.get? oid := by
  rw [← Table.get?_eraseAll]
  congr 1
  refine congrArg Table.mk (Eq.trans ?_ (Table.entries_eraseAll _ _).symm)
  have hsplit := List.take_append_drop count table.entries
  have hparts : ((table.entries.take count ++ table.entries.drop count).map (·.1)).Nodup := by
    rw [hsplit]
    exact h
  rw [List.map_append, List.nodup_append] at hparts
  conv_rhs => rw [← hsplit, List.filter_append]
  rw [List.filter_eq_nil_iff.2, List.nil_append, List.filter_eq_self.2]
  · intro entry hentry
    refine decide_eq_true fun hmem => ?_
    rw [Table.keys, ← List.map_take] at hmem
    exact hparts.2.2 _ hmem _ (List.mem_map_of_mem hentry) rfl
  · intro entry hentry
    rw [Table.keys, ← List.map_take]
    simpa using List.mem_map_of_mem (f := (·.1)) hentry

/-- An event makes a tidy ledger forget the orders that were confirmed first, as many as are too
many. -/
theorem IsTidy.forgets (h : ledger.IsTidy) (event : Event) :
    ledger.Forgets event ((ledger.heard event).history.take (ledger.heard event).excess) := by
  obtain ⟨hgrown, hkeys⟩ := h.heard event
  have hnodup : (ledger.heard event).history.Nodup := hgrown ▸ h.nodup_grown event
  have hobserve := (h.observe_eq event).trans (trim_eq hkeys hnodup)
  refine ⟨?_, fun oid => ?_, ?_, fun hmem => ?_⟩
  · rw [hobserve]
    exact (List.take_append_drop _ _).symm
  · rw [hobserve, ← hkeys]
    exact get?_drop (hkeys ▸ hnodup) _ _
  · have hle : (ledger.heard event).excess ≤ (ledger.heard event).history.length := by
      rw [← size_of_keys hkeys]
      unfold excess
      split <;> omega
    rw [List.length_take, Nat.min_eq_left hle]
    rfl
  · rw [h.excess_heard, hgrown, grown] at hmem
    split at hmem
    · next hmany =>
      -- There is at least one other order, so the new one at the end stays.
      rw [if_pos hmany.1, List.take_append_of_le_length (by omega)] at hmem
      exact h.not_mem_of_sent (sent_of_confirms hmany.1) (List.mem_of_mem_take hmem)
    · simp at hmem

/-! ## Tidiness along a run -/

/-- A ledger that sends a command that it takes stays tidy. -/
theorem IsTidy.sending (h : ledger.IsTidy) {command : Command} (htakes : ledger.Takes command) :
    (ledger.sending command).IsTidy := by
  refine { h with apart := fun oid => ?_ }
  obtain ⟨record, hrecord⟩ := h.apart oid
  have hsubmit := hrecord.submit (submit_of_takes htakes)
  split at hsubmit
  · exact ⟨_, hsubmit.2⟩
  · exact ⟨_, hsubmit⟩

/-- An event leaves the record of an id as it is heard, or forgets the order. -/
theorem Has.observed (h : ledger.Has oid record) (htidy : ledger.IsTidy) (event : Event) :
    (ledger.observe event).Has oid (if event.oid = oid then record.hear event else record) ∨
      (ledger.observe event).Has oid .absent := by
  have hforgets := htidy.forgets event
  have hheard := h.heard event
  have hsent : (ledger.observe event).sent.get? oid = (ledger.heard event).sent.get? oid :=
    (sent_observe ledger event oid).trans
      (sent_observe { ledger with retention := 0 } event oid).symm
  have hconfirmed := hforgets.confirmed oid
  split at hconfirmed
  · cases hrecord : if event.oid = oid then record.hear event else record with
    | absent =>
      rw [hrecord] at hheard
      exact .inr ⟨hsent.trans hheard.sent, hconfirmed⟩
    | sent command =>
      rw [hrecord] at hheard
      exact .inl ⟨hsent.trans hheard.sent, hconfirmed⟩
    | confirmed command =>
      rw [hrecord] at hheard
      exact .inr ⟨hsent.trans hheard.sent, hconfirmed⟩
  · exact .inl ⟨hsent.trans hheard.sent, hconfirmed.trans hheard.confirmed⟩

/-- A ledger that hears an event stays tidy. -/
theorem IsTidy.observe (h : ledger.IsTidy) (event : Event) : (ledger.observe event).IsTidy := by
  obtain ⟨hgrown, hkeys⟩ := h.heard event
  have hnodup : (ledger.heard event).history.Nodup := hgrown ▸ h.nodup_grown event
  have hobserve := (h.observe_eq event).trans (trim_eq hkeys hnodup)
  refine ⟨fun oid => ?_, ?_, ?_, fun hne => ?_⟩
  · obtain ⟨record, hrecord⟩ := h.apart oid
    rcases hrecord.observed h event with hhas | hhas
    · exact ⟨_, hhas⟩
    · exact ⟨_, hhas⟩
  · rw [hobserve]
    show List.map _ (List.drop _ _) = List.drop _ _
    rw [List.map_drop, ← hkeys]
    rfl
  · rw [hobserve]
    exact hnodup.sublist (List.drop_sublist _ _)
  · rw [hobserve] at hne ⊢
    show (List.drop _ _).length ≤ (ledger.heard event).retention
    rw [List.length_drop, excess, if_neg hne]
    have hsize : (ledger.heard event).confirmed.size =
      (ledger.heard event).confirmed.entries.length := rfl
    omega

/-- What happens at the queue is not seen in the records. -/
theorem after_queue (ledger : Ledger) :
    (∃ queue, ledger.after .read = { ledger with queue }) ∧
      ∃ queue, ledger.after .close = { ledger with queue } := by
  refine ⟨?_, _, rfl⟩
  unfold after
  dsimp only
  split
  · exact ⟨_, rfl⟩
  · exact ⟨ledger.queue, rfl⟩

/-- Whatever happens, a tidy ledger stays tidy. -/
theorem IsTidy.after (h : ledger.IsTidy) (happening : Happening) :
    (ledger.after happening).IsTidy := by
  cases happening with
  | call errand =>
    rcases after_call ledger errand with ⟨command, _, htakes, hsent⟩ | hsame
    · exact hsent ▸ h.sending htakes
    · exact hsame.symm ▸ h
  | read =>
    obtain ⟨queue, hread⟩ := (after_queue ledger).1
    rw [hread]
    exact { h with apart := fun oid => (h.apart oid).imp fun _ hhas => ⟨hhas.sent, hhas.confirmed⟩ }
  | close =>
    exact { h with apart := fun oid => (h.apart oid).imp fun _ hhas => ⟨hhas.sent, hhas.confirmed⟩ }
  | hear event => exact h.observe event

/-- A tidy ledger is tidy after a run. -/
theorem isTidy_run (h : start.IsTidy) (happenings : List Happening) :
    (start.run happenings).IsTidy := by
  induction happenings using List.reverseRecOn with
  | nil => exact h
  | append_singleton happenings happening ih =>
    rw [run_concat]
    exact ih.after happening

/-! ## The order of confirmation -/

/-- The id of the order that a happening confirms. -/
def confirmed? (ledger : Ledger) : Happening → Option String
  | .hear event => if ledger.confirms event then some event.oid else none
  | .call _ | .read | .close => none

/-- The ids of the orders that are confirmed along a run, one after the other. -/
def confirmations (ledger : Ledger) : List Happening → List String
  | [] => []
  | happening :: rest =>
    (ledger.confirmed? happening).toList ++ (ledger.after happening).confirmations rest

/-- The confirmations of two runs in a row are those of the first and then those of the second. -/
theorem confirmations_append (ledger : Ledger) (first second : List Happening) :
    ledger.confirmations (first ++ second) =
      ledger.confirmations first ++ (ledger.run first).confirmations second := by
  induction first generalizing ledger with
  | nil => rfl
  | cons happening rest ih =>
    rw [List.cons_append, confirmations, ih, confirmations, List.append_assoc]
    rfl

/-- Each entry stands where it comes last. -/
theorem dedup_concat (ids : List String) (oid : String) :
    (ids ++ [oid]).dedup = ids.dedup.filter (· ≠ oid) ++ [oid] := by
  induction ids with
  | nil => rfl
  | cons first rest ih =>
    rw [List.cons_append, List.dedup_cons, List.dedup_cons, ih]
    by_cases hrest : first ∈ rest
    · rw [if_pos (List.mem_append_left _ hrest), if_pos hrest]
    · rw [if_neg hrest]
      by_cases hoid : first = oid
      · rw [if_pos (by simp [hoid]), hoid, List.filter_cons_of_neg (by simp)]
      · rw [if_neg (by simp [hrest, hoid]), List.filter_cons_of_pos (by simpa using hoid)]
        rfl

/-- The history grows by the order that is confirmed, and otherwise only loses orders. -/
theorem history_after (h : ledger.IsTidy) (happening : Happening) :
    (ledger.after happening).history.Sublist
      (ledger.history ++ (ledger.confirmed? happening).toList) := by
  cases happening with
  | call errand =>
    rw [confirmed?, Option.toList_none, List.append_nil]
    rcases after_call ledger errand with ⟨command, _, _, hsent⟩ | hsame
    · exact hsent ▸ List.Sublist.refl _
    · exact hsame.symm ▸ List.Sublist.refl _
  | read =>
    obtain ⟨queue, hread⟩ := (after_queue ledger).1
    rw [hread, confirmed?, Option.toList_none, List.append_nil]
  | close =>
    rw [confirmed?, Option.toList_none, List.append_nil]
    exact List.Sublist.refl _
  | hear event =>
    have hlost : (ledger.after (.hear event)).history.Sublist (ledger.grown event) := by
      rw [← (h.heard event).1, (h.forgets event).oldest]
      exact List.sublist_append_right _ _
    refine hlost.trans ?_
    unfold grown confirmed?
    dsimp only
    split
    · exact List.Sublist.refl _
    · rw [Option.toList_none, List.append_nil]
      split
      · exact List.filter_sublist
      · exact List.Sublist.refl _

/-- An order that a happening confirms was not in the history. -/
theorem not_mem_of_confirmed? (h : ledger.IsTidy) {happening : Happening}
    (hconfirmed : ledger.confirmed? happening = some oid) : oid ∉ ledger.history := by
  cases happening with
  | call | read | close => cases hconfirmed
  | hear event =>
    unfold confirmed? at hconfirmed
    dsimp only at hconfirmed
    split at hconfirmed
    · next hconfirms =>
      cases hconfirmed
      exact h.not_mem_of_sent (sent_of_confirms hconfirms)
    · cases hconfirmed

/-- The history has its orders in the order of their last confirmation. -/
theorem history_sublist (h : start.IsTidy) (hempty : start.history = [])
    (happenings : List Happening) :
    (start.run happenings).history.Sublist (start.confirmations happenings).dedup := by
  induction happenings using List.reverseRecOn with
  | nil => exact hempty ▸ List.nil_sublist _
  | append_singleton happenings happening ih =>
    have htidy := isTidy_run h happenings
    have hgrows := history_after htidy happening
    rw [run_concat, confirmations_append, confirmations, confirmations, List.append_nil]
    cases hconfirmed : (start.run happenings).confirmed? happening with
    | none =>
      rw [hconfirmed, Option.toList_none, List.append_nil] at hgrows
      rw [Option.toList_none, List.append_nil]
      exact hgrows.trans ih
    | some oid =>
      rw [hconfirmed] at hgrows
      have hnew := not_mem_of_confirmed? htidy hconfirmed
      have hkept := List.filter_eq_self.2 fun other hother =>
        decide_eq_true (p := other ≠ oid) fun heq => hnew (heq ▸ hother)
      rw [Option.toList_some, dedup_concat]
      refine hgrows.trans (List.Sublist.append_right ?_ _)
      rw [← hkept]
      exact ih.filter _

/-- A list without the entries of another one, in the order of that one, is found in it. -/
theorem eq_filter_of_sublist {ids all : List String} (hsub : ids.Sublist all) (hall : all.Nodup) :
    ids = all.filter (· ∈ ids) := by
  have hself : ids.filter (· ∈ ids) = ids := List.filter_eq_self.2 fun _ h => decide_eq_true h
  have hfilter := hsub.filter (· ∈ ids)
  rw [hself] at hfilter
  refine hfilter.eq_of_length_le ?_
  refine (List.subperm_of_subset (hall.filter _) fun oid hmem => ?_).length_le
  simpa using (List.mem_filter.1 hmem).2

/-! ## Where an order comes from -/

/-- The level at which a happening acknowledges an order. -/
def Happening.level? (oid : String) : Happening → Option Float
  | .hear event => if event.kind = .ack ∧ event.oid = oid then some event.level else none
  | .call _ | .read | .close => none

/-- The level of the last acknowledgement of an order. -/
def lastLevel? (oid : String) (happenings : List Happening) : Option Float :=
  (happenings.filterMap (·.level? oid)).getLast?

/-- What an order under an id is that stems from the call that placed it: no other call placed one
under the id since then, and the order is as it was asked for, at the level of its last
acknowledgement if there is one. -/
inductive Stems (start : Ledger) (oid : String) : List Happening → Command → Prop where
  | placed {earlier later : List Happening} {call : Happening} {order : Command} :
      (start.run earlier).Places call order → order.oid = oid →
      (∀ middle other rest again, later = middle ++ other :: rest →
        (start.run (earlier ++ call :: middle)).Places other again → again.oid ≠ oid) →
      Stems start oid (earlier ++ call :: later)
        { order with price := (lastLevel? oid later).getD order.price }

/-- The level of one happening more counts if it has one, or else the last level before it. -/
theorem lastLevel?_concat (oid : String) (happenings : List Happening) (happening : Happening) :
    lastLevel? oid (happenings ++ [happening]) =
      (happening.level? oid).or (lastLevel? oid happenings) := by
  rw [lastLevel?, List.filterMap_append, List.filterMap_cons, List.filterMap_nil,
    List.getLast?_append]
  cases happening.level? oid <;> rfl

/-- One thing more that happens to an order keeps it, at the level that it is given, if nothing is
placed under its id. -/
theorem Stems.concat {happenings : List Happening} {command : Command}
    (h : Stems start oid happenings command) {happening : Happening}
    (hkept : ∀ order, (start.run happenings).Places happening order → order.oid ≠ oid) :
    Stems start oid (happenings ++ [happening])
      { command with price := (happening.level? oid).getD command.price } := by
  cases h with
  | @placed earlier later call order hplaces hoid hlast =>
    have hlevel : (happening.level? oid).getD ((lastLevel? oid later).getD order.price) =
        (lastLevel? oid (later ++ [happening])).getD order.price := by
      rw [lastLevel?_concat]
      cases happening.level? oid <;> rfl
    dsimp only
    rw [hlevel, List.append_assoc, List.cons_append]
    refine .placed hplaces hoid fun middle other rest again hlater hagain => ?_
    rcases List.eq_nil_or_concat rest with rfl | ⟨before, last, rfl⟩
    · -- The last of all is the new one.
      obtain ⟨rfl, hsame⟩ := List.append_inj' hlater rfl
      cases hsame
      exact hkept again hagain
    · have hbefore : later = middle ++ other :: before := by
        have hlater : later ++ [happening] = (middle ++ other :: before) ++ [last] := by
          simpa using hlater
        exact (List.append_inj' hlater rfl).1
      exact hlast middle other before again hbefore hagain

/-- Nothing is placed under an id that is known. -/
theorem Has.oid_ne_of_places (h : ledger.Has oid record) (hknown : record ≠ .absent)
    {happening : Happening} {order : Command} (hplaces : ledger.Places happening order) :
    order.oid ≠ oid := by
  rintro rfl
  obtain ⟨_, htakes, hkind⟩ := hplaces
  obtain ⟨hsent, hconfirmed⟩ := htakes.fresh hkind
  cases record with
  | absent => exact hknown rfl
  | sent => cases hsent.symm.trans h.sent
  | confirmed => cases hconfirmed.symm.trans h.confirmed

/-- The order of an id after something happened is the one from before, at the level that it is
given, or it is the one that was placed then. -/
theorem order?_after (htidy : ledger.IsTidy) {happening : Happening} {now : Record}
    {command : Command} (hnow : (ledger.after happening).Has oid now)
    (hcommand : now.order? = some command) :
    (ledger.Places happening command ∧ command.oid = oid) ∨
      ∃ record before, ledger.Has oid record ∧ record.order? = some before ∧
        command = { before with price := (happening.level? oid).getD before.price } := by
  obtain ⟨record, hrecord⟩ := htidy.apart oid
  have hsame : ∀ {next : Ledger}, next.Has oid record → next.Has oid now →
      ∃ record before, ledger.Has oid record ∧ record.order? = some before ∧ command = before :=
    fun hkept hnow => ⟨record, command, hrecord, hkept.unique hnow ▸ hcommand, rfl⟩
  cases happening with
  | call errand =>
    rcases after_call ledger errand with ⟨sent, hasks, htakes, hsent⟩ | hkept
    · have hsubmit := hrecord.submit (submit_of_takes htakes)
      rw [hsent] at hnow
      split at hsubmit
      · next hplaced =>
        cases hsubmit.2.unique hnow
        cases hcommand
        exact .inl ⟨.call hasks htakes hplaced.1, hplaced.2⟩
      · exact .inr (hsame hsubmit hnow)
    · exact .inr (hsame hrecord (hkept ▸ hnow))
  | read =>
    obtain ⟨queue, hread⟩ := (after_queue ledger).1
    rw [hread] at hnow
    exact .inr (hsame hrecord ⟨hnow.sent, hnow.confirmed⟩)
  | close => exact .inr (hsame hrecord ⟨hnow.sent, hnow.confirmed⟩)
  | hear event =>
    rcases hrecord.observed htidy event with hheard | hforgotten
    · by_cases hoid : event.oid = oid
      · rw [if_pos hoid] at hheard
        obtain ⟨before, hbefore, heq⟩ :=
          Record.exists_of_order?_hear (hheard.unique hnow ▸ hcommand)
        exact .inr ⟨record, before, hrecord, hbefore, by simpa [Happening.level?, hoid] using heq⟩
      · rw [if_neg hoid] at hheard
        refine .inr ⟨record, command, hrecord, hheard.unique hnow ▸ hcommand, ?_⟩
        simp [Happening.level?, hoid]
    -- An order that was forgotten has no record, so it is not the one in question.
    · cases hforgotten.unique hnow
      cases hcommand

/-- Every order that is known stems from the last call that placed one under its id. -/
theorem stems_run (h : start.IsTidy) (hempty : ∀ oid, start.Has oid .absent)
    {happenings : List Happening} {command : Command}
    (hrecord : (start.run happenings).Has oid record) (hcommand : record.order? = some command) :
    Stems start oid happenings command := by
  induction happenings using List.reverseRecOn generalizing record command with
  | nil =>
    cases (hempty oid).unique hrecord
    cases hcommand
  | append_singleton happenings happening ih =>
    rw [run_concat] at hrecord
    rcases order?_after (isTidy_run h happenings) hrecord hcommand with
      ⟨hplaces, hoid⟩ | ⟨record, before, hbefore, horder, rfl⟩
    · have hlast : ∀ (middle : List Happening) (other : Happening) (rest : List Happening),
          [] ≠ middle ++ other :: rest := fun middle other rest => by
        cases middle <;> exact nofun
      exact .placed hplaces hoid fun middle other rest again hnone =>
        absurd hnone (hlast middle other rest)
    · have hknown : record ≠ .absent := by
        rintro rfl
        cases horder
      exact (ih hbefore horder).concat fun order => hbefore.oid_ne_of_places hknown

/-- What a ledger that has come through a run keeps track of. -/
structure Tracks (start : Ledger) (happenings : List Happening) : Prop where
  /-- No order is both sent and confirmed. -/
  apart : ∀ oid, (start.run happenings).sent.get? oid = none ∨
    (start.run happenings).confirmed.get? oid = none
  /-- The history lists the confirmed orders. -/
  keys : (start.run happenings).confirmed.keys = (start.run happenings).history
  nodup : (start.run happenings).history.Nodup
  /-- It has them in the order in which they were confirmed. -/
  ordered : (start.run happenings).history =
    (start.confirmations happenings).dedup.filter fun oid =>
      (start.run happenings).confirmed.contains oid
  bounded : start.retention ≠ 0 → (start.run happenings).confirmed.size ≤ start.retention
  forgets : ∀ event, ∃ forgotten, (start.run happenings).Forgets event forgotten
  stems : ∀ oid command, (start.run happenings).confirmed.get? oid = some command →
    Stems start oid happenings command

/-- Nothing that happens changes how many orders are retained. -/
theorem retention_after (ledger : Ledger) (happening : Happening) :
    (ledger.after happening).retention = ledger.retention := by
  cases happening with
  | call errand =>
    rcases after_call ledger errand with ⟨command, _, _, hsent⟩ | hsame
    · rw [hsent]
      rfl
    · rw [hsame]
  | read =>
    obtain ⟨queue, hread⟩ := (after_queue ledger).1
    rw [hread]
  | close => rfl
  | hear event => exact (queue_observe ledger event).2

/-- No run changes how many orders are retained. -/
theorem retention_run (ledger : Ledger) (happenings : List Happening) :
    (ledger.run happenings).retention = ledger.retention := by
  induction happenings using List.reverseRecOn with
  | nil => rfl
  | append_singleton happenings happening ih => rw [run_concat, retention_after, ih]

/-- A ledger that begins empty keeps track of its orders through any calls, events and whatever
happens to its queue. -/
theorem tracks_along (capacity retention : Nat) (happenings : List Happening) :
    Tracks (new capacity retention) happenings := by
  have htidy := isTidy_run (.new capacity retention) happenings
  have hsublist := history_sublist (.new capacity retention) rfl happenings
  refine ⟨fun oid => ?_, htidy.keys, htidy.nodup, ?_, fun hne => ?_, fun event =>
    ⟨_, htidy.forgets event⟩, fun oid command hcommand => ?_⟩
  · obtain ⟨record, hrecord⟩ := htidy.apart oid
    cases record with
    | absent | sent => exact .inr hrecord.confirmed
    | confirmed => exact .inl hrecord.sent
  · refine (eq_filter_of_sublist hsublist (List.nodup_dedup _)).trans ?_
    refine List.filter_congr fun oid _ => ?_
    rw [Bool.eq_iff_iff, ← Table.mem_keys, htidy.keys]
    exact decide_eq_true_iff
  · rw [← retention_run _ happenings] at hne ⊢
    exact htidy.bounded hne
  · obtain ⟨record, hrecord⟩ := htidy.apart oid
    refine stems_run (.new capacity retention) (fun _ => ⟨rfl, rfl⟩) hrecord ?_
    have hfound := hrecord.confirmed.symm.trans hcommand
    cases record with
    | absent | sent => cases hfound
    | confirmed => exact hfound

end Ledger

end Client

end TriggerDesk
