import TriggerDesk.Proofs.Json.Numerals
import TriggerDesk.Proofs.Json.Scaling
import TriggerDesk.Wire.CommandLine

/-!
# Numbers that are read are finite

No numeral is read as a number that is not finite: one that is out of range is a fault. So all
numbers of a value that is read are finite (`finite_of_readValue`), and so is the price of every
command (`Wire.finite_of_decodeLine`). The line that is no command is rejected with prices of zero.
-/

namespace TriggerDesk

open Decimal

namespace Json

variable {numeral : Numeral} {n : Number}

/-- A number that is one of the finite binary64 numbers. -/
def Number.IsFinite (n : Number) : Prop := n.toFloat.isFinite = true

/-- A natural number of 64 bits is finite. -/
theorem isFinite_ofNat (n : ℕ) : (UInt64.ofNat n).toFloat.isFinite = true :=
  (stands_ofUInt64 (UInt64.ofNat n)).isFinite

/-- The other sign leaves a number finite. -/
theorem isFinite_neg {x : Float} (h : x.isFinite = true) : (-x).isFinite = true := by
  obtain ⟨_, _, hstands⟩ := exists_stands h
  exact hstands.neg.isFinite

/-- What digits and a power of ten are read as is finite, if it is in range. -/
theorem isFinite_of_toFloat? {scaled : Scaled} {x : Float} (h : scaled.toFloat? = some x) :
    x.isFinite = true := by
  obtain ⟨_, hstands⟩ := exists_stands_of_toFloat? h
  exact hstands.isFinite

/-- What a numeral is read as is finite, if it is in range. -/
theorem isFinite_of_real? {x : Float} (h : numeral.real? = some x) : x.isFinite = true := by
  unfold Numeral.real? at h
  obtain ⟨y, hy, rfl⟩ := Option.map_eq_some_iff.1 h
  have hfinite : y.isFinite = true := by
    split at hy
    · exact isFinite_of_toFloat? hy
    · split at hy
      · split at hy
        · cases hy
        · cases hy
          decide
      · exact isFinite_of_toFloat? hy
  split
  · exact isFinite_neg hfinite
  · exact hfinite

/-- Every number that is read is finite. -/
theorem isFinite_of_number? (h : numeral.number? = some n) : n.IsFinite := by
  unfold Numeral.number? at h
  dsimp only at h
  split at h
  · obtain ⟨x, hx, rfl⟩ := Option.map_eq_some_iff.1 h
    exact isFinite_of_real? hx
  · split at h
    · cases h
      exact isFinite_ofNat _
    · split at h
      · cases h
        exact isFinite_neg (isFinite_ofNat _)
      · cases h
        exact isFinite_neg (isFinite_ofNat _)

/-! ## Numbers in documents -/

section Documents

variable {τ ν : Type}

mutual

/-- Whether all numbers of a document have a property. -/
def Document.Numbers (P : ν → Prop) : Document τ ν → Prop
  | .number n => P n
  | .array items => NumbersOfItems P items
  | .object members => NumbersOfMembers P members
  | .null | .bool _ | .text _ => True

def NumbersOfItems (P : ν → Prop) : List (Document τ ν) → Prop
  | [] => True
  | item :: rest => item.Numbers P ∧ NumbersOfItems P rest

def NumbersOfMembers (P : ν → Prop) : List (τ × Document τ ν) → Prop
  | [] => True
  | (_, value) :: rest => value.Numbers P ∧ NumbersOfMembers P rest

end

variable {rules : Rules τ ν} {P : ν → Prop}

/-- What so many reading steps find has numbers with a property only. -/
structure Finds (rules : Rules τ ν) (P : ν → Prop) (fuel : ℕ) : Prop where
  document : ∀ depth chars found, scanDocument rules depth fuel chars = .ok found →
    found.1.Numbers P
  items : ∀ depth chars found, scanItems rules depth fuel chars = .ok found →
    NumbersOfItems P found.1
  moreItems : ∀ depth chars found, scanMoreItems rules depth fuel chars = .ok found →
    NumbersOfItems P found.1
  members : ∀ depth chars found, scanMembers rules depth fuel chars = .ok found →
    NumbersOfMembers P found.1
  member : ∀ depth chars found, scanMember rules depth fuel chars = .ok found →
    NumbersOfMembers P found.1
  moreMembers : ∀ depth chars found, scanMoreMembers rules depth fuel chars = .ok found →
    NumbersOfMembers P found.1

/-- With one more step, a document that is found has only numbers that the rules give. -/
theorem Finds.document_succ {fuel : ℕ} (h : Finds rules P fuel)
    (hrules : ∀ numeral rest n, rules.number numeral rest = .ok n → P n) (depth : Option ℕ)
    (chars : List Char) (found : Document τ ν × List Char)
    (hscan : scanDocument rules depth (fuel + 1) chars = .ok found) : found.1.Numbers P := by
  rw [scanDocument] at hscan
  split at hscan
  · cases hscan
  · obtain ⟨_, _, hscan⟩ := bind_eq_ok hscan
    cases hscan
    trivial
  · obtain ⟨_, _, hscan⟩ := bind_eq_ok hscan
    cases hscan
    trivial
  · obtain ⟨_, _, hscan⟩ := bind_eq_ok hscan
    cases hscan
    trivial
  · obtain ⟨_, _, hscan⟩ := bind_eq_ok hscan
    cases hscan
    trivial
  · obtain ⟨_, _, hscan⟩ := bind_eq_ok hscan
    obtain ⟨items, hitems, hscan⟩ := bind_eq_ok hscan
    cases hscan
    exact h.items _ _ _ hitems
  · obtain ⟨_, _, hscan⟩ := bind_eq_ok hscan
    obtain ⟨members, hmembers, hscan⟩ := bind_eq_ok hscan
    cases hscan
    exact h.members _ _ _ hmembers
  · split at hscan
    · obtain ⟨_, _, hscan⟩ := bind_eq_ok hscan
      obtain ⟨n, hn, hscan⟩ := bind_eq_ok hscan
      cases hscan
      exact hrules _ _ _ hn
    · cases hscan

/-- An item and the items behind it. -/
theorem Finds.item {fuel : ℕ} (h : Finds rules P fuel) {depth : Option ℕ} {chars : List Char}
    {found : List (Document τ ν) × List Char}
    (hscan : (scanDocument rules depth fuel chars >>= fun item =>
      scanMoreItems rules depth fuel item.2 >>= fun items =>
        .ok (item.1 :: items.1, items.2)) = .ok found) : NumbersOfItems P found.1 := by
  obtain ⟨item, hitem, hscan⟩ := bind_eq_ok hscan
  obtain ⟨items, hitems, hscan⟩ := bind_eq_ok hscan
  cases hscan
  exact ⟨h.document _ _ _ hitem, h.moreItems _ _ _ hitems⟩

/-- With one more step, so does whatever is found. -/
theorem finds_succ {fuel : ℕ} (h : Finds rules P fuel)
    (hrules : ∀ numeral rest n, rules.number numeral rest = .ok n → P n) :
    Finds rules P (fuel + 1) where
  document := h.document_succ hrules
  items depth chars found hscan := by
    rw [scanItems] at hscan
    split at hscan
    · cases hscan
    · cases hscan
      trivial
    · exact h.item hscan
  moreItems depth chars found hscan := by
    rw [scanMoreItems] at hscan
    split at hscan
    · cases hscan
    · cases hscan
      trivial
    · split at hscan
      · cases hscan
      · cases hscan
      · exact h.item hscan
    · cases hscan
  members depth chars found hscan := by
    rw [scanMembers] at hscan
    split at hscan
    · cases hscan
    · cases hscan
      trivial
    · exact h.member _ _ _ hscan
  member depth chars found hscan := by
    unfold scanMember at hscan
    split at hscan
    · obtain ⟨name, _, hscan⟩ := bind_eq_ok hscan
      obtain ⟨_, _, hscan⟩ := bind_eq_ok hscan
      obtain ⟨value, hvalue, hscan⟩ := bind_eq_ok hscan
      obtain ⟨members, hmembers, hscan⟩ := bind_eq_ok hscan
      cases hscan
      exact ⟨h.document _ _ _ hvalue, h.moreMembers _ _ _ hmembers⟩
    · cases hscan
  moreMembers depth chars found hscan := by
    rw [scanMoreMembers] at hscan
    split at hscan
    · cases hscan
    · cases hscan
      trivial
    · split at hscan
      · cases hscan
      · cases hscan
      · exact h.member _ _ _ hscan
    · cases hscan

/-- If the rules give only numbers with a property, so does every number of steps. -/
theorem finds_of_rules (hrules : ∀ numeral rest n, rules.number numeral rest = .ok n → P n)
    (fuel : ℕ) : Finds rules P fuel := by
  induction fuel with
  | zero => exact ⟨nofun, nofun, nofun, nofun, nofun, nofun⟩
  | succ fuel ih => exact finds_succ ih hrules

end Documents

/-! ## Values -/

variable {P : Number → Prop}

/-- Members with one put among them have the numbers of both. -/
theorem numbers_setMember {name : String} {value : Value} {members : List (String × Value)}
    (hvalue : value.Numbers P) (h : NumbersOfMembers P members) :
    NumbersOfMembers P (setMember name value members) := by
  induction members with
  | nil => exact ⟨hvalue, trivial⟩
  | cons member rest ih =>
    obtain ⟨other, found⟩ := member
    rw [setMember]
    split
    · exact ⟨hvalue, h⟩
    · split
      · exact ⟨hvalue, h.2⟩
      · exact ⟨h.1, ih h.2⟩

mutual

/-- Sorting keeps the numbers. -/
theorem numbers_sorted (value : Value) (h : value.Numbers P) : (Value.sorted value).Numbers P := by
  match value with
  | .null | .bool _ | .text _ => trivial
  | .number n => exact h
  | .array items => exact numbers_sortedItems items h
  | .object members => exact numbers_sortedMembers members [] h trivial

/-- Sorting items brings no numbers. -/
theorem numbers_sortedItems (items : List Value) (h : NumbersOfItems P items) :
    NumbersOfItems P (Value.sortedItems items) := by
  match items with
  | [] => trivial
  | item :: rest => exact ⟨numbers_sorted item h.1, numbers_sortedItems rest h.2⟩

/-- Sorting members brings no numbers. -/
theorem numbers_sortedMembers (members done : List (String × Value))
    (h : NumbersOfMembers P members) (hdone : NumbersOfMembers P done) :
    NumbersOfMembers P (Value.sortedMembers members done) := by
  match members with
  | [] => exact hdone
  | (name, value) :: rest =>
    exact numbers_sortedMembers rest _ h.2 (numbers_setMember (numbers_sorted value h.1) hdone)

end

/-- All numbers of a value that is read are finite. -/
theorem finite_of_readValue {text : String} {value : Value} (h : readValue text = .ok value) :
    value.Numbers Number.IsFinite := by
  have hrules : ∀ numeral rest n, Rules.strict.number numeral rest = .ok n → n.IsFinite := by
    intro numeral rest n hnumber
    simp only [Rules.strict] at hnumber
    split at hnumber
    · next hsome =>
      cases hnumber
      exact isFinite_of_number? hsome
    · cases hnumber
  unfold readValue at h
  split at h
  · next document hscan =>
    cases h
    obtain ⟨found, hfound, hscan⟩ := bind_eq_ok hscan
    have hnumbers := (finds_of_rules hrules _).document _ _ _ hfound
    dsimp only at hscan
    split at hscan
    · cases hscan
      exact numbers_sorted _ hnumbers
    · cases hscan
  · cases h

end Json

namespace Wire

open Json TriggerDesk.Order

/-- The price of a draft is finite, once it has one. -/
def Draft.IsFinite (draft : Draft) : Prop :=
  ∀ price, draft.price = some price → price.isFinite = true

variable {draft later : Draft} {command : Command} {value : Value}

/-- A draft that reads a part with finite numbers stays finite. -/
theorem Draft.isFinite_read {part : Part} (h : draft.IsFinite)
    (hvalue : value.Numbers Number.IsFinite) (hread : draft.read part value = .ok later) :
    later.IsFinite := by
  cases part with
  | msg | oid | symbol | brokers =>
    obtain ⟨_, _, rfl⟩ := map_eq_ok hread
    exact h
  | price =>
    obtain ⟨price, hprice, rfl⟩ := map_eq_ok hread
    intro found hfound
    cases hfound
    cases value with
    | number n =>
      cases hprice
      exact hvalue
    | null | bool | text | array | object => cases hprice

/-- A draft that reads members with finite numbers stays finite. -/
theorem Draft.isFinite_readMembers {members : List (String × Value)} (h : draft.IsFinite)
    (hmembers : NumbersOfMembers Number.IsFinite members)
    (hread : draft.readMembers members = .ok later) : later.IsFinite := by
  induction members generalizing draft with
  | nil =>
    cases hread
    exact h
  | cons member rest ih =>
    obtain ⟨name, value⟩ := member
    rw [Draft.readMembers] at hread
    split at hread
    · exact ih h hmembers.2 hread
    · obtain ⟨_, hpart, hread⟩ := bind_eq_ok hread
      exact ih (Draft.isFinite_read h hmembers.1 hpart) hmembers.2 hread

/-- A draft that reads items with finite numbers stays finite. -/
theorem Draft.isFinite_readItems {count : ℕ} {parts : List Part} {items : List Value}
    (h : draft.IsFinite) (hitems : NumbersOfItems Number.IsFinite items)
    (hread : draft.readItems count parts items = .ok later) : later.IsFinite := by
  induction items generalizing draft parts with
  | nil =>
    cases parts with
    | nil =>
      cases hread
      exact h
    | cons part parts => cases hread
  | cons value rest ih =>
    cases parts with
    | nil => cases hread
    | cons part parts =>
      obtain ⟨_, hpart, hread⟩ := bind_eq_ok hread
      exact ih (Draft.isFinite_read h hitems.1 hpart) hitems.2 hread

/-- A finite draft is finished into a command with a finite price. -/
theorem Draft.isFinite_finish (h : draft.IsFinite) (hfinish : draft.finish = .ok command) :
    command.price.isFinite = true := by
  obtain ⟨kind, _, hfinish⟩ := bind_eq_ok hfinish
  obtain ⟨oid, _, hfinish⟩ := bind_eq_ok hfinish
  obtain ⟨symbol, _, hfinish⟩ := bind_eq_ok hfinish
  obtain ⟨brokers, _, hfinish⟩ := bind_eq_ok hfinish
  obtain ⟨price, hprice, hfinish⟩ := bind_eq_ok hfinish
  cases hfinish
  cases hsome : draft.price with
  | none =>
    rw [hsome] at hprice
    cases hprice
  | some found =>
    rw [hsome] at hprice
    cases hprice
    exact h _ hsome

/-- A command that is read from finite numbers has a finite price. -/
theorem isFinite_of_readCommand (hvalue : value.Numbers Number.IsFinite)
    (h : readCommand value = .ok command) : command.price.isFinite = true := by
  have hempty : Draft.IsFinite {} := nofun
  cases value with
  | object members =>
    obtain ⟨draft, hread, hfinish⟩ := bind_eq_ok h
    exact Draft.isFinite_finish (Draft.isFinite_readMembers hempty hvalue hread) hfinish
  | array items =>
    obtain ⟨draft, hread, hfinish⟩ := bind_eq_ok h
    exact Draft.isFinite_finish (Draft.isFinite_readItems hempty hvalue hread) hfinish
  | null | bool | number | text => cases h

/-- The price of every command that a line decodes to is finite. -/
theorem finite_of_decodeLine {line : String} (h : decodeLine line = .ok command) :
    command.price.isFinite = true := by
  unfold decodeLine at h
  split at h
  · cases h
  · next value hread =>
    split at h
    · cases h
    · split at h
      · next hcommand =>
        cases h
        exact isFinite_of_readCommand (finite_of_readValue hread) hcommand
      · cases h

/-- A line that is no command is rejected as such. -/
theorem rejectedLine_of_decodeLine {line : String} {event : Event}
    (h : decodeLine line = .error event) : ∃ oid reason, event = Event.rejectedLine oid reason := by
  unfold decodeLine at h
  split at h
  · cases h
    exact ⟨_, _, rfl⟩
  · split at h
    · cases h
      exact ⟨_, _, rfl⟩
    · split at h
      · cases h
      · cases h
        exact ⟨_, _, rfl⟩

end Wire

end TriggerDesk
