import TriggerDesk.Proofs.Outbox.Line
import TriggerDesk.Proofs.Progress

/-!
# Whoever stands in the line is served

Everybody in the line before an outbox takes its turn at some time (`Flows.exists_takes`), however
small the outbox is and whoever else asks for places. It needs three things again and again: that
the first in the line gets a place, and that whoever has a place gets a turn; and that nobody in the
line is overtaken.

Whoever stands first leaves the line with its next turn once it has a place, and all behind come
closer to the front. The position in the line goes down.
-/

namespace TriggerDesk

namespace Outbox

variable {outbox next : Outbox} {party first : Party} {position : Nat}

/-- What a move leaves of the place of a party in the line: it does not fall back, it comes closer
to the front if the first in the line takes a turn, and a place in the outbox stays. -/
structure Keeps (party : Party) (takes : Party → Prop) (outbox next : Outbox) : Prop where
  mem : party ∈ next.line
  le : next.line.idxOf party ≤ outbox.line.idxOf party
  lt : ∀ first, outbox.line.head? = some first → takes first →
    next.line.idxOf party < outbox.line.idxOf party
  granted : party ∈ outbox.granted → party ∈ next.granted

/-- Nobody who could stand in the line takes a turn. -/
theorem keeps_of_line {takes : Party → Prop} (hmem : party ∈ outbox.line)
    (hline : next.line = outbox.line) (hgranted : party ∈ outbox.granted → party ∈ next.granted)
    (hnobody : ∀ first, ¬ takes first) : Keeps party takes outbox next :=
  ⟨hline ▸ hmem, Nat.le_of_eq (congrArg (List.idxOf party) hline),
    fun first _ htakes => absurd htakes (hnobody first), hgranted⟩

/-- An outbox move by move, and who takes a turn in each. -/
structure Flows (outbox : Nat → Outbox) (takes : Nat → Party → Prop) : Prop where
  /-- Whoever does not take a turn keeps its place in the line. -/
  keeps : ∀ n, ∀ party ∈ (outbox n).line,
    takes n party ∨ Keeps party (takes n) (outbox n) (outbox (n + 1))
  /-- Again and again the first in the line gets a place. -/
  frees : ∀ n, ∃ m, n ≤ m ∧ ∀ first, (outbox m).line.head? = some first →
    first ∈ (outbox (m + 1)).granted
  /-- Again and again whoever has a place takes a turn. -/
  turns : ∀ party n, ∃ m, n ≤ m ∧ (party ∈ (outbox m).granted → takes m party)

namespace Flows

variable {outbox : Nat → Outbox} {takes : Nat → Party → Prop}

/-- A party is in the line, at a position or further to the front, and somebody is first. -/
structure Waits (outbox : Outbox) (party first : Party) (position : Nat) : Prop where
  mem : party ∈ outbox.line
  le : outbox.line.idxOf party ≤ position
  head : outbox.line.head? = some first

/-- A move is the turn of the party, or brings it closer to the front, or leaves everything as it
was; then it is not the turn of the first in the line, who keeps a place. -/
theorem waits_succ (h : Flows outbox takes) {n : Nat}
    (hwaits : Waits (outbox n) party first position) :
    takes n party ∨
      (party ∈ (outbox (n + 1)).line ∧ (outbox (n + 1)).line.idxOf party < position) ∨
      Waits (outbox (n + 1)) party first position ∧ ¬ takes n first ∧
        (first ∈ (outbox n).granted → first ∈ (outbox (n + 1)).granted) := by
  rcases h.keeps n party hwaits.mem with htakes | hkeeps
  · exact .inl htakes
  · refine .inr ?_
    rcases h.keeps n first (List.mem_of_mem_head? hwaits.head) with htakes | hstays
    · exact .inl ⟨hkeeps.mem, Nat.lt_of_lt_of_le (hkeeps.lt first hwaits.head htakes) hwaits.le⟩
    · have hzero := idxOf_of_head hwaits.head
      have hle := hstays.le
      refine .inr ⟨⟨hkeeps.mem, Nat.le_trans hkeeps.le hwaits.le,
        head?_of_idxOf hstays.mem (by omega)⟩, fun htakes => ?_, hstays.granted⟩
      have hlt := hstays.lt first hwaits.head htakes
      omega

/-- A party that waits takes its turn or comes closer to the front. -/
theorem exists_takes_or_closer (h : Flows outbox takes) {n : Nat}
    (hwaits : Waits (outbox n) party first position) :
    ∃ m, n ≤ m ∧ (takes m party ∨
      party ∈ (outbox m).line ∧ (outbox m).line.idxOf party < position) := by
  by_cases htakes : ∃ m, n ≤ m ∧ takes m party
  · obtain ⟨m, hm, htakes⟩ := htakes
    exact ⟨m, hm, .inl htakes⟩
  have hnext : ∀ m, n ≤ m → Waits (outbox m) party first position → _ := fun m hm hwaits =>
    (h.waits_succ hwaits).resolve_left fun hturn => htakes ⟨m, hm, hturn⟩
  -- The first in the line gets a place.
  obtain ⟨m, hm, hcloser | ⟨hle, hwaits, hgranted⟩⟩ := exists_of_move
    (P := fun m => n ≤ m ∧ Waits (outbox m) party first position)
    (Q := fun m => (party ∈ (outbox m).line ∧ (outbox m).line.idxOf party < position) ∨
      n ≤ m ∧ Waits (outbox m) party first position ∧ first ∈ (outbox m).granted)
    (h.frees n) (fun m ⟨hm, hwaits⟩ => by
      rcases hnext m hm hwaits with hcloser | ⟨hstill, _⟩
      · exact .inl (.inl hcloser)
      · by_cases hfrees : ∀ first, (outbox m).line.head? = some first →
            first ∈ (outbox (m + 1)).granted
        · exact .inl (.inr ⟨Nat.le_succ_of_le hm, hstill, hfrees first hwaits.head⟩)
        · exact .inr ⟨⟨Nat.le_succ_of_le hm, hstill⟩, hfrees⟩) ⟨Nat.le_refl n, hwaits⟩
  · exact ⟨m, hm, .inr hcloser⟩
  · -- Once it has a place, its turn is all that it needs.
    obtain ⟨k, hk, hcloser⟩ := exists_of_move
      (P := fun m => n ≤ m ∧ Waits (outbox m) party first position ∧ first ∈ (outbox m).granted)
      (Q := fun m => party ∈ (outbox m).line ∧ (outbox m).line.idxOf party < position)
      (h.turns first m) (fun m ⟨hm, hwaits, hgranted⟩ => by
        rcases hnext m hm hwaits with hcloser | ⟨hstill, hother, hkept⟩
        · exact .inl hcloser
        · exact .inr ⟨⟨Nat.le_succ_of_le hm, hstill, hkept hgranted⟩,
            fun hturn => hother (hturn hgranted)⟩) ⟨hle, hwaits, hgranted⟩
    exact ⟨k, Nat.le_trans hm hk, .inr hcloser⟩

/-- Everybody in the line takes its turn. -/
theorem exists_takes (h : Flows outbox takes) {n : Nat} (hmem : party ∈ (outbox n).line) :
    ∃ m, n ≤ m ∧ takes m party :=
  exists_of_rank (P := fun n => party ∈ (outbox n).line)
    (fun n => (outbox n).line.idxOf party) (fun n hmem => by
      obtain ⟨first, hhead⟩ := Option.isSome_iff_exists.1
        (List.isSome_head?.2 (List.ne_nil_of_mem hmem))
      obtain ⟨m, hm, htakes | hcloser⟩ := h.exists_takes_or_closer ⟨hmem, Nat.le_refl _, hhead⟩
      · exact .inl ⟨m, hm, htakes⟩
      · exact .inr ⟨m, hm, hcloser⟩) hmem

end Flows

end Outbox

end TriggerDesk
