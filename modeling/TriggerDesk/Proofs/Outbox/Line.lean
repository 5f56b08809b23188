import Mathlib.Data.List.Nodup
import TriggerDesk.Outbox

/-!
# The line before the outbox

Everybody who has a place in the outbox or waits for one stands in one line, in the order of
asking (`Outbox.line`). Asking puts a party at the end of it, putting an event or giving a place
back takes it out, and taking an event leaves it as it is. All the while nobody waits beside a
free place, and no more places are in use than there are (`Outbox.Orderly`).
-/

namespace TriggerDesk

open TriggerDesk.Order

namespace Outbox

variable {outbox : Outbox} {party : Party}

/-- Who has a place and who waits for one, in the order of asking. -/
def line (outbox : Outbox) : List Party := outbox.granted ++ outbox.waiting

/-- Nobody stands in the line twice, and nobody waits while a place is free. -/
structure Orderly (outbox : Outbox) : Prop where
  nodup : outbox.line.Nodup
  bounded : outbox.used ≤ outbox.capacity
  full : outbox.waiting ≠ [] → outbox.capacity ≤ outbox.used
  taken : outbox.taken ≤ outbox.events.length

/-- In a new outbox nobody stands in line. -/
theorem orderly_new (capacity : Nat) : (Outbox.new capacity).Orderly :=
  ⟨List.nodup_nil, Nat.zero_le capacity, fun h => absurd rfl h, Nat.le_refl 0⟩

/-- Whoever finds a place granted has one. -/
theorem mem_granted_of_standing (h : outbox.standing party = .granted) :
    party ∈ outbox.granted := by
  unfold standing at h
  split at h
  · cases h
  · split at h
    · assumption
    · cases h

/-- Nobody has a place once the client has left. -/
theorem receiving_of_granted (h : outbox.standing party = .granted) : outbox.receiving = true := by
  unfold standing at h
  split at h
  · cases h
  · next hthere => simpa using hthere

/-- Whoever has a place finds it granted, while the client is there. -/
theorem standing_eq_granted (hreceiving : outbox.receiving = true)
    (hgranted : party ∈ outbox.granted) : outbox.standing party = .granted := by
  rw [standing, hreceiving, Bool.not_true, if_neg Bool.false_ne_true, if_pos hgranted]

/-! ## Giving a place -/

/-- Giving a place leaves the line. -/
@[simp]
theorem line_grantNext (outbox : Outbox) : outbox.grantNext.line = outbox.line := by
  unfold grantNext
  split
  · rfl
  · next party rest hwaiting =>
    split
    · rw [line, line, hwaiting, List.append_assoc, List.singleton_append]
    · rfl

/-- Giving a place leaves the capacity. -/
@[simp]
theorem capacity_grantNext (outbox : Outbox) : outbox.grantNext.capacity = outbox.capacity := by
  unfold grantNext
  split
  · rfl
  · split <;> rfl

/-- Where one place at most is free, or nobody but one waits, giving a place leaves nobody waiting
beside a free place. -/
theorem orderly_grantNext (hnodup : outbox.line.Nodup) (hbounded : outbox.used ≤ outbox.capacity)
    (htaken : outbox.taken ≤ outbox.events.length)
    (hroom : outbox.waiting.tail ≠ [] → outbox.capacity ≤ outbox.used + 1) :
    outbox.grantNext.Orderly where
  nodup := (line_grantNext outbox).symm ▸ hnodup
  bounded := by
    unfold grantNext
    split
    · exact hbounded
    · next party rest _ =>
      split
      · next hfree =>
        show outbox.events.length - outbox.taken + (outbox.granted ++ [party]).length ≤
          outbox.capacity
        rw [List.length_append, ← Nat.add_assoc]
        exact of_decide_eq_true hfree
      · exact hbounded
  full := by
    unfold grantNext
    split
    · next hnone => exact fun h => absurd hnone h
    · next party rest hwaiting =>
      split
      · intro hrest
        -- Somebody else waits, so there was one place at most, and it is taken now.
        have hle := hroom (by rwa [hwaiting])
        show outbox.capacity ≤ _ - _ + (outbox.granted ++ [party]).length
        rw [List.length_append, ← Nat.add_assoc]
        exact hle
      · next hroom =>
        intro _
        simpa [hasRoom] using hroom
  taken := by
    rw [taken_grantNext, events_grantNext]
    exact htaken

/-- Whoever is first in the line and finds a free place has it. -/
theorem mem_granted_grantNext {rest : List Party} (hwaiting : outbox.waiting = party :: rest)
    (hroom : outbox.used < outbox.capacity) : party ∈ outbox.grantNext.granted := by
  have hasRoom : outbox.hasRoom = true := decide_eq_true hroom
  unfold grantNext
  rw [hwaiting]
  dsimp only
  rw [if_pos hasRoom]
  exact List.mem_append_right _ (List.mem_singleton_self party)

/-- Nobody loses a place when one is given. -/
theorem mem_granted_grantNext_of_mem (outbox : Outbox) (h : party ∈ outbox.granted) :
    party ∈ outbox.grantNext.granted := by
  unfold grantNext
  split
  · exact h
  · split
    · exact List.mem_append_left _ h
    · exact h

/-- Another request for a place takes none away. -/
theorem mem_granted_request {other : Party} (h : other ∈ outbox.granted) :
    other ∈ (outbox.request party).granted := by
  unfold request
  split
  · exact mem_granted_grantNext_of_mem { outbox with waiting := outbox.waiting ++ [party] } h
  · exact h

/-- A place that is given back takes none from others. -/
theorem mem_granted_withdraw {other : Party} (hne : other ≠ party)
    (h : other ∈ outbox.granted) : other ∈ (outbox.withdraw party).granted :=
  mem_granted_grantNext_of_mem { outbox with
    granted := outbox.granted.erase party, waiting := outbox.waiting.erase party }
    ((List.mem_erase_of_ne hne).2 h)

/-! ## The line after each operation -/

/-- Whoever asks for a place stands at the end of the line. -/
theorem line_request (h : outbox.receiving = true) (party : Party) :
    (outbox.request party).line = outbox.line ++ [party] := by
  rw [request, if_pos h, line_grantNext, line, line, List.append_assoc]

/-- Asking for a place leaves the capacity. -/
@[simp]
theorem capacity_request (outbox : Outbox) (party : Party) :
    (outbox.request party).capacity = outbox.capacity := by
  unfold request
  split
  · exact capacity_grantNext _
  · rfl

/-- The line stays in order when somebody asks who does not stand in it. -/
theorem orderly_request (h : outbox.Orderly) (hreceiving : outbox.receiving = true)
    (hnew : party ∉ outbox.line) : (outbox.request party).Orderly := by
  rw [request, if_pos hreceiving]
  refine orderly_grantNext ?_ h.bounded h.taken fun hmore => ?_
  · show (outbox.granted ++ (outbox.waiting ++ [party])).Nodup
    rw [← List.append_assoc]
    refine List.nodup_append.2 ⟨h.nodup, List.nodup_singleton party, ?_⟩
    exact fun first hfirst second hsecond heq =>
      hnew (List.mem_singleton.1 hsecond ▸ heq ▸ hfirst)
  · have hwaiting : outbox.waiting ≠ [] := by
      rintro hnone
      rw [hnone] at hmore
      exact hmore rfl
    exact Nat.le_succ_of_le (h.full hwaiting)

/-- A party in the line is in one of its two parts. -/
theorem Orderly.erase_line (h : outbox.Orderly) (party : Party) :
    outbox.line.erase party = outbox.granted.erase party ++ outbox.waiting.erase party := by
  rw [line, List.erase_append]
  split
  · next hgranted =>
    have hnot : party ∉ outbox.waiting := fun hwaiting =>
      (List.nodup_append.1 h.nodup).2.2 party hgranted party hwaiting rfl
    rw [List.erase_of_not_mem hnot]
  · next hnot => rw [List.erase_of_not_mem hnot]

/-- Whoever gives a place back leaves the line. -/
theorem line_withdraw (h : outbox.Orderly) (party : Party) :
    (outbox.withdraw party).line = outbox.line.erase party := by
  rw [withdraw, line_grantNext, h.erase_line]
  rfl

/-- Giving a place back leaves the capacity. -/
@[simp]
theorem capacity_withdraw (outbox : Outbox) (party : Party) :
    (outbox.withdraw party).capacity = outbox.capacity :=
  capacity_grantNext _

/-- A line becomes shorter by one at most when somebody leaves it. -/
theorem length_erase_add_one_ge (parties : List Party) (party : Party) :
    parties.length ≤ (parties.erase party).length + 1 := by
  rw [List.length_erase]
  split <;> omega

/-- The line stays in order when somebody leaves it. -/
theorem orderly_withdraw (h : outbox.Orderly) (party : Party) :
    (outbox.withdraw party).Orderly := by
  refine orderly_grantNext ?_ ?_ h.taken fun hmore => ?_
  · show (outbox.granted.erase party ++ outbox.waiting.erase party).Nodup
    rw [← h.erase_line]
    exact h.nodup.erase party
  · refine Nat.le_trans (Nat.add_le_add_left ?_ _) h.bounded
    exact List.erase_sublist.length_le
  · have hwaiting : outbox.waiting ≠ [] := by
      rintro hnone
      simp [hnone] at hmore
    have hfull := h.full hwaiting
    have hlength := length_erase_add_one_ge outbox.granted party
    unfold used at hfull ⊢
    show outbox.capacity ≤ outbox.events.length - outbox.taken +
      (outbox.granted.erase party).length + 1
    omega

/-- Whoever puts an event leaves the line. -/
theorem line_put (hgranted : party ∈ outbox.granted) (event : Event) :
    (outbox.put party event).line = outbox.line.erase party := by
  rw [line, line, List.erase_append_left _ hgranted]
  rfl

/-- An event takes the place that was given for it. -/
theorem used_put (h : outbox.Orderly) (hgranted : party ∈ outbox.granted) (event : Event) :
    (outbox.put party event).used = outbox.used := by
  have htaken := h.taken
  have hpos := List.length_pos_of_mem hgranted
  show (outbox.events ++ [event]).length - outbox.taken + (outbox.granted.erase party).length =
    outbox.events.length - outbox.taken + outbox.granted.length
  rw [List.length_append, List.length_singleton, List.length_erase_of_mem hgranted]
  omega

/-- The line stays in order when an event is put. -/
theorem orderly_put (h : outbox.Orderly) (hgranted : party ∈ outbox.granted) (event : Event) :
    (outbox.put party event).Orderly where
  nodup := by
    rw [line_put hgranted]
    exact h.nodup.erase party
  bounded := by
    rw [used_put h hgranted]
    exact h.bounded
  full hwaiting := by
    rw [used_put h hgranted]
    exact h.full hwaiting
  taken := by
    show outbox.taken ≤ (outbox.events ++ [event]).length
    rw [List.length_append]
    exact Nat.le_add_right_of_le h.taken

/-- When the client takes an event, the line and the capacity stay. -/
theorem line_take? {next : Outbox} {event : Event} (h : outbox.take? = some (event, next)) :
    next.line = outbox.line ∧ next.capacity = outbox.capacity := by
  unfold take? at h
  split at h
  · split at h
    · cases h
      exact ⟨line_grantNext _, capacity_grantNext _⟩
    · cases h
  · cases h

/-- Only a client that is there takes events. -/
theorem receiving_of_take {next : Outbox} {event : Event}
    (h : outbox.take? = some (event, next)) : outbox.receiving = true := by
  unfold take? at h
  split at h
  · split at h
    · assumption
    · cases h
  · cases h

/-- When the client takes an event, places that were given stay given. -/
theorem mem_granted_take? {next : Outbox} {event : Event} (h : outbox.take? = some (event, next))
    (hgranted : party ∈ outbox.granted) : party ∈ next.granted := by
  unfold take? at h
  split at h
  · split at h
    · cases h
      exact mem_granted_grantNext_of_mem { outbox with taken := outbox.taken + 1 } hgranted
    · cases h
  · cases h

/-- The line stays in order when the client takes an event. -/
theorem orderly_take? {next : Outbox} {event : Event} (h : outbox.Orderly)
    (htake : outbox.take? = some (event, next)) : next.Orderly := by
  unfold take? at htake
  split at htake
  · next found hfound =>
    split at htake
    · cases htake
      have hlength := (List.getElem?_eq_some_iff.1 hfound).1
      have hbounded := h.bounded
      unfold used at hbounded
      refine orderly_grantNext h.nodup ?_ hlength fun hmore => ?_
      · show outbox.events.length - (outbox.taken + 1) + outbox.granted.length ≤ outbox.capacity
        omega
      have hwaiting : outbox.waiting ≠ [] := by
        rintro hnone
        simp [hnone] at hmore
      have hfull := h.full hwaiting
      unfold used at hfull ⊢
      show outbox.capacity ≤ outbox.events.length - (outbox.taken + 1) + outbox.granted.length + 1
      omega
    · cases htake
  · cases htake

/-! ## Positions in the line -/

/-- In a part of a line nobody stands further back. -/
theorem idxOf_le_of_sublist {parties line : List Party} (h : parties.Sublist line)
    (hnodup : line.Nodup) (hmem : party ∈ parties) : parties.idxOf party ≤ line.idxOf party := by
  induction h with
  | slnil => exact Nat.le_refl _
  | @cons some line other hsub ih =>
    obtain ⟨hnew, hrest⟩ := List.nodup_cons.1 hnodup
    have hne : other ≠ party := fun heq => hnew (heq ▸ hsub.subset hmem)
    rw [List.idxOf_cons_ne _ hne]
    exact Nat.le_succ_of_le (ih hrest hmem)
  | @cons_cons some line other hsub ih =>
    obtain ⟨hnew, hrest⟩ := List.nodup_cons.1 hnodup
    by_cases heq : other = party
    · simp only [heq, List.idxOf_cons_self, Nat.le_refl]
    · rw [List.idxOf_cons_ne _ heq, List.idxOf_cons_ne _ heq]
      exact Nat.succ_le_succ (ih hrest ((List.mem_cons.1 hmem).resolve_left fun h => heq h.symm))

/-- Whoever comes after somebody who has left stands one place further to the front. -/
theorem idxOf_erase_of_head {line : List Party} (hhead : line.head? = some party) {other : Party}
    (hne : other ≠ party) : (line.erase party).idxOf other + 1 = line.idxOf other := by
  cases line with
  | nil => cases hhead
  | cons front rest =>
    cases hhead
    rw [List.erase_cons_head, List.idxOf_cons_ne _ (Ne.symm hne)]

/-- Nobody moves back when another leaves the line. -/
theorem idxOf_erase_le (line : List Party) {other : Party} (hne : other ≠ party) :
    (line.erase party).idxOf other ≤ line.idxOf other := by
  induction line with
  | nil => exact Nat.le_refl _
  | cons front rest ih =>
    by_cases hfront : front = party
    · rw [hfront, List.erase_cons_head, List.idxOf_cons_ne _ (Ne.symm hne)]
      exact Nat.le_succ _
    · rw [List.erase_cons_tail (by simpa using hfront)]
      by_cases hother : front = other
      · rw [hother, List.idxOf_cons_self]
        exact Nat.zero_le _
      · rw [List.idxOf_cons_ne _ hother, List.idxOf_cons_ne _ hother]
        exact Nat.succ_le_succ ih

/-- Whoever is first in line has position zero. -/
theorem idxOf_of_head {line : List Party} (h : line.head? = some party) :
    line.idxOf party = 0 := by
  cases line with
  | nil => cases h
  | cons front rest =>
    cases h
    exact List.idxOf_cons_self

/-- Whoever has position zero is first in line. -/
theorem head?_of_idxOf {line : List Party} (hmem : party ∈ line) (h : line.idxOf party = 0) :
    line.head? = some party := by
  cases line with
  | nil => cases hmem
  | cons front rest =>
    by_cases heq : front = party
    · rw [heq, List.head?_cons]
    · rw [List.idxOf_cons_ne _ heq] at h
      cases h

/-- Whoever is first in the line has a place if anybody has. -/
theorem granted_of_head (hhead : outbox.line.head? = some party) :
    party ∈ outbox.granted ∨ outbox.granted = [] ∧ ∃ rest, outbox.waiting = party :: rest := by
  unfold line at hhead
  cases hgranted : outbox.granted with
  | cons front rest =>
    rw [hgranted] at hhead
    cases hhead
    exact .inl List.mem_cons_self
  | nil =>
    rw [hgranted] at hhead
    cases hwaiting : outbox.waiting with
    | nil =>
      rw [hwaiting] at hhead
      cases hhead
    | cons front rest =>
      rw [hwaiting] at hhead
      cases hhead
      exact .inr ⟨rfl, rest, rfl⟩

/-- Whoever is first in the line has a place, or gets one when the client takes an event. -/
theorem granted_or_take? (h : outbox.Orderly) (hreceiving : outbox.receiving = true)
    (hcapacity : 0 < outbox.capacity) (hhead : outbox.line.head? = some party) :
    party ∈ outbox.granted ∨
      ∃ event next, outbox.take? = some (event, next) ∧ party ∈ next.granted := by
  rcases granted_of_head hhead with hgranted | ⟨hnone, rest, hwaiting⟩
  · exact .inl hgranted
  · -- All places are taken by events, so there is one to take.
    have hfull := h.full (hwaiting ▸ List.cons_ne_nil _ _)
    have hbounded := h.bounded
    unfold used at hfull hbounded
    rw [hnone, List.length_nil, Nat.add_zero] at hfull hbounded
    have hlength : outbox.taken < outbox.events.length := by omega
    have htake : outbox.take? = some (outbox.events[outbox.taken],
        { outbox with taken := outbox.taken + 1 }.grantNext) := by
      rw [take?, List.getElem?_eq_getElem hlength]
      dsimp only
      rw [if_pos hreceiving]
    have hfreed : { outbox with taken := outbox.taken + 1 }.waiting = party :: rest := hwaiting
    refine .inr ⟨_, _, htake, mem_granted_grantNext hfreed ?_⟩
    show outbox.events.length - (outbox.taken + 1) + outbox.granted.length < outbox.capacity
    rw [hnone, List.length_nil]
    omega

end Outbox

end TriggerDesk
