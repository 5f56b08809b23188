import TriggerDesk.Proofs.Outbox.Line

/-!
# An outbox with fewer events

One outbox has some of the events of another, of those that are underway there, and of the line
before it: an excerpt of it (`Outbox.Excerpts`). The parties may have other names. Such an outbox
is no fuller than the other, so whoever has a place in the other has one in the excerpt
(`Excerpts.granted`).
-/

namespace TriggerDesk

open TriggerDesk.Order

namespace Outbox

variable {keeps : Event → Bool} {twin : Party → Option Party} {whole part next after : Outbox}
  {party name : Party} {event : Event}

/-! ## Parts of a line -/

/-- Two parts of one line where nobody stands twice are in one order. -/
theorem sublist_of_subset {few many line : List Party} (hnodup : line.Nodup)
    (hfew : few.Sublist line) (hmany : many.Sublist line) (hsubset : few ⊆ many) :
    few.Sublist many := by
  induction line generalizing few many with
  | nil =>
    rw [List.sublist_nil.1 hfew]
    exact List.nil_sublist _
  | cons front rest ih =>
    obtain ⟨hfront, hrest⟩ := List.nodup_cons.1 hnodup
    have hbehind : ∀ {some others : List Party}, some.Sublist rest → some ⊆ front :: others →
        some ⊆ others := fun hsome hin party hmem =>
      (List.mem_cons.1 (hin hmem)).resolve_left fun heq => hfront (heq ▸ hsome.subset hmem)
    cases hfew with
    | cons _ hfew =>
      cases hmany with
      | cons _ hmany => exact ih hrest hfew hmany hsubset
      | cons_cons _ hmany => exact (ih hrest hfew hmany (hbehind hfew hsubset)).cons front
    | cons_cons _ hfew =>
      cases hmany with
      | cons _ hmany => exact absurd (hmany.subset (hsubset List.mem_cons_self)) hfront
      | cons_cons _ hmany =>
        have hin := List.Subset.trans (List.subset_cons_self front _) hsubset
        exact (ih hrest hfew hmany (hbehind hfew hin)).cons_cons front

/-- What is the last of a part of two lines and not in the second is in the first. -/
theorem sublist_of_append_singleton {front before behind : List Party}
    (h : (front ++ [party]).Sublist (before ++ behind)) (hnot : party ∉ behind) :
    (front ++ [party]).Sublist before := by
  obtain ⟨first, second, heq, hfirst, hsecond⟩ := List.sublist_append_iff.1 h
  rcases List.eq_nil_or_concat second with hnil | ⟨others, last, hlast⟩
  · rw [heq, hnil, List.append_nil]
    exact hfirst
  · rw [List.concat_eq_append] at hlast
    rw [hlast, ← List.append_assoc] at heq
    cases (List.append_inj' heq rfl).2
    exact absurd (hsecond.subset (hlast ▸ List.mem_append_right _ (List.mem_singleton_self _))) hnot

/-- No two parties go by the same name. -/
def Distinct (twin : Party → Option Party) : Prop :=
  ∀ first second name, name ∈ twin first → name ∈ twin second → first = second

/-- Who leaves the line leaves its excerpt, too. -/
theorem filterMap_erase (htwin : Distinct twin) (hparty : twin party = some name)
    (line : List Party) :
    (line.erase party).filterMap twin = (line.filterMap twin).erase name := by
  induction line with
  | nil => rfl
  | cons front rest ih =>
    by_cases heq : front = party
    · rw [heq, List.erase_cons_head, List.filterMap_cons_some hparty, List.erase_cons_head]
    · rw [List.erase_cons_tail (by simpa using heq)]
      cases hfront : twin front with
      | none => rw [List.filterMap_cons_none hfront, List.filterMap_cons_none hfront, ih]
      | some other =>
        have hne : other ≠ name := fun hsame =>
          heq (htwin front party name (hsame ▸ hfront) hparty)
        rw [List.filterMap_cons_some hfront, List.filterMap_cons_some hfront,
          List.erase_cons_tail (by simpa using hne), ih]

/-- Who is not in the excerpt leaves it as it is. -/
theorem filterMap_erase_of_none (hparty : twin party = none) (line : List Party) :
    (line.erase party).filterMap twin = line.filterMap twin := by
  induction line with
  | nil => rfl
  | cons front rest ih =>
    by_cases heq : front = party
    · rw [heq, List.erase_cons_head, List.filterMap_cons_none hparty]
    · rw [List.erase_cons_tail (by simpa using heq), List.filterMap_cons, List.filterMap_cons, ih]

/-- With more names there are more in the excerpt. -/
theorem filterMap_sublist {names : Party → Option Party}
    (h : ∀ party name, twin party = some name → names party = some name) (line : List Party) :
    (line.filterMap twin).Sublist (line.filterMap names) := by
  induction line with
  | nil => exact List.nil_sublist _
  | cons front rest ih =>
    cases hfront : twin front with
    | none =>
      rw [List.filterMap_cons_none hfront, List.filterMap_cons]
      split
      · exact ih
      · exact ih.cons _
    | some name =>
      rw [List.filterMap_cons_some hfront, List.filterMap_cons_some (h front name hfront)]
      exact ih.cons_cons name

/-! ## The excerpt -/

/-- One outbox has the events of another that are kept, and as many of them are taken. -/
structure Sieves (keeps : Event → Bool) (whole part : Outbox) : Prop where
  events : part.events = whole.events.filter keeps
  taken : part.taken = ((whole.events.take whole.taken).filter keeps).length

/-- Beside that, some of the line of the other stand in the line. -/
structure Excerpts (keeps : Event → Bool) (twin : Party → Option Party) (whole part : Outbox) : Prop
    extends Sieves keeps whole part where
  orderly : whole.Orderly
  partOrderly : part.Orderly
  capacity : part.capacity = whole.capacity
  line : part.line.Sublist (whole.line.filterMap twin)

namespace Sieves

variable (h : Sieves keeps whole part)
include h

/-- What is underway is what is kept of what is underway in the other. -/
theorem underway_eq : part.underway = whole.underway.filter keeps := by
  rw [underway, h.events, h.taken]
  conv_lhs => rw [← List.take_append_drop whole.taken whole.events, List.filter_append]
  rw [List.take_append_drop]
  exact List.drop_left

/-- No more events are underway in the part than in the whole. -/
theorem underway_le : part.events.length - part.taken ≤ whole.events.length - whole.taken := by
  rw [← List.length_drop, ← List.length_drop,
    show part.events.drop part.taken = _ from h.underway_eq]
  exact List.length_filter_le _ _

/-- When the whole outbox gives an event that is kept, the part has one more to have been taken. -/
theorem take_succ (htake : whole.take? = some (event, next)) :
    ((next.events.take next.taken).filter keeps).length =
      part.taken + if keeps event then 1 else 0 := by
  obtain ⟨hevent, hevents, htaken, _⟩ := take?_eq_some htake
  rw [hevents, htaken, h.taken, List.take_add_one, hevent, List.filter_append, List.length_append,
    Option.toList_some]
  cases hkeeps : keeps event with
  | true => rw [List.filter_cons_of_pos hkeeps]; rfl
  | false => rw [List.filter_cons_of_neg (by simp [hkeeps])]; rfl

/-- An event that is not kept is taken from the other only. -/
theorem of_take_other (htake : whole.take? = some (event, next)) (hkeeps : keeps event = false) :
    Sieves keeps next part where
  events := h.events.trans (by rw [(take?_eq_some htake).2.1])
  taken := by rw [h.take_succ htake, hkeeps, if_neg Bool.false_ne_true, Nat.add_zero]

/-- An event that is kept is taken from both. -/
theorem of_take_kept (htake : whole.take? = some (event, next)) (hkeeps : keeps event = true)
    (hreceiving : part.receiving = whole.receiving) :
    ∃ after, part.take? = some (event, after) ∧ Sieves keeps next after := by
  have hfirst : part.events[part.taken]? = some event := by
    have hunderway := h.underway_eq
    rw [underway_of_take htake, List.filter_cons_of_pos hkeeps] at hunderway
    rw [← Nat.add_zero part.taken, ← List.getElem?_drop]
    exact congrArg (·[0]?) hunderway
  have hpart : part.take? =
      some (event, { part with taken := part.taken + 1 }.grantNext) := by
    rw [take?, hfirst]
    dsimp only
    rw [if_pos (hreceiving.trans (receiving_of_take htake))]
  obtain ⟨_, hpartEvents, hpartTaken, _⟩ := take?_eq_some hpart
  exact ⟨_, hpart, {
    events := by rw [hpartEvents, h.events, (take?_eq_some htake).2.1]
    taken := by rw [h.take_succ htake, hkeeps, if_pos rfl, hpartTaken] }⟩

end Sieves

namespace Excerpts

variable (h : Excerpts keeps twin whole part)
include h

/-- Who has a place in the whole and stands in the line of the excerpt has a place there. -/
theorem granted (htwin : Distinct twin) (hparty : twin party = some name)
    (hgranted : party ∈ whole.granted) (hline : name ∈ part.line) : name ∈ part.granted := by
  refine (List.mem_append.1 hline).resolve_right fun hwaiting => ?_
  -- All before the party in the excerpt have a place in the whole, as the party itself.
  have hnot : name ∉ whole.waiting.filterMap twin := by
    intro hmem
    obtain ⟨other, hother, hname⟩ := List.mem_filterMap.1 hmem
    cases htwin other party name hname hparty
    exact (List.nodup_append.1 h.orderly.nodup).2.2 party hgranted party hother rfl
  have hsublist : (part.granted ++ [name]).Sublist
      (whole.granted.filterMap twin ++ whole.waiting.filterMap twin) := by
    rw [← List.filterMap_append]
    exact ((List.Sublist.refl _).append (List.singleton_sublist.2 hwaiting)).trans h.line
  have hlength := (sublist_of_append_singleton hsublist hnot).length_le
  rw [List.length_append, List.length_singleton] at hlength
  have hless := Nat.le_trans hlength (List.length_filterMap_le twin whole.granted)
  -- So a place of the excerpt is free, and nobody waits beside it.
  have hfull := h.partOrderly.full (List.ne_nil_of_mem hwaiting)
  have hbounded := h.orderly.bounded
  have hunderway := h.underway_le
  rw [h.capacity] at hfull
  unfold used at hfull hbounded
  omega

/-- Events and names come in, nothing is taken, and the line of the excerpt is that of the whole
still. -/
theorem of_turn {names : Party → Option Party}
    (horderly : next.Orderly) (hpartOrderly : after.Orderly)
    (hcapacity : next.capacity = whole.capacity) (hpartCapacity : after.capacity = part.capacity)
    (hgrown : whole.events <+: next.events) (hevents : after.events = next.events.filter keeps)
    (htaken : next.taken = whole.taken) (hpartTaken : after.taken = part.taken)
    (hline : after.line.Sublist (next.line.filterMap names)) :
    Excerpts keeps names next after where
  orderly := horderly
  partOrderly := hpartOrderly
  capacity := hpartCapacity.trans (h.capacity.trans hcapacity.symm)
  events := hevents
  taken := by
    obtain ⟨news, hnews⟩ := hgrown
    rw [hpartTaken, h.taken, htaken, ← hnews, List.take_append_of_le_length h.orderly.taken]
  line := hline

/-- An event that is not kept is taken from the whole outbox only. -/
theorem of_take_other (htake : whole.take? = some (event, next)) (hkeeps : keeps event = false) :
    Excerpts keeps twin next part where
  toSieves := h.toSieves.of_take_other htake hkeeps
  orderly := orderly_take? h.orderly htake
  partOrderly := h.partOrderly
  capacity := h.capacity.trans (line_take? htake).2.symm
  line := (line_take? htake).1.symm ▸ h.line

/-- An event that is kept is taken from both. -/
theorem of_take_kept (htake : whole.take? = some (event, next)) (hkeeps : keeps event = true)
    (hreceiving : part.receiving = whole.receiving) :
    ∃ after, part.take? = some (event, after) ∧ Excerpts keeps twin next after := by
  obtain ⟨after, hpart, hsieves⟩ := h.toSieves.of_take_kept htake hkeeps hreceiving
  exact ⟨after, hpart, {
    toSieves := hsieves
    orderly := orderly_take? h.orderly htake
    partOrderly := orderly_take? h.partOrderly hpart
    capacity := (line_take? hpart).2.trans (h.capacity.trans (line_take? htake).2.symm)
    line := by
      rw [(line_take? htake).1, (line_take? hpart).1]
      exact h.line }⟩

end Excerpts

end Outbox

end TriggerDesk
