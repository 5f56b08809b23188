import Mathlib.Data.String.Basic
import TriggerDesk.Json.Document

/-!
# Sorted members

In a sorted object every name stands once, and under it the value that the object has last for it
(`lookup_sortedMembers`, `nodup_sortedMembers`). So what is looked up in a sorted value can be said
of the members as they stand in the text (`lastMember?`).
-/

namespace TriggerDesk.Json

variable {members done : List (String × Value)} {name other : String} {value : Value}

/-- The names of a list of members, in the order of the list. -/
def names {α : Type} (members : List (String × α)) : List String := members.map (·.1)

/-- The value of the last member under a name. -/
def lastMember? (members : List (String × Value)) (name : String) : Option Value :=
  members.reverse.lookup name

/-- A name is looked up in the first member, or in the rest. -/
theorem lookup_cons_eq {α : Type} (name other : String) (value : α) (rest : List (String × α)) :
    ((name, value) :: rest).lookup other =
      if other = name then some value else rest.lookup other := by
  rw [List.lookup_cons]
  by_cases h : other = name
  · rw [if_pos h, beq_iff_eq.2 h]
  · rw [if_neg h, beq_eq_false_iff_ne.2 h]

/-- What is found under a name is under one of the names. -/
theorem isSome_lookup {α : Type} {members : List (String × α)} {name : String} :
    (members.lookup name).isSome = true ↔ name ∈ names members := by
  induction members with
  | nil => exact ⟨nofun, nofun⟩
  | cons member rest ih =>
    rw [lookup_cons_eq, names, List.map_cons, List.mem_cons]
    split
    · next heq => exact iff_of_true rfl (.inl heq)
    · next hne => exact ih.trans ⟨.inr, fun h => h.resolve_left hne⟩

/-- The last value of a name is there if the name is. -/
theorem isSome_lastMember? : (lastMember? members name).isSome = true ↔ name ∈ names members := by
  rw [lastMember?, isSome_lookup, names, List.map_reverse, List.mem_reverse]
  rfl

/-- The last value of a name is that of a later member if there is one. -/
theorem lastMember?_cons (name other : String) (value : Value) (rest : List (String × Value)) :
    lastMember? ((name, value) :: rest) other =
      (lastMember? rest other).or (if other = name then some value else none) := by
  rw [lastMember?, List.reverse_cons, List.lookup_append, lookup_cons_eq]
  rfl

/-- What is found in sorted members after one is put among them. -/
theorem lookup_setMember {α : Type} (name other : String) (value : α)
    (members : List (String × α)) :
    (setMember name value members).lookup other =
      if other = name then some value else members.lookup other := by
  induction members with
  | nil => exact lookup_cons_eq ..
  | cons member rest ih =>
    obtain ⟨found, old⟩ := member
    rw [setMember]
    split
    · exact lookup_cons_eq ..
    · next hle =>
      split
      · next hname =>
        subst hname
        rw [lookup_cons_eq, lookup_cons_eq]
        split <;> rfl
      · next hname =>
        rw [lookup_cons_eq, lookup_cons_eq, ih]
        by_cases h : other = name
        · rw [if_pos h, if_pos h, if_neg (h ▸ hname)]
        · rw [if_neg h, if_neg h]

/-- Sorting keeps the last value of each name. -/
theorem lookup_sortedMembers (members done : List (String × Value)) (name : String) :
    (Value.sortedMembers members done).lookup name =
      ((lastMember? members name).map Value.sorted).or (done.lookup name) := by
  induction members generalizing done with
  | nil => rfl
  | cons member rest ih =>
    obtain ⟨found, value⟩ := member
    rw [Value.sortedMembers, ih, lookup_setMember, lastMember?_cons]
    cases lastMember? rest name with
    | some last => rfl
    | none => by_cases h : name = found <;> simp [h]

/-- A member of a sorted object is the last one of its name, sorted itself. -/
theorem member?_sorted (members : List (String × Value)) (name : String) :
    (Value.sorted (.object members)).member? name =
      (lastMember? members name).map Value.sorted := by
  rw [Value.sorted, Value.member?, lookup_sortedMembers]
  simp

/-- Putting a member among others adds no name but its own. -/
theorem names_setMember {α : Type} (value : α) {members : List (String × α)} :
    ∀ n ∈ names (setMember name value members), n = name ∨ n ∈ names members := by
  induction members with
  | nil => simp [setMember, names]
  | cons member rest ih =>
    obtain ⟨found, old⟩ := member
    rw [setMember]
    split
    · intro n hn
      exact List.mem_cons.1 hn
    · split
      · intro n hn
        exact (List.mem_cons.1 hn).imp_right (List.mem_cons_of_mem _)
      · intro n hn
        rcases List.mem_cons.1 hn with rfl | hn
        · exact .inr List.mem_cons_self
        · exact (ih n hn).imp_right (List.mem_cons_of_mem _)

/-- Putting a member among sorted ones keeps them sorted. -/
theorem sorted_setMember {α : Type} (name : String) (value : α) {members : List (String × α)}
    (h : (names members).Pairwise (· < ·)) :
    (names (setMember name value members)).Pairwise (· < ·) := by
  induction members with
  | nil => exact List.pairwise_singleton _ _
  | cons member rest ih =>
    obtain ⟨found, old⟩ := member
    obtain ⟨hfirst, hrest⟩ := List.pairwise_cons.1 (show (found :: names rest).Pairwise _ from h)
    rw [setMember]
    split
    · next hlt =>
      refine List.pairwise_cons.2 ⟨fun n hn => ?_, h⟩
      rcases List.mem_cons.1 hn with rfl | hn
      · exact hlt
      · exact hlt.trans (hfirst n hn)
    · next hle =>
      split
      · next heq =>
        subst heq
        exact List.pairwise_cons.2 ⟨hfirst, hrest⟩
      · next hne =>
        refine List.pairwise_cons.2 ⟨fun n hn => ?_, ih hrest⟩
        rcases names_setMember value n hn with rfl | hn
        · exact lt_of_le_of_ne (not_lt.1 hle) (Ne.symm hne)
        · exact hfirst n hn

/-- Sorted members are put in the order of their names. -/
theorem sorted_sortedMembers (h : (names done).Pairwise (· < ·)) :
    (names (Value.sortedMembers members done)).Pairwise (· < ·) := by
  induction members generalizing done with
  | nil => exact h
  | cons member rest ih =>
    obtain ⟨name, value⟩ := member
    exact ih (sorted_setMember name _ h)

/-- A sorted object has the same names. -/
theorem mem_names_sortedMembers :
    name ∈ names (Value.sortedMembers members []) ↔ name ∈ names members := by
  rw [← isSome_lookup, lookup_sortedMembers, ← isSome_lastMember?]
  simp

/-- No name stands twice in a sorted object. -/
theorem nodup_sortedMembers (members : List (String × Value)) :
    (names (Value.sortedMembers members [])).Nodup :=
  (sorted_sortedMembers List.Pairwise.nil).imp ne_of_lt

/-- A sorted object has a single name if the members have that name and no other. -/
theorem names_sortedMembers_eq_singleton :
    names (Value.sortedMembers members []) = [name] ↔
      name ∈ names members ∧ ∀ other ∈ names members, other = name := by
  have hperm := List.perm_ext_iff_of_nodup (nodup_sortedMembers members)
    (List.pairwise_singleton _ name)
  rw [← List.perm_singleton, hperm]
  simp only [mem_names_sortedMembers, List.mem_singleton]
  constructor
  · intro h
    exact ⟨(h name).2 rfl, fun other => (h other).1⟩
  · rintro ⟨hmem, honly⟩ other
    exact ⟨honly other, fun heq => heq ▸ hmem⟩

end TriggerDesk.Json
