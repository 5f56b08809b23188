/-!
# Tables

A table gives at most one value to each key. It is a list of entries, so what a table holds can
be read off and counted. `get?_set` and `get?_erase` say what the two operations do to the view
`get?`; `Table.WellFormed` says that no key has two entries, which both operations keep, and then
`get?` finds exactly the entries.
-/

namespace TriggerDesk

/-- Values by key. -/
structure Table (α β : Type) where
  entries : List (α × β)
  deriving DecidableEq, Repr

namespace Table

variable {α β : Type} [DecidableEq α]

/-- The table without entries. -/
def empty : Table α β := ⟨[]⟩

/-- The value of a key. -/
def get? (table : Table α β) (key : α) : Option β :=
  (table.entries.find? (·.1 = key)).map (·.2)

/-- Whether a key has a value. -/
def contains (table : Table α β) (key : α) : Bool :=
  (table.get? key).isSome

/-- The number of entries. -/
def size (table : Table α β) : Nat := table.entries.length

/-- The keys, in the order of the entries. -/
def keys (table : Table α β) : List α := table.entries.map (·.1)

/-- Sets the value of a key in a list of entries: in its place, or at the end. -/
def setIn (key : α) (value : β) : List (α × β) → List (α × β)
  | [] => [(key, value)]
  | entry :: rest => if entry.1 = key then (key, value) :: rest else entry :: setIn key value rest

/-- Sets the value of a key. -/
def set (table : Table α β) (key : α) (value : β) : Table α β :=
  ⟨setIn key value table.entries⟩

/-- Removes the value of a key. -/
def erase (table : Table α β) (key : α) : Table α β :=
  ⟨table.entries.filter (·.1 ≠ key)⟩

/-- Removes the values of some keys. -/
def eraseAll (table : Table α β) (keys : List α) : Table α β :=
  keys.foldl erase table

/-! ## What the operations do to the values -/

/-- An empty table has no value for a key. -/
@[simp]
theorem get?_empty (key : α) : (empty : Table α β).get? key = none := rfl

/-- Setting the value of a key changes what is found under it and under no other key. -/
theorem find?_setIn (entries : List (α × β)) (key other : α) (value : β) :
    ((setIn key value entries).find? (·.1 = other)).map (·.2) =
      if other = key then some value else (entries.find? (·.1 = other)).map (·.2) := by
  induction entries with
  | nil => by_cases h : other = key <;> simp [setIn, h, eq_comm]
  | cons entry rest ih =>
    rw [setIn]
    split
    · next hentry => by_cases h : other = key <;> simp_all [eq_comm]
    · next hentry =>
      by_cases h : entry.1 = other
      · have hne : other ≠ key := h ▸ hentry
        simp [h, hne]
      · simpa [h] using ih

/-- What a table has after a value is set. -/
theorem get?_set (table : Table α β) (key other : α) (value : β) :
    (table.set key value).get? other = if other = key then some value else table.get? other :=
  find?_setIn table.entries key other value

/-- A value that is set is found. -/
@[simp]
theorem get?_set_self (table : Table α β) (key : α) (value : β) :
    (table.set key value).get? key = some value := by
  simp [get?_set]

/-- Setting a value leaves those of other keys. -/
theorem get?_set_of_ne (table : Table α β) {key other : α} (value : β) (h : other ≠ key) :
    (table.set key value).get? other = table.get? other := by
  simp [get?_set, h]

/-- What a table has after a value is removed. -/
theorem get?_erase (table : Table α β) (key other : α) :
    (table.erase key).get? other = if other = key then none else table.get? other := by
  simp only [get?, erase, List.find?_filter]
  by_cases h : other = key
  · subst h
    simp [List.find?_eq_none]
  · rw [if_neg h]
    congr 2
    funext entry
    by_cases he : entry.1 = other <;> simp [he, h]

/-- A value that is removed is not found. -/
@[simp]
theorem get?_erase_self (table : Table α β) (key : α) : (table.erase key).get? key = none := by
  simp [get?_erase]

/-- Removing a value leaves those of other keys. -/
theorem get?_erase_of_ne (table : Table α β) {key other : α} (h : other ≠ key) :
    (table.erase key).get? other = table.get? other := by
  simp [get?_erase, h]

/-- What a table has after some values are removed. -/
theorem get?_eraseAll (table : Table α β) (keys : List α) (other : α) :
    (table.eraseAll keys).get? other = if other ∈ keys then none else table.get? other := by
  induction keys generalizing table with
  | nil => simp [eraseAll]
  | cons key rest ih =>
    have step : (table.eraseAll (key :: rest)) = (table.erase key).eraseAll rest := rfl
    rw [step, ih, get?_erase]
    by_cases h : other ∈ rest <;> by_cases hk : other = key <;> simp [h, hk]

/-- A table that finds nothing has no entries. -/
theorem eq_empty_of_get? {table : Table α β} (h : ∀ key, table.get? key = none) :
    table = empty := by
  obtain ⟨entries⟩ := table
  cases entries with
  | nil => rfl
  | cons entry rest =>
    have hnone := h entry.1
    simp [get?] at hnone

/-! ## One entry to a key -/

/-- No key has two entries. -/
def WellFormed (table : Table α β) : Prop := table.keys.Nodup

omit [DecidableEq α] in
/-- An empty table has no key twice. -/
theorem WellFormed.empty : (Table.empty : Table α β).WellFormed := List.nodup_nil

/-- Setting a value leaves the keys, or adds one at the end. -/
theorem keys_setIn (entries : List (α × β)) (key : α) (value : β) :
    (setIn key value entries).map (·.1) =
      if key ∈ entries.map (·.1) then entries.map (·.1) else entries.map (·.1) ++ [key] := by
  induction entries with
  | nil => simp [setIn]
  | cons entry rest ih =>
    rw [setIn]
    split
    · next h => simp [h]
    · next h =>
      have hne : key ≠ entry.1 := fun e => h e.symm
      rw [List.map_cons, ih, List.map_cons]
      by_cases hmem : key ∈ rest.map (·.1)
      · rw [if_pos hmem, if_pos (List.mem_cons_of_mem _ hmem)]
      · have hnot : key ∉ entry.1 :: rest.map (·.1) := List.not_mem_cons_of_ne_of_not_mem hne hmem
        rw [if_neg hmem, if_neg hnot]
        rfl

/-- Setting a value gives no key a second entry. -/
theorem WellFormed.set {table : Table α β} (h : table.WellFormed) (key : α) (value : β) :
    (table.set key value).WellFormed := by
  unfold WellFormed keys at *
  rw [Table.set, keys_setIn]
  split
  · exact h
  · next hmem =>
    rw [List.nodup_append]
    refine ⟨h, List.pairwise_singleton _ _, fun a ha b hb => ?_⟩
    rintro rfl
    exact hmem (List.mem_singleton.1 hb ▸ ha)

/-- Removing a value leaves no key with two entries. -/
theorem WellFormed.erase {table : Table α β} (h : table.WellFormed) (key : α) :
    (table.erase key).WellFormed :=
  List.Nodup.sublist (List.Sublist.map _ List.filter_sublist) h

/-- Removing several values leaves no key with two entries. -/
theorem WellFormed.eraseAll {table : Table α β} (h : table.WellFormed) (keys : List α) :
    (table.eraseAll keys).WellFormed := by
  induction keys generalizing table with
  | nil => exact h
  | cons key rest ih => exact ih (h.erase key)

/-! ## The entries -/

/-- A key has a value if there is an entry with it. -/
theorem contains_eq_any (table : Table α β) (key : α) :
    table.contains key = table.entries.any (·.1 = key) := by
  rw [Bool.eq_iff_iff, contains, get?, Option.isSome_map, List.find?_isSome, List.any_eq_true]

/-- A value that is found stands in an entry. -/
theorem mem_entries_of_get? {table : Table α β} {key : α} {value : β}
    (h : table.get? key = some value) : (key, value) ∈ table.entries := by
  obtain ⟨entry, hfind, rfl⟩ := Option.map_eq_some_iff.1 h
  have hkey : entry.1 = key := by simpa using List.find?_some hfind
  exact hkey ▸ List.mem_of_find?_eq_some hfind

/-- In a table with one entry to a key, the value of a key is that of its entry. -/
theorem WellFormed.get?_eq_some_iff {table : Table α β} (h : table.WellFormed) {key : α}
    {value : β} : table.get? key = some value ↔ (key, value) ∈ table.entries := by
  refine ⟨mem_entries_of_get?, fun hmem => ?_⟩
  obtain ⟨entries⟩ := table
  induction entries with
  | nil => cases hmem
  | cons entry rest ih =>
    obtain ⟨hne, hrest⟩ := List.nodup_cons.1 (show (entry.1 :: rest.map (·.1)).Nodup from h)
    rcases List.mem_cons.1 hmem with rfl | hmem
    · simp [get?]
    · have hkey : entry.1 ≠ key := by
        rintro rfl
        exact hne (List.mem_map.2 ⟨_, hmem, rfl⟩)
      have htail := ih hrest hmem
      simpa [get?, hkey] using htail

/-- A new key comes to the end of the entries. -/
theorem entries_set_of_not_contains {table : Table α β} {key : α}
    (h : table.contains key = false) (value : β) :
    (table.set key value).entries = table.entries ++ [(key, value)] := by
  obtain ⟨entries⟩ := table
  rw [contains_eq_any] at h
  induction entries with
  | nil => rfl
  | cons entry rest ih =>
    rw [List.any_cons, Bool.or_eq_false_iff, decide_eq_false_iff_not] at h
    have htail := ih h.2
    simp only [set] at htail
    simp [set, setIn, h.1, htail]

/-- Removing keys takes their entries out and leaves the order of the others. -/
theorem entries_eraseAll (table : Table α β) (keys : List α) :
    (table.eraseAll keys).entries = table.entries.filter (·.1 ∉ keys) := by
  induction keys generalizing table with
  | nil => exact (List.filter_eq_self.2 fun _ _ => by simp).symm
  | cons key rest ih =>
    have step : table.eraseAll (key :: rest) = (table.erase key).eraseAll rest := rfl
    rw [step, ih, erase, List.filter_filter]
    congr 1
    funext entry
    by_cases hk : entry.1 = key <;> by_cases hr : entry.1 ∈ rest <;> simp [hk, hr]

end Table

end TriggerDesk
