import Mathlib.Data.List.AList

/-!
# Tables

Association lists with one entry for each key: changing one value or every value, and counting the
values with a property.
-/

namespace Collections

variable {κ α : Type} [DecidableEq κ]

/-- A map from keys to values. -/
abbrev Keyed (κ α : Type) : Type := AList fun _ : κ => α

namespace Keyed

variable {table : Keyed κ α} {key other : κ} {value found : α}

theorem lookup_insert_cases (inserted : (table.insert key value).lookup other = some found) :
    other = key ∧ found = value ∨ other ≠ key ∧ table.lookup other = some found := by
  by_cases same : other = key
  · subst same
    rw [AList.lookup_insert, Option.some.injEq] at inserted
    exact .inl ⟨rfl, inserted.symm⟩
  · rw [AList.lookup_insert_ne same] at inserted
    exact .inr ⟨same, inserted⟩

theorem lookup_of_lookup_erase (kept : (table.erase key).lookup other = some found) :
    other ≠ key ∧ table.lookup other = some found := by
  by_cases same : other = key
  · subst same
    rw [AList.lookup_erase] at kept
    cases kept
  · rw [AList.lookup_erase_ne same] at kept
    exact ⟨same, kept⟩

theorem mem_of_lookup (held : table.lookup key = some value) : key ∈ table :=
  AList.lookup_isSome.mp (held ▸ rfl)

theorem exists_of_mem (member : key ∈ table) : ∃ value, table.lookup key = some value :=
  Option.isSome_iff_exists.mp (AList.lookup_isSome.mpr member)

theorem length_keys_insert_of_mem (member : key ∈ table) :
    (table.insert key value).keys.length = table.keys.length := by
  rw [AList.keys_insert, List.length_cons, List.length_erase_of_mem (AList.mem_keys.mp member)]
  have positive := List.length_pos_of_mem (AList.mem_keys.mp member)
  omega

theorem length_keys_insert_of_notMem (fresh : key ∉ table) :
    (table.insert key value).keys.length = table.keys.length + 1 := by
  rw [AList.keys_insert, List.length_cons,
    List.erase_of_not_mem fun member => fresh (AList.mem_keys.mpr member)]

theorem length_keys_erase_of_mem (member : key ∈ table) :
    (table.erase key).keys.length + 1 = table.keys.length := by
  rw [AList.keys_erase, List.length_erase_of_mem (AList.mem_keys.mp member)]
  have positive := List.length_pos_of_mem (AList.mem_keys.mp member)
  omega

/-! ## Changing values -/

/-- Change the value of a key, if it has one. -/
def modify (key : κ) (change : α → α) (table : Keyed κ α) : Keyed κ α :=
  match table.lookup key with
  | some value => table.insert key (change value)
  | none => table

theorem modify_of_lookup {change : α → α} (held : table.lookup key = some value) :
    modify key change table = table.insert key (change value) := by
  rw [modify, held]

theorem lookup_modify_self (change : α → α) :
    (modify key change table).lookup key = (table.lookup key).map change := by
  unfold modify
  split
  · rename_i value held
    rw [AList.lookup_insert, held, Option.map_some]
  · rename_i absent
    rw [absent, Option.map_none]

theorem lookup_modify_ne (change : α → α) (different : other ≠ key) :
    (modify key change table).lookup other = table.lookup other := by
  unfold modify
  split
  · exact AList.lookup_insert_ne different
  · rfl

theorem mem_modify (change : α → α) : other ∈ modify key change table ↔ other ∈ table := by
  unfold modify
  split
  · rename_i value held
    rw [AList.mem_insert, or_iff_right_iff_imp]
    rintro rfl
    exact mem_of_lookup held
  · rfl

theorem length_keys_modify (change : α → α) :
    (modify key change table).keys.length = table.keys.length := by
  unfold modify
  split
  · rename_i value held
    exact length_keys_insert_of_mem (mem_of_lookup held)
  · rfl

/-- Change every value. -/
def mapValues (change : α → α) (table : Keyed κ α) : Keyed κ α where
  entries := table.entries.map fun entry => ⟨entry.1, change entry.2⟩
  nodupKeys := table.nodupKeys.map₂ fun _ => change

theorem lookup_mapValues (change : α → α) :
    (mapValues change table).lookup key = (table.lookup key).map change :=
  List.dlookup_map₂ (f := fun _ : κ => change) key

theorem mem_mapValues (change : α → α) : key ∈ mapValues change table ↔ key ∈ table := by
  rw [← AList.lookup_isSome, ← AList.lookup_isSome, lookup_mapValues, Option.isSome_map]

/-- Drop the entries whose values fail a test. -/
def retain (keep : α → Bool) (table : Keyed κ α) : Keyed κ α where
  entries := table.entries.filter fun entry => keep entry.2
  nodupKeys := table.nodupKeys.sublist List.filter_sublist

theorem lookup_retain {keep : α → Bool} :
    (retain keep table).lookup key = some value ↔
      table.lookup key = some value ∧ keep value = true := by
  rw [← Option.mem_def, AList.mem_lookup_iff, ← Option.mem_def, AList.mem_lookup_iff]
  exact List.mem_filter

omit [DecidableEq κ] in
theorem length_keys_retain_le (keep : α → Bool) (table : Keyed κ α) :
    (retain keep table).keys.length ≤ table.keys.length := by
  exact (List.filter_sublist.map Sigma.fst).length_le

theorem length_keys_erase_le (table : Keyed κ α) (key : κ) :
    (table.erase key).keys.length ≤ table.keys.length := by
  rw [AList.keys_erase]
  exact List.length_erase_le

theorem length_keys_insert_le (table : Keyed κ α) (key : κ) (value : α) :
    (table.insert key value).keys.length ≤ table.keys.length + 1 := by
  rw [AList.keys_insert, List.length_cons]
  exact Nat.succ_le_succ List.length_erase_le

/-! ## Counting values -/

/-- The number of values with a property. -/
def count (holds : α → Bool) (table : Keyed κ α) : Nat :=
  table.entries.countP fun entry => holds entry.2

variable (holds : α → Bool)

omit [DecidableEq κ] in
theorem count_empty : count holds (∅ : Keyed κ α) = 0 := rfl

theorem count_insert (table : Keyed κ α) (key : κ) (value : α) :
    count holds (table.insert key value) =
      count holds (table.erase key) + if holds value then 1 else 0 := by
  rw [count, AList.entries_insert, List.countP_cons]
  rfl

theorem count_erase_add (held : table.lookup key = some value) :
    count holds (table.erase key) + (if holds value then 1 else 0) = count holds table := by
  have member : key ∈ table.entries.keys := AList.mem_keys.mp (mem_of_lookup held)
  obtain ⟨first, before, after, absent, split, erased⟩ := List.exists_of_kerase member
  have entry : ⟨key, value⟩ ∈ table.entries := AList.mem_lookup_iff.mp held
  have same : first = value := by
    apply table.nodupKeys.eq_of_mk_mem _ entry
    rw [split]
    exact List.mem_append_right _ List.mem_cons_self
  have rest : (table.erase key).entries = before ++ after := erased
  rw [count, count, rest, split, List.countP_append, List.countP_append, List.countP_cons, same,
    Nat.add_assoc]

theorem erase_of_lookup_none (absent : table.lookup key = none) : table.erase key = table :=
  AList.ext (List.kerase_of_notMem_keys (AList.lookup_eq_none.mp absent))

theorem count_insert_of_lookup_none (absent : table.lookup key = none) :
    count holds (table.insert key value) = count holds table + if holds value then 1 else 0 := by
  rw [count_insert, erase_of_lookup_none absent]

/-- Replacing a value moves the count by the difference of the two. -/
theorem count_insert_of_lookup (held : table.lookup key = some found) (value : α) :
    count holds (table.insert key value) + (if holds found then 1 else 0) =
      count holds table + if holds value then 1 else 0 := by
  rw [count_insert, ← count_erase_add holds held]
  omega

variable {holds} in
theorem count_eq_zero_iff :
    count holds table = 0 ↔ ∀ key value, table.lookup key = some value → holds value = false := by
  rw [count, List.countP_eq_zero]
  constructor
  · intro none key value held
    simpa using none ⟨key, value⟩ (AList.mem_lookup_iff.mp held)
  · rintro none ⟨key, value⟩ member
    simpa using none key value (AList.mem_lookup_iff.mpr member)

variable {holds} in
theorem count_pos_of_lookup (held : table.lookup key = some value) (holding : holds value = true) :
    0 < count holds table := by
  rw [Nat.pos_iff_ne_zero]
  intro zero
  rw [count_eq_zero_iff.mp zero key value held] at holding
  cases holding

end Keyed

end Collections
