import Mathlib.Data.List.Nodup
import Mathlib.Data.List.Perm.Subperm

/-!
# Maps built from lists

Ordered maps which a loop fills with one entry for each item of a list.
-/

namespace Collections

open Std (ExtTreeMap)

variable {κ α β : Type} [Ord κ] [Std.TransOrd κ] [Std.LawfulEqOrd κ]

/-- Fill a map with one entry for each item; later items overwrite earlier ones. -/
def fill (key : α → κ) (value : α → β) (items : List α) (entries : ExtTreeMap κ β) :
    ExtTreeMap κ β :=
  items.foldl (fun entries item => entries.insert (key item) (value item)) entries

omit [Std.TransOrd κ] in
theorem compare_ne_of_ne {first second : κ} (different : first ≠ second) :
    compare first second ≠ .eq :=
  fun equal => different (Std.LawfulEqOrd.eq_of_compare equal)

theorem getElem?_insert_of_ne {entries : ExtTreeMap κ β} {first second : κ} {value : β}
    (different : first ≠ second) : (entries.insert first value)[second]? = entries[second]? := by
  rw [ExtTreeMap.getElem?_insert, if_neg (compare_ne_of_ne different)]

/-- Items with different keys are all found again. -/
theorem getElem?_fill {key : α → κ} (value : α → β) {items : List α}
    (distinct : (items.map key).Nodup) {entries : ExtTreeMap κ β}
    (fresh : ∀ item ∈ items, entries[key item]? = none) (found : κ) (result : β) :
    (fill key value items entries)[found]? = some result ↔
      entries[found]? = some result ∨ ∃ item ∈ items, key item = found ∧ value item = result := by
  induction items generalizing entries with
  | nil => simp [fill]
  | cons item rest induction =>
      obtain ⟨absent, distinct⟩ := List.nodup_cons.mp distinct
      have different : ∀ other ∈ rest, key item ≠ key other := fun other member same =>
        absent (same ▸ List.mem_map_of_mem member)
      have later : ∀ other ∈ rest, (entries.insert (key item) (value item))[key other]? = none := by
        intro other member
        rw [getElem?_insert_of_ne (different other member)]
        exact fresh other (List.mem_cons_of_mem _ member)
      rw [show fill key value (item :: rest) entries =
        fill key value rest (entries.insert (key item) (value item)) from rfl,
        induction distinct later]
      simp only [List.mem_cons, exists_eq_or_imp]
      by_cases same : key item = found
      · subst same
        simp [fresh item List.mem_cons_self]
      · rw [getElem?_insert_of_ne same]
        simp [same]

/-- Whatever a filled map holds was there before or comes from an item. -/
theorem getElem?_fill_cases {key : α → κ} {value : α → β} {items : List α}
    {entries : ExtTreeMap κ β} {found : κ} {result : β}
    (entry : (fill key value items entries)[found]? = some result) :
    entries[found]? = some result ∨ ∃ item ∈ items, key item = found ∧ value item = result := by
  induction items generalizing entries with
  | nil => exact .inl entry
  | cons item rest induction =>
      rcases induction entry with before | ⟨other, member, matched⟩
      · by_cases same : key item = found
        · subst same
          rw [ExtTreeMap.getElem?_insert_self, Option.some.injEq] at before
          exact .inr ⟨item, List.mem_cons_self, rfl, before⟩
        · rw [getElem?_insert_of_ne same] at before
          exact .inl before
      · exact .inr ⟨other, List.mem_cons_of_mem _ member, matched⟩

/-- A filled map holds the last item of each key. -/
theorem getElem?_fill_last [DecidableEq κ] (key : α → κ) (value : α → β) (items : List α)
    (entries : ExtTreeMap κ β) (found : κ) :
    (fill key value items entries)[found]? =
      ((items.filter fun item => key item = found).getLast?.map value).or entries[found]? := by
  induction items generalizing entries with
  | nil => rfl
  | cons item rest induction =>
      have later := induction (entries.insert (key item) (value item))
      change (fill key value rest (entries.insert (key item) (value item)))[found]? = _
      rw [later]
      by_cases same : key item = found
      · subst same
        rw [ExtTreeMap.getElem?_insert_self, List.filter_cons_of_pos (by simp),
          List.getLast?_cons]
        cases (rest.filter fun other => key other = key item).getLast? <;> rfl
      · rw [getElem?_insert_of_ne same, List.filter_cons_of_neg (by simpa using same)]

omit [Std.LawfulEqOrd κ] in
theorem size_insert_le (entries : ExtTreeMap κ β) (key : κ) (value : β) :
    (entries.insert key value).size ≤ entries.size + 1 := by
  rw [ExtTreeMap.size_insert]
  split <;> omega

omit [Std.LawfulEqOrd κ] in
theorem size_fill_le (key : α → κ) (value : α → β) (items : List α) (entries : ExtTreeMap κ β) :
    (fill key value items entries).size ≤ entries.size + items.length := by
  induction items generalizing entries with
  | nil => exact Nat.le_refl _
  | cons item rest induction =>
      have bound := induction (entries.insert (key item) (value item))
      have grown := size_insert_le entries (key item) (value item)
      rw [List.length_cons]
      exact Nat.le_trans bound (by omega)

omit [Std.LawfulEqOrd κ] in
/-- A filled map with as many new entries as items had items with different, new keys. -/
theorem nodup_of_size_fill {key : α → κ} {value : α → β} {items : List α}
    {entries : ExtTreeMap κ β}
    (size : (fill key value items entries).size = entries.size + items.length) :
    (items.map key).Nodup ∧ ∀ item ∈ items, key item ∉ entries := by
  induction items generalizing entries with
  | nil => exact ⟨List.nodup_nil, by simp⟩
  | cons item rest induction =>
      have same : fill key value (item :: rest) entries =
        fill key value rest (entries.insert (key item) (value item)) := rfl
      have bound := size_fill_le key value rest (entries.insert (key item) (value item))
      have grown := size_insert_le entries (key item) (value item)
      rw [same, List.length_cons] at size
      have full : (fill key value rest (entries.insert (key item) (value item))).size =
          (entries.insert (key item) (value item)).size + rest.length := by omega
      obtain ⟨distinct, fresh⟩ := induction full
      have new : key item ∉ entries := by
        intro inside
        rw [ExtTreeMap.size_insert, if_pos (ExtTreeMap.contains_iff_mem.mpr inside)] at bound
        omega
      refine ⟨List.nodup_cons.mpr ⟨fun listed => ?_, distinct⟩, ?_⟩
      · obtain ⟨other, member, equal⟩ := List.mem_map.mp listed
        refine fresh other member ?_
        rw [ExtTreeMap.mem_insert, equal]
        exact .inl Std.ReflCmp.compare_self
      · refine List.forall_mem_cons.mpr ⟨new, fun other member inside => fresh other member ?_⟩
        rw [ExtTreeMap.mem_insert]
        exact .inr inside

/-- Distinct keys which a map holds are all of its keys when it has no more entries. -/
theorem perm_keys {keys : List κ} {entries : ExtTreeMap κ β} (distinct : keys.Nodup)
    (held : ∀ key ∈ keys, key ∈ entries) (size : entries.size ≤ keys.length) :
    entries.keys.Perm keys := by
  have contained : keys.Subperm entries.keys :=
    distinct.subperm fun key member => ExtTreeMap.mem_keys.mpr (held key member)
  rw [← ExtTreeMap.length_keys] at size
  exact (contained.perm_of_length_le size).symm

/-- Items with one value under an injective partial map are equal. -/
theorem eq_of_nodup_filterMap {select : α → Option β} {items : List α}
    (distinct : (items.filterMap select).Nodup) {first second : α} (firstMember : first ∈ items)
    (secondMember : second ∈ items) {value : β} (firstValue : select first = some value)
    (secondValue : select second = some value) : first = second := by
  induction items with
  | nil => cases firstMember
  | cons item rest induction =>
      have absent : ∀ other ∈ rest, select item = some value → select other = some value →
          False := by
        intro other member here there
        rw [List.filterMap_cons, here] at distinct
        exact (List.nodup_cons.mp distinct).1 (List.mem_filterMap.mpr ⟨other, member, there⟩)
      have tail : (rest.filterMap select).Nodup := by
        rw [List.filterMap_cons] at distinct
        split at distinct
        · exact distinct
        · exact (List.nodup_cons.mp distinct).2
      rcases List.mem_cons.mp firstMember with firstHere | firstMember
      · rcases List.mem_cons.mp secondMember with secondHere | secondMember
        · rw [firstHere, secondHere]
        · exact (absent second secondMember (firstHere ▸ firstValue) secondValue).elim
      · rcases List.mem_cons.mp secondMember with secondHere | secondMember
        · exact (absent first firstMember (secondHere ▸ secondValue) firstValue).elim
        · exact induction tail firstMember secondMember

end Collections
