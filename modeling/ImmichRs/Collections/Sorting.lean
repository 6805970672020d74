import Mathlib.Data.List.Destutter
import Mathlib.Data.List.Sort

/-!
# Canonical lists

Sorting followed by the removal of adjacent duplicates, and stable sorting by a key.  Both forget
the order of their input: the first one depends on the members alone, the second one on the members
alone once their keys differ.
-/

namespace Collections

variable {α κ : Type}

section

variable [LinearOrder α]

/-- `sort` followed by `dedup`. -/
def sortDedup (items : List α) : List α :=
  (items.insertionSort (· ≤ ·)).destutter (· ≠ ·)

theorem sortDedup_eq_dedup (items : List α) :
    sortDedup items = (items.insertionSort (· ≤ ·)).dedup :=
  (List.pairwise_insertionSort (· ≤ ·) items).destutter_eq_dedup

@[simp] theorem mem_sortDedup {items : List α} {item : α} :
    item ∈ sortDedup items ↔ item ∈ items := by
  rw [sortDedup_eq_dedup, List.mem_dedup, List.mem_insertionSort]

@[simp] theorem sortDedup_nil : sortDedup ([] : List α) = [] := rfl

/-- The result is strictly ascending. -/
theorem pairwise_sortDedup (items : List α) : (sortDedup items).Pairwise (· < ·) := by
  have ascending : (sortDedup items).Pairwise (· ≤ ·) := by
    rw [sortDedup_eq_dedup]
    exact (List.pairwise_insertionSort (· ≤ ·) items).sublist (List.dedup_sublist _)
  have distinct : (sortDedup items).Nodup := by
    rw [sortDedup_eq_dedup]
    exact List.nodup_dedup _
  exact ascending.imp₂ (fun _ _ below different => lt_of_le_of_ne below different) distinct

/-- The result depends on the members alone. -/
theorem sortDedup_congr {first second : List α} (same : ∀ item, item ∈ first ↔ item ∈ second) :
    sortDedup first = sortDedup second := by
  apply (pairwise_sortDedup first).eq_of_mem_iff (pairwise_sortDedup second)
  intro item
  rw [mem_sortDedup, mem_sortDedup, same]

end

section

variable [LinearOrder κ] (key : α → κ)

/-- `sort_by` on a key. -/
def sortBy (items : List α) : List α :=
  items.insertionSort fun left right => key left ≤ key right

theorem perm_sortBy (items : List α) : (sortBy key items).Perm items :=
  List.perm_insertionSort _ _

@[simp] theorem mem_sortBy {items : List α} {item : α} :
    item ∈ sortBy key items ↔ item ∈ items :=
  (perm_sortBy key items).mem_iff

theorem pairwise_sortBy (items : List α) :
    (sortBy key items).Pairwise fun left right => key left ≤ key right := by
  have : Std.Total fun left right : α => key left ≤ key right :=
    ⟨fun left right => le_total (key left) (key right)⟩
  have : IsTrans α fun left right : α => key left ≤ key right :=
    ⟨fun _ _ _ => le_trans⟩
  exact List.pairwise_insertionSort _ items

variable {key}

/-- Keys which differ are strictly ascending after sorting. -/
theorem pairwise_map_sortBy {items : List α} (distinct : (items.map key).Nodup) :
    ((sortBy key items).map key).Pairwise (· < ·) := by
  have different : ((sortBy key items).map key).Nodup :=
    ((perm_sortBy key items).map key).nodup_iff.mpr distinct
  have ascending : ((sortBy key items).map key).Pairwise (· ≤ ·) :=
    List.pairwise_map.mpr (pairwise_sortBy key items)
  exact ascending.imp₂ (fun _ _ below different => lt_of_le_of_ne below different) different

/-- Items whose keys differ have one sorted order. -/
theorem sortBy_congr {first second : List α} (permuted : first.Perm second)
    (distinct : (first.map key).Nodup) : sortBy key first = sortBy key second := by
  have sorted : (sortBy key first).Perm (sortBy key second) :=
    ((perm_sortBy key first).trans permuted).trans (perm_sortBy key second).symm
  apply sorted.eq_of_pairwise _ (pairwise_sortBy key first) (pairwise_sortBy key second)
  intro left right leftMember rightMember below above
  exact List.inj_on_of_nodup_map distinct ((mem_sortBy key).mp leftMember)
    (permuted.mem_iff.mpr ((mem_sortBy key).mp rightMember)) (le_antisymm below above)

/-- Changes which keep the keys keep the order. -/
theorem sortBy_map {β : Type} {key : α → κ} {other : β → κ} {change : α → β}
    (same : ∀ item, other (change item) = key item) (items : List α) :
    sortBy other (items.map change) = (sortBy key items).map change := by
  rw [sortBy, sortBy]
  apply (List.map_insertionSort _ _ change items _).symm
  intro first _ second _
  rw [same, same]

end

end Collections
