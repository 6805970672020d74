import ImmichRs.Collections.Sorting
import Mathlib.Data.List.Nodup

/-!
# Keeping the first items of an order

Deleting every item whose identifier is not among the first of a sorted selection, as a bounded
table does when it prunes its oldest rows.
-/

namespace Collections

variable {α ι κ : Type} [LinearOrder κ] [DecidableEq ι]

/-- In a strictly ascending list the first `limit` items are those with fewer than `limit` smaller
ones. -/
theorem mem_take_iff_countP_lt {key : α → κ} {items : List α} {item : α} {limit : Nat}
    (ascending : (items.map key).Pairwise (· < ·)) (member : item ∈ items) :
    item ∈ items.take limit ↔ items.countP (fun other => key other < key item) < limit := by
  induction items generalizing limit with
  | nil => cases member
  | cons head rest induction =>
      rw [List.map_cons, List.pairwise_cons, List.forall_mem_map] at ascending
      obtain ⟨below, ascending⟩ := ascending
      cases limit with
      | zero => simp
      | succ limit =>
          rw [List.take_succ_cons, List.mem_cons, List.countP_cons]
          rcases List.mem_cons.mp member with rfl | later
          · have none : rest.countP (fun other => key other < key item) = 0 := by
              refine List.countP_eq_zero.mpr fun other inside less => ?_
              exact lt_asymm (below other inside) (of_decide_eq_true less)
            simp [none]
          · have less := below item later
            have different : item ≠ head := by
              rintro rfl
              exact lt_irrefl _ less
            rw [or_iff_right different, induction ascending later, if_pos (decide_eq_true less)]
            omega

/-- The items whose identifiers are among the first `limit` in the order of their keys. -/
def keepFirst (identifier : α → ι) (key : α → κ) (limit : Nat) (items : List α) : List α :=
  items.filter fun item => (((sortBy key items).take limit).map identifier).contains (identifier item)

variable {identifier : α → ι} {key : α → κ} {limit : Nat} {items : List α}

theorem keepFirst_sublist : (keepFirst identifier key limit items).Sublist items :=
  List.filter_sublist

theorem mem_keepFirst_iff_mem_take {item : α} (distinct : (items.map identifier).Nodup)
    (member : item ∈ items) :
    item ∈ keepFirst identifier key limit items ↔ item ∈ (sortBy key items).take limit := by
  rw [keepFirst, List.mem_filter, and_iff_right member, List.contains_iff_mem, List.mem_map]
  constructor
  · rintro ⟨other, taken, same⟩
    have listed : other ∈ items := (mem_sortBy key).mp (List.mem_of_mem_take taken)
    rwa [List.inj_on_of_nodup_map distinct listed member same] at taken
  · exact fun taken => ⟨item, taken, rfl⟩

/-- An item is kept when fewer than `limit` items come before it. -/
theorem mem_keepFirst_iff {item : α} (distinct : (items.map identifier).Nodup)
    (different : (items.map key).Nodup) (member : item ∈ items) :
    item ∈ keepFirst identifier key limit items ↔
      items.countP (fun other => key other < key item) < limit := by
  rw [mem_keepFirst_iff_mem_take distinct member,
    mem_take_iff_countP_lt (pairwise_map_sortBy different) ((mem_sortBy key).mpr member),
    (perm_sortBy key items).countP_eq]

/-- No more than `limit` items are kept. -/
theorem length_keepFirst_le (distinct : (items.map identifier).Nodup) :
    (keepFirst identifier key limit items).length ≤ limit := by
  have listed : keepFirst identifier key limit items ⊆ (sortBy key items).take limit := by
    intro item kept
    exact (mem_keepFirst_iff_mem_take distinct (keepFirst_sublist.subset kept)).mp kept
  have once : (keepFirst identifier key limit items).Nodup :=
    (List.Nodup.of_map identifier distinct).sublist keepFirst_sublist
  calc (keepFirst identifier key limit items).length
      ≤ ((sortBy key items).take limit).length := once.length_le_of_subset listed
    _ ≤ limit := List.length_take_le _ _

end Collections
