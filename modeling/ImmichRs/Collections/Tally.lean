import Mathlib.Algebra.BigOperators.Group.Finset.Basic
import Mathlib.Algebra.GroupWithZero.Nat
import ImmichRs.Collections.Keyed

/-!
# Tallies

A table which counts, for each key, how often it occurs in a list, without an entry for a key which
does not occur.
-/

namespace Collections

variable {κ : Type} [DecidableEq κ] {table : Keyed κ Nat} {keys : List κ} {key : κ}

/-- The table counts the keys of a list. -/
def Tallies (table : Keyed κ Nat) (keys : List κ) : Prop :=
  ∀ key, table.lookup key = if key ∈ keys then some (keys.count key) else none

theorem tallies_nil : Tallies (∅ : Keyed κ Nat) [] := by
  intro key
  rw [AList.lookup_empty, if_neg List.not_mem_nil]

/-- The entry of a key, or zero. -/
theorem Tallies.getD (tallies : Tallies table keys) (key : κ) :
    (table.lookup key).getD 0 = keys.count key := by
  rw [tallies key]
  split_ifs with member
  · rfl
  · exact (List.count_eq_zero_of_not_mem member).symm

theorem Tallies.perm (tallies : Tallies table keys) {other : List κ} (same : keys.Perm other) :
    Tallies table other := by
  intro key
  rw [tallies key, same.count_eq]
  simp only [same.mem_iff]

theorem Tallies.insert (tallies : Tallies table keys) (key : κ) :
    Tallies (table.insert key ((table.lookup key).getD 0 + 1)) (key :: keys) := by
  intro other
  rw [tallies.getD]
  by_cases same : other = key
  · subst same
    rw [AList.lookup_insert, if_pos List.mem_cons_self, List.count_cons_self]
  · rw [AList.lookup_insert_ne same, tallies other, List.count_cons_of_ne (Ne.symm same)]
    simp only [List.mem_cons, same, false_or]

/-- The table with one less at a key, whose entry goes at zero. -/
def withdraw (table : Keyed κ Nat) (key : κ) : Keyed κ Nat :=
  match table.lookup key with
  | some count => if count - 1 = 0 then table.erase key else table.insert key (count - 1)
  | none => table

theorem Tallies.withdraw (tallies : Tallies table (key :: keys)) :
    Tallies (withdraw table key) keys := by
  have held := tallies key
  rw [if_pos List.mem_cons_self, List.count_cons_self] at held
  intro other
  rw [Collections.withdraw, held]
  dsimp only
  rw [Nat.add_sub_cancel]
  by_cases same : other = key
  · subst same
    by_cases none : keys.count other = 0
    · rw [if_pos none, AList.lookup_erase, if_neg (List.count_eq_zero.mp none)]
    · rw [if_neg none, AList.lookup_insert,
        if_pos (List.count_pos_iff.mp (Nat.pos_of_ne_zero none))]
  · have before := tallies other
    rw [List.count_cons_of_ne (Ne.symm same)] at before
    simp only [List.mem_cons, same, false_or] at before
    rw [← before]
    by_cases none : keys.count key = 0
    · rw [if_pos none, AList.lookup_erase_ne same]
    · rw [if_neg none, AList.lookup_insert_ne same]

/-- The counts add up to the number of keys. -/
theorem Tallies.sum (tallies : Tallies table keys) :
    (table.entries.map Sigma.snd).sum = keys.length := by
  have counted : table.entries.map Sigma.snd = table.keys.map keys.count := by
    rw [AList.keys, List.keys, List.map_map]
    apply List.map_congr_left
    intro entry member
    have held := AList.mem_lookup_iff.mpr member
    rw [Option.mem_def, tallies] at held
    split_ifs at held
    exact (Option.some.inj held).symm
  have listed : table.keys.toFinset = keys.toFinset := by
    ext key
    rw [List.mem_toFinset, List.mem_toFinset, ← AList.mem_keys, ← AList.lookup_isSome, tallies key]
    split_ifs with member <;> simp [member]
  have unique : table.keys.Nodup := table.nodupKeys
  rw [counted, ← List.sum_toFinset _ unique, listed]
  exact List.sum_toFinset_count_eq_length keys

end Collections
