import ImmichRs.Core.Migration

/-!
# Totals of byte lengths

A sum of 64-bit lengths wraps where the build does not check for overflow, and panics where it
does.  Both agree with the exact total as long as that total is a 64-bit word.
-/

namespace ImmichRs

/-- The exact total of some byte lengths. -/
def totalBytes (lengths : List UInt64) : Nat := (lengths.map UInt64.toNat).sum

/-- `u64::checked_add`. -/
def checkedAdd (left right : UInt64) : Option UInt64 :=
  if left.toNat + right.toNat < 2 ^ 64 then some (left + right) else none

/-- `Iterator::sum` in a build which checks for overflow: it panics where there is no result. -/
def checkedSum (lengths : List UInt64) : Option UInt64 := lengths.foldlM checkedAdd 0

theorem totalBytes_cons (length : UInt64) (lengths : List UInt64) :
    totalBytes (length :: lengths) = length.toNat + totalBytes lengths := by
  rw [totalBytes, totalBytes, List.map_cons, List.sum_cons]

/-- The unchecked sum is the exact total modulo `2 ^ 64`. -/
theorem toNat_sum (lengths : List UInt64) :
    lengths.sum.toNat = totalBytes lengths % 2 ^ 64 := by
  induction lengths with
  | nil => rfl
  | cons length rest induction =>
      rw [List.sum_cons, UInt64.toNat_add, induction, totalBytes_cons, Nat.add_mod_mod]

theorem toNat_sum_iff (lengths : List UInt64) :
    lengths.sum.toNat = totalBytes lengths ↔ totalBytes lengths < 2 ^ 64 := by
  rw [toNat_sum]
  exact Nat.mod_eq_iff_lt (by decide)

theorem checkedAdd_eq_some {left right total : UInt64} :
    checkedAdd left right = some total ↔
      left.toNat + right.toNat < 2 ^ 64 ∧ total.toNat = left.toNat + right.toNat := by
  rw [checkedAdd]
  split
  · rename_i small
    rw [Option.some.injEq, ← UInt64.toNat_inj, UInt64.toNat_add, Nat.mod_eq_of_lt small,
      eq_comm (a := left.toNat + right.toNat)]
    exact (and_iff_right small).symm
  · rename_i large
    exact iff_of_false nofun fun both => large both.1

/-- A checked fold returns exactly the totals which fit. -/
theorem foldlM_checkedAdd {lengths : List UInt64} {start total : UInt64} :
    lengths.foldlM checkedAdd start = some total ↔
      start.toNat + totalBytes lengths < 2 ^ 64 ∧
        total.toNat = start.toNat + totalBytes lengths := by
  induction lengths generalizing start with
  | nil =>
      have bounded : start.toNat < 2 ^ 64 := start.toNat_lt
      simp only [List.foldlM_nil, Option.pure_def, Option.some.injEq, totalBytes, List.map_nil,
        List.sum_nil, Nat.add_zero, bounded, true_and]
      rw [← UInt64.toNat_inj, eq_comm]
  | cons length rest induction =>
      rw [List.foldlM_cons, totalBytes_cons]
      simp only [Option.bind_eq_bind, Option.bind_eq_some_iff, checkedAdd_eq_some, induction]
      constructor
      · rintro ⟨next, ⟨_, added⟩, bounded, summed⟩
        rw [added] at bounded summed
        omega
      · rintro ⟨bounded, summed⟩
        have small : start.toNat + length.toNat < 2 ^ 64 := by omega
        have added : (start + length).toNat = start.toNat + length.toNat := by
          rw [UInt64.toNat_add, Nat.mod_eq_of_lt small]
        refine ⟨start + length, ⟨small, added⟩, ?_⟩
        rw [added]
        omega

theorem checkedSum_isSome_iff (lengths : List UInt64) :
    (checkedSum lengths).isSome = true ↔ totalBytes lengths < 2 ^ 64 := by
  rw [Option.isSome_iff_exists, checkedSum]
  simp only [foldlM_checkedAdd, UInt64.toNat_zero, Nat.zero_add]
  constructor
  · rintro ⟨_, bounded, _⟩
    exact bounded
  · intro bounded
    exact ⟨lengths.sum, bounded, (toNat_sum_iff lengths).mpr bounded⟩

/-! ## Accepted plans -/

/-- The byte lengths of an upload plan. -/
def UploadPlan.lengths (plan : UploadPlan) : List UInt64 :=
  plan.operations.map UploadOperation.byteLen

/-- The byte lengths of a migration plan. -/
def MigrationPlan.lengths (plan : MigrationPlan) : List UInt64 :=
  plan.assets.map MigrationAsset.byteLen

theorem UploadPlan.mediaBytes_eq {platform : Platform} {plan : UploadPlan}
    (accepted : plan.validate platform = .ok ()) : plan.summary.mediaBytes = plan.lengths.sum := by
  rw [← ((plan.validate_ok_iff platform).mp accepted).summary]
  rfl

theorem MigrationPlan.mediaBytes_eq {platform : Platform} {plan : MigrationPlan}
    (accepted : plan.validate platform = .ok ()) : plan.summary.mediaBytes = plan.lengths.sum := by
  rw [← (plan.accepted_of_validate platform accepted).summary]
  rfl

/-- A plan which its validator accepts has the exact total in its summary, and a build with
overflow checks validates it without a panic, exactly when the total is a 64-bit word. -/
theorem mediaBytes_exact_iff (platform : Platform) :
    (∀ plan : UploadPlan, plan.validate platform = .ok () →
      ((plan.summary.mediaBytes.toNat = totalBytes plan.lengths ∧
        (checkedSum plan.lengths).isSome = true) ↔ totalBytes plan.lengths < 2 ^ 64)) ∧
    ∀ plan : MigrationPlan, plan.validate platform = .ok () →
      ((plan.summary.mediaBytes.toNat = totalBytes plan.lengths ∧
        (checkedSum plan.lengths).isSome = true) ↔ totalBytes plan.lengths < 2 ^ 64) := by
  constructor
  · intro plan accepted
    rw [plan.mediaBytes_eq accepted, toNat_sum_iff, checkedSum_isSome_iff, and_self]
  · intro plan accepted
    rw [plan.mediaBytes_eq accepted, toNat_sum_iff, checkedSum_isSome_iff, and_self]

/-- A file of `2 ^ 63` bytes. -/
def hugeFile (digit : Char) (relativePath : String) : UploadOperation :=
  { sampleOperation digit relativePath .video .standalone none with
    byteLen := 9223372036854775808 }

/-- Two files whose total wraps to zero. -/
def wrappedPlan : UploadPlan := samplePlan .folder [hugeFile 'a' "a.mov", hugeFile 'b' "b.mov"]

theorem hugeFile_valid (platform : Platform) {digit : Char} {relativePath : String}
    (hex : isAsciiHexdigit digit = true) (ascii : digit.utf8Size = 1)
    (path : relativePath.isEmpty = false) : (hugeFile digit relativePath).Valid platform :=
  { sampleOperation_valid platform .video .standalone none (by simp) hex ascii path with
    length := show (9223372036854775808 : UInt64) ≠ 0 by decide }

theorem wrappedPlan_accepted :
    wrappedPlan.validate .reference = .ok () ∧ wrappedPlan.summary.mediaBytes = 0 ∧
      totalBytes wrappedPlan.lengths = 2 ^ 64 := by
  refine ⟨?_, by decide, by decide⟩
  apply samplePlan_validate
  · intro operation member
    rcases List.mem_pair.mp member with rfl | rfl
    · exact hugeFile_valid _ (by decide) (by decide) (by decide)
    · exact hugeFile_valid _ (by decide) (by decide) (by decide)
  · simp [hugeFile, sampleOperation]
  · decide
  · simp [hugeFile, sampleOperation]
  · simp [hugeFile, sampleOperation]

end ImmichRs
