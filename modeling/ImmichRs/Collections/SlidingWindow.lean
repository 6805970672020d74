import Mathlib.Data.List.NodupEquivFin
import Mathlib.Data.List.TakeWhile

/-!
# Sliding windows

A limiter which keeps the times of its last events and lets an event happen only while fewer than
`limit` of the kept times are recent.  However it drops old times, no window holds more than `limit`
events.
-/

namespace Collections

/-- Drop the times from the front which are at least `window` before `now`. -/
def recent (window now : Nat) (times : List Nat) : List Nat :=
  times.dropWhile fun time => decide (window ≤ now - time)

/-- Times in order, each at least `window` after the one `limit` places before it. -/
structure Spaced (limit window : Nat) (times : List Nat) : Prop where
  ordered : times.Pairwise (· ≤ ·)
  apart : ∀ (place earlier later : Nat), times[place]? = some earlier →
    times[place + limit]? = some later → earlier + window ≤ later

/-- What a limiter keeps is the end of all times, and the dropped ones are old ever since. -/
def KeepsRecent (window : Nat) (times kept : List Nat) (latest : Nat) : Prop :=
  ∃ dropped, times = dropped ++ kept ∧ ∀ time ∈ dropped, time + window ≤ latest

variable {limit window now latest : Nat} {times kept : List Nat}

theorem spaced_nil (limit window : Nat) : Spaced limit window [] :=
  ⟨List.Pairwise.nil, fun _ _ _ found => by cases found⟩

theorem keeps_self (window : Nat) (times : List Nat) (latest : Nat) :
    KeepsRecent window times times latest :=
  ⟨[], rfl, fun _ member => by cases member⟩

theorem KeepsRecent.recent (keeps : KeepsRecent window times kept latest) (later : latest ≤ now)
    (past : ∀ time ∈ times, time ≤ now) : KeepsRecent window times (recent window now kept) now := by
  obtain ⟨dropped, rfl, old⟩ := keeps
  refine ⟨dropped ++ kept.takeWhile fun time => decide (window ≤ now - time), ?_, ?_⟩
  · rw [List.append_assoc, Collections.recent, List.takeWhile_append_dropWhile]
  · intro time member
    rcases List.mem_append.mp member with before | inside
    · exact (old time before).trans later
    · have passed := List.mem_takeWhile_imp inside
      have reached := past time
        (List.mem_append_right dropped ((List.takeWhile_sublist _).subset inside))
      rw [decide_eq_true_eq] at passed
      omega

theorem KeepsRecent.later (keeps : KeepsRecent window times kept latest) (later : latest ≤ now) :
    KeepsRecent window times kept now := by
  obtain ⟨dropped, split, old⟩ := keeps
  exact ⟨dropped, split, fun time member => (old time member).trans later⟩

theorem KeepsRecent.concat (keeps : KeepsRecent window times kept latest) (time : Nat) :
    KeepsRecent window (times ++ [time]) (kept ++ [time]) latest := by
  obtain ⟨dropped, rfl, old⟩ := keeps
  exact ⟨dropped, List.append_assoc _ _ _, old⟩

/-- One more event, while fewer than `limit` times are kept. -/
theorem Spaced.concat (spaced : Spaced limit window times) (keeps : KeepsRecent window times kept now)
    (room : kept.length < limit) (past : ∀ time ∈ times, time ≤ now) :
    Spaced limit window (times ++ [now]) := by
  refine ⟨?_, ?_⟩
  · rw [List.pairwise_append]
    refine ⟨spaced.ordered, List.pairwise_singleton _ _, fun time member last inLast => ?_⟩
    rw [List.mem_singleton.mp inLast]
    exact past time member
  · intro place earlier later first second
    obtain ⟨dropped, rfl, old⟩ := keeps
    have bound := (List.getElem?_eq_some_iff.mp second).1
    rw [List.length_append, List.length_singleton] at bound
    have inside : place < (dropped ++ kept).length := by omega
    rw [List.getElem?_append_left inside] at first
    by_cases ended : place + limit < (dropped ++ kept).length
    · rw [List.getElem?_append_left ended] at second
      exact spaced.apart place earlier later first second
    · have last : place + limit = (dropped ++ kept).length := by omega
      rw [last, List.getElem?_concat_length, Option.some.injEq] at second
      rw [List.length_append] at last
      rw [List.getElem?_append_left (by omega)] at first
      rw [← second]
      exact old earlier (List.mem_of_getElem? first)

/-- No window holds more than `limit` of the times. -/
theorem Spaced.length_filter_le (spaced : Spaced limit window times) (start : Nat) :
    (times.filter fun time => decide (start ≤ time ∧ time < start + window)).length ≤ limit := by
  generalize chosen :
    (times.filter fun time => decide (start ≤ time ∧ time < start + window)) = inside
  have within : ∀ time ∈ inside, start ≤ time ∧ time < start + window := by
    intro time member
    rw [← chosen, List.mem_filter, decide_eq_true_eq] at member
    exact member.2
  have taken : inside.Sublist times := chosen ▸ List.filter_sublist
  obtain ⟨embed, found⟩ := List.sublist_iff_exists_orderEmbedding_getElem?_eq.mp taken
  by_contra more
  have long : limit < inside.length := Nat.lt_of_not_le more
  -- The first chosen time and the one `limit` places on are too far apart for the window.
  have first := (found 0).symm.trans (List.getElem?_eq_getElem (Nat.zero_lt_of_lt long))
  have last := (found limit).symm.trans (List.getElem?_eq_getElem long)
  have reached : embed 0 + limit ≤ embed limit := by
    have grown := embed.strictMono.add_le_nat limit 0
    rwa [Nat.add_comm, Nat.add_zero] at grown
  obtain ⟨bound, lastTime⟩ := List.getElem?_eq_some_iff.mp last
  have middle := List.getElem?_eq_getElem (Nat.lt_of_le_of_lt reached bound)
  have apart := spaced.apart _ _ _ first middle
  have sorted : times[embed 0 + limit] ≤ times[embed limit] := by
    rcases Nat.eq_or_lt_of_le reached with same | before
    · simp only [same, Nat.le_refl]
    · exact List.pairwise_iff_getElem.mp spaced.ordered _ _ _ bound before
  have early := within _ (List.getElem_mem (Nat.zero_lt_of_lt long))
  have late := within _ (List.getElem_mem long)
  omega

end Collections
