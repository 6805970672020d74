import ImmichRs.Interaction.Pool
import Mathlib.Algebra.BigOperators.Group.List.Basic
import Mathlib.Algebra.Ring.Nat

/-!
# Interleavings

The events of a pool take turns.  An interleaving takes the items of several tracks, each track in
its own order, so it has the items of all tracks, and what comes before an item in its track comes
before it in the interleaving.
-/

namespace Interaction

variable {ε : Type}

/-- A list which takes all items of several tracks, each track in its own order. -/
inductive Interleaved : List (List ε) → List ε → Prop
  | done {tracks : List (List ε)} : (∀ track ∈ tracks, track = []) → Interleaved tracks []
  | take {left right : List (List ε)} {item : ε} {track items : List ε} :
      Interleaved (left ++ track :: right) items →
      Interleaved (left ++ (item :: track) :: right) (item :: items)

namespace Interleaved

/-- An interleaving rearranges the items of its tracks. -/
theorem perm {tracks : List (List ε)} {items : List ε} (interleaved : Interleaved tracks items) :
    items.Perm tracks.flatten := by
  induction interleaved with
  | done empty => rw [List.flatten_eq_nil_iff.mpr empty]
  | @take left right item track items _ induction =>
      rw [List.flatten_append, List.flatten_cons] at induction ⊢
      have moved : (left.flatten ++ (item :: track ++ right.flatten)).Perm
          (item :: (left.flatten ++ (track ++ right.flatten))) := List.perm_middle
      exact (induction.cons item).trans moved.symm

/-- A track may take several items in a row. -/
theorem prepend {left right : List (List ε)} {track items : List ε}
    (interleaved : Interleaved (left ++ track :: right) items) (first : List ε) :
    Interleaved (left ++ (first ++ track) :: right) (first ++ items) := by
  induction first with
  | nil => exact interleaved
  | cons item first induction => exact .take induction

/-- A track without items changes nothing. -/
theorem insert_nil {left right : List (List ε)} {items : List ε}
    (interleaved : Interleaved (left ++ right) items) :
    Interleaved (left ++ [] :: right) items := by
  generalize joined : left ++ right = tracks at interleaved
  induction interleaved generalizing left right with
  | done empty =>
      refine .done fun track member => ?_
      rw [List.mem_append, List.mem_cons] at member
      rcases member with inLeft | rfl | inRight
      · exact empty track (joined ▸ List.mem_append_left _ inLeft)
      · rfl
      · exact empty track (joined ▸ List.mem_append_right _ inRight)
  | @take front back item track items _ induction =>
      rcases List.append_eq_append_iff.mp joined with ⟨middle, rfl, rfl⟩ | ⟨middle, rfl, rest⟩
      · have moved := @induction left (middle ++ track :: back) (by simp)
        have shifted : Interleaved ((left ++ [] :: middle) ++ track :: back) items := by
          simpa using moved
        simpa using @take _ _ _ item _ _ shifted
      · cases middle with
        | nil =>
            rw [List.nil_append] at rest
            rw [← rest, List.append_nil]
            have moved := @induction front (track :: back) rfl
            have shifted : Interleaved ((front ++ [[]]) ++ track :: back) items := by
              simpa using moved
            simpa using @take _ _ _ item _ _ shifted
        | cons head middle =>
            obtain ⟨rfl, rfl⟩ := List.cons.inj rest
            have moved := @induction (front ++ track :: middle) right (by simp)
            have shifted : Interleaved (front ++ track :: (middle ++ [] :: right)) items := by
              simpa using moved
            simpa using @take _ _ _ item _ _ shifted

/-- Every item belongs to a track, and its past there is part of its past. -/
theorem locate {tracks : List (List ε)} {items : List ε} (interleaved : Interleaved tracks items)
    {front back : List ε} {item : ε} (split : items = front ++ item :: back) :
    ∃ track ∈ tracks, ∃ first last, track = first ++ item :: last ∧ first ⊆ front := by
  induction interleaved generalizing front with
  | done _ => simp at split
  | @take left right head track items _ induction =>
      cases front with
      | nil =>
          obtain ⟨rfl, _⟩ := List.cons.inj split
          exact ⟨head :: track, by simp, [], track, rfl, List.Subset.refl _⟩
      | cons earlier front =>
          obtain ⟨rfl, rest⟩ := List.cons.inj split
          obtain ⟨found, member, first, last, cut, past⟩ := induction rest
          have later : first ⊆ head :: front := fun event inside => .tail _ (past inside)
          rw [List.mem_append, List.mem_cons] at member
          rcases member with inLeft | rfl | inRight
          · exact ⟨found, List.mem_append_left _ inLeft, first, last, cut, later⟩
          · refine ⟨head :: found, by simp, head :: first, last, by rw [cut]; rfl, ?_⟩
            exact List.cons_subset_cons head past
          · exact ⟨found, List.mem_append_right _ (.tail _ inRight), first, last, cut, later⟩

end Interleaved

variable {Call : Type} {Answer : Call → Type} {α σ World : Type}

/-- The events of a drained pool interleave one local run of each program with one run of the
consumer. -/
theorem Drain.interleaved {environment : Environment Answer World} {limit : Nat}
    {consume : σ → α → Program Answer (Except ε σ)} {pool final : Pool Answer α}
    {state state' : σ} {before after : World} {events : List (Event Answer)} {values : List α}
    (drain : Drain environment limit consume pool state before events values final state' after) :
    ∃ (runs : List (LocalRun Answer α)) (consumed : List (Event Answer)),
      runs.map LocalRun.program = pool.programs ∧
        (runs.map LocalRun.residual).Perm (final.programs ++ values.map .done) ∧
        Consumed consume state values consumed state' ∧
        Interleaved (consumed :: runs.map LocalRun.events) events := by
  induction drain with
  | refl pool state world =>
      refine ⟨pool.programs.map fun program => ⟨program, [], program, .refl _ _⟩, [], ?_, ?_,
        .nil _, .done ?_⟩
      · simp [Function.comp_def]
      · simp [Function.comp_def]
      · simp
  | start _ _ induction =>
      obtain ⟨runs, consumed, programs, residuals, taken, merged⟩ := induction
      refine ⟨runs, consumed, ?_, residuals, taken, merged⟩
      simpa [Pool.programs] using programs
  | @advance waiting left right call next answer state state' before middle after events values
      final step _ induction =>
      obtain ⟨runs, consumed, programs, residuals, taken, merged⟩ := induction
      simp only [Pool.programs, List.append_assoc, List.cons_append] at programs
      obtain ⟨front, back, rfl, frontPrograms, backPrograms⟩ := List.map_eq_append_iff.mp programs
      obtain ⟨run, rest, rfl, runProgram, restPrograms⟩ := List.map_eq_cons_iff.mp backPrograms
      have valid : Execution arbitrary (.request call next) () (⟨call, answer⟩ :: run.events)
          run.residual () := by
        have rest := run.valid
        rw [runProgram] at rest
        exact Execution.head trivial rest
      refine ⟨front ++ ⟨_, _, run.residual, valid⟩ :: rest, consumed, ?_, ?_, taken, ?_⟩
      · simp [Pool.programs, frontPrograms, restPrograms]
      · simpa using residuals
      · rw [List.map_append, List.map_cons, ← List.cons_append] at merged ⊢
        exact .take merged
  | @yield waiting left right value state next state' before middle after first events values
      final consumption _ induction =>
      obtain ⟨runs, consumed, programs, residuals, taken, merged⟩ := induction
      simp only [Pool.programs, List.append_assoc] at programs
      obtain ⟨front, back, rfl, frontPrograms, backPrograms⟩ := List.map_eq_append_iff.mp programs
      refine ⟨front ++ ⟨.done value, [], .done value, .refl _ _⟩ :: back, first ++ consumed, ?_, ?_,
        .cons consumption.toArbitrary taken, ?_⟩
      · simp [Pool.programs, frontPrograms, backPrograms]
      · simp only [List.map_append, List.map_cons] at residuals ⊢
        refine List.perm_middle.trans ((residuals.cons _).trans ?_)
        exact List.perm_middle.symm
      · have idle : Interleaved (consumed :: front.map LocalRun.events ++
            [] :: back.map LocalRun.events) events := by
          rw [List.map_append, ← List.cons_append] at merged
          exact merged.insert_nil
        rw [List.map_append, List.map_cons]
        exact @Interleaved.prepend _ [] _ _ _ idle first

/-- The number of local events which satisfy a predicate. -/
def localCount (predicate : Event Answer → Bool) (runs : List (LocalRun Answer α)) : Nat :=
  (runs.map fun run => run.events.countP predicate).sum

/-- A drained pool consists of one local run for each of its programs and one run of the consumer.
Every class of events is counted by these runs together. -/
theorem Drain.split {environment : Environment Answer World} {limit : Nat}
    {consume : σ → α → Program Answer (Except ε σ)} {pool final : Pool Answer α}
    {state state' : σ} {before after : World} {events : List (Event Answer)} {values : List α}
    (drain : Drain environment limit consume pool state before events values final state' after) :
    ∃ (runs : List (LocalRun Answer α)) (consumed : List (Event Answer)),
      runs.map LocalRun.program = pool.programs ∧
        (runs.map LocalRun.residual).Perm (final.programs ++ values.map .done) ∧
        Consumed consume state values consumed state' ∧
        ∀ predicate, events.countP predicate =
          localCount predicate runs + consumed.countP predicate := by
  obtain ⟨runs, consumed, programs, residuals, taken, merged⟩ := drain.interleaved
  refine ⟨runs, consumed, programs, residuals, taken, fun predicate => ?_⟩
  have counted := merged.perm.countP_eq predicate
  rw [List.flatten_cons, List.countP_append, List.countP_flatten, List.map_map] at counted
  rw [counted, Nat.add_comm, localCount]
  rfl

end Interaction
