import ImmichRs.Interaction.Program

/-!
# Bounded pools of programs

A pool holds programs which wait and programs which run.  Any running program may take the next
step, so the events of the pool interleave; a finished program is handed to a sequential consumer.
`Drain` is a possibly unfinished run of a pool.
-/

namespace Interaction

variable {Call : Type} {Answer : Call → Type} {α σ ε World : Type}

/-- Programs which have not been started, and programs which run. -/
structure Pool {Call : Type} (Answer : Call → Type) (α : Type) where
  waiting : List (Program Answer α)
  active : List (Program Answer α)

/-- Every program of a pool. -/
def Pool.programs (pool : Pool Answer α) : List (Program Answer α) :=
  pool.active ++ pool.waiting

/-- A run of a pool with at most `limit` active programs.  The values which the consumer has taken
are recorded in the order in which it took them. -/
inductive Drain (environment : Environment Answer World) (limit : Nat)
    (consume : σ → α → Program Answer (Except ε σ)) :
    Pool Answer α → σ → World → List (Event Answer) → List α → Pool Answer α → σ → World → Prop
  | refl (pool : Pool Answer α) (state : σ) (world : World) :
      Drain environment limit consume pool state world [] [] pool state world
  | start {program : Program Answer α} {waiting active : List (Program Answer α)}
      {state state' : σ} {world world' : World} {events : List (Event Answer)} {values : List α}
      {final : Pool Answer α} :
      active.length < limit →
      Drain environment limit consume ⟨waiting, active ++ [program]⟩ state world events values
        final state' world' →
      Drain environment limit consume ⟨program :: waiting, active⟩ state world events values
        final state' world'
  | advance {waiting left right : List (Program Answer α)} {call : Call}
      {next : Answer call → Program Answer α} {answer : Answer call} {state state' : σ}
      {before middle after : World} {events : List (Event Answer)} {values : List α}
      {final : Pool Answer α} :
      environment before ⟨call, answer⟩ middle →
      Drain environment limit consume ⟨waiting, left ++ next answer :: right⟩ state middle events
        values final state' after →
      Drain environment limit consume ⟨waiting, left ++ .request call next :: right⟩ state before
        (⟨call, answer⟩ :: events) values final state' after
  | yield {waiting left right : List (Program Answer α)} {value : α} {state next state' : σ}
      {before middle after : World} {first events : List (Event Answer)} {values : List α}
      {final : Pool Answer α} :
      Execution environment (consume state value) before first (.done (.ok next)) middle →
      Drain environment limit consume ⟨waiting, left ++ right⟩ next middle events values final
        state' after →
      Drain environment limit consume ⟨waiting, left ++ .done value :: right⟩ state before
        (first ++ events) (value :: values) final state' after

/-- A run of one program taken by itself. -/
structure LocalRun {Call : Type} (Answer : Call → Type) (α : Type) where
  program : Program Answer α
  events : List (Event Answer)
  residual : Program Answer α
  valid : Execution arbitrary program () events residual ()

/-- The consumer run by itself over a list of values. -/
inductive Consumed (consume : σ → α → Program Answer (Except ε σ)) :
    σ → List α → List (Event Answer) → σ → Prop
  | nil (state : σ) : Consumed consume state [] [] state
  | cons {state next final : σ} {value : α} {values : List α}
      {first events : List (Event Answer)} :
      Execution arbitrary (consume state value) () first (.done (.ok next)) () →
      Consumed consume next values events final →
      Consumed consume state (value :: values) (first ++ events) final

/-- Every execution is one in the arbitrary environment. -/
theorem Execution.toArbitrary {environment : Environment Answer World}
    {program final : Program Answer α} {before after : World} {events : List (Event Answer)}
    (execution : Execution environment program before events final after) :
    Execution arbitrary program () events final () := by
  induction execution with
  | refl => exact .refl _ _
  | head _ _ induction => exact .head trivial induction

/-- An active program may run to its end before any other program steps. -/
theorem Drain.run {environment : Environment Answer World} {limit : Nat}
    {consume : σ → α → Program Answer (Except ε σ)} {program next : Program Answer α}
    {waiting : List (Program Answer α)} {final : Pool Answer α} {state state' : σ}
    {before middle after : World} {first events : List (Event Answer)} {values : List α}
    (left right : List (Program Answer α))
    (execution : Execution environment program before first next middle)
    (rest : Drain environment limit consume ⟨waiting, left ++ next :: right⟩ state middle events
      values final state' after) :
    Drain environment limit consume ⟨waiting, left ++ program :: right⟩ state before
      (first ++ events) values final state' after := by
  induction execution with
  | refl => exact rest
  | head step _ induction => exact .advance step (induction rest)

end Interaction
