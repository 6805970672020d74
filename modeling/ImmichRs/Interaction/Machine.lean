import ImmichRs.Interaction.History

/-!
# Machines

A machine answers one call after another; its run is the list of the calls with their replies.  A
run satisfies what every single call preserves, and calls may be restricted by the calls before
them.
-/

namespace Interaction

variable {σ Call Reply : Type}

/-- A call and the reply to it. -/
structure Exchange (Call Reply : Type) where
  call : Call
  reply : Reply
  deriving DecidableEq

/-- Answer the calls in order. -/
def serve (step : σ → Call → σ × Reply) : σ → List Call → List (Exchange Call Reply) × σ
  | state, [] => ([], state)
  | state, call :: calls =>
      let answered := step state call
      let rest := serve step answered.1 calls
      ({ call, reply := answered.2 } :: rest.1, rest.2)

theorem calls_serve (step : σ → Call → σ × Reply) (state : σ) (calls : List Call) :
    (serve step state calls).1.map Exchange.call = calls := by
  induction calls generalizing state with
  | nil => rfl
  | cons call calls induction => exact congrArg (List.cons call) (induction _)

theorem serve_append (step : σ → Call → σ × Reply) (state : σ) (first second : List Call) :
    serve step state (first ++ second) =
      ((serve step state first).1 ++ (serve step (serve step state first).2 second).1,
        (serve step (serve step state first).2 second).2) := by
  induction first generalizing state with
  | nil => rfl
  | cons call first induction =>
      rw [List.cons_append, serve, serve, induction]
      rfl

/-- The run rule: what every allowed exchange preserves, and what it satisfies given the exchanges
before it, holds of all runs of allowed exchanges. -/
theorem serve_keeps {step : σ → Call → σ × Reply}
    {allowed rule : List (Exchange Call Reply) → Exchange Call Reply → Prop}
    {invariant : List (Exchange Call Reply) → σ → Prop}
    (kept : ∀ past state call, invariant past state → allowed past ⟨call, (step state call).2⟩ →
      rule past ⟨call, (step state call).2⟩ ∧
        invariant (past ++ [⟨call, (step state call).2⟩]) (step state call).1)
    {start : σ} (initial : invariant [] start) {calls : List Call}
    (orderly : Throughout allowed (serve step start calls).1) :
    Throughout rule (serve step start calls).1 ∧
      invariant (serve step start calls).1 (serve step start calls).2 := by
  induction calls using List.reverseRecOn with
  | nil => exact ⟨throughout_nil rule, initial⟩
  | append_singleton calls call induction =>
      rw [serve_append] at orderly ⊢
      obtain ⟨ruled, held⟩ := induction orderly.of_append
      obtain ⟨here, next⟩ := kept _ _ call held (orderly _ _ [] rfl)
      exact ⟨ruled.concat here, next⟩

end Interaction
