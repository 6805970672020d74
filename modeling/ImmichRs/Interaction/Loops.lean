import ImmichRs.Interaction.Program

/-!
# Fallible loops

A loop whose turns may fail.  Where every turn which continues decreases a measure, any fuel above
the first measure gives the same program, so the loop is the unbounded one.
-/

namespace Interaction.Program

variable {Call : Type} {Answer : Call → Type} {α β σ ε : Type}

/-- Repeat `turn` until it returns on the right or fails, for at most `fuel` turns. -/
def turns (turn : σ → ExceptT ε (Program Answer) (σ ⊕ α)) (exhausted : ε) :
    Nat → σ → ExceptT ε (Program Answer) α
  | 0, _ => ExceptT.mk (.done (.error exhausted))
  | fuel + 1, state => turn state >>= fun
      | .inl next => turns turn exhausted fuel next
      | .inr value => pure value

/-- Continuations which agree on every value that a program may return give one program. -/
theorem bind_congr {program : Program Answer α} {first second : α → Program Answer β}
    (same : program.Traces fun _ value => first value = second value) :
    program.bind first = program.bind second := by
  induction program with
  | done value => exact same
  | request call next induction =>
      have rest : (fun answer => (next answer).bind first) =
          fun answer => (next answer).bind second :=
        funext fun answer => induction answer (same answer)
      rw [bind_request, bind_request, rest]

section

variable {turn : σ → ExceptT ε (Program Answer) (σ ⊕ α)} {exhausted : ε}

/-- The amount of fuel does not matter when there is enough. -/
theorem turns_fuel {measure : σ → Nat}
    (decreases : ∀ state, (turn state).run.Traces fun _ outcome =>
      ∀ next, outcome = .ok (.inl next) → measure next < measure state)
    {fuel more : Nat} {state : σ} (enough : measure state < fuel) (larger : measure state < more) :
    turns turn exhausted fuel state = turns turn exhausted more state := by
  induction fuel generalizing more state with
  | zero => omega
  | succ fuel induction =>
      cases more with
      | zero => omega
      | succ more =>
          rw [turns, turns]
          apply bind_congr
          refine (decreases state).mono fun _ outcome less => ?_
          cases outcome with
          | error error => rfl
          | ok outcome =>
              cases outcome with
              | inr value => rfl
              | inl next =>
                  have smaller := less next rfl
                  exact induction (by omega) (by omega)

/-- The invariant rule over the events so far. -/
theorem turns_traces {post : List (Event Answer) → Except ε α → Prop}
    (invariant : σ → List (Event Answer) → Prop) (measure : σ → Nat)
    (step : ∀ state past, invariant state past →
      (turn state).run.Traces fun events outcome => match outcome with
        | .ok (.inl next) => invariant next (past ++ events) ∧ measure next < measure state
        | .ok (.inr value) => post (past ++ events) (.ok value)
        | .error error => post (past ++ events) (.error error))
    (fuel : Nat) (state : σ) (past : List (Event Answer)) (enough : measure state < fuel)
    (holds : invariant state past) :
    (turns turn exhausted fuel state).run.Traces fun events outcome =>
      post (past ++ events) outcome := by
  induction fuel generalizing state past with
  | zero => omega
  | succ fuel induction =>
      rw [turns, traces_exceptT_bind]
      refine (step state past holds).mono fun events outcome reached => ?_
      cases outcome with
      | error error => exact reached
      | ok outcome =>
          cases outcome with
          | inl next =>
              have rest := induction next (past ++ events) (by omega) reached.1
              simpa only [List.append_assoc] using rest
          | inr value => simpa using reached

end

end Interaction.Program
