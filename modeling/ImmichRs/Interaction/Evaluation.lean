import ImmichRs.Interaction.Program

/-!
# Evaluation against a fixed responder

An environment which gives one answer to each request, whenever it is sent, determines the value of
every program.  `Program.evaluate` computes it, and turns a fallible program into a fallible value.
-/

namespace Interaction

variable {Call : Type} {Answer : Call → Type} {α β ε World : Type}

namespace Program

/-- The value of a program whose requests are answered by a function of the request. -/
def evaluate (respond : (call : Call) → Answer call) : Program Answer α → α
  | .done value => value
  | .request call next => (next (respond call)).evaluate respond

variable (respond : (call : Call) → Answer call)

@[simp] theorem evaluate_done (value : α) :
    (Program.done value : Program Answer α).evaluate respond = value := rfl

@[simp] theorem evaluate_request (call : Call) (next : Answer call → Program Answer α) :
    (Program.request call next).evaluate respond = (next (respond call)).evaluate respond := rfl

theorem evaluate_bind (program : Program Answer α) (next : α → Program Answer β) :
    (program.bind next).evaluate respond =
      (next (program.evaluate respond)).evaluate respond := by
  induction program with
  | done value => rfl
  | request call rest induction => exact induction (respond call)

/-- The value of a fallible program is composed as fallible values are. -/
theorem evaluate_exceptT_bind (program : ExceptT ε (Program Answer) α)
    (next : α → ExceptT ε (Program Answer) β) :
    (program >>= next).run.evaluate respond =
      program.run.evaluate respond >>= fun value => (next value).run.evaluate respond := by
  rw [ExceptT.run_bind, bind_eq, evaluate_bind]
  cases program.run.evaluate respond <;> rfl

/-- Run a program against a stepper, until it returns or the stepper gives up. -/
def perform {World : Type} (step : World → (call : Call) → Option (Answer call × World)) :
    Program Answer α → World → Option (α × World)
  | .done value, world => some (value, world)
  | .request call next, world =>
      match step world call with
      | none => none
      | some (answer, after) => (next answer).perform step after

/-- A stepper which keeps to an environment finishes executions in it. -/
theorem perform_execution {State : Type} {environment : Environment Answer World}
    {step : State → (call : Call) → Option (Answer call × State)} (view : State → World)
    (sound : ∀ state call answer after, step state call = some (answer, after) →
      environment (view state) ⟨call, answer⟩ (view after))
    {program : Program Answer α} {before after : State} {value : α}
    (performed : program.perform step before = some (value, after)) :
    ∃ events, Execution environment program (view before) events (.done value) (view after) := by
  induction program generalizing before with
  | done result =>
      cases performed
      exact ⟨[], .refl _ _⟩
  | request call next induction =>
      rw [perform] at performed
      split at performed
      · cases performed
      · rename_i answer middle stepped
        obtain ⟨events, execution⟩ := induction answer performed
        exact ⟨_, .head (sound _ _ _ _ stepped) execution⟩

/-- A stepper which leaves an environment no choice determines where programs end. -/
theorem perform_ensures {State : Type} {environment : Environment Answer World}
    {step : State → (call : Call) → Option (Answer call × State)}
    (forced : ∀ state call answer next, step state call = some (answer, next) →
      ∀ before found after, environment before ⟨call, found⟩ after → found = answer)
    {program : Program Answer α} {state final : State} {value : α}
    (performed : program.perform step state = some (value, final)) (world : World) :
    program.Ensures environment (fun _ _ _ => True) world fun result _ => result = value := by
  induction program generalizing state world with
  | done result =>
      cases performed
      rfl
  | request call next induction =>
      rw [perform] at performed
      split at performed
      · cases performed
      · rename_i answer middle stepped
        intro found after taken
        rw [forced _ _ _ _ stepped _ _ _ taken]
        exact ⟨trivial, induction answer performed after⟩

end Program

/-- The environment which answers some requests, by a function of the request. -/
def offering (respond : (call : Call) → Option (Answer call)) : Environment Answer World :=
  fun _ event _ => respond event.1 = some event.2

/-- The environment which answers by a function of the request. -/
def answering (respond : (call : Call) → Answer call) : Environment Answer World :=
  fun _ event _ => event.2 = respond event.1

/-- A finished execution against a fixed responder returns the value of the program. -/
theorem Execution.evaluate {respond : (call : Call) → Answer call} {program : Program Answer α}
    {before after : World} {events : List (Event Answer)} {value : α}
    (execution : Execution (answering respond) program before events (.done value) after) :
    program.evaluate respond = value := by
  generalize finished : Program.done value = final at execution
  induction execution with
  | refl =>
      subst finished
      rfl
  | head step _ induction =>
      rw [Program.evaluate_request, ← step]
      exact induction finished

end Interaction
