import ImmichRs.Interaction.Program

/-!
# Fallible programs

Where a program which may fail can end: with a value, or with an error.  The rules follow the
constructions of such programs: sequences stop at the first error, and a handler takes over where
an error is caught.
-/

namespace Interaction

variable {Call : Type} {Answer : Call → Type} {α β ε World : Type}

namespace Program

/-- Stop with an error, or go on with a value. -/
def ofResult (result : Except ε α) : ExceptT ε (Program Answer) α :=
  ExceptT.mk (.done result)

/-- Send one request, whose answer is no error by itself. -/
def send (call : Call) : ExceptT ε (Program Answer) (Answer call) :=
  ExceptT.mk (.request call fun answer => .done (.ok answer))

/-- Every step from `world` is safe, every value satisfies `ok` and every error `failed`. -/
def Ends (environment : Environment Answer World)
    (safe : World → Event Answer → World → Prop) (program : ExceptT ε (Program Answer) α)
    (world : World) (ok : α → World → Prop) (failed : ε → World → Prop) : Prop :=
  program.run.Ensures environment safe world fun outcome after =>
    match outcome with
    | .ok value => ok value after
    | .error error => failed error after

section Rules

variable {environment : Environment Answer World}
  {safe : World → Event Answer → World → Prop} {world : World} {ok : α → World → Prop}
  {failed : ε → World → Prop}

theorem ends_pure {value : α} (holds : ok value world) :
    Ends environment safe (pure value : ExceptT ε (Program Answer) α) world ok failed :=
  holds

theorem ends_throw {error : ε} (holds : failed error world) :
    Ends environment safe (throw error : ExceptT ε (Program Answer) α) world ok failed :=
  holds

theorem ends_ofResult {result : Except ε α}
    (returned : ∀ value, result = .ok value → ok value world)
    (refused : ∀ error, result = .error error → failed error world) :
    Ends environment safe (ofResult result) world ok failed := by
  cases result with
  | ok value => exact returned value rfl
  | error error => exact refused error rfl

/-- The first program of a sequence ends where the second goes on. -/
theorem ends_bind {program : ExceptT ε (Program Answer) α}
    {next : α → ExceptT ε (Program Answer) β} {ok : β → World → Prop}
    (ends : Ends environment safe program world
      (fun value after => Ends environment safe (next value) after ok failed) failed) :
    Ends environment safe (program >>= next) world ok failed := by
  rw [Ends, ensures_exceptT_bind]
  apply ends.post
  intro outcome after reached
  cases outcome <;> exact reached

/-- A program which cannot fail in front of one which may. -/
theorem ends_lift {program : Program Answer α} {next : α → ExceptT ε (Program Answer) β}
    {ok : β → World → Prop}
    (ensures : program.Ensures environment safe world fun value after =>
      Ends environment safe (next value) after ok failed) :
    Ends environment safe ((liftM program : ExceptT ε (Program Answer) α) >>= next) world ok
      failed := by
  apply ends_bind
  have lifted : (liftM program : ExceptT ε (Program Answer) α).run =
      program.bind fun value => .done (.ok value) := rfl
  rw [Ends, lifted, ensures_bind]
  exact ensures

theorem run_tryCatch (program : ExceptT ε (Program Answer) α)
    (handler : ε → ExceptT ε (Program Answer) α) :
    (tryCatch program handler).run = program.run.bind fun outcome =>
      match outcome with
      | .ok value => .done (.ok value)
      | .error error => (handler error).run := by
  apply congrArg program.run.bind
  funext outcome
  cases outcome <;> rfl

/-- A handler goes on where the program failed. -/
theorem ends_tryCatch {program : ExceptT ε (Program Answer) α}
    {handler : ε → ExceptT ε (Program Answer) α}
    (ends : Ends environment safe program world ok fun error after =>
      Ends environment safe (handler error) after ok failed) :
    Ends environment safe (tryCatch program handler) world ok failed := by
  rw [Ends, run_tryCatch, ensures_bind]
  apply ends.post
  intro outcome after reached
  cases outcome <;> exact reached

theorem ends_send {call : Call} {ok : Answer call → World → Prop}
    (answered : ∀ answer after, environment world ⟨call, answer⟩ after →
      safe world ⟨call, answer⟩ after ∧ ok answer after) :
    Ends environment safe (send call : ExceptT ε (Program Answer) (Answer call)) world ok failed :=
  answered

/-- Obligations and what is said of both ends may be weakened. -/
theorem Ends.mono {program : ExceptT ε (Program Answer) α} {broader : α → World → Prop}
    {weaker : ε → World → Prop} {milder : World → Event Answer → World → Prop}
    (ends : Ends environment safe program world ok failed)
    (event : ∀ before event after, safe before event after → milder before event after)
    (returned : ∀ value after, ok value after → broader value after)
    (refused : ∀ error after, failed error after → weaker error after) :
    Ends environment milder program world broader weaker := by
  apply Ensures.mono ends event
  intro outcome after reached
  cases outcome with
  | ok value => exact returned value after reached
  | error error => exact refused error after reached

/-- What every safe step keeps holds where a program ends. -/
theorem Ends.keeps {program : ExceptT ε (Program Answer) α} {holds : World → Prop}
    (ends : Ends environment safe program world ok failed)
    (preserve : ∀ before event after, safe before event after → holds before → holds after)
    (initial : holds world) :
    Ends environment safe program world (fun value after => ok value after ∧ holds after)
      fun error after => failed error after ∧ holds after := by
  apply (Ensures.keeps ends preserve initial).post
  intro outcome after reached
  cases outcome <;> exact reached

/-- What every program of a list keeps is kept by all of them in turn. -/
theorem ends_forM {ι : Type} {items : List ι} {body : ι → ExceptT ε (Program Answer) PUnit}
    {kept : World → Prop} (start : kept world)
    (each : ∀ item ∈ items, ∀ before, kept before →
      Ends environment safe (body item) before (fun _ after => kept after) failed) :
    Ends environment safe (items.forM body) world (fun _ after => kept after) failed := by
  induction items generalizing world with
  | nil => exact start
  | cons item rest induction =>
      rw [List.forall_mem_cons] at each
      apply ends_bind
      apply (each.1 world start).mono (fun _ _ _ => id) _ fun _ _ => id
      exact fun _ after held => induction held each.2

end Rules

end Program

end Interaction
