import Mathlib.Data.List.Basic
import Mathlib.Data.Sigma.Basic

/-!
# Interaction programs

A `Program` is a finite-depth tree of requests to an environment.  Each request carries the type
of its answer, and the continuation is a function of that answer, so one program describes every
reaction to every sequence of answers.

An `Environment` relates a world, one answered request and the next world.  `Execution` is a
possibly unfinished run of a program in an environment; `Program.Ensures` is the corresponding
weakest precondition, with an obligation on every answered request as well as on the result.
-/

namespace Interaction

/-- One request together with the answer which the environment gave to it. -/
abbrev Event {Call : Type} (Answer : Call → Type) : Type :=
  (call : Call) × Answer call

/-- A computation which either returns or requests one answer and continues with it. -/
inductive Program {Call : Type} (Answer : Call → Type) (α : Type) : Type
  | /-- Return a value without a further request. -/
    done (value : α) : Program Answer α
  | /-- Send one request and continue with its answer. -/
    request (call : Call) (next : Answer call → Program Answer α) : Program Answer α

variable {Call : Type} {Answer : Call → Type} {α β σ ε World : Type}

namespace Program

/-- Continue every returned value with another program. -/
def bind : Program Answer α → (α → Program Answer β) → Program Answer β
  | .done value, next => next value
  | .request call rest, next => .request call fun answer => (rest answer).bind next

instance : Monad (Program Answer) where
  pure := Program.done
  bind := Program.bind

/-- The program which sends one request and returns its answer. -/
def ask (call : Call) : Program Answer (Answer call) :=
  .request call .done

/-- Repeat `body` until it returns on the right, for at most `fuel` iterations.

A source loop whose body strictly decreases a measure never reaches `exhausted` when `fuel` is at
least the initial measure; see `loop_ensures`. -/
def loop (body : σ → Program Answer (σ ⊕ α)) (exhausted : σ → α) : Nat → σ → Program Answer α
  | 0, state => .done (exhausted state)
  | fuel + 1, state =>
      (body state).bind fun
        | .inl next => loop body exhausted fuel next
        | .inr value => .done value

@[simp] theorem bind_done (value : α) (next : α → Program Answer β) :
    (Program.done value : Program Answer α).bind next = next value := rfl

@[simp] theorem bind_request (call : Call) (rest : Answer call → Program Answer α)
    (next : α → Program Answer β) :
    (Program.request call rest).bind next =
      .request call fun answer => (rest answer).bind next := rfl

@[simp] theorem pure_eq_done (value : α) :
    (Pure.pure value : Program Answer α) = .done value := rfl

@[simp] theorem bind_eq (program : Program Answer α) (next : α → Program Answer β) :
    (program >>= next) = program.bind next := rfl

/-- Answer every request from a responder with private state.  The result holds the events, the
returned value and the final state of the responder. -/
def play (respond : σ → (call : Call) → Answer call × σ) :
    Program Answer α → σ → List (Event Answer) × α × σ
  | .done value, state => ([], value, state)
  | .request call next, state =>
      let answered := respond state call
      let rest := (next answered.1).play respond answered.2
      (⟨call, answered.1⟩ :: rest.1, rest.2)

@[simp] theorem play_done (respond : σ → (call : Call) → Answer call × σ) (value : α) (state : σ) :
    (Program.done value : Program Answer α).play respond state = ([], value, state) := rfl

@[simp] theorem play_request (respond : σ → (call : Call) → Answer call × σ) (call : Call)
    (next : Answer call → Program Answer α) (state : σ) :
    (Program.request call next).play respond state =
      (⟨call, (respond state call).1⟩ ::
          ((next (respond state call).1).play respond (respond state call).2).1,
        ((next (respond state call).1).play respond (respond state call).2).2) := rfl

/-- Playing a sequence plays its parts in order. -/
theorem play_bind (respond : σ → (call : Call) → Answer call × σ) (program : Program Answer α)
    (next : α → Program Answer β) (state : σ) :
    (program.bind next).play respond state =
      ((program.play respond state).1 ++
          ((next (program.play respond state).2.1).play respond
            (program.play respond state).2.2).1,
        ((next (program.play respond state).2.1).play respond
          (program.play respond state).2.2).2) := by
  induction program generalizing state with
  | done value => rfl
  | request call rest induction => simp [induction]

end Program

/-- Which answers the environment may give in a world, and the worlds they may lead to. -/
abbrev Environment {Call : Type} (Answer : Call → Type) (World : Type) : Type :=
  World → Event Answer → World → Prop

/-- The environment which gives arbitrary answers and has no state. -/
def arbitrary : Environment Answer Unit := fun _ _ _ => True

/-- A possibly unfinished execution, from a program in a world to a residual program. -/
inductive Execution (environment : Environment Answer World) :
    Program Answer α → World → List (Event Answer) → Program Answer α → World → Prop
  | refl (program : Program Answer α) (world : World) :
      Execution environment program world [] program world
  | head {call : Call} {next : Answer call → Program Answer α} {answer : Answer call}
      {before middle after : World} {events : List (Event Answer)} {final : Program Answer α} :
      environment before ⟨call, answer⟩ middle →
      Execution environment (next answer) middle events final after →
      Execution environment (.request call next) before (⟨call, answer⟩ :: events) final after

namespace Program

/-- Every event of every execution from `world` is `safe`, and every result satisfies `post`. -/
def Ensures (environment : Environment Answer World)
    (safe : World → Event Answer → World → Prop) :
    Program Answer α → World → (α → World → Prop) → Prop
  | .done value, world, post => post value world
  | .request call next, world, post =>
      ∀ answer after, environment world ⟨call, answer⟩ after →
        safe world ⟨call, answer⟩ after ∧ (next answer).Ensures environment safe after post

section Rules

variable {environment : Environment Answer World}
  {safe weaker : World → Event Answer → World → Prop}

@[simp] theorem ensures_done (value : α) (world : World) (post : α → World → Prop) :
    (Program.done value : Program Answer α).Ensures environment safe world post ↔
      post value world := Iff.rfl

theorem ensures_request (call : Call) (next : Answer call → Program Answer α) (world : World)
    (post : α → World → Prop) :
    (Program.request call next).Ensures environment safe world post ↔
      ∀ answer after, environment world ⟨call, answer⟩ after →
        safe world ⟨call, answer⟩ after ∧
          (next answer).Ensures environment safe after post := Iff.rfl

/-- The weakest precondition of a sequence is the nested weakest precondition. -/
theorem ensures_bind (program : Program Answer α) (next : α → Program Answer β) (world : World)
    (post : β → World → Prop) :
    (program.bind next).Ensures environment safe world post ↔
      program.Ensures environment safe world fun value after =>
        (next value).Ensures environment safe after post := by
  induction program generalizing world with
  | done value => rfl
  | request call rest induction =>
      simp only [bind_request, ensures_request, induction]

/-- Obligations and postconditions may be weakened. -/
theorem Ensures.mono {program : Program Answer α} {world : World}
    {post broader : α → World → Prop} (ensures : program.Ensures environment safe world post)
    (event : ∀ before event after, safe before event after → weaker before event after)
    (result : ∀ value after, post value after → broader value after) :
    program.Ensures environment weaker world broader := by
  induction program generalizing world with
  | done value => exact result value world ensures
  | request call next induction =>
      intro answer after step
      obtain ⟨eventSafe, rest⟩ := ensures answer after step
      exact ⟨event _ _ _ eventSafe, induction answer rest⟩

/-- The postcondition alone may be weakened. -/
theorem Ensures.post {program : Program Answer α} {world : World}
    {post broader : α → World → Prop} (ensures : program.Ensures environment safe world post)
    (result : ∀ value after, post value after → broader value after) :
    program.Ensures environment safe world broader :=
  ensures.mono (fun _ _ _ => id) result

/-- What every safe step keeps holds at the end of a program. -/
theorem Ensures.keeps {program : Program Answer α} {world : World} {post : α → World → Prop}
    {holds : World → Prop} (ensures : program.Ensures environment safe world post)
    (preserve : ∀ before event after, safe before event after → holds before → holds after)
    (initial : holds world) :
    program.Ensures environment safe world fun value after => post value after ∧ holds after := by
  induction program generalizing world with
  | done value => exact ⟨ensures, initial⟩
  | request call next induction =>
      intro answer after step
      obtain ⟨kept, rest⟩ := ensures answer after step
      exact ⟨kept, induction answer rest (preserve _ _ _ kept initial)⟩

/-- Two guarantees of one program hold together. -/
theorem Ensures.and {program : Program Answer α} {world : World} {first second : α → World → Prop}
    (left : program.Ensures environment safe world first)
    (right : program.Ensures environment weaker world second) :
    program.Ensures environment (fun before event after =>
        safe before event after ∧ weaker before event after) world
      fun value after => first value after ∧ second value after := by
  induction program generalizing world with
  | done value => exact ⟨left, right⟩
  | request call next induction =>
      intro answer after step
      obtain ⟨leftSafe, leftRest⟩ := left answer after step
      obtain ⟨rightSafe, rightRest⟩ := right answer after step
      exact ⟨⟨leftSafe, rightSafe⟩, induction answer leftRest rightRest⟩

/-- The invariant rule for loops: `body` keeps the invariant and decreases the measure. -/
theorem loop_ensures {body : σ → Program Answer (σ ⊕ α)} {exhausted : σ → α}
    {post : α → World → Prop} (invariant : σ → World → Prop) (measure : σ → Nat)
    (step : ∀ state world, invariant state world →
      (body state).Ensures environment safe world fun
        | .inl next, after => invariant next after ∧ measure next < measure state
        | .inr value, after => post value after)
    (fuel : Nat) (state : σ) (world : World) (enough : measure state < fuel)
    (holds : invariant state world) :
    (loop body exhausted fuel state).Ensures environment safe world post := by
  induction fuel generalizing state world with
  | zero => exact absurd enough (Nat.not_lt_zero _)
  | succ fuel induction =>
      rw [loop, ensures_bind]
      refine (step state world holds).post fun outcome after reached => ?_
      cases outcome with
      | inl next => exact induction next after (by omega) reached.1
      | inr value => exact reached

/-- Sequencing of fallible programs: an error is returned at once. -/
theorem ensures_exceptT_bind (program : ExceptT ε (Program Answer) α)
    (next : α → ExceptT ε (Program Answer) β) (world : World)
    (post : Except ε β → World → Prop) :
    (program >>= next).run.Ensures environment safe world post ↔
      program.run.Ensures environment safe world fun
        | .ok value, after => (next value).run.Ensures environment safe after post
        | .error error, after => post (.error error) after := by
  rw [ExceptT.run_bind, bind_eq, ensures_bind]
  constructor <;> refine fun ensures => ensures.post fun outcome after => ?_ <;>
    cases outcome <;> exact id

end Rules

/-- Every finished run, whatever the answers are, relates its events and its value by `post`. -/
def Traces : Program Answer α → (List (Event Answer) → α → Prop) → Prop
  | .done value, post => post [] value
  | .request call next, post =>
      ∀ answer, (next answer).Traces fun events value => post (⟨call, answer⟩ :: events) value

@[simp] theorem traces_done (value : α) (post : List (Event Answer) → α → Prop) :
    (Program.done value : Program Answer α).Traces post ↔ post [] value := Iff.rfl

@[simp] theorem traces_request (call : Call) (next : Answer call → Program Answer α)
    (post : List (Event Answer) → α → Prop) :
    (Program.request call next).Traces post ↔
      ∀ answer, (next answer).Traces fun events value =>
        post (⟨call, answer⟩ :: events) value := Iff.rfl

/-- The trace rule for sequences concatenates the events of the parts. -/
theorem traces_bind (program : Program Answer α) (next : α → Program Answer β)
    (post : List (Event Answer) → β → Prop) :
    (program.bind next).Traces post ↔
      program.Traces fun first value => (next value).Traces fun second result =>
        post (first ++ second) result := by
  induction program generalizing post with
  | done value => rfl
  | request call rest induction => simp only [bind_request, traces_request, induction,
      List.cons_append]

theorem Traces.mono {program : Program Answer α} {post broader : List (Event Answer) → α → Prop}
    (traces : program.Traces post)
    (result : ∀ events value, post events value → broader events value) :
    program.Traces broader := by
  induction program generalizing post broader with
  | done value => exact result [] value traces
  | request call next induction =>
      intro answer
      exact induction answer (traces answer) fun events value => result _ value

theorem traces_of_forall (program : Program Answer α) {post : List (Event Answer) → α → Prop}
    (holds : ∀ events value, post events value) : program.Traces post := by
  induction program generalizing post with
  | done value => exact holds [] value
  | request call next induction => exact fun answer => induction answer fun _ => holds _

/-- The invariant rule for loops over the events so far. -/
theorem loop_traces {body : σ → Program Answer (σ ⊕ α)} {exhausted : σ → α}
    (post : List (Event Answer) → α → Prop) (invariant : σ → List (Event Answer) → Prop)
    (measure : σ → Nat)
    (step : ∀ state past, invariant state past →
      (body state).Traces fun events outcome => match outcome with
        | .inl next => invariant next (past ++ events) ∧ measure next < measure state
        | .inr value => post (past ++ events) value)
    (fuel : Nat) (state : σ) (past : List (Event Answer)) (enough : measure state < fuel)
    (holds : invariant state past) :
    (loop body exhausted fuel state).Traces fun events value => post (past ++ events) value := by
  induction fuel generalizing state past with
  | zero => exact absurd enough (Nat.not_lt_zero _)
  | succ fuel induction =>
      rw [loop, traces_bind]
      refine (step state past holds).mono fun events outcome reached => ?_
      cases outcome with
      | inl next =>
          have rest := induction next (past ++ events) (by omega) reached.1
          simpa only [List.append_assoc] using rest
      | inr value => simpa using reached

/-- Sequencing of fallible programs: an error is returned at once, after its own events. -/
theorem traces_exceptT_bind (program : ExceptT ε (Program Answer) α)
    (next : α → ExceptT ε (Program Answer) β) (post : List (Event Answer) → Except ε β → Prop) :
    (program >>= next).run.Traces post ↔
      program.run.Traces fun first outcome => match outcome with
        | .ok value => (next value).run.Traces fun second result => post (first ++ second) result
        | .error error => post first (.error error) := by
  rw [ExceptT.run_bind, bind_eq, traces_bind]
  constructor <;> refine fun traces => traces.mono fun first outcome => ?_ <;>
    cases outcome <;> simp

/-- A program which cannot fail in front of a fallible one. -/
theorem traces_lift_bind (program : Program Answer α) (next : α → ExceptT ε (Program Answer) β)
    (post : List (Event Answer) → Except ε β → Prop) :
    ((liftM program : ExceptT ε (Program Answer) α) >>= next).run.Traces post ↔
      program.Traces fun first value => (next value).run.Traces fun second result =>
        post (first ++ second) result := by
  rw [traces_exceptT_bind]
  have lifted : (liftM program : ExceptT ε (Program Answer) α).run =
      program.bind fun value => .done (.ok value) := rfl
  rw [lifted, traces_bind]
  simp only [traces_done, List.append_nil]

/-- Some finished run from `world` relates its events, its value and its last world by `post`. -/
def Reaches (environment : Environment Answer World) :
    Program Answer α → World → (List (Event Answer) → α → World → Prop) → Prop
  | .done value, world, post => post [] value world
  | .request call next, world, post =>
      ∃ answer after, environment world ⟨call, answer⟩ after ∧
        (next answer).Reaches environment after fun events value final =>
          post (⟨call, answer⟩ :: events) value final

section Reaches

variable {environment : Environment Answer World}

theorem Reaches.mono {program : Program Answer α} {world : World}
    {post broader : List (Event Answer) → α → World → Prop}
    (reaches : program.Reaches environment world post)
    (result : ∀ events value after, post events value after → broader events value after) :
    program.Reaches environment world broader := by
  induction program generalizing world post broader with
  | done value => exact result [] value world reaches
  | request call next induction =>
      obtain ⟨answer, after, step, rest⟩ := reaches
      exact ⟨answer, after, step, induction answer rest fun events value => result _ value⟩

theorem reaches_bind (program : Program Answer α) (next : α → Program Answer β) (world : World)
    (post : List (Event Answer) → β → World → Prop) :
    (program.bind next).Reaches environment world post ↔
      program.Reaches environment world fun first value middle =>
        (next value).Reaches environment middle fun second result after =>
          post (first ++ second) result after := by
  induction program generalizing world post with
  | done value => rfl
  | request call rest induction =>
      simp only [bind_request, Reaches, induction, List.cons_append]

/-- A fallible program which returns is followed by the rest of its sequence. -/
theorem reaches_exceptT_bind {program : ExceptT ε (Program Answer) α}
    {next : α → ExceptT ε (Program Answer) β} {world : World}
    {post : List (Event Answer) → Except ε β → World → Prop}
    (reaches : program.run.Reaches environment world fun first outcome middle =>
      ∃ value, outcome = .ok value ∧
        (next value).run.Reaches environment middle fun second result after =>
          post (first ++ second) result after) :
    (program >>= next).run.Reaches environment world post := by
  rw [ExceptT.run_bind, bind_eq, reaches_bind]
  refine reaches.mono fun first outcome middle found => ?_
  obtain ⟨value, rfl, rest⟩ := found
  exact rest

/-- The run which a program reaches. -/
theorem Reaches.execution {program : Program Answer α} {world : World}
    {post : List (Event Answer) → α → World → Prop}
    (reaches : program.Reaches environment world post) :
    ∃ events value after, Execution environment program world events (.done value) after ∧
      post events value after := by
  induction program generalizing world post with
  | done value => exact ⟨[], value, world, .refl _ _, reaches⟩
  | request call next induction =>
      obtain ⟨answer, middle, step, rest⟩ := reaches
      obtain ⟨events, value, after, execution, holds⟩ := induction answer rest
      exact ⟨_, value, after, .head step execution, holds⟩

end Reaches

end Program

namespace Execution

variable {environment : Environment Answer World}
  {safe : World → Event Answer → World → Prop}

/-- Executions compose. -/
theorem trans {first second third : Program Answer α} {before middle after : World}
    {left right : List (Event Answer)}
    (start : Execution environment first before left second middle)
    (rest : Execution environment second middle right third after) :
    Execution environment first before (left ++ right) third after := by
  induction start with
  | refl => exact rest
  | head step _ induction => exact .head step (induction rest)

/-- A finished execution is reached. -/
theorem reaches {program : Program Answer α} {before after : World}
    {events : List (Event Answer)} {value : α}
    {post : List (Event Answer) → α → World → Prop}
    (execution : Execution environment program before events (.done value) after)
    (holds : post events value after) : program.Reaches environment before post := by
  generalize finished : Program.done value = final at execution
  induction execution generalizing post with
  | refl =>
      subst finished
      exact holds
  | head step _ induction => exact ⟨_, _, step, induction holds finished⟩

/-- A guarantee survives along an execution. -/
theorem ensures {program final : Program Answer α} {before after : World}
    {events : List (Event Answer)} {post : α → World → Prop}
    (execution : Execution environment program before events final after)
    (guarantee : program.Ensures environment safe before post) :
    final.Ensures environment safe after post := by
  induction execution with
  | refl => exact guarantee
  | head step _ induction => exact induction (guarantee _ _ step).2

/-- A finished execution satisfies the guaranteed postcondition. -/
theorem result {program : Program Answer α} {before after : World}
    {events : List (Event Answer)} {value : α} {post : α → World → Prop}
    (execution : Execution environment program before events (.done value) after)
    (guarantee : program.Ensures environment safe before post) :
    post value after :=
  execution.ensures guarantee

/-- An invariant of the initial world which every safe event preserves holds at the end. -/
theorem invariant {program final : Program Answer α} {before after : World}
    {events : List (Event Answer)} {post : α → World → Prop} (holds : World → Prop)
    (preserve : ∀ before event after, safe before event after → holds before → holds after)
    (execution : Execution environment program before events final after)
    (guarantee : program.Ensures environment safe before post) (initial : holds before) :
    holds after := by
  induction execution with
  | refl => exact initial
  | head step _ induction =>
      exact induction (guarantee _ _ step).2 (preserve _ _ _ (guarantee _ _ step).1 initial)

/-- Every event of an execution splits it, and was safe in the world it happened in. -/
theorem safe_of_split {program final : Program Answer α} {before after : World}
    {earlier later : List (Event Answer)} {event : Event Answer} {post : α → World → Prop}
    (execution : Execution environment program before (earlier ++ event :: later) final after)
    (guarantee : program.Ensures environment safe before post) :
    ∃ middle middleAfter residual next,
      Execution environment program before earlier residual middle ∧
        safe middle event middleAfter ∧
        Execution environment next middleAfter later final after := by
  induction earlier generalizing program before with
  | nil =>
      cases execution with
      | head step rest =>
          exact ⟨_, _, _, _, .refl _ _, (guarantee _ _ step).1, rest⟩
  | cons first earlier induction =>
      cases execution with
      | head step rest =>
          obtain ⟨middle, middleAfter, residual, next, front, eventSafe, back⟩ :=
            induction rest (guarantee _ _ step).2
          exact ⟨middle, middleAfter, residual, next, .head step front, eventSafe, back⟩

/-- A finished execution satisfies what all traces satisfy. -/
theorem traces {program final : Program Answer α} {events : List (Event Answer)} {value : α}
    {post : List (Event Answer) → α → Prop} {before after : World}
    (execution : Execution environment program before events final after)
    (finished : final = .done value) (guarantee : program.Traces post) : post events value := by
  induction execution generalizing post with
  | refl =>
      subst finished
      exact guarantee
  | head _ _ induction => exact induction finished (guarantee _)

/-- Playing a program against a responder is one of its executions. -/
theorem of_play (respond : σ → (call : Call) → Answer call × σ) (program : Program Answer α)
    (state : σ) :
    Execution arbitrary program () (program.play respond state).1
      (.done (program.play respond state).2.1) () := by
  induction program generalizing state with
  | done value => exact .refl _ _
  | request call next induction =>
      exact .head trivial (induction (respond state call).1 (respond state call).2)

/-- An execution may be cut off after any of its events. -/
theorem cut {program final : Program Answer α} {before after : World}
    (first second : List (Event Answer))
    (execution : Execution environment program before (first ++ second) final after) :
    ∃ residual middle, Execution environment program before first residual middle := by
  induction first generalizing program before with
  | nil => exact ⟨program, before, .refl _ _⟩
  | cons event first induction =>
      cases execution with
      | head step rest =>
          obtain ⟨residual, middle, front⟩ := induction rest
          exact ⟨residual, middle, .head step front⟩

/-- A finished execution is followed by the rest of its sequence. -/
theorem bind {program : Program Answer α} {next : α → Program Answer β}
    {final : Program Answer β} {before middle after : World} {first second : List (Event Answer)}
    {value : α} (head : Execution environment program before first (.done value) middle)
    (tail : Execution environment (next value) middle second final after) :
    Execution environment (program.bind next) before (first ++ second) final after := by
  generalize ended : Program.done value = finished at head
  induction head with
  | refl =>
      subst ended
      exact tail
  | head step _ induction => exact .head step (induction tail ended)

/-- A fallible program which has returned is followed by the rest of its sequence. -/
theorem exceptT_bind {program : ExceptT ε (Program Answer) α}
    {next : α → ExceptT ε (Program Answer) β} {final : Program Answer (Except ε β)}
    {before middle after : World} {first second : List (Event Answer)} {value : α}
    (head : Execution environment program.run before first (.done (.ok value)) middle)
    (tail : Execution environment (next value).run middle second final after) :
    Execution environment (program >>= next).run before (first ++ second) final after := by
  rw [ExceptT.run_bind, Program.bind_eq]
  exact head.bind tail

/-- The worlds which an environment may pass through over given events. -/
inductive Path (environment : Environment Answer World) :
    World → List (Event Answer) → World → Prop
  | nil (world : World) : Path environment world [] world
  | cons {event : Event Answer} {before middle after : World} {events : List (Event Answer)} :
      environment before event middle → Path environment middle events after →
      Path environment before (event :: events) after

theorem path_arbitrary (events : List (Event Answer)) : Path arbitrary () events () := by
  induction events with
  | nil => exact .nil ()
  | cons event events induction => exact .cons trivial induction

/-- An execution takes place in every environment which allows its events. -/
theorem retrace {program final : Program Answer α} {events : List (Event Answer)}
    {start finish : Unit} (execution : Execution arbitrary program start events final finish)
    {before after : World} (path : Path environment before events after) :
    Execution environment program before events final after := by
  induction execution generalizing before with
  | refl =>
      cases path
      exact .refl _ _
  | head _ _ induction =>
      cases path with
      | cons step rest => exact .head step (induction rest)

/-- Forget the environment of an execution. -/
theorem forget {program final : Program Answer α} {before after : World}
    {events : List (Event Answer)}
    (execution : Execution environment program before events final after) :
    Execution arbitrary program () events final () := by
  induction execution with
  | refl => exact .refl _ _
  | head _ _ induction => exact .head trivial induction

/-- Every unfinished execution is the beginning of a finished run, whoever answers the rest. -/
theorem traces_extend (respond : (call : Call) → Answer call) {program final : Program Answer α}
    {post : List (Event Answer) → α → Prop} {before after : World}
    {events : List (Event Answer)}
    (execution : Execution environment program before events final after)
    (guarantee : program.Traces post) :
    ∃ rest value, post (events ++ rest) value ∧ ∀ event ∈ rest, event.2 = respond event.1 := by
  have played : ∃ rest value, Execution arbitrary final () rest (.done value) () ∧
      ∀ event ∈ rest, event.2 = respond event.1 := by
    clear execution
    induction final with
    | done value => exact ⟨[], value, .refl _ _, by simp⟩
    | request call next induction =>
        obtain ⟨rest, value, tail, answered⟩ := induction (respond call)
        refine ⟨⟨call, respond call⟩ :: rest, value, .head trivial tail, ?_⟩
        exact List.forall_mem_cons.mpr ⟨rfl, answered⟩
  obtain ⟨rest, value, tail, answered⟩ := played
  exact ⟨rest, value, (execution.forget.trans tail).traces rfl guarantee, answered⟩

end Execution

end Interaction
