import ImmichRs.Interaction.Fallible
import ImmichRs.Interaction.Pool

/-!
# Interruptions

An interruption is requested at some moment and not taken back.  From then on any step may report
it, and a step which asks for it is told.  What a program makes of the reports which it receives is
proved against `alerted`, whose world is whether there has been one; a run without reports is a run
in the undisturbed environment.
-/

namespace Interaction

variable {Call : Type} {Answer : Call → Type} {α ε World Local : Type}

/-- How events concern an interruption. -/
structure Interruption (Answer : Call → Type) where
  /-- The step was interrupted, or was told about the request. -/
  reports : Event Answer → Bool
  /-- The step was told that nothing has been requested. -/
  denies : Event Answer → Bool
  exclusive : ∀ event, reports event = true → denies event = false

/-- A world, with whether an interruption has been requested. -/
structure Moment (World : Type) where
  world : World
  requested : Bool

variable {how : Interruption Answer} {quiet : Environment Answer World}
  {expected : Event Answer → Prop}

/-- The steps of a quiet environment, any of which may be interrupted after the request.  What an
interrupted step has done is not known. -/
def interrupted (how : Interruption Answer) (quiet : Environment Answer World) :
    Environment Answer (Moment World) := fun before event after =>
  (before.requested = true → after.requested = true) ∧
    (quiet before.world event after.world ∧ (after.requested = true → how.denies event = false) ∨
      after.requested = true ∧ how.reports event = true)

/-- The environment of a program which remembers whether it has received a report. -/
def alerted (how : Interruption Answer) (expected : Event Answer → Prop) :
    Environment Answer Bool := fun before event after =>
  expected event ∧ after = (before || how.reports event) ∧
    (before = true → how.denies event = false)

/-- A quiet environment, in which no step reports an interruption. -/
structure Undisturbed (how : Interruption Answer) (expected : Event Answer → Prop)
    (quiet : Environment Answer World) : Prop where
  expects : ∀ {before event after}, quiet before event after → expected event
  silent : ∀ {before event after}, quiet before event after → how.reports event = false
  reported : ∀ {event}, how.reports event = true → expected event

/-- What one program has been told is a fact. -/
def Informed (alert : Bool) (moment : Moment World) : Prop :=
  alert = true → moment.requested = true

theorem Informed.step (undisturbed : Undisturbed how expected quiet) {alert : Bool}
    {before after : Moment World} {event : Event Answer}
    (informed : Informed alert before) (step : interrupted how quiet before event after) :
    alerted how expected alert event (alert || how.reports event) ∧
      Informed (alert || how.reports event) after := by
  obtain ⟨kept, ⟨went, told⟩ | ⟨requested, report⟩⟩ := step
  · have silent := undisturbed.silent went
    refine ⟨⟨undisturbed.expects went, rfl, fun alert => told (kept (informed alert))⟩, ?_⟩
    rw [silent, Bool.or_false]
    exact fun alert => kept (informed alert)
  · exact ⟨⟨undisturbed.reported report, rfl, fun _ => how.exclusive event report⟩,
      fun _ => requested⟩

/-- What others are told does not change what one program has been told. -/
theorem Informed.later {alert : Bool} {before after : Moment World} {event : Event Answer}
    (informed : Informed alert before) (step : interrupted how quiet before event after) :
    Informed alert after :=
  fun alert => step.1 (informed alert)

/-! ## Simulation -/

/-- An execution is followed in an environment which simulates its own. -/
theorem Execution.simulate {concrete : Environment Answer World}
    {simulating : Environment Answer Local} {related : Local → World → Prop}
    (step : ∀ view before event after, related view before → concrete before event after →
      ∃ next, simulating view event next ∧ related next after)
    {program final : Program Answer α} {before after : World} {events : List (Event Answer)}
    (execution : Execution concrete program before events final after) {view : Local}
    (start : related view before) :
    ∃ last, Execution simulating program view events final last ∧ related last after := by
  induction execution generalizing view with
  | refl => exact ⟨view, .refl _ _, start⟩
  | head taken _ induction =>
      obtain ⟨next, stepped, kept⟩ := step _ _ _ _ start taken
      obtain ⟨last, rest, ends⟩ := induction kept
      exact ⟨last, .head stepped rest, ends⟩

/-- What every step of a program satisfies holds of all events of an execution. -/
theorem Execution.each {environment : Environment Answer World} {program final : Program Answer α}
    {before after : World} {events : List (Event Answer)} {holds : Event Answer → Prop}
    {post : α → World → Prop} (execution : Execution environment program before events final after)
    (guarantee : program.Ensures environment (fun _ event _ => holds event) before post) :
    ∀ event ∈ events, holds event := by
  intro event member
  obtain ⟨earlier, later, rfl⟩ := List.append_of_mem member
  obtain ⟨_, _, _, _, _, held, _⟩ := execution.safe_of_split guarantee
  exact held

/-- A run among interruptions, as its program experiences it. -/
theorem Execution.alerted (undisturbed : Undisturbed how expected quiet)
    {program final : Program Answer α} {before after : Moment World} {events : List (Event Answer)}
    (execution : Execution (interrupted how quiet) program before events final after)
    {alert : Bool} (informed : Informed alert before) :
    ∃ last, Execution (alerted how expected) program alert events final last ∧
      Informed last after :=
  execution.simulate (fun _ _ _ _ known step => ⟨_, known.step undisturbed step⟩) informed

namespace Program

/-- What all traces of a program satisfy is ensured, with events as the environment expects them. -/
theorem Traces.ensures {environment : Environment Answer World} {program : Program Answer α}
    {world : World} {post : List (Event Answer) → α → Prop} (traces : program.Traces post)
    (expects : ∀ before event after, environment before event after → expected event) :
    program.Ensures environment (fun _ _ _ => True) world fun value _ =>
      ∃ events, (∀ event ∈ events, expected event) ∧ post events value := by
  induction program generalizing world post with
  | done value => exact ⟨[], by simp, traces⟩
  | request call next induction =>
      intro answer after step
      refine ⟨trivial, (induction answer (traces answer)).post ?_⟩
      rintro value _ ⟨events, kept, held⟩
      exact ⟨_, List.forall_mem_cons.mpr ⟨expects _ _ _ step, kept⟩, held⟩

/-- What a program ensures in an environment it ensures in every environment which that one
simulates. -/
theorem Ensures.simulated {concrete : Environment Answer World}
    {simulating : Environment Answer Local} {related : Local → World → Prop}
    (step : ∀ view before event after, related view before → concrete before event after →
      ∃ next, simulating view event next ∧ related next after)
    {program : Program Answer α} {view : Local} {before : World} {post : α → Local → Prop}
    (ensures : program.Ensures simulating (fun _ _ _ => True) view post)
    (start : related view before) :
    program.Ensures concrete (fun _ _ _ => True) before fun value after =>
      ∃ last, related last after ∧ post value last := by
  induction program generalizing view before with
  | done value => exact ⟨view, start, ensures⟩
  | request call next induction =>
      intro answer after taken
      obtain ⟨following, stepped, kept⟩ := step _ _ _ _ start taken
      exact ⟨trivial, induction answer (ensures _ _ stepped).2 kept⟩

/-- Perform every request of a program by another program. -/
def translate {Call' : Type} {Answer' : Call' → Type}
    (perform : (call : Call) → Program Answer' (Answer call)) :
    Program Answer α → Program Answer' α
  | .done value => .done value
  | .request call next => (perform call).bind fun answer => (next answer).translate perform

theorem bind_bind {β γ : Type} (program : Program Answer β) (next : β → Program Answer γ)
    (last : γ → Program Answer α) :
    (program.bind next).bind last = program.bind fun value => (next value).bind last := by
  induction program with
  | done value => rfl
  | request call rest induction => simp only [bind, induction]

theorem translate_bind {Call' : Type} {Answer' : Call' → Type} {β : Type}
    (perform : (call : Call) → Program Answer' (Answer call)) (program : Program Answer β)
    (next : β → Program Answer α) :
    (program.bind next).translate perform =
      (program.translate perform).bind fun value => (next value).translate perform := by
  induction program with
  | done value => rfl
  | request call rest induction =>
      simp only [bind, translate, bind_bind, induction]

/-- A translated program ensures what the program does, where the translation of each request is
simulated by the request. -/
theorem ensures_translate {Call' : Type} {Answer' : Call' → Type}
    {perform : (call : Call) → Program Answer' (Answer call)}
    {concrete : Environment Answer' World} {simulating : Environment Answer Local}
    {safe : World → Event Answer' → World → Prop} {related : Local → World → Prop}
    (each : ∀ call view before, related view before →
      (perform call).Ensures concrete safe before fun answer after =>
        ∃ next, simulating view ⟨call, answer⟩ next ∧ related next after)
    {program : Program Answer α} {view : Local} {before : World} {post : α → Local → Prop}
    (ensures : program.Ensures simulating (fun _ _ _ => True) view post)
    (start : related view before) :
    (program.translate perform).Ensures concrete safe before fun value after =>
      ∃ last, related last after ∧ post value last := by
  induction program generalizing view before with
  | done value => exact ⟨view, start, ensures⟩
  | request call next induction =>
      rw [translate, ensures_bind]
      apply (each call view before start).post
      rintro answer after ⟨following, taken, kept⟩
      exact induction answer (ensures answer following taken).2 kept

end Program

/-! ## Silent runs -/

/-- Without reports an interrupted environment is the quiet one. -/
theorem quiet_of_silent {before after : Moment World} {event : Event Answer}
    (step : interrupted how quiet before event after) (silent : how.reports event = false) :
    quiet before.world event after.world := by
  obtain ⟨_, ⟨went, _⟩ | ⟨_, report⟩⟩ := step
  · exact went
  · exact absurd (silent.symm.trans report) Bool.false_ne_true

theorem Execution.of_silent {program final : Program Answer α} {before after : Moment World}
    {events : List (Event Answer)}
    (execution : Execution (interrupted how quiet) program before events final after)
    (silent : ∀ event ∈ events, how.reports event = false) :
    Execution quiet program before.world events final after.world := by
  induction execution with
  | refl => exact .refl _ _
  | head step _ induction =>
      rw [List.forall_mem_cons] at silent
      exact .head (quiet_of_silent step silent.1) (induction silent.2)

theorem Drain.of_silent {σ : Type} {limit : Nat} {consume : σ → α → Program Answer (Except ε σ)}
    {pool final : Pool Answer α} {state state' : σ} {before after : Moment World}
    {events : List (Event Answer)} {values : List α}
    (drain : Drain (interrupted how quiet) limit consume pool state before events values final
      state' after) (silent : ∀ event ∈ events, how.reports event = false) :
    Drain quiet limit consume pool state before.world events values final state' after.world := by
  induction drain with
  | refl => exact .refl _ _ _
  | start room _ induction => exact .start room (induction silent)
  | advance step _ induction =>
      rw [List.forall_mem_cons] at silent
      exact .advance (quiet_of_silent step silent.1) (induction silent.2)
  | yield consumed _ induction =>
      rw [List.forall_mem_append] at silent
      exact .yield (consumed.of_silent silent.1) (induction silent.2)

/-! ## Marks -/

section Marks

variable {β σ : Type} {marked valid : α → Prop} {alert : Bool}

/-- A program returns valid values, and marked ones after it has received a report. -/
def Marks (how : Interruption Answer) (expected : Event Answer → Prop) (marked valid : α → Prop)
    (alert : Bool) (program : Program Answer α) : Prop :=
  program.Ensures (alerted how expected) (fun _ _ _ => True) alert fun value alert =>
    (alert = true → marked value) ∧ valid value

theorem marks_done {value : α} (tells : alert = true → marked value) (holds : valid value) :
    Marks how expected marked valid alert (.done value) :=
  ⟨tells, holds⟩

theorem marks_request {call : Call} {next : Answer call → Program Answer α}
    (rest : ∀ answer, expected ⟨call, answer⟩ → (alert = true → how.denies ⟨call, answer⟩ = false) →
      Marks how expected marked valid (alert || how.reports ⟨call, answer⟩) (next answer)) :
    Marks how expected marked valid alert (.request call next) := by
  rintro answer _ ⟨held, rfl, told⟩
  exact ⟨trivial, rest answer held told⟩

theorem marks_bind {program : Program Answer β} {next : β → Program Answer α}
    {hinted known : β → Prop} (first : Marks how expected hinted known alert program)
    (rest : ∀ value later, (later = true → hinted value) → known value →
      Marks how expected marked valid later (next value)) :
    Marks how expected marked valid alert (program.bind next) := by
  rw [Marks, Program.ensures_bind]
  apply Program.Ensures.post first
  exact fun value later held => rest value later held.1 held.2

/-- A loop whose body goes on only while there is no report. -/
theorem marks_loop {body : σ → Program Answer (σ ⊕ α)} {exhausted : σ → α}
    (each : ∀ state, Marks how expected (Sum.elim (fun _ => False) marked)
      (Sum.elim (fun _ => True) valid) false (body state))
    (ends : ∀ state, valid (exhausted state)) (fuel : Nat) (state : σ) :
    Marks how expected marked valid false (Program.loop body exhausted fuel state) := by
  induction fuel generalizing state with
  | zero => exact marks_done (fun report => by cases report) (ends state)
  | succ fuel induction =>
      apply marks_bind (each state)
      intro outcome later tells holds
      cases outcome with
      | inl next =>
          cases later with
          | false => exact induction next
          | true => exact (tells rfl).elim
      | inr value => exact marks_done tells holds

end Marks

/-! ## Pools -/

/-- A finished run of a pool: its programs have been taken, or the consumer has failed. -/
inductive Drained {σ : Type} (environment : Environment Answer World) (limit : Nat)
    (consume : σ → α → Program Answer (Except ε σ)) (pool : Pool Answer α) (state : σ)
    (before : World) : List (Event Answer) → Except ε σ → World → Prop
  | finished {events : List (Event Answer)} {values : List α} {state' : σ} {after : World} :
      Drain environment limit consume pool state before events values ⟨[], []⟩ state' after →
      Drained environment limit consume pool state before events (.ok state') after
  | stopped {events last : List (Event Answer)} {values : List α}
      {waiting left right : List (Program Answer α)} {value : α} {state' : σ} {error : ε}
      {middle after : World} :
      Drain environment limit consume pool state before events values
        ⟨waiting, left ++ .done value :: right⟩ state' middle →
      Execution environment (consume state' value) middle last (.done (.error error)) after →
      Drained environment limit consume pool state before (events ++ last) (.error error) after

/-- A run of a pool without programs. -/
theorem Drain.of_empty {σ : Type} {environment : Environment Answer World} {limit : Nat}
    {consume : σ → α → Program Answer (Except ε σ)} {final : Pool Answer α} {state state' : σ}
    {before after : World} {events : List (Event Answer)} {values : List α}
    (drain : Drain environment limit consume ⟨[], []⟩ state before events values final state'
      after) : final = ⟨[], []⟩ ∧ state' = state := by
  generalize empty : (⟨[], []⟩ : Pool Answer α) = pool at drain
  cases drain with
  | refl => exact ⟨rfl, rfl⟩
  | start => cases empty
  | advance => simp at empty
  | yield => simp at empty

theorem Drained.of_empty {σ : Type} {environment : Environment Answer World} {limit : Nat}
    {consume : σ → α → Program Answer (Except ε σ)} {state : σ} {before after : World}
    {events : List (Event Answer)} {result : Except ε σ}
    (drained : Drained environment limit consume ⟨[], []⟩ state before events result after) :
    result = .ok state := by
  cases drained with
  | finished drain => rw [drain.of_empty.2]
  | stopped drain failed =>
      have none := drain.of_empty.1
      simp at none

theorem Drained.of_silent {σ : Type} {limit : Nat} {consume : σ → α → Program Answer (Except ε σ)}
    {pool : Pool Answer α} {state : σ} {before after : Moment World}
    {events : List (Event Answer)} {result : Except ε σ}
    (drained : Drained (interrupted how quiet) limit consume pool state before events result after)
    (silent : ∀ event ∈ events, how.reports event = false) :
    Drained quiet limit consume pool state before.world events result after.world := by
  cases drained with
  | finished drain => exact .finished (drain.of_silent silent)
  | stopped drain failed =>
      rw [List.forall_mem_append] at silent
      exact .stopped (drain.of_silent silent.1) (failed.of_silent silent.2)

theorem Execution.informed {program final : Program Answer α} {before after : Moment World}
    {events : List (Event Answer)}
    (execution : Execution (interrupted how quiet) program before events final after)
    {alert : Bool} (informed : Informed alert before) : Informed alert after := by
  induction execution with
  | refl => exact informed
  | head step _ induction => exact induction (informed.later step)

/-- A request is not taken back along a run of a pool. -/
theorem Drain.informed {σ : Type} {limit : Nat} {consume : σ → α → Program Answer (Except ε σ)}
    {pool final : Pool Answer α} {state state' : σ} {before after : Moment World}
    {events : List (Event Answer)} {values : List α}
    (drain : Drain (interrupted how quiet) limit consume pool state before events values final
      state' after) {alert : Bool} (informed : Informed alert before) : Informed alert after := by
  induction drain with
  | refl => exact informed
  | start _ _ induction => exact induction informed
  | advance step _ induction => exact induction (informed.later step)
  | yield consumed _ induction => exact induction (consumed.informed informed)

theorem Drained.informed {σ : Type} {limit : Nat} {consume : σ → α → Program Answer (Except ε σ)}
    {pool : Pool Answer α} {state : σ} {before after : Moment World}
    {events : List (Event Answer)} {result : Except ε σ}
    (drained : Drained (interrupted how quiet) limit consume pool state before events result after)
    {alert : Bool} (informed : Informed alert before) : Informed alert after := by
  cases drained with
  | finished drain => exact drain.informed informed
  | stopped drain failed => exact failed.informed (drain.informed informed)

section Pools

variable {σ : Type} {limit : Nat} {consume : σ → α → Program Answer (Except ε σ)}
  {marked valid : α → Prop} {told : σ → Prop}

/-- A pool whose programs mark what they return after a report, and whose state has been told about
every report unless a program has still to return. -/
structure Aware (how : Interruption Answer) (expected : Event Answer → Prop)
    (marked valid : α → Prop) (told : σ → Prop) (pool : Pool Answer α) (state : σ)
    (moment : Moment World) (seen : Bool) : Prop where
  marks : ∀ program ∈ pool.programs, ∃ alert, Informed alert moment ∧
    Marks how expected marked valid alert program
  tells : seen = true → told state ∨ ∃ program ∈ pool.programs, moment.requested = true ∧
    Marks how expected marked valid true program

/-- Along a run of a pool every report is told in the end, where the consumer tells what is marked
and reports nothing by itself. -/
theorem Drain.aware {pool final : Pool Answer α} {state state' : σ} {before after : Moment World}
    {events : List (Event Answer)} {values : List α} (undisturbed : Undisturbed how expected quiet)
    (consumes : ∀ state value moment events next last, valid value →
      Execution (interrupted how quiet) (consume state value) moment events (.done (.ok next)) last →
        (∀ event ∈ events, how.reports event = false) ∧ (told state ∨ marked value → told next))
    (drain : Drain (interrupted how quiet) limit consume pool state before events values final
      state' after) {seen : Bool}
    (aware : Aware how expected marked valid told pool state before seen) :
    Aware how expected marked valid told final state' after (seen || events.any how.reports) := by
  induction drain generalizing seen with
  | refl => rwa [List.any_nil, Bool.or_false]
  | @start program waiting active _ _ _ _ _ _ _ _ _ induction =>
      have same : ∀ other, other ∈ Pool.programs ⟨program :: waiting, active⟩ ↔
          other ∈ Pool.programs ⟨waiting, active ++ [program]⟩ := by
        intro other
        simp only [Pool.programs, List.append_assoc, List.singleton_append]
      apply induction
      constructor
      · exact fun other member => aware.marks other ((same other).mpr member)
      · intro reported
        obtain told | ⟨other, member, rest⟩ := aware.tells reported
        · exact .inl told
        · exact .inr ⟨other, (same other).mp member, rest⟩
  | @advance waiting left right call next answer _ _ _ middle _ events _ _ step _ induction =>
      obtain ⟨alert, informed, marks⟩ := aware.marks (.request call next) (by simp [Pool.programs])
      obtain ⟨taken, now⟩ := informed.step undisturbed step
      have following : Marks how expected marked valid (alert || how.reports ⟨call, answer⟩)
          (next answer) := (marks answer _ taken).2
      have others : ∀ other ∈ Pool.programs ⟨waiting, left ++ .request call next :: right⟩,
          other = .request call next ∨
            other ∈ Pool.programs ⟨waiting, left ++ next answer :: right⟩ := by
        intro other member
        simp only [Pool.programs, List.mem_append, List.mem_cons] at member ⊢
        tauto
      have stays : ∀ other ∈ Pool.programs ⟨waiting, left ++ next answer :: right⟩,
          other = next answer ∨
            other ∈ Pool.programs ⟨waiting, left ++ .request call next :: right⟩ := by
        intro other member
        simp only [Pool.programs, List.mem_append, List.mem_cons] at member ⊢
        tauto
      have here : next answer ∈ Pool.programs ⟨waiting, left ++ next answer :: right⟩ := by
        simp [Pool.programs]
      rw [List.any_cons, ← Bool.or_assoc]
      apply induction
      constructor
      · intro other member
        obtain rfl | member := stays other member
        · exact ⟨_, now, following⟩
        · obtain ⟨known, told, marks⟩ := aware.marks other member
          exact ⟨known, told.later step, marks⟩
      · intro reported
        rw [Bool.or_eq_true] at reported
        obtain earlier | report := reported
        · obtain told | ⟨other, member, requested, marks⟩ := aware.tells earlier
          · exact .inl told
          · refine .inr ?_
            obtain rfl | member := others other member
            · obtain ⟨taken, _⟩ :=
                Informed.step undisturbed (fun _ => requested : Informed true _) step
              exact ⟨_, here, step.1 requested, (marks answer _ taken).2⟩
            · exact ⟨other, member, step.1 requested, marks⟩
        · rw [report, Bool.or_true] at now following
          exact .inr ⟨_, here, now rfl, following⟩
  | @yield waiting left right value _ next _ _ _ _ first events _ _ consumed _ induction =>
      obtain ⟨alert, informed, marks⟩ := aware.marks (.done value) (by simp [Pool.programs])
      obtain ⟨silent, tells⟩ := consumes _ _ _ _ _ _ marks.2 consumed
      have stays : ∀ other ∈ Pool.programs ⟨waiting, left ++ right⟩,
          other ∈ Pool.programs ⟨waiting, left ++ .done value :: right⟩ := by
        intro other member
        simp only [Pool.programs, List.mem_append, List.mem_cons] at member ⊢
        tauto
      have others : ∀ other ∈ Pool.programs ⟨waiting, left ++ .done value :: right⟩,
          other = .done value ∨ other ∈ Pool.programs ⟨waiting, left ++ right⟩ := by
        intro other member
        simp only [Pool.programs, List.mem_append, List.mem_cons] at member ⊢
        tauto
      have none : first.any how.reports = false := by
        rw [List.any_eq_false]
        exact fun event member => by simp [silent event member]
      rw [List.any_append, none, Bool.false_or]
      apply induction
      constructor
      · intro other member
        obtain ⟨known, told, marks⟩ := aware.marks other (stays other member)
        exact ⟨known, consumed.informed told, marks⟩
      · intro reported
        obtain told | ⟨other, member, requested, following⟩ := aware.tells reported
        · exact .inl (tells (.inl told))
        · obtain rfl | member := others other member
          · exact .inl (tells (.inr (following.1 rfl)))
          · have informed : Informed true _ := fun _ => requested
            exact .inr ⟨other, member, consumed.informed informed rfl, following⟩

/-- A pool whose consumer never fails tells every report in its result. -/
theorem Drained.tells {pool : Pool Answer α} {state : σ} {before after : Moment World}
    {events : List (Event Answer)} {result : Except ε σ}
    (undisturbed : Undisturbed how expected quiet)
    (consumes : ∀ state value, valid value → (consume state value).Ensures (alerted how expected)
      (fun _ event _ => how.reports event = false) false fun outcome _ =>
        ∃ next, outcome = .ok next ∧ (told state ∨ marked value → told next))
    (marks : ∀ program ∈ pool.programs, Marks how expected marked valid false program)
    (drained :
      Drained (interrupted how quiet) limit consume pool state before events result after) :
    ∃ state', result = .ok state' ∧ (events.any how.reports = true → told state') := by
  have taken : ∀ {state value moment events outcome last}, valid value →
      Execution (interrupted how quiet) (consume state value) moment events (.done outcome) last →
        (∀ event ∈ events, how.reports event = false) ∧
          ∃ next, outcome = .ok next ∧ (told state ∨ marked value → told next) := by
    intro state value moment events outcome last holds run
    have unaware : Informed false moment := fun alert => by cases alert
    obtain ⟨_, alone, _⟩ := run.alerted undisturbed unaware
    exact ⟨alone.each (consumes state value holds), alone.result (consumes state value holds)⟩
  have start : Aware how expected marked valid told pool state before false := by
    constructor
    · intro program member
      refine ⟨false, ?_, marks program member⟩
      intro alert
      cases alert
    · intro seen
      cases seen
  have along : ∀ {events values final state' last},
      Drain (interrupted how quiet) limit consume pool state before events values final state' last →
        Aware how expected marked valid told final state' last (events.any how.reports) := by
    intro events values final state' last drain
    have reached := drain.aware undisturbed (fun state value moment events next last holds run => by
      obtain ⟨silent, _, same, tells⟩ := taken holds run
      exact ⟨silent, Except.ok.inj same ▸ tells⟩) start
    rwa [Bool.false_or] at reached
  cases drained with
  | @finished _ _ state' _ drain =>
      refine ⟨state', rfl, fun reported => ?_⟩
      obtain told | ⟨_, member, _⟩ := (along drain).tells reported
      · exact told
      · cases member
  | @stopped _ _ _ waiting left right value _ error _ _ drain failed =>
      obtain ⟨_, _, marks⟩ := (along drain).marks (.done value) (by simp [Pool.programs])
      obtain ⟨_, _, same, _⟩ := taken marks.2 failed
      cases same

end Pools

end Interaction
