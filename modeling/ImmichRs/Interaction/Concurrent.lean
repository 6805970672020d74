import ImmichRs.Interaction.History

/-!
# Concurrent programs

Several programs in one environment.  Any of them may send its next request, so a run is recorded
as a log of steps: which program sent the request, the world before it and the answer.

Each program is judged by a local view of its own.  The view says which request it expects next and
how an answer changes it; the environment has to be shown to answer as the views allow, and the
guarantee of each program follows from its view alone.
-/

namespace Interaction

variable {Call : Type} {Answer : Call → Type} {α σ World : Type}

/-- One step of a run: the position of the program, the world before the step, and the request with
its answer. -/
structure ThreadStep {Call : Type} (Answer : Call → Type) (World : Type) where
  thread : Nat
  before : World
  event : Event Answer

/-- A possibly unfinished run of programs which take steps in any order. -/
inductive Concurrent (environment : Environment Answer World) :
    List (Program Answer α) → World → List (ThreadStep Answer World) → List (Program Answer α) →
      World → Prop
  | refl (programs : List (Program Answer α)) (world : World) :
      Concurrent environment programs world [] programs world
  | step {left right : List (Program Answer α)} {call : Call}
      {next : Answer call → Program Answer α} {answer : Answer call} {before middle after : World}
      {log : List (ThreadStep Answer World)} {final : List (Program Answer α)} :
      environment before ⟨call, answer⟩ middle →
      Concurrent environment (left ++ next answer :: right) middle log final after →
      Concurrent environment (left ++ .request call next :: right) before
        (⟨left.length, before, ⟨call, answer⟩⟩ :: log) final after

/-- The environment of a local view: it may do anything after a request which is not expected. -/
def viewed (expects : σ → Call → Prop) (allowed : Environment Answer σ) :
    Environment Answer σ :=
  fun before event after => expects before event.1 → allowed before event after

/-- Against its local view a program only sends requests which are expected, and returns values
which satisfy `post`. -/
def Program.Follows (expects : σ → Call → Prop) (allowed : Environment Answer σ)
    (program : Program Answer α) (view : σ) (post : α → σ → Prop) : Prop :=
  program.Ensures (viewed expects allowed) (fun before event _ => expects before event.1) view post

/-- A program follows its view also where the view carries a tag which no step changes. -/
theorem Program.Follows.tagged {Tag : Type} {expects : σ → Call → Prop}
    {allowed : Environment Answer σ} {program : Program Answer α} {view : σ} {post : α → σ → Prop}
    (follows : program.Follows expects allowed view post) (tag : Tag) :
    program.Follows (fun tagged call => expects tagged.2 call)
      (fun before event after => after.1 = before.1 ∧ allowed before.2 event after.2)
      (tag, view) fun value tagged => tagged.1 = tag ∧ post value tagged.2 := by
  induction program generalizing view with
  | done value => exact ⟨rfl, follows⟩
  | request call next induction =>
      rintro answer ⟨other, after⟩ changed
      have expected : expects view call := by
        by_contra unexpected
        exact unexpected (follows answer view fun expected => absurd expected unexpected).1
      obtain ⟨same, advanced⟩ := changed expected
      have kept : other = tag := same
      rw [kept]
      exact ⟨expected, induction answer (follows answer after fun _ => advanced).2⟩

namespace Concurrent

variable {environment : Environment Answer World}

/-- The view rule: when the environment answers every expected request as the view of its sender
allows and keeps an invariant of the log, the world and the views, all programs keep to their
views. -/
theorem follows {expects : σ → Call → Prop} {allowed : Environment Answer σ} {post : α → σ → Prop}
    {rule : List (ThreadStep Answer World) → ThreadStep Answer World → Prop}
    {invariant : List (ThreadStep Answer World) → World → List σ → Prop}
    (answers : ∀ past before left view right event after,
      invariant past before (left ++ view :: right) → expects view event.1 →
      environment before event after → rule past ⟨left.length, before, event⟩ →
        ∃ next, allowed view event next ∧
          invariant (past ++ [⟨left.length, before, event⟩]) after (left ++ next :: right))
    {threads : List (Program Answer α × σ)} {final : List (Program Answer α)}
    {before after : World} {past log : List (ThreadStep Answer World)}
    (run : Concurrent environment (threads.map Prod.fst) before log final after)
    (follow : ∀ thread ∈ threads, thread.1.Follows expects allowed thread.2 post)
    (holds : invariant past before (threads.map Prod.snd))
    (orderly : ∀ front step back, log = front ++ step :: back → rule (past ++ front) step) :
    ∃ threads' : List (Program Answer α × σ), threads'.map Prod.fst = final ∧
      (∀ thread ∈ threads', thread.1.Follows expects allowed thread.2 post) ∧
        invariant (past ++ log) after (threads'.map Prod.snd) := by
  generalize started : threads.map Prod.fst = programs at run
  induction run generalizing threads past with
  | refl programs world =>
      refine ⟨threads, started, follow, ?_⟩
      rwa [List.append_nil]
  | @step left right call next answer before middle after log final step _ induction =>
      obtain ⟨leftThreads, rest, rfl, rfl, split⟩ := List.map_eq_append_iff.mp started
      obtain ⟨thread, rightThreads, rfl, sent, rfl⟩ := List.map_eq_cons_iff.mp split
      obtain ⟨program, view⟩ := thread
      cases sent
      have following := follow _ (List.mem_append_right _ List.mem_cons_self)
      have expected : expects view call := by
        by_contra unexpected
        have anything : viewed expects allowed view ⟨call, answer⟩ view := by
          intro expected
          exact absurd expected unexpected
        exact unexpected (following answer view anything).1
      rw [List.map_append, List.map_cons] at holds
      have ruled := orderly [] _ log rfl
      rw [List.append_nil, List.length_map] at ruled
      obtain ⟨after, changed, kept⟩ := answers past _ (leftThreads.map Prod.snd) view
        (rightThreads.map Prod.snd) ⟨call, answer⟩ _ holds expected step
        (by rwa [List.length_map])
      have follow' : ∀ thread ∈ leftThreads ++ (next answer, after) :: rightThreads,
          thread.1.Follows expects allowed thread.2 post := by
        intro thread member
        rcases List.mem_append.mp member with early | late
        · exact follow thread (List.mem_append_left _ early)
        · rcases List.mem_cons.mp late with rfl | late
          · exact (following answer after fun _ => changed).2
          · exact follow thread (List.mem_append_right _ (List.mem_cons_of_mem _ late))
      rw [List.length_map] at kept
      obtain ⟨threads', ended, followed, reached⟩ :=
        @induction (leftThreads ++ (next answer, after) :: rightThreads)
          (past ++ [⟨leftThreads.length, before, ⟨call, answer⟩⟩]) follow'
          (by rwa [List.map_append, List.map_cons])
          (fun front step back cut => by
            have later := orderly (_ :: front) step back (congrArg (List.cons _) cut)
            rwa [List.length_map, ← List.singleton_append, ← List.append_assoc] at later)
          (by rw [List.map_append, List.map_cons])
      refine ⟨threads', ended, followed, ?_⟩
      rwa [List.append_assoc, List.singleton_append, ← List.length_map (f := Prod.fst)] at reached

end Concurrent

/-! ## Schedules -/

/-- Whether a program has returned. -/
def Program.isDone : Program Answer α → Bool
  | .done _ => true
  | .request _ _ => false

/-- Let programs take steps as a schedule says, against a stepper.  A program which has returned
lets its turn pass. -/
def scheduled {State : Type} (view : State → World)
    (step : State → (call : Call) → Option (Answer call × State)) :
    List Nat → List (Program Answer α) → State →
      Option (List (ThreadStep Answer World) × List (Program Answer α) × State)
  | [], programs, state => some ([], programs, state)
  | thread :: rest, programs, state =>
      match programs[thread]? with
      | some (.request call next) =>
          (step state call).bind fun answered =>
            (scheduled view step rest (programs.set thread (next answered.1)) answered.2).map
              fun ended => (⟨thread, view state, ⟨call, answered.1⟩⟩ :: ended.1, ended.2)
      | _ => scheduled view step rest programs state

/-- A schedule is a run, where the stepper keeps to the environment. -/
theorem Concurrent.of_scheduled {State : Type} {environment : Environment Answer World}
    {view : State → World} {step : State → (call : Call) → Option (Answer call × State)}
    (sound : ∀ state call answer after, step state call = some (answer, after) →
      environment (view state) ⟨call, answer⟩ (view after))
    {schedule : List Nat} {programs final : List (Program Answer α)} {before after : State}
    {log : List (ThreadStep Answer World)}
    (ran : scheduled view step schedule programs before = some (log, final, after)) :
    Concurrent environment programs (view before) log final (view after) := by
  induction schedule generalizing programs before log with
  | nil =>
      cases ran
      exact .refl _ _
  | cons thread rest induction =>
      rw [scheduled] at ran
      split at ran
      · rename_i call next found
        obtain ⟨⟨answer, middle⟩, stepped, ran⟩ := Option.bind_eq_some_iff.mp ran
        obtain ⟨⟨later, last⟩, ended, same⟩ := Option.map_eq_some_iff.mp ran
        cases same
        obtain ⟨below, here⟩ := List.getElem?_eq_some_iff.mp found
        have split : programs = programs.take thread ++ .request call next ::
            programs.drop (thread + 1) := by
          rw [← here, List.getElem_cons_drop, List.take_append_drop]
        have length : (programs.take thread).length = thread := by
          rw [List.length_take, Nat.min_eq_left (Nat.le_of_lt below)]
        have run := induction ended
        rw [List.set_eq_take_append_cons_drop, if_pos below] at run
        have stepped := Concurrent.step (sound _ _ _ _ stepped) run
        rwa [length, ← split] at stepped
      · exact induction ran

end Interaction
