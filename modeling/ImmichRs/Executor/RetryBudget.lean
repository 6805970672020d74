import ImmichRs.Executor.AccountingRun
import ImmichRs.Executor.ImportResume

/-!
# The retry budget

All retries of a run claim from one counter.  Every effect sends one mutating request for free, and
each further one after a granted claim, whatever the interleaving of the groups is.
-/

namespace ImmichRs

open Interaction
open Std (ExtTreeMap ExtTreeSet)

/-! ## The counter -/

/-- `RetryBudget`: the number of claims which were granted, below a maximum. -/
def budgetEnvironment (maximum : Nat) : Environment Answer Nat
  | used, ⟨.claim, answer⟩, after =>
      answer = decide (used < maximum) ∧ after = used + (answer : Bool).toNat
  | used, _, after => after = used

section

variable {maximum : Nat} {α σ ε : Type} {before after : Nat} {events : List (Event Answer)}

theorem countP_granted_cons (event : Event Answer) (events : List (Event Answer)) :
    (event :: events).countP granted = (granted event).toNat + events.countP granted := by
  rw [List.countP_cons]
  cases granted event with
  | false => simp
  | true => simp [Nat.add_comm]

theorem budget_step {event : Event Answer} (step : budgetEnvironment maximum before event after)
    (within : before ≤ maximum) :
    after = before + (granted event).toNat ∧ after ≤ maximum := by
  obtain ⟨call, answer⟩ := event
  cases call with
  | claim =>
      obtain ⟨decided, rfl⟩ := step
      refine ⟨rfl, ?_⟩
      change (answer : Bool) = decide (before < maximum) at decided
      rw [decided]
      by_cases less : before < maximum
      · simp only [less, decide_true, Bool.toNat_true]
        omega
      · simpa [less] using within
  | _ =>
      obtain rfl : after = before := step
      exact ⟨rfl, within⟩

/-- The counter counts the granted claims and stays below its maximum. -/
theorem budget_execution {program final : Executor α}
    (execution : Execution (budgetEnvironment maximum) program before events final after)
    (within : before ≤ maximum) :
    after = before + events.countP granted ∧ after ≤ maximum := by
  induction execution with
  | refl => exact ⟨rfl, within⟩
  | head step _ induction =>
      obtain ⟨next, below⟩ := budget_step step within
      obtain ⟨counted, bounded⟩ := induction below
      refine ⟨?_, bounded⟩
      rw [counted, next, countP_granted_cons]
      omega

/-- The same for the interleaved runs of a pool. -/
theorem budget_drain {limit : Nat} {consume : σ → α → Executor (Except ε σ)}
    {pool final : Pool Answer α} {state state' : σ} {values : List α}
    (drain : Drain (budgetEnvironment maximum) limit consume pool state before events values final
      state' after) (within : before ≤ maximum) :
    after = before + events.countP granted ∧ after ≤ maximum := by
  induction drain with
  | refl => exact ⟨rfl, within⟩
  | start _ _ induction => exact induction within
  | advance step _ induction =>
      obtain ⟨next, below⟩ := budget_step step within
      obtain ⟨counted, bounded⟩ := induction below
      refine ⟨?_, bounded⟩
      rw [counted, next, countP_granted_cons]
      omega
  | yield consumption _ induction =>
      obtain ⟨next, below⟩ := budget_execution consumption within
      obtain ⟨counted, bounded⟩ := induction below
      refine ⟨?_, bounded⟩
      rw [counted, next, granted_append]
      omega

end

/-! ## Groups of a folder apply -/

/-- The effects of a group. -/
def groupKeys (group : List UploadOperation) : List EffectKey :=
  group.map fun operation => .asset operation.operationId

/-- The retries of a list of outcomes. -/
def totalRetries (outcomes : List OperationOutcome) : Nat :=
  (outcomes.map OperationOutcome.retries).sum

theorem totalRetries_append (first second : List OperationOutcome) :
    totalRetries (first ++ second) = totalRetries first + totalRetries second := by
  simp [totalRetries]

section

variable {platform : Platform} {config : UploadExecutionConfig}

/-- What a group leaves behind: uploads of its operations, and outcomes whose retries were
granted. -/
structure GroupSpent (platform : Platform) (attempts : Nat) (group : List UploadOperation)
    (past : List OperationOutcome) (events : List (Event Answer)) (result : GroupResult) :
    Prop where
  part : Scoped platform (fun _ _ => False) attempts (groupKeys group) events
  retried : totalRetries result.outcomes ≤ totalRetries past + events.countP granted

/-- An operation which sends nothing. -/
theorem GroupSpent.skip {attempts : Nat} {operation : UploadOperation}
    {rest : List UploadOperation} {past outcomes : List OperationOutcome}
    {events : List (Event Answer)} {result : GroupResult}
    (same : totalRetries outcomes = totalRetries past)
    (spent : GroupSpent platform attempts rest outcomes events result) :
    GroupSpent platform attempts (operation :: rest) past (⟨.isCancelled, false⟩ :: events)
      result := by
  have asked : Scoped platform (fun _ _ => False) attempts []
      [(⟨.isCancelled, false⟩ : Event Answer)] := scoped_plain rfl
  refine ⟨(asked.append spent.part).mono (List.sublist_cons_self _ _), ?_⟩
  rw [← same, countP_granted_cons]
  exact spent.retried.trans (Nat.add_le_add_left (Nat.le_add_left _ _) _)

theorem totalRetries_failed (past : List OperationOutcome) (operation : UploadOperation) :
    totalRetries (past ++ [failed operation 0]) = totalRetries past := by
  rw [totalRetries_append]
  rfl

/-- The operation at which a group stops, or after which it goes on. -/
theorem GroupSpent.cons {attempts : Nat} {operation : UploadOperation}
    {rest : List UploadOperation} {past outcomes : List OperationOutcome}
    {first second : List (Event Answer)} {retries : Nat} {result : GroupResult}
    (below : retries < attempts)
    (segment : Segment platform (fun _ _ => False) (.asset operation.operationId) first
      (retries + 1) retries)
    (counted : totalRetries outcomes ≤ totalRetries past + retries)
    (spent : GroupSpent platform attempts rest outcomes second result) :
    GroupSpent platform attempts (operation :: rest) past
      (⟨.isCancelled, false⟩ :: (first ++ second)) result := by
  have asked : Scoped platform (fun _ _ => False) attempts []
      [(⟨.isCancelled, false⟩ : Event Answer)] := scoped_plain rfl
  have grants := segment.grants
  have more := spent.retried
  refine ⟨asked.append ((segment.closed.toScoped below).append spent.part), ?_⟩
  rw [countP_granted_cons, granted_append]
  omega

theorem groupSpent_nil {attempts : Nat} (group : List UploadOperation)
    (outcomes : List OperationOutcome) (cancelled : Bool) :
    GroupSpent platform attempts group outcomes [] ⟨outcomes, cancelled⟩ :=
  ⟨scoped_nil.mono (List.nil_sublist _), Nat.le_add_right _ _⟩

theorem applyGroupLoop_spent (positive : 1 ≤ config.maxAttemptsPerOperation)
    (verified : ExtTreeMap String VerifiedAsset) (completed : ExtTreeMap String String)
    (group : List UploadOperation) (past : List OperationOutcome)
    (videoAssetId : Option String) :
    (applyGroupLoop platform config verified completed group past videoAssetId).Traces
      (GroupSpent platform config.maxAttemptsPerOperation group past) := by
  induction group generalizing past videoAssetId with
  | nil => exact groupSpent_nil [] past false
  | cons operation rest induction =>
      rintro (_ | _)
      · simp only [Program.bind_done, Bool.false_eq_true, if_false]
        split
        · exact (induction past _).mono fun _ _ spent => spent.skip rfl
        · split
          · exact (induction _ _).mono fun _ _ spent =>
              spent.skip (totalRetries_failed past operation)
          · split
            · exact (induction _ _).mono fun _ _ spent =>
                spent.skip (totalRetries_failed past operation)
            · next source _ =>
                have spent : (applyOperation platform config operation source
                    videoAssetId).Traces
                      (OperationSpent platform (fun _ _ => False) config operation) :=
                  applyOperation_spent platform _ config operation source videoAssetId positive
                simp only [Program.bind_eq, Program.traces_bind]
                refine spent.mono fun first result reached => ?_
                obtain ⟨retries, below, segment, reports⟩ := reached
                cases result with
                | cancelled outcome =>
                    have counted : totalRetries (past ++ outcome.toList) ≤
                        totalRetries past + retries := by
                      rw [totalRetries_append]
                      cases outcome with
                      | none => simp [totalRetries]
                      | some outcome =>
                          obtain rfl : outcome.retries = retries := reports
                          simp [totalRetries]
                    exact GroupSpent.cons below segment counted (groupSpent_nil rest _ true)
                | completed outcome =>
                    obtain ⟨_, rfl, _⟩ := reports
                    have counted : totalRetries (past ++ [outcome]) ≤
                        totalRetries past + outcome.retries := by
                      rw [totalRetries_append]
                      simp [totalRetries]
                    simp only
                    split
                    · exact GroupSpent.cons below segment counted (groupSpent_nil rest _ false)
                    · exact (induction _ _).mono fun second result tail =>
                        GroupSpent.cons below segment counted tail
      · have asked : Scoped platform (fun _ _ => False) config.maxAttemptsPerOperation []
            [(⟨.isCancelled, true⟩ : Event Answer)] := scoped_plain rfl
        exact ⟨asked.mono (List.nil_sublist _), Nat.le_add_right _ _⟩

/-- The retries which a finished group reports. -/
def residualRetries : Executor GroupResult → Nat
  | .done result => totalRetries result.outcomes
  | .request _ _ => 0

/-- A local run of one group, finished or not. -/
theorem groupRun_spent (positive : 1 ≤ config.maxAttemptsPerOperation)
    {verified : ExtTreeMap String VerifiedAsset} {completed : ExtTreeMap String String}
    {group : List UploadOperation} {run : LocalRun Answer GroupResult}
    (program : run.program = applyGroup platform config verified completed group) :
    Scoped platform (fun _ _ => False) config.maxAttemptsPerOperation (groupKeys group)
        run.events ∧ residualRetries run.residual ≤ run.events.countP granted := by
  have valid := run.valid
  rw [program] at valid
  have spent : (applyGroup platform config verified completed group).Traces
      (GroupSpent platform config.maxAttemptsPerOperation group []) :=
    applyGroupLoop_spent positive verified completed group [] none
  constructor
  · obtain ⟨rest, value, whole, answered⟩ := valid.traces_extend refuse spent
    refine whole.part.of_append (List.countP_eq_zero.mpr fun event member => ?_)
    simp [granted_refuse event (answered event member)]
  · cases residual : run.residual with
    | request call next => exact Nat.zero_le _
    | done result =>
        have counted := (valid.traces residual spent).retried
        simpa [totalRetries, residualRetries] using counted

/-- The local runs of all groups together. -/
theorem groupRuns_spent (positive : 1 ≤ config.maxAttemptsPerOperation)
    {verified : ExtTreeMap String VerifiedAsset} {completed : ExtTreeMap String String}
    {groups : List (List UploadOperation)} {runs : List (LocalRun Answer GroupResult)}
    (programs : runs.map LocalRun.program =
      groups.map (applyGroup platform config verified completed)) :
    Scoped platform (fun _ _ => False) config.maxAttemptsPerOperation (groupKeys groups.flatten)
        (runs.flatMap LocalRun.events) ∧
      ((runs.map LocalRun.residual).map residualRetries).sum ≤
        (runs.flatMap LocalRun.events).countP granted := by
  induction groups generalizing runs with
  | nil =>
      rw [List.map_nil, List.map_eq_nil_iff] at programs
      rw [programs]
      exact ⟨scoped_nil, le_rfl⟩
  | cons group groups induction =>
      obtain ⟨run, rest, rfl, program, tail⟩ := List.map_eq_cons_iff.mp programs
      obtain ⟨part, retried⟩ := groupRun_spent positive program
      obtain ⟨parts, total⟩ := induction tail
      rw [List.flatMap_cons, List.flatten_cons, granted_append]
      refine ⟨?_, Nat.add_le_add retried total⟩
      rw [groupKeys, List.map_append]
      exact part.append parts

end

/-! ## The main loop and the start of a folder apply -/

section

variable {platform : Platform} {attempts : Nat}

theorem journalOutcomes_performs (report : ApplyReport) (outcomes : List OperationOutcome) :
    Performs platform (fun _ _ => False) attempts [] (journalOutcomes report outcomes)
      fun _ after => after.retried = report.retried + totalRetries outcomes := by
  induction outcomes generalizing report with
  | nil => exact performs_pure rfl
  | cons outcome rest induction =>
      have row : Performs platform (fun _ _ => False) attempts [] (appendEvent outcome.event)
          fun _ _ => True := by
        unfold appendEvent
        split
        · exact (performs_ofExcept _).mono (List.Sublist.refl _) fun _ _ _ => trivial
        · exact (performs_ask rfl _).mono (List.Sublist.refl _) fun _ _ _ => trivial
      have retried : (recordReport report outcome).retried = report.retried + outcome.retries := by
        unfold recordReport
        cases outcome.kind <;> rfl
      refine row.before fun _ _ _ => (induction _).mono (List.Sublist.refl _) fun _ after tail => ?_
      rw [tail, retried, Nat.add_assoc]
      rfl

theorem takeGroup_performs (report : ApplyReport) (result : GroupResult) :
    (takeGroup report result).Traces fun events outcome =>
      Scoped platform (fun _ _ => False) attempts [] events ∧ ∀ after, outcome = .ok after →
        after.retried = report.retried + totalRetries result.outcomes :=
  journalOutcomes_performs _ _

theorem consumed_spent {before after : ApplyReport} {values : List GroupResult}
    {events : List (Event Answer)} (consumed : Consumed takeGroup before values events after) :
    Scoped platform (fun _ _ => False) attempts [] events ∧ after.retried =
      before.retried + ((values.map Program.done).map residualRetries).sum := by
  induction consumed with
  | nil state => exact ⟨scoped_nil, rfl⟩
  | @cons state next final value values first events taken _ induction =>
      obtain ⟨tail, total⟩ := induction
      obtain ⟨head, retried⟩ := taken.traces rfl (takeGroup_performs state value)
      refine ⟨head.append tail, ?_⟩
      rw [total, retried next rfl, List.map_cons, List.map_cons, List.sum_cons, Nat.add_assoc]
      rfl

/-- A program which works on no effect. -/
def Quiet {α : Type} (platform : Platform) (attempts : Nat) (program : FallibleExecutor α) :
    Prop :=
  Performs platform (fun _ _ => False) attempts [] program fun _ _ => True

theorem Performs.quiet {α : Type} {program : FallibleExecutor α}
    {post : List (Event Answer) → α → Prop}
    (performs : Performs platform (fun _ _ => False) attempts [] program post) :
    Quiet platform attempts program :=
  performs.mono (List.Sublist.refl _) fun _ _ _ => trivial

theorem Quiet.bind {α β : Type} {program : FallibleExecutor α} {next : α → FallibleExecutor β}
    (head : Quiet platform attempts program)
    (tail : ∀ value, Quiet platform attempts (next value)) :
    Quiet platform attempts (program >>= next) :=
  Performs.before head fun _ value _ => tail value

theorem verifyOperation_quiet (resolved : ResolvedFolderPlan) (operation : UploadOperation) :
    Quiet platform attempts (verifyOperation resolved operation) := by
  have checked : Quiet platform attempts checkCancelled := by
    rintro (_ | _)
    · exact ⟨scoped_plain rfl, fun _ _ => trivial⟩
    · exact ⟨scoped_plain rfl, fun _ _ => trivial⟩
  have sidecar : Quiet platform attempts (verifySidecar resolved operation) := by
    unfold verifySidecar
    split
    · exact performs_pure trivial
    · refine (performs_ofExcept _).quiet.bind fun source => ?_
      refine (performs_ask rfl _).quiet.bind fun identity => ?_
      refine (performs_ofExcept _).quiet.bind fun _ => ?_
      exact performs_pure trivial
  refine checked.bind fun _ => ?_
  refine (performs_ofExcept _).quiet.bind fun media => ?_
  refine (performs_ask rfl _).quiet.bind fun identity => ?_
  refine (performs_ofExcept _).quiet.bind fun _ => ?_
  exact sidecar.bind fun _ => performs_pure trivial

theorem verifyOperations_quiet (resolved : ResolvedFolderPlan)
    (operations : List UploadOperation) (verified : ExtTreeMap String VerifiedAsset) :
    Quiet platform attempts (verifyOperations resolved operations verified) := by
  induction operations generalizing verified with
  | nil => exact performs_pure trivial
  | cons operation rest induction =>
      exact (verifyOperation_quiet resolved operation).bind fun asset => induction _

theorem verifySource_quiet (plan : UploadPlan) (config : UploadExecutionConfig) :
    Quiet platform attempts (verifySource platform plan config) := by
  refine (performs_ofExcept _).quiet.bind fun _ => ?_
  refine (performs_ofExcept _).quiet.bind fun identity => ?_
  refine (performs_ofExcept _).quiet.bind fun _ => ?_
  refine (performs_ask rfl _).quiet.bind fun resolved => ?_
  refine (performs_ofExcept _).quiet.bind fun _ => ?_
  exact verifyOperations_quiet resolved plan.operations ∅

/-- The start of a folder apply sends no mutation, and its limits allow an attempt. -/
theorem uploadStart_performs (plan : UploadPlan) (config : UploadExecutionConfig)
    (compatibility : ServerCompatibility) (backupReferenceSha256 : Option String) :
    Performs platform (fun _ _ => False) attempts []
      (uploadStart platform plan config compatibility backupReferenceSha256) fun _ _ =>
        1 ≤ config.maxAttemptsPerOperation := by
  refine Performs.before (performs_ofExcept _) fun _ _ valid => ?_
  have positive := (UploadExecutionConfig.attempts_of_validate valid).1
  refine Performs.before (performs_ofExcept _) fun _ _ _ => ?_
  have journal : Quiet platform attempts (openJournal backupReferenceSha256) :=
    (performs_ofExcept _).quiet.bind fun _ => (performs_ask rfl _).quiet
  refine Performs.before (verifySource_quiet plan config) fun _ verified _ => ?_
  refine Performs.before journal fun _ _ _ => ?_
  refine Performs.before (performs_ask rfl _) fun _ rows _ => ?_
  refine Performs.before (performs_ofExcept _) fun _ completed _ => ?_
  refine Performs.before (performs_ofExcept _) fun _ _ _ => ?_
  refine Performs.before (performs_ofExcept _) fun _ groups _ => ?_
  exact performs_pure positive

end

/-! ## Whole runs -/

section

variable {platform : Platform} {plan : UploadPlan} {config : UploadExecutionConfig}
  {compatibility : ServerCompatibility} {backupReferenceSha256 : Option String}

theorem nodup_groupKeys {operations : List UploadOperation}
    (distinct : (operations.map UploadOperation.operationId).Nodup) :
    (groupKeys operations).Nodup := by
  have injective : Function.Injective EffectKey.asset := fun _ _ same => by injection same
  have keys : groupKeys operations =
      (operations.map UploadOperation.operationId).map EffectKey.asset := by
    rw [List.map_map]
    rfl
  rw [keys]
  exact distinct.map injective

theorem Started.length_groups_le {start : UploadStart} (started : Started platform plan start) :
    start.groups.flatten.length ≤ plan.operations.length := by
  obtain ⟨_, distinct⟩ := started.groups_valid
  have inside : start.groups.flatten.map UploadOperation.operationId ⊆
      plan.operations.map UploadOperation.operationId := by
    refine List.map_subset _ fun operation member => mem_operations_of_mem_groups ?_
    exact List.filter_sublist.flatten.subset (started.groups_perm.2.flatten.subset member)
  have fewer := (distinct.subperm inside).length_le
  rwa [List.length_map, List.length_map] at fewer

theorem countP_flatMap_events (predicate : Event Answer → Bool)
    (runs : List (LocalRun Answer GroupResult)) :
    (runs.flatMap LocalRun.events).countP predicate = localCount predicate runs := by
  rw [List.countP_flatMap]
  rfl

/-- The events of a folder apply: those of its start, of its groups and of its main loop. -/
structure UploadSpent (platform : Platform) (plan : UploadPlan) (attempts : Nat)
    (events : List (Event Answer)) (retried : Nat) : Prop where
  mutations : events.countP mutates ≤ plan.operations.length + events.countP granted
  each : ∀ key, mutationsFor platform key events ≤ attempts
  retried : retried ≤ events.countP granted

theorem requested_of_mutates (platform : Platform) {event : Event Answer}
    (mutating : mutates event = true) : ∃ key, requested platform event = some key := by
  obtain ⟨call, answer⟩ := event
  cases call <;> first
    | exact ⟨_, rfl⟩
    | cases mutating

theorem Scoped.calm {attempts : Nat} {events : List (Event Answer)}
    (part : Scoped platform (fun _ _ => False) attempts [] events) (key : EffectKey) :
    mutationsFor platform key events = 0 :=
  mutationsFor_eq_zero fun member => List.not_mem_nil (part.requests key member)

theorem Scoped.mutationFree {attempts : Nat} {events : List (Event Answer)}
    (part : Scoped platform (fun _ _ => False) attempts [] events) :
    events.countP mutates = 0 := by
  refine List.countP_eq_zero.mpr fun event member mutating => ?_
  obtain ⟨key, asked⟩ := requested_of_mutates platform mutating
  exact List.not_mem_nil (part.requests key (List.mem_filterMap.mpr ⟨event, member, asked⟩))

theorem UploadRun.spent {World : Type} {environment : Environment Answer World}
    {before after : World} {events : List (Event Answer)} {start : UploadStart}
    {pool : Pool Answer GroupResult} {report : ApplyReport}
    (run : UploadRun environment platform plan config compatibility backupReferenceSha256 before
      events start pool report after) :
    UploadSpent platform plan config.maxAttemptsPerOperation events report.retried := by
  obtain @⟨opening, draining, _, values, _, _, _, _, opened, drained⟩ := run
  obtain ⟨_, started⟩ := started_of_execution opened
  have sent : Performs platform (fun _ _ => False) config.maxAttemptsPerOperation [] _ _ :=
    uploadStart_performs plan config compatibility backupReferenceSha256
  obtain ⟨quiet, limits⟩ := opened.traces rfl sent
  have positive := limits start rfl
  obtain ⟨runs, consumed, programs, residuals, taken, split⟩ := drained.split
  have written : Scoped platform (fun _ _ => False) config.maxAttemptsPerOperation [] consumed ∧ _ :=
    consumed_spent taken
  obtain ⟨journalled, retried⟩ := written
  obtain ⟨parts, reported⟩ := groupRuns_spent positive
    (by simpa [UploadStart.pool, Pool.programs] using programs)
  obtain ⟨_, distinct⟩ := started.groups_valid
  have fewer := started.length_groups_le
  refine ⟨?_, fun key => ?_, ?_⟩
  · have groups := parts.cost
    have opening := quiet.cost
    have loop := journalled.cost
    rw [countP_flatMap_events, countP_flatMap_events, groupKeys, List.length_map] at groups
    rw [List.length_nil, Nat.zero_add] at opening loop
    rw [List.countP_append, granted_append, split, split]
    omega
  · have groups := parts.each (nodup_groupKeys distinct) key
    rw [mutationsFor, countP_flatMap_events] at groups
    have calm := journalled.calm key
    rw [mutationsFor] at calm
    rw [mutationsFor_append, quiet.calm, Nat.zero_add, mutationsFor, split, calm, Nat.add_zero]
    exact groups
  · have total := (residuals.map residualRetries).sum_eq
    rw [List.map_append, List.sum_append] at total
    rw [countP_flatMap_events] at reported
    rw [started.report] at retried
    rw [granted_append, split, retried]
    simp only [ApplyReport.new]
    omega

/-- Every run of an import, finished or cut off, against a budget which nobody has used: its
mutating requests, those of one effect, and the retries it reports. -/
def ImportWithinBudget (platform : Platform) (plan : UploadPlan) (config : ImportConfig) : Prop :=
  ∀ client backupReferenceSha256 events final used,
    Execution (budgetEnvironment config.upload.maxRetriesPerRun)
      (applyImportInner platform plan config client backupReferenceSha256).run 0 events final used →
        events.countP mutates ≤ plan.summary.maxMutations + config.upload.maxRetriesPerRun ∧
        (AlbumsDistinct platform plan → ∀ key,
          mutationsFor platform key events ≤ config.upload.maxAttemptsPerOperation) ∧
        ∀ report, final = .done (.ok report) → report.retried ≤ config.upload.maxRetriesPerRun

/-- Every run of a folder apply against such a budget, cut off during its start, between any two
steps of its groups, or while the main loop journals a group. -/
def UploadWithinBudget (platform : Platform) (plan : UploadPlan) (config : UploadExecutionConfig) :
    Prop :=
  ∀ compatibility backupReferenceSha256,
    (∀ events final used, Execution (budgetEnvironment config.maxRetriesPerRun)
      (uploadStart platform plan config compatibility backupReferenceSha256).run 0 events final
      used → events.countP mutates = 0) ∧
    ∀ events start pool report value last final middle used,
      UploadRun (budgetEnvironment config.maxRetriesPerRun) platform plan config compatibility
        backupReferenceSha256 0 events start pool report middle →
      Execution (budgetEnvironment config.maxRetriesPerRun) (takeGroup report value) middle last
        final used →
          (events ++ last).countP mutates ≤ plan.operations.length + config.maxRetriesPerRun ∧
          (∀ key, mutationsFor platform key (events ++ last) ≤ config.maxAttemptsPerOperation) ∧
          report.retried ≤ config.maxRetriesPerRun

theorem import_within_budget (platform : Platform) (plan : UploadPlan) (config : ImportConfig) :
    ImportWithinBudget platform plan config := by
  intro client backupReferenceSha256 events final used execution
  obtain ⟨counted, bounded⟩ := budget_execution execution (Nat.zero_le _)
  obtain ⟨opening, first, second, split, run⟩ := applyImportInner_events execution
  obtain ⟨scope, inside, members, part⟩ := run.scoped
  rw [← split] at part
  refine ⟨?_, fun distinct => part.each (inside.distinct distinct), fun report finished => ?_⟩
  · have cost := part.cost
    have few := inside.length_le
    omega
  · obtain ⟨_, _, _, _, _, reported⟩ := execution.traces finished
      (applyImportInner_traces client backupReferenceSha256)
    have retried := (reported report rfl).retried
    omega

/-- Events of the main loop which come after those of the groups. -/
theorem UploadSpent.append {attempts retried : Nat} {events last : List (Event Answer)}
    (spent : UploadSpent platform plan attempts events retried)
    (quiet : Scoped platform (fun _ _ => False) attempts [] last) :
    UploadSpent platform plan attempts (events ++ last) retried where
  mutations := by
    have first := spent.mutations
    have second := quiet.cost
    rw [List.length_nil, Nat.zero_add] at second
    rw [List.countP_append, granted_append]
    omega
  each key := by
    rw [mutationsFor_append, quiet.calm, Nat.add_zero]
    exact spent.each key
  retried := by
    rw [granted_append]
    exact spent.retried.trans (Nat.le_add_right _ _)

theorem UploadRun.budget {maximum used after : Nat} {events : List (Event Answer)}
    {start : UploadStart} {pool : Pool Answer GroupResult} {report : ApplyReport}
    (run : UploadRun (budgetEnvironment maximum) platform plan config compatibility
      backupReferenceSha256 used events start pool report after)
    (within : used ≤ maximum) :
    after = used + events.countP granted ∧ after ≤ maximum := by
  obtain ⟨opened, drained⟩ := run
  obtain ⟨first, below⟩ := budget_execution opened within
  obtain ⟨second, bounded⟩ := budget_drain drained below
  rw [granted_append]
  exact ⟨by omega, bounded⟩

theorem upload_within_budget (platform : Platform) (plan : UploadPlan)
    (config : UploadExecutionConfig) : UploadWithinBudget platform plan config := by
  intro compatibility backupReferenceSha256
  constructor
  · intro events final used execution
    have sent : Performs platform (fun _ _ => False) config.maxAttemptsPerOperation [] _ _ :=
      uploadStart_performs plan config compatibility backupReferenceSha256
    obtain ⟨rest, value, ⟨quiet, _⟩, answered⟩ := execution.traces_extend refuse sent
    have none := quiet.mutationFree
    rw [List.countP_append] at none
    omega
  · intro events start pool report value last final middle used run tail
    obtain ⟨granted, below⟩ := run.budget (Nat.zero_le _)
    obtain ⟨more, bounded⟩ := budget_execution tail below
    obtain ⟨rest, _, ⟨whole, _⟩, answered⟩ :=
      tail.traces_extend refuse (takeGroup_performs report value)
    have quiet : Scoped platform (fun _ _ => False) config.maxAttemptsPerOperation [] last := by
      refine whole.of_append (List.countP_eq_zero.mpr fun event member => ?_)
      simp [granted_refuse event (answered event member)]
    obtain ⟨mutations, each, retried⟩ := run.spent.append quiet
    rw [granted_append] at mutations retried
    exact ⟨by omega, each, by omega⟩

end

/-- One budget bounds the mutating requests of every import and of every folder apply, whatever the
answers and the interleaving of the groups are. -/
theorem runs_within_budget (platform : Platform) (plan : UploadPlan) :
    (∀ config, ImportWithinBudget platform plan config) ∧
      ∀ config, UploadWithinBudget platform plan config :=
  ⟨import_within_budget platform plan, upload_within_budget platform plan⟩

end ImmichRs
