import ImmichRs.Web.JobCancellation

/-!
# What becomes of cancelled jobs

A job which notices its cancellation ends as cancelled, on every path of the four kinds but one: an
apply job takes a cancellation during its offline verification for a plan which does not fit.
-/

namespace ImmichRs.Web

open Interaction

/-! ## Outcomes -/

/-- How a job ends which has been told about its cancellation; `missed` is what it makes of one
inside an offline verification. -/
def Concludes (history : HistoryKind) (missed outcome : WorkerOutcome) (watch : Watch) : Prop :=
  watch.calm = true ∨ outcome = if watch = .missed then missed else .cancelled history

section

variable {platform : Platform} {history : HistoryKind} {missed : WorkerOutcome} {start : Watch}
  {α β : Type}

/-- Work which concludes from `start` on. -/
abbrev Finishes (platform : Platform) (history : HistoryKind) (missed : WorkerOutcome)
    (start : Watch) (work : JobWork WorkerOutcome) : Prop :=
  Program.Ends watched (fun _ event _ => Scheduled platform event) work start
    (Concludes history missed) (Concludes history missed)

theorem finishes_return (calm : start.calm = true) (outcome : WorkerOutcome) :
    Finishes platform history missed start (pure outcome) :=
  .inl calm

theorem finishes_ofResult (calm : start.calm = true) {result : Except WorkerOutcome α}
    {next : α → JobWork WorkerOutcome}
    (rest : ∀ value, Finishes platform history missed start (next value)) :
    Finishes platform history missed start (Program.ofResult result >>= next) := by
  apply Program.ends_bind
  apply Program.ends_ofResult
  · exact fun value _ => rest value
  · exact fun error _ => .inl calm

/-- A step which tells nothing, and by which no verification begins or ends. -/
theorem finishes_ask {call : JobCall} {next : JobAnswer call → JobWork WorkerOutcome}
    (passes : start.pass call = start) (ungrouped : ∀ config groups, call ≠ .runGroups config groups)
    (silent : ∀ answer, reportsJob ⟨call, answer⟩ = false)
    (rest : ∀ answer, Finishes platform history missed start (next answer)) :
    Finishes platform history missed start ((liftM (Program.ask call : JobProgram (JobAnswer call)) :
      JobWork (JobAnswer call)) >>= next) := by
  apply Program.ends_lift
  apply ensures_silent ungrouped silent
  rw [passes]
  exact rest

theorem finishes_readConsole {next : GrantEnvironment → JobWork WorkerOutcome}
    (rest : ∀ environment, Finishes platform history missed start (next environment)) :
    Finishes platform history missed start
      ((liftM readConsole : JobWork GrantEnvironment) >>= next) :=
  finishes_ask (by cases start <;> rfl) (fun _ _ same => by cases same) (fun _ => rfl) rest

/-- A workflow whose errors keep their class. -/
theorem finishes_convert {program : FallibleJob UploadFailure α}
    {next : α → JobWork WorkerOutcome} (withdraws : Withdraws platform .unaware program)
    (rest : ∀ value, Finishes platform history missed .unaware (next value)) :
    Finishes platform history missed .unaware
      (convert (failureOutcome history) program >>= next) := by
  apply Program.ends_bind
  rw [Program.Ends, convert, ExceptT.run_mk, Program.ensures_bind]
  apply Program.Ensures.post withdraws
  rintro outcome after ⟨_, rfl | ⟨stopped, ceased⟩⟩
  · cases outcome with
    | ok value => exact rest value
    | error error => exact .inl rfl
  · cases outcome with
    | ok value => exact ceased.elim
    | error error =>
        have cancelled : failureOutcome history error = .cancelled history := if_pos ceased
        have noticed : after ≠ .missed := by
          obtain rfl | ⟨_, rfl⟩ := stopped <;> decide
        exact .inr (cancelled.trans (if_neg noticed).symm)

/-! ## Jobs -/

theorem concludes_scan (source : ResolvedSourceProfile) :
    (executeScan source history).Ensures watched (fun _ event _ => Scheduled platform event)
      .unaware (Concludes history missed) := by
  have scans : Quits platform .unaware (fun _ => False) (· = .cancelled) (scanSource source) := by
    apply Quits.andThen (quits_ofResult _)
    intro _
    apply quits_askFallible rfl rfl (fun _ _ same => by cases same)
    intro answer report
    cases answer with
    | ok plan => cases report
    | error error => exact beq_iff_eq.mp report
  rw [executeScan, Program.bind_eq, Program.ensures_bind]
  apply Program.Ensures.post scans
  rintro outcome after ⟨_, rfl | ⟨stopped, ceased⟩⟩
  · cases outcome with
    | ok plan => exact .inl rfl
    | error error => cases error <;> exact .inl rfl
  · cases outcome with
    | ok plan => exact ceased.elim
    | error error =>
        have same : error = .cancelled := ceased
        have noticed : after ≠ .missed := by
          obtain rfl | ⟨_, rfl⟩ := stopped <;> decide
        rw [same]
        exact .inr (if_neg noticed).symm

theorem finishes_plan (sourceId serverId : String) (source : ResolvedSourceProfile) :
    Finishes platform history missed .unaware
      (executePlan platform sourceId serverId source history) := by
  apply finishes_readConsole
  intro environment
  apply finishes_ofResult rfl
  intro server
  apply finishes_ask rfl (fun _ _ same => by cases same) (fun _ => rfl)
  intro client
  apply finishes_ofResult rfl
  intro client
  apply finishes_ask rfl (fun _ _ same => by cases same) (fun _ => rfl)
  intro runtime
  apply finishes_ofResult rfl
  intro _
  apply finishes_convert (withdraws_planSourceUpload source client)
  intro plan
  apply Program.ends_lift
  apply ensures_ask (fun _ _ same => by cases same) (fun _ => rfl)
  intro (environment : GrantEnvironment)
  split
  case h_1 missing => exact finishes_ofResult rfl fun _ => finishes_return rfl _
  case h_2 generation found =>
    apply ensures_silent (fun _ _ same => by cases same) (fun _ => rfl)
    intro artifact
    exact finishes_ofResult rfl fun _ => finishes_return rfl _

/-- An offline verification which is cancelled says so. -/
theorem ensures_verifyOffline (plan : UploadPlan) (source : ResolvedSourceProfile) :
    (verifyOffline platform plan source).Ensures watched
      (fun _ event _ => Scheduled platform event) .unaware fun outcome after =>
        after.calm = true ∨ after = .missed ∧ outcome = .cancelled := by
  apply ensures_ask (fun _ _ same => by cases same) (fun _ => rfl)
  intro (found : Option String)
  cases found with
  | none => exact .inl rfl
  | some checkpoint =>
      have verifies : Withdraws platform .verifying
          (dryRunUploadPlan platform plan (runRequest source checkpoint)) :=
        withdraws_dryRunUploadPlan rfl plan _
      apply (Program.ensures_bind _ _ _ _).mpr
      apply Program.Ensures.post verifies
      rintro outcome after ⟨_, rfl | ⟨stopped, ceased⟩⟩
      · cases outcome with
        | ok report =>
            apply ensures_ask (fun _ _ same => by cases same) (fun _ => rfl)
            exact fun _ => .inl rfl
        | error error => exact .inl rfl
      · cases outcome with
        | ok report => exact ceased.elim
        | error error =>
            have same : after = .missed := by
              obtain same | ⟨same, _⟩ := stopped
              · exact same
              · cases same
            exact .inr ⟨same, if_pos ceased⟩

/-- The offline verification of an apply drops the class of an error. -/
theorem ensures_verifySourceOffline (capability : ApplyCapability)
    (source : ResolvedSourceProfile) :
    (verifySourceOffline platform capability source).Ensures watched
      (fun _ event _ => Scheduled platform event) .unaware fun outcome after =>
        after = .unaware ∨ (after = .verifying ∨ after = .missed) ∧ outcome = none := by
  apply ensures_ask (fun _ _ same => by cases same) (fun _ => rfl)
  intro (environment : GrantEnvironment)
  split
  case h_1 missing => exact .inl rfl
  case h_2 stored loaded =>
    apply ensures_ask (fun _ _ same => by cases same) (fun _ => rfl)
    intro (found : Option String)
    cases found with
    | none => exact .inr ⟨.inl rfl, rfl⟩
    | some checkpoint =>
        have verifies : Withdraws platform .verifying
            (dryRunUploadPlan platform stored.plan (runRequest source checkpoint)) :=
          withdraws_dryRunUploadPlan rfl stored.plan _
        apply (Program.ensures_bind _ _ _ _).mpr
        apply Program.Ensures.post verifies
        rintro outcome after ⟨_, rfl | ⟨stopped, ceased⟩⟩
        · apply ensures_ask (fun _ _ same => by cases same) (fun _ => rfl)
          exact fun _ => .inl rfl
        · cases outcome with
          | ok report => exact ceased.elim
          | error error =>
              obtain rfl | ⟨same, _⟩ := stopped
              · apply ensures_ask (fun _ _ same => by cases same) (fun _ => rfl)
                exact fun _ => .inr ⟨.inr rfl, rfl⟩
              · cases same

theorem finishes_dryRun (sourceId : String) (reference : ArtifactRef)
    (source : ResolvedSourceProfile) :
    Finishes platform history (.cancelled history) .unaware
      (executeDryRun platform sourceId reference source history) := by
  apply finishes_readConsole
  intro environment
  apply finishes_ofResult rfl
  intro stored
  apply finishes_ofResult rfl
  intro server
  apply finishes_readConsole
  intro environment
  apply finishes_ofResult rfl
  intro generation
  apply finishes_ofResult rfl
  intro _
  apply Program.ends_lift
  apply Program.Ensures.post (ensures_verifyOffline stored.plan source)
  rintro outcome after (calm | ⟨rfl, rfl⟩)
  case inr => exact .inr rfl
  case inl =>
    cases outcome with
    | cancelled => exact finishes_return calm _
    | failed => exact finishes_return calm _
    | completed schema planned =>
        apply finishes_readConsole
        intro environment
        apply finishes_ofResult calm
        intro current
        apply finishes_readConsole
        intro environment
        apply finishes_ofResult calm
        intro _
        apply finishes_readConsole
        intro environment
        exact finishes_ofResult calm fun _ => finishes_return calm _

theorem finishes_apply (digests : ∀ bytes, isLowerSha256 (platform.sha256 bytes) = true)
    (source : ResolvedSourceProfile) (capability : ApplyCapability) :
    Finishes platform history (.failed history) .unaware
      (executeApply platform source capability history) := by
  apply finishes_readConsole
  intro environment
  apply finishes_ofResult rfl
  intro _
  apply finishes_ofResult rfl
  intro server
  apply Program.ends_lift
  apply Program.Ensures.post (ensures_verifySourceOffline capability source)
  rintro outcome after (rfl | ⟨rfl | rfl, rfl⟩)
  · apply finishes_ofResult rfl
    intro planSchema
    apply finishes_ask rfl (fun _ _ same => by cases same) (fun _ => rfl)
    intro checkpoint
    apply finishes_ofResult rfl
    intro checkpoint
    apply finishes_ask rfl (fun _ _ same => by cases same) (fun _ => rfl)
    intro client
    apply finishes_ofResult rfl
    intro client
    apply finishes_ask rfl (fun _ _ same => by cases same) (fun _ => rfl)
    intro runtime
    apply finishes_ofResult rfl
    intro _
    apply finishes_convert (withdraws_applyPreparedUpload digests _ _ client)
    intro report
    apply finishes_ask rfl (fun _ _ same => by cases same) (fun _ => rfl)
    intro again
    apply finishes_ofResult rfl
    intro _
    exact finishes_ofResult rfl fun _ => finishes_return rfl _
  · exact .inl rfl
  · exact .inr rfl

/-- What a job makes of a cancellation inside an offline verification. -/
def missedOutcome : JobKind → WorkerOutcome
  | .apply _ history => .failed history
  | kind => .cancelled kind.historyKind

theorem Finishes.concludes {work : JobWork WorkerOutcome}
    (finishes : Finishes platform history missed start work) :
    work.outcome.Ensures watched (fun _ event _ => Scheduled platform event) start
      (Concludes history missed) := by
  rw [JobWork.outcome, Program.ensures_bind]
  apply Program.Ensures.post finishes
  intro outcome after concludes
  cases outcome <;> exact concludes

theorem concludes_job (digests : ∀ bytes, isLowerSha256 (platform.sha256 bytes) = true)
    (sourceId : String) (kind : JobKind) (source : ResolvedSourceProfile)
    (capability : Option ApplyCapability) :
    (executeJob platform sourceId kind source capability).Ensures watched
      (fun _ event _ => Scheduled platform event) .unaware
      (Concludes kind.historyKind (missedOutcome kind)) := by
  rintro answer _ ⟨_, rfl, _⟩
  refine ⟨(fun _ _ same => by cases same), ?_⟩
  obtain rfl | rfl := Bool.eq_false_or_eq_true (answer : Bool)
  · exact .inr rfl
  · cases kind with
    | scan history => exact concludes_scan source
    | plan serverId history => exact (finishes_plan sourceId serverId source).concludes
    | dryRun reference history => exact (finishes_dryRun sourceId reference source).concludes
    | apply grant history =>
        cases capability with
        | none => exact .inl rfl
        | some capability => exact (finishes_apply digests source capability).concludes

end

/-! ## Runs -/

section

variable {World : Type} {platform : Platform} {quiet : Environment JobAnswer World}

/-- A step of a job is one of its surroundings, or a run of its groups. -/
theorem pooled_cases {surroundings : Environment JobAnswer World} {before after : World}
    {event : Event JobAnswer} (step : pooled platform surroundings before event after) :
    (∃ config start result events, event = ⟨.runGroups config start, result⟩ ∧
      Drained (executing surroundings) config.concurrency takeGroup (start.pool platform config)
        start.report before events result after) ∨
      endsCancelled event = false ∧ surroundings before event after := by
  obtain ⟨call, answer⟩ := event
  cases call with
  | runGroups config start =>
      obtain ⟨events, drained⟩ := step
      exact .inl ⟨config, start, answer, events, rfl, drained⟩
  | _ => exact .inr ⟨rfl, step⟩

theorem executing_undisturbed (undisturbed : Undisturbed jobCancellation CooperatesJob quiet) :
    Undisturbed cancellation Cooperates (executing quiet) where
  expects step := undisturbed.expects step
  silent step := undisturbed.silent step
  reported := fun {event} report =>
    have told : jobCancellation.reports ⟨.executor event.1, event.2⟩ = true := report
    undisturbed.reported told

theorem executing_interrupted : executing (interrupted jobCancellation quiet) =
    interrupted cancellation (executing quiet) := rfl

/-- What a job has been told is a fact. -/
theorem Watch.told_next {watch : Watch} {event : Event JobAnswer}
    (told : (watch.next event).told = true) : (watch.told || reportsJob event) = true := by
  rw [Watch.next] at told
  split at told
  case isFalse stopped =>
    rw [told]
    rfl
  case isTrue calm =>
    split at told
    case isTrue report => rw [report, Bool.or_true]
    case isFalse =>
      split at told
      · cases told
      · obtain ⟨call, answer⟩ := event
        cases watch with
        | unaware | verifying => cases call <;> cases told
        | aware | missed | drained => cases calm

theorem watched_step (undisturbed : Undisturbed jobCancellation CooperatesJob quiet)
    {watch : Watch} {before after : Moment World} {event : Event JobAnswer}
    (informed : Informed watch.told before)
    (step : pooled platform (interrupted jobCancellation quiet) before event after) :
    watched watch event (watch.next event) ∧ Informed (watch.next event).told after := by
  obtain ⟨config, start, result, events, rfl, drained⟩ | ⟨_, step⟩ := pooled_cases step
  · rw [executing_interrupted] at drained
    refine ⟨⟨trivial, rfl, fun _ => rfl⟩, fun told => ?_⟩
    have kept : Informed watch.told after := drained.informed informed
    apply kept
    have reached := Watch.told_next told
    rwa [show reportsJob ⟨.runGroups config start, result⟩ = false from rfl, Bool.or_false]
      at reached
  · obtain ⟨⟨expected, _, denied⟩, now⟩ := informed.step undisturbed step
    exact ⟨⟨expected, rfl, denied⟩, fun told => now (Watch.told_next told)⟩

/-- The watch of a run is read off its events. -/
theorem watch_eq {α : Type} {program final : JobProgram α} {start after : Watch}
    {events : List (Event JobAnswer)}
    (execution : Execution watched program start events final after) :
    after = events.foldl Watch.next start := by
  induction execution with
  | refl => rfl
  | head step _ induction =>
      obtain ⟨_, rfl, _⟩ := step
      exact induction

theorem Watch.calm_next {watch : Watch} {event : Event JobAnswer}
    (calm : (watch.next event).calm = true) :
    watch.calm = true ∧ reportsJob event = false ∧ endsCancelled event = false := by
  rw [Watch.next] at calm
  split at calm
  case isFalse stopped => exact absurd calm stopped
  case isTrue before =>
    split at calm
    case isTrue report =>
      cases watch with
      | unaware | verifying => cases calm
      | aware | missed | drained => cases before
    case isFalse silent =>
      split at calm
      · cases calm
      case isFalse ungrouped =>
        exact ⟨before, Bool.eq_false_iff.mpr silent, Bool.eq_false_iff.mpr ungrouped⟩

/-- A job which has not been told of a cancellation has met none. -/
theorem silent_of_calm {start : Watch} {events : List (Event JobAnswer)}
    (calm : (events.foldl Watch.next start).calm = true) :
    start.calm = true ∧
      ∀ event ∈ events, reportsJob event = false ∧ endsCancelled event = false := by
  induction events generalizing start with
  | nil => exact ⟨calm, by simp⟩
  | cons event rest induction =>
      obtain ⟨here, later⟩ := induction calm
      obtain ⟨before, silent⟩ := Watch.calm_next here
      exact ⟨before, List.forall_mem_cons.mpr ⟨silent, later⟩⟩

/-- A step of a job which has met no cancellation is one of the quiet surroundings. -/
theorem pooled_of_silent (undisturbed : Undisturbed jobCancellation CooperatesJob quiet)
    {before after : Moment World} {event : Event JobAnswer}
    (step : pooled platform (interrupted jobCancellation quiet) before event after)
    (silent : reportsJob event = false ∧ endsCancelled event = false)
    (scheduled : Scheduled platform event) :
    pooled platform quiet before.world event after.world := by
  obtain ⟨call, answer⟩ := event
  cases call with
  | runGroups config start =>
      obtain ⟨events, drained⟩ := step
      rw [executing_interrupted] at drained
      obtain ⟨plan, started⟩ := scheduled config start rfl
      obtain ⟨report, rfl, tells⟩ :=
        drained_tells (executing_undisturbed undisturbed) started drained
      have unaware : events.any reportsCancellation = false := by
        rw [Bool.eq_false_iff]
        intro told
        have cancelled : report.cancelled = false := silent.2
        rw [tells told] at cancelled
        cases cancelled
      refine ⟨events, drained.of_silent ?_⟩
      intro event member
      exact Bool.eq_false_iff.mpr (List.any_eq_false.mp unaware event member)
  | _ => exact quiet_of_silent step silent.1

theorem execution_of_silent (undisturbed : Undisturbed jobCancellation CooperatesJob quiet)
    {α : Type} {program final : JobProgram α} {before after : Moment World}
    {events : List (Event JobAnswer)}
    (execution : Execution (pooled platform (interrupted jobCancellation quiet)) program before
      events final after)
    (silent : ∀ event ∈ events, reportsJob event = false ∧ endsCancelled event = false)
    (scheduled : ∀ event ∈ events, Scheduled platform event) :
    Execution (pooled platform quiet) program before.world events final after.world := by
  induction execution with
  | refl => exact .refl _ _
  | head step _ induction =>
      rw [List.forall_mem_cons] at silent scheduled
      exact .head (pooled_of_silent undisturbed step silent.1 scheduled.1)
        (induction silent.2 scheduled.2)

/-- A job whose steps would all succeed ends as completed or as cancelled, whenever its token is
set, but for an apply job which learns of it inside its offline verification. -/
theorem cancelled_job_outcome (digests : ∀ bytes, isLowerSha256 (platform.sha256 bytes) = true)
    (undisturbed : Undisturbed jobCancellation CooperatesJob quiet) {sourceId : String}
    {kind : JobKind} {source : ResolvedSourceProfile} {capability : Option ApplyCapability}
    {before after : Moment World} {events : List (Event JobAnswer)} {outcome : WorkerOutcome}
    (succeeds : ∀ events outcome after,
      Execution (pooled platform quiet) (executeJob platform sourceId kind source capability)
        before.world events (.done outcome) after → outcome.status = .completed)
    (run : Execution (pooled platform (interrupted jobCancellation quiet))
      (executeJob platform sourceId kind source capability) before events (.done outcome) after) :
    (outcome.status = .completed ∨ outcome.status = .cancelled) ↔
      (kind.applies = none ∨ watchOf events ≠ .missed) := by
  have informed : Informed Watch.unaware.told before := fun told => by cases told
  have ensures := concludes_job digests sourceId kind source capability
  have step : ∀ (watch : Watch) before event after, Informed watch.told before →
      pooled platform (interrupted jobCancellation quiet) before event after →
        ∃ next, watched watch event next ∧ Informed next.told after :=
    fun _ _ _ _ known step => ⟨_, watched_step undisturbed known step⟩
  obtain ⟨watch, alone, _⟩ := run.simulate step informed
  have reached : watch = watchOf events := watch_eq alone
  have concluded := alone.result ensures
  rw [reached] at concluded
  obtain calm | same := concluded
  case inl =>
    have quietly := execution_of_silent undisturbed run (silent_of_calm calm).2 (alone.each ensures)
    have completed := succeeds _ _ _ quietly
    refine iff_of_true (.inl completed) (.inr fun missed => ?_)
    rw [missed] at calm
    cases calm
  case inr =>
    by_cases missed : watchOf events = .missed
    · rw [if_pos missed] at same
      cases kind with
      | apply reference history => simp [same, missed, missedOutcome, WorkerOutcome.status,
          JobKind.applies]
      | _ => simp [same, missedOutcome, WorkerOutcome.status, JobKind.applies]
    · rw [if_neg missed] at same
      exact iff_of_true (.inr (by rw [same]; rfl)) (.inr missed)

end

/-! ## An apply whose verification is cancelled -/

/-- An interrupted step says nothing which was to be relied on. -/
theorem cooperates_of_reports {event : Event Answer} (reports : reportsCancellation event = true) :
    Cooperates event := by
  obtain ⟨call, answer⟩ := event
  cases call with
  | duplicateCheck | upload | findOwnedAlbums | createAlbum =>
      cases answer with
      | error error => exact ⟨trivial, trivial⟩
      | ok value => cases reports
  | scanResolved label =>
      cases answer with
      | error error => exact ⟨trivial, fun _ same => by cases same⟩
      | ok resolved => cases reports
  | appendEvent | appendEffect => cases reports
  | _ => exact ⟨trivial, trivial⟩

theorem cooperatesJob_of_reports {event : Event JobAnswer} (reports : reportsJob event = true) :
    CooperatesJob event := by
  obtain ⟨call, answer⟩ := event
  cases call with
  | executor call => exact cooperates_of_reports reports
  | _ => trivial

/-- A client of a disposable server. -/
def sampleClient : JobClient :=
  { client := { canonicalOrigin := "http://localhost" }, access := .disposable }

/-- The plan of an empty folder for that server. -/
def emptyFolderPlan : UploadPlan :=
  { namedPlan .folder [] id defaultIdentity with
    server :=
      { version := { major := 3, minor := 1, patch := 0 }
        identitySha256 := identityDigest .reference "http://localhost" "user" } }

/-- What it was stored with. -/
def emptyFolderStored : StoredUploadPlan where
  reference := ⟨0#128⟩
  plan := emptyFolderPlan
  binding :=
    { schemaVersion := 1
      planSha256 := compactSha256 .reference emptyFolderPlan.serialize
      sourceProfileId := "photos"
      sourceProfileSha256 := digestOf '2'
      serverProfileId := "server"
      serverProfileSha256 := digestOf '4'
      credentialGeneration := 1
      serverIdentitySha256 := emptyFolderPlan.server.identitySha256
      maxLogicalEffects := 0 }

/-- Its dry run. -/
def emptyFolderDryRun : DryRunBinding where
  planReference := ⟨0#128⟩
  planSha256 := emptyFolderStored.binding.planSha256
  sourceConfigurationSha256 :=
    sourceConfigurationDigest .reference (digestOf '2') emptyFolderPlan.configurationSha256
  serverIdentitySha256 := emptyFolderPlan.server.identitySha256
  serverProfileSha256 := digestOf '4'
  credentialGeneration := 1
  maxLogicalEffects := 0
  completedUnix := 0

/-- The console of that dry run. -/
def emptyFolderConsole : GrantEnvironment :=
  { sampleEnvironment .reference emptyFolderPlan 0 (fun _ => 0) fun _ => .absent with
    dryRunReceipt := fun reference => some (some { reference, binding := emptyFolderDryRun })
    loadPlan := fun _ => some emptyFolderStored }

/-- The capability for that dry run. -/
def emptyFolderCapability : ApplyCapability where
  prepared := { plan := emptyFolderPlan, production := none }
  binding :=
    { owner := 0#256
      receipt := ⟨0#128⟩
      dryRun := emptyFolderDryRun
      sourceProfileId := "photos"
      serverProfileId := "server"
      backupReferenceSha256 := none }

/-- The profile of the folder. -/
def emptyFolderSource : ResolvedSourceProfile where
  inputs := ["/photos"]
  label := "photos"
  settings := .folder .default

/-- The job which applies the plan. -/
def emptyFolderApply : JobProgram WorkerOutcome :=
  executeJob .reference "photos" (.apply ⟨0#128⟩ .folderApply) emptyFolderSource
    (some emptyFolderCapability)

/-- Surroundings in which every step of the job succeeds. -/
def emptyFolderAnswers : (call : JobCall) → Option (JobAnswer call)
  | .executor .isCancelled => some false
  | .executor (.scanResolved _) => some (.ok (namedResolved .folder [] id))
  | .executor (.openJournal _) => some (.ok ())
  | .executor .readEvents => some (.ok [])
  | .read .isCancelled => some false
  | .read .version => some (.ok { major := 3, minor := 1, patch := 0, prerelease := none })
  | .read .user => some (.ok "user")
  | .console => some emptyFolderConsole
  | .readClient _ => some (some sampleClient)
  | .runtime => some true
  | .unusedCheckpoint => some (some "checkpoint")
  | .verifyCheckpointUnused _ => some true
  | .applyCheckpoint _ => some (some "journal")
  | .validateExisting _ => some (.ok ∅)
  | _ => none

/-- The steps of a job without groups. -/
def emptyFolderStep (world : Unit) : (call : JobCall) → Option (JobAnswer call × Unit)
  | .runGroups _ start => if start.groups = [] then some (.ok start.report, world) else none
  | call => (emptyFolderAnswers call).map (·, world)

theorem emptyFolderStep_apply :
    (emptyFolderApply.perform emptyFolderStep ()).any (fun reached =>
      decide (reached.1.status = .completed)) = true := by
  decide +kernel

theorem emptyFolder_undisturbed :
    Undisturbed jobCancellation CooperatesJob
      (offering emptyFolderAnswers : Environment JobAnswer Unit) where
  expects := by
    rintro before ⟨call, answer⟩ after offered
    cases call with
    | executor call =>
        cases call with
        | scanResolved label =>
            have same : answer = .ok (namedResolved .folder [] id) := (Option.some.inj offered).symm
            rw [same]
            refine ⟨trivial, ?_⟩
            intro resolved found asset member
            rw [← Except.ok.inj found] at member
            cases member
        | isCancelled | openJournal | readEvents => exact ⟨trivial, trivial⟩
        | _ => cases offered
    | _ => trivial
  silent := by
    rintro before ⟨call, answer⟩ after offered
    cases call with
    | executor call => cases call <;> cases offered <;> rfl
    | read call => cases call <;> cases offered <;> rfl
    | _ => first | rfl | cases offered
  reported := cooperatesJob_of_reports

/-- Without groups a job has no choice. -/
theorem emptyFolderStep_forced {state : Unit} {call : JobCall} {answer : JobAnswer call} {next : Unit}
    (stepped : emptyFolderStep state call = some (answer, next)) {before after : Unit}
    {found : JobAnswer call}
    (taken : pooled .reference (offering emptyFolderAnswers) before ⟨call, found⟩ after) :
    found = answer := by
  have offered : ∀ {call answer}, (emptyFolderAnswers call).map (·, state) = some (answer, next) →
      emptyFolderAnswers call = some answer := by
    intro call answer mapped
    obtain ⟨_, found, same⟩ := Option.map_eq_some_iff.mp mapped
    rw [found, (Prod.mk.inj same).1]
  cases call with
  | runGroups config start =>
      rw [emptyFolderStep, Option.ite_none_right_eq_some] at stepped
      obtain ⟨ungrouped, same⟩ := stepped
      obtain ⟨events, drained⟩ := taken
      rw [UploadStart.pool, ungrouped] at drained
      exact (Drained.of_empty drained).trans (Prod.mk.inj (Option.some.inj same)).1
  | _ => exact Option.some.inj (taken.symm.trans (offered stepped))

/-- Without a cancellation the apply completes. -/
theorem emptyFolderApply_succeeds {events : List (Event JobAnswer)} {outcome : WorkerOutcome}
    {before after : Unit}
    (run : Execution (pooled .reference (offering emptyFolderAnswers)) emptyFolderApply before events
      (.done outcome) after) : outcome.status = .completed := by
  obtain ⟨⟨value, final⟩, performed, completed⟩ := (Option.any_eq_true _ _).mp emptyFolderStep_apply
  have choiceless : ∀ state call answer next, emptyFolderStep state call = some (answer, next) →
      ∀ before found after, pooled .reference (offering emptyFolderAnswers) before ⟨call, found⟩
        after → found = answer :=
    fun _ _ _ _ stepped _ _ _ taken => emptyFolderStep_forced stepped taken
  rw [run.result (Program.perform_ensures choiceless performed before)]
  exact of_decide_eq_true completed

/-- An apply which is cancelled before its first step. -/
theorem cancelled_job_outcome_apply :
    ((WorkerOutcome.cancelled .folderApply).status = .completed ∨
        (WorkerOutcome.cancelled .folderApply).status = .cancelled) ↔
      ((JobKind.apply ⟨0#128⟩ .folderApply).applies = none ∨
        watchOf [⟨.executor .isCancelled, true⟩] ≠ .missed) := by
  have run : Execution (pooled .reference (interrupted jobCancellation (offering emptyFolderAnswers)))
      emptyFolderApply (⟨(), true⟩ : Moment Unit) [⟨.executor .isCancelled, true⟩]
      (.done (.cancelled .folderApply)) ⟨(), true⟩ :=
    .head ⟨id, .inr ⟨rfl, rfl⟩⟩ (.refl _ _)
  exact cancelled_job_outcome isLowerSha256_sha256Hex emptyFolder_undisturbed
    (fun _ _ _ => emptyFolderApply_succeeds) run

/-- The token is set while the source is scanned again. -/
def interruptedStep (requested : Bool) : (call : JobCall) → Option (JobAnswer call × Bool)
  | .executor (.scanResolved _) => some (.error .cancelled, true)
  | .executor .isCancelled => if requested then none else some (false, false)
  | .read _ => none
  | call => (emptyFolderAnswers call).map (·, requested)

theorem interruptedStep_sound {state next : Bool} {call : JobCall} {answer : JobAnswer call}
    (stepped : interruptedStep state call = some (answer, next)) :
    pooled .reference (interrupted jobCancellation (offering emptyFolderAnswers)) ⟨(), state⟩
      ⟨call, answer⟩ ⟨(), next⟩ := by
  have offered : ∀ {call answer}, (emptyFolderAnswers call).map (·, state) = some (answer, next) →
      deniesJob ⟨call, answer⟩ = false →
        interrupted jobCancellation (offering emptyFolderAnswers) ⟨(), state⟩ ⟨call, answer⟩
          ⟨(), next⟩ := by
    intro call answer mapped kept
    obtain ⟨_, found, same⟩ := Option.map_eq_some_iff.mp mapped
    obtain ⟨rfl, rfl⟩ := Prod.mk.inj same
    exact ⟨id, .inl ⟨found, fun _ => kept⟩⟩
  cases call with
  | executor call =>
      cases call with
      | scanResolved label =>
          obtain ⟨rfl, rfl⟩ := Prod.mk.inj (Option.some.inj stepped)
          exact ⟨fun _ => rfl, .inr ⟨rfl, rfl⟩⟩
      | isCancelled =>
          cases state with
          | true => cases stepped
          | false =>
              obtain ⟨rfl, rfl⟩ := Prod.mk.inj (Option.some.inj stepped)
              exact ⟨id, .inl ⟨rfl, fun requested => by cases requested⟩⟩
      | _ => exact offered stepped rfl
  | read call => cases stepped
  | runGroups config start => cases stepped
  | _ => exact offered stepped rfl

/-- An apply whose steps would all succeed is recorded as failed, because it was cancelled inside
its offline verification. -/
theorem cancelled_apply_fails :
    (∀ events outcome after, Execution (pooled .reference (offering emptyFolderAnswers))
      emptyFolderApply () events (.done outcome) after → outcome.status = .completed) ∧
    ∃ events outcome after,
      Execution (pooled .reference (interrupted jobCancellation (offering emptyFolderAnswers)))
        emptyFolderApply ⟨(), false⟩ events (.done outcome) after ∧ outcome.status = .failed := by
  refine ⟨fun _ _ _ => emptyFolderApply_succeeds, ?_⟩
  have performed : (emptyFolderApply.perform interruptedStep false).any (fun reached =>
      decide (reached.1.status = .failed)) = true := by decide +kernel
  obtain ⟨⟨outcome, requested⟩, reached, failed⟩ := (Option.any_eq_true _ _).mp performed
  obtain ⟨events, run⟩ := Program.perform_execution (fun requested : Bool => (⟨(), requested⟩ : Moment Unit))
    (fun _ _ _ _ => interruptedStep_sound) reached
  exact ⟨events, outcome, _, run, of_decide_eq_true failed⟩

end ImmichRs.Web
