import ImmichRs.Web.Jobs
import ImmichRs.Web.UploadWorkflows

/-!
# The work of a job

What a worker does between the start and the end of its job: a scan, a plan, a dry run or an apply.
A job stops where one of its steps fails, with the outcome which the source returns there.
-/

namespace ImmichRs.Web

open Interaction

/-! ## Steps -/

/-- The profiles and the stores of the console, as they are now. -/
def readConsole : JobProgram GrantEnvironment := Program.ask JobCall.console

/-- `ConsoleStore::unused_checkpoint`. -/
def unusedCheckpoint : JobProgram (Option String) := Program.ask JobCall.unusedCheckpoint

/-- `ConsoleStore::verify_checkpoint_unused`. -/
def verifyCheckpointUnused (checkpoint : String) : JobProgram Bool :=
  Program.ask (JobCall.verifyCheckpointUnused checkpoint)

/-- `ConsoleStore::apply_checkpoint`. -/
def applyCheckpoint (reference : ArtifactRef) : JobProgram (Option String) :=
  Program.ask (JobCall.applyCheckpoint reference)

/-- `ServerProfile::read_client`. -/
def readClient (serverId : String) : JobProgram (Option JobClient) :=
  Program.ask (JobCall.readClient serverId)

/-- `Builder::new_current_thread().build()`. -/
def buildRuntime : JobProgram Bool := Program.ask JobCall.runtime

/-- `cancellation.is_cancelled()`. -/
def jobCancelled : JobProgram Bool := Program.ask (JobCall.executor .isCancelled)

/-- Work which may end early with its outcome. -/
abbrev JobWork (α : Type) : Type := FallibleJob WorkerOutcome α

/-- `let .. else { return WorkerOutcome::Failed(kind) }`. -/
def orFailed {α : Type} (kind : HistoryKind) (value : Option α) : JobWork α :=
  Program.ofResult (okOr value (.failed kind))

/-- The outcome of a job whose workflow failed. -/
def failureOutcome (kind : HistoryKind) (error : UploadFailure) : WorkerOutcome :=
  if error.class_ = .cancelled then .cancelled kind else .failed kind

/-- The outcome of work, early or not. -/
def JobWork.outcome (work : JobWork WorkerOutcome) : JobProgram WorkerOutcome :=
  work.run.bind fun result =>
    match result with
    | .ok outcome | .error outcome => .done outcome

/-- `current_source_generation`. -/
def currentSourceGeneration (environment : GrantEnvironment) (sourceId : String) : Option String :=
  if environment.matchesState then environment.sourceGeneration sourceId else none

/-- `usize::try_from`. -/
def usizeOf (value : Nat) : Option Nat := if value < 2 ^ 64 then some value else none

/-! ## Summaries -/

/-- `normalized_summary`. -/
def normalizedSummary (plan : NormalizedPlan) : JobSummary :=
  { schemaVersion := plan.schemaVersion
    assets := plan.summary.assets
    sidecars := plan.summary.sidecars
    bytesRead := plan.summary.bytesRead
    warnings := plan.warnings.length
    errors := plan.errors.length }

/-- `upload_summary`. -/
def uploadSummary (plan : UploadPlan) : JobSummary :=
  { schemaVersion := plan.schemaVersion
    assets := plan.summary.operations
    sidecars := plan.summary.xmpSidecars
    bytesRead := plan.summary.mediaBytes.toNat
    warnings := 0
    errors := 0 }

/-- The summary of an apply with these counters. -/
def appliedSummary (created duplicate retried failed indeterminate : Nat) : Option JobSummary := do
  let warnings ← usizeOf retried
  let errors ← usizeOf (failed + indeterminate)
  return {
    schemaVersion := reportSchemaVersion
    assets := created + duplicate
    sidecars := 0
    bytesRead := 0
    warnings
    errors }

/-- `folder_summary` and `import_summary`. -/
def UploadApplyReport.summary : UploadApplyReport → Option JobSummary
  | .folder report =>
      appliedSummary report.created report.duplicate report.retried report.failed
        report.indeterminate
  | .imported report =>
      appliedSummary report.created report.duplicate report.retried report.failed
        report.indeterminate

/-! ## Offline verification -/

/-- `valid_folder_dry_run`. -/
def validFolderDryRun (report : FolderDryRun) : Bool :=
  report.dryRun && !report.cancelled && report.created == 0 && report.duplicate == 0 &&
    report.retried == 0 && report.failed == 0 && report.indeterminate == 0 &&
    report.planned == report.wouldUpload + report.resumed

/-- `valid_import_dry_run`. -/
def validImportDryRun (report : ImportDryRun) (plan : UploadPlan) : Bool :=
  report.dryRun && !report.cancelled && report.created == 0 && report.duplicate == 0 &&
    report.metadataUpdated == 0 && report.albumsCreated == 0 && report.albumsReused == 0 &&
    report.albumMembershipsUpdated == 0 && report.resumedEffects == 0 && report.retried == 0 &&
    report.failed == 0 && report.indeterminate == 0 && report.planned == plan.summary &&
    report.wouldUpload == report.planned.operations &&
    report.wouldUpdateMetadata == report.planned.metadataUpdates &&
    report.wouldCreateAlbums == report.planned.albumCreates &&
    report.wouldAddAlbumMemberships == report.planned.albumMemberships

/-- Whether a dry run found what the plan says. -/
def UploadDryRunReport.valid (report : UploadDryRunReport) (plan : UploadPlan) : Bool :=
  match report with
  | .folder report => validFolderDryRun report
  | .imported report => validImportDryRun report plan

/-- The schema version of a report and the operations which it planned. -/
def UploadDryRunReport.planned : UploadDryRunReport → Nat × Nat
  | .folder report => (report.schemaVersion, report.planned)
  | .imported report => (report.schemaVersion, report.planned.operations)

/-- `OfflineOutcome`. -/
inductive OfflineOutcome
  | completed (schema planned : Nat)
  | cancelled
  | failed

/-- `offline_report`. -/
def offlineReport (report : UploadDryRunReport) (plan : UploadPlan) (checkpointUnused : Bool) :
    OfflineOutcome :=
  if report.valid plan && checkpointUnused then
    .completed report.planned.1 report.planned.2
  else
    .failed

section

variable (platform : Platform)

/-- `verify_offline`. -/
def verifyOffline (plan : UploadPlan) (source : ResolvedSourceProfile) :
    JobProgram OfflineOutcome := do
  match ← unusedCheckpoint with
  | none => return .failed
  | some checkpoint =>
      match ← (dryRunUploadPlan platform plan (runRequest source checkpoint)).run with
      | .ok report => return offlineReport report plan (← verifyCheckpointUnused checkpoint)
      | .error error => return if error.class_ = .cancelled then .cancelled else .failed

/-- `verify_source_offline`, which makes nothing of the class of an error. -/
def verifySourceOffline (capability : ApplyCapability) (source : ResolvedSourceProfile) :
    JobProgram (Option Nat) := do
  let environment ← readConsole
  match environment.loadPlan capability.binding.dryRun.planReference with
  | none => return none
  | some stored =>
      match ← unusedCheckpoint with
      | none => return none
      | some checkpoint =>
          let valid := match ← (dryRunUploadPlan platform stored.plan
              (runRequest source checkpoint)).run with
            | .ok report => report.valid stored.plan
            | .error _ => false
          let unused ← verifyCheckpointUnused checkpoint
          return if valid && unused then some stored.plan.schemaVersion else none

/-! ## Jobs -/

/-- `source::scan`. -/
def scanSource (source : ResolvedSourceProfile) : FallibleJob ScanError NormalizedPlan := do
  Program.ofResult (reject source.inputs.isEmpty .invalidRoot)
  askFallible (.scan source.label) id

/-- The scan of `execute`. -/
def executeScan (source : ResolvedSourceProfile) (kind : HistoryKind) :
    JobProgram WorkerOutcome := do
  match ← (scanSource source).run with
  | .ok plan => return .completed kind (normalizedSummary plan) none none
  | .error .cancelled => return .cancelled kind
  | .error _ => return .failed kind

/-- `publish_plan`. -/
def publishPlan (sourceId serverId : String) (server : ServerProfile) (plan : UploadPlan) :
    JobProgram (Option PlanArtifact) := do
  match currentSourceGeneration (← readConsole) sourceId with
  | none => return none
  | some generation =>
      Program.ask <| JobCall.writePlan plan sourceId generation serverId server.generationSha256
        server.credentialGeneration

/-- `plan_upload`. -/
def executePlan (sourceId serverId : String) (source : ResolvedSourceProfile)
    (kind : HistoryKind) : JobWork WorkerOutcome := do
  let environment ← (readConsole : JobProgram GrantEnvironment)
  let server ← orFailed kind (environment.server serverId)
  let client ← orFailed kind (← (readClient serverId : JobProgram (Option JobClient)))
  let runtime ← (buildRuntime : JobProgram Bool)
  Program.ofResult (reject (!runtime) (.failed kind))
  let plan ← convert (failureOutcome kind) (planSourceUpload platform source client)
  let artifact ← orFailed kind
    (← (publishPlan sourceId serverId server plan : JobProgram (Option PlanArtifact)))
  return .completed kind (uploadSummary plan) (some artifact) none

/-- `dry_run::execute`. -/
def executeDryRun (sourceId : String) (reference : ArtifactRef) (source : ResolvedSourceProfile)
    (kind : HistoryKind) : JobWork WorkerOutcome := do
  let environment ← (readConsole : JobProgram GrantEnvironment)
  let stored ← orFailed kind (environment.loadPlan reference)
  let server ← orFailed kind (environment.server stored.binding.serverProfileId)
  let environment ← (readConsole : JobProgram GrantEnvironment)
  let generation ← orFailed kind (currentSourceGeneration environment sourceId)
  Program.ofResult (reject (stored.binding.sourceProfileId != sourceId ||
    generation != stored.binding.sourceProfileSha256 ||
    server.generationSha256 != stored.binding.serverProfileSha256 ||
    server.credentialGeneration != stored.binding.credentialGeneration) (.failed kind))
  match ← (verifyOffline platform stored.plan source : JobProgram OfflineOutcome) with
  | .cancelled => return .cancelled kind
  | .failed => return .failed kind
  | .completed schema planned => do
      let environment ← (readConsole : JobProgram GrantEnvironment)
      let current ← orFailed kind (currentSourceGeneration environment sourceId)
      let environment ← (readConsole : JobProgram GrantEnvironment)
      Program.ofResult (reject (current != generation || !environment.matchesState ||
        server.generationSha256 != stored.binding.serverProfileSha256 ||
        server.credentialGeneration != stored.binding.credentialGeneration) (.failed kind))
      let environment ← (readConsole : JobProgram GrantEnvironment)
      let completedUnix ← orFailed kind environment.nowUnix
      return .completed kind
        { schemaVersion := schema
          assets := planned
          sidecars := stored.plan.summary.xmpSidecars
          bytesRead := stored.plan.summary.mediaBytes.toNat
          warnings := 0
          errors := 0 }
        (some
          { reference
            schemaVersion := stored.plan.schemaVersion
            planSha256 := stored.binding.planSha256
            maxLogicalEffects := stored.binding.maxLogicalEffects })
        (some
          { planReference := reference
            planSha256 := stored.binding.planSha256
            sourceConfigurationSha256 :=
              sourceConfigurationDigest platform generation stored.plan.configurationSha256
            serverIdentitySha256 := stored.binding.serverIdentitySha256
            serverProfileSha256 := stored.binding.serverProfileSha256
            credentialGeneration := stored.binding.credentialGeneration
            maxLogicalEffects := stored.binding.maxLogicalEffects
            completedUnix })

/-- `apply::execute`. -/
def executeApply (source : ResolvedSourceProfile) (capability : ApplyCapability)
    (kind : HistoryKind) : JobWork WorkerOutcome := do
  let binding := capability.binding
  let environment ← (readConsole : JobProgram GrantEnvironment)
  Program.ofResult (reject (!bindingIsCurrent platform environment binding) (.failed kind))
  let _ ← orFailed kind (environment.server binding.serverProfileId)
  let planSchema ← orFailed kind
    (← (verifySourceOffline platform capability source : JobProgram (Option Nat)))
  let checkpoint ← orFailed kind
    (← (applyCheckpoint binding.dryRun.planReference : JobProgram (Option String)))
  let client ← orFailed kind
    (← (readClient binding.serverProfileId : JobProgram (Option JobClient)))
  let runtime ← (buildRuntime : JobProgram Bool)
  Program.ofResult (reject (!runtime) (.failed kind))
  let report ← convert (failureOutcome kind)
    (applyPreparedUpload platform capability.prepared (runRequest source checkpoint) client)
  let _ ← orFailed kind
    (← (applyCheckpoint binding.dryRun.planReference : JobProgram (Option String)))
  let summary ← orFailed kind report.summary
  return .completed kind summary
    (some
      { reference := binding.dryRun.planReference
        schemaVersion := planSchema
        planSha256 := binding.dryRun.planSha256
        maxLogicalEffects := binding.dryRun.maxLogicalEffects })
    none

/-- `execute`: the work of a job whose source profile resolved to `source`. -/
def executeJob (sourceId : String) (kind : JobKind) (source : ResolvedSourceProfile)
    (capability : Option ApplyCapability) : JobProgram WorkerOutcome := do
  if ← jobCancelled then
    return .cancelled kind.historyKind
  else
    match kind with
    | .scan history => executeScan source history
    | .plan serverId history => (executePlan platform sourceId serverId source history).outcome
    | .dryRun reference history =>
        (executeDryRun platform sourceId reference source history).outcome
    | .apply _ history =>
        match capability with
        | none => return .failed history
        | some capability => (executeApply platform source capability history).outcome

end

end ImmichRs.Web
