import ImmichRs.Client.Archive
import ImmichRs.Executor.Apply
import ImmichRs.Executor.ImportApply
import ImmichRs.Executor.Planner
import ImmichRs.Interaction.Interruption
import ImmichRs.Web.Grants

/-!
# Upload workflows

What the application does with the executors and the client on behalf of a job of the console: it
plans an upload, verifies a stored plan without remote effects, and applies a prepared plan.  Every
error keeps its class.
-/

namespace ImmichRs.Web

open Interaction
open Std (ExtTreeMap)

/-! ## Errors -/

/-- `ApplicationErrorClass`. -/
inductive ApplicationErrorClass
  | usage | source | authentication | compatibility | network | checkpoint | destination
  | invariant | cancelled
  deriving DecidableEq, Repr

/-- `ApplicationError`, with the failures which reach an upload. -/
inductive UploadFailure
  | scan (error : ScanError)
  | client (error : ClientError)
  | executor (error : ExecutorError)
  | invalidRequest (message : String)
  | cancelled
  deriving DecidableEq

/-- `ApplicationError::class`. -/
def UploadFailure.class_ : UploadFailure → ApplicationErrorClass
  | .cancelled | .scan .cancelled => .cancelled
  | .scan (.invalidPlan _) => .invariant
  | .scan _ => .source
  | .client error =>
      match error.class_ with
      | .authentication => .authentication
      | .compatibility => .compatibility
      | .cancelled => .cancelled
      | .protocol => .invariant
      | _ => .network
  | .executor error =>
      match error with
      | .cancelled => .cancelled
      | .checkpoint => .checkpoint
      | .destination => .destination
      | .sourceChanged | .sourceDiagnostics | .unsupportedMetadata => .source
      | .client => .network
      | _ => .invariant
  | .invalidRequest _ => .usage

/-! ## Calls of a job -/

/-- `ImmichReadClient`, with the access which its endpoint was given. -/
structure JobClient where
  client : ImmichReadClient
  access : ServerMode
  deriving DecidableEq

/-- Requests of a job: those of the executors and of the read client, the groups of a folder apply,
which run concurrently, and what a job reads of the console and its private store. -/
inductive JobCall
  | executor (call : Call)
  | read (call : ReadCall)
  | runGroups (config : UploadExecutionConfig) (start : UploadStart)
  /-- The scan of a source without its files. -/
  | scan (label : String)
  /-- The files which an upload plan is made of. -/
  | nativeFiles
  /-- The profiles and the stores of the console, as they are now. -/
  | console
  | readClient (serverId : String)
  | runtime
  | unusedCheckpoint
  | verifyCheckpointUnused (checkpoint : String)
  | applyCheckpoint (reference : ArtifactRef)
  /-- `Journal::validate_existing`. -/
  | validateExisting (checkpoint : String)
  | checkpointExists (checkpoint : String)
  /-- `PlanStore::write`. -/
  | writePlan (plan : UploadPlan) (sourceId sourceGeneration serverId serverGeneration : String)
      (credentialGeneration : Nat)

/-- The type of the answer to each request. -/
def JobAnswer : JobCall → Type
  | .executor call => Answer call
  | .read call => ReadAnswer call
  | .runGroups _ _ => Except ExecutorError ApplyReport
  | .scan _ => Except ScanError NormalizedPlan
  | .nativeFiles => NativeFiles
  | .console => GrantEnvironment
  | .readClient _ => Option JobClient
  | .runtime | .verifyCheckpointUnused _ => Bool
  | .unusedCheckpoint | .applyCheckpoint _ => Option String
  | .validateExisting _ => Except ExecutorError (ExtTreeMap String String)
  | .checkpointExists _ => Except ExecutorError Bool
  | .writePlan _ _ _ _ _ _ => Option PlanArtifact

/-- Programs of a job. -/
abbrev JobProgram (α : Type) : Type := Program JobAnswer α

/-- Programs of a job which may fail. -/
abbrev FallibleJob (ε α : Type) : Type := ExceptT ε (Program JobAnswer) α

/-- A request which may fail. -/
def askFallible {ε α : Type} (call : JobCall) (read : JobAnswer call → Except ε α) :
    FallibleJob ε α :=
  ExceptT.mk (.request call fun answer => .done (read answer))

/-- Run an executor. -/
def runExecutor {α : Type} (program : FallibleExecutor α) : FallibleJob ExecutorError α :=
  ExceptT.mk (program.run.translate fun call => Program.ask (JobCall.executor call))

/-- Run a program of the read client. -/
def readRemote {α : Type} (program : ReadProgram α) : FallibleJob ClientError α :=
  ExceptT.mk (program.run.translate fun call => Program.ask (JobCall.read call))

/-- The conversion of an error by `?`. -/
def convert {ε ε' α : Type} (wrap : ε → ε') (program : FallibleJob ε α) : FallibleJob ε' α :=
  ExceptT.mk (program.run.bind fun result => .done (result.mapError wrap))

/-! ## Sources -/

/-- `SourceSettings`. -/
inductive SourceSettings
  | folder (config : FolderScanConfig)
  | googleTakeout (source : TakeoutScanConfig) (upload : UploadExecutionConfig)
  | applePhotos (source : ApplePhotosScanConfig) (upload : UploadExecutionConfig)
  | picasa (source : PicasaScanConfig) (upload : UploadExecutionConfig)

/-- `ResolvedSourceProfile`. -/
structure ResolvedSourceProfile where
  inputs : List String
  label : String
  settings : SourceSettings

/-- The part of `UploadDryRunRequest` and of `UploadApplyRequest` which a source determines. -/
structure ExecutionSettings where
  config : UploadExecutionConfig
  takeout : TakeoutScanConfig
  apple : ApplePhotosScanConfig
  picasa : PicasaScanConfig

/-- `execution_settings`. -/
def executionSettings : SourceSettings → ExecutionSettings
  | .folder scan => .mk { UploadExecutionConfig.default with scan } .default .default .default
  | .googleTakeout source upload => .mk upload source .default .default
  | .applePhotos source upload => .mk upload .default source .default
  | .picasa source upload => .mk upload .default .default source

/-- `UploadDryRunRequest` and `UploadApplyRequest`. -/
structure UploadRunRequest where
  inputs : List String
  checkpoint : String
  settings : ExecutionSettings

/-- `dry_run_request` and `apply_request`. -/
def runRequest (source : ResolvedSourceProfile) (checkpoint : String) : UploadRunRequest :=
  { inputs := source.inputs, checkpoint, settings := executionSettings source.settings }

/-! ## Dry runs -/

/-- `APPLY_REPORT_SCHEMA_VERSION` and `IMPORT_APPLY_REPORT_SCHEMA_VERSION`. -/
def reportSchemaVersion : Nat := 1

/-- `ApplyReport` of a dry run. -/
structure FolderDryRun extends ApplyReport where
  schemaVersion : Nat
  dryRun : Bool
  deriving DecidableEq

/-- `ImportApplyReport` of a dry run. -/
structure ImportDryRun extends ImportApplyReport where
  schemaVersion : Nat
  dryRun : Bool
  wouldUpload : Nat
  wouldUpdateMetadata : Nat
  wouldCreateAlbums : Nat
  wouldAddAlbumMemberships : Nat
  deriving DecidableEq

/-- `UploadDryRunReport`. -/
inductive UploadDryRunReport
  | folder (report : FolderDryRun)
  | imported (report : ImportDryRun)
  deriving DecidableEq

/-- `ImportApplyReport::dry_run`. -/
def ImportDryRun.new (planned : UploadPlanSummary) : ImportDryRun :=
  { planned, created := 0, duplicate := 0, metadataUpdated := 0, albumsCreated := 0
    albumsReused := 0, albumMembershipsUpdated := 0, resumedEffects := 0, retried := 0
    failed := 0, indeterminate := 0, cancelled := false
    schemaVersion := reportSchemaVersion
    dryRun := true
    wouldUpload := planned.operations
    wouldUpdateMetadata := planned.metadataUpdates
    wouldCreateAlbums := planned.albumCreates
    wouldAddAlbumMemberships := planned.albumMemberships }

section

variable (platform : Platform)

/-- `dry_run_upload`. -/
def dryRunUpload (plan : UploadPlan) (checkpoint : String) (config : UploadExecutionConfig) :
    FallibleJob ExecutorError FolderDryRun := do
  Program.ofResult config.validate
  let _ ← runExecutor (verifySource platform plan config)
  let completed ← askFallible (.validateExisting checkpoint) id
  Program.ofResult (validateCompleted plan completed)
  return {
    toApplyReport :=
      { ApplyReport.new plan.summary.operations with
        resumed := completed.size
        wouldUpload := plan.summary.operations - completed.size }
    schemaVersion := reportSchemaVersion
    dryRun := true }

/-- `dry_run_import`. -/
def dryRunImport (plan : UploadPlan) (checkpoint : String) (config : ImportConfig) :
    FallibleJob ExecutorError ImportDryRun := do
  Program.ofResult config.validateImport
  Program.ofResult (requireValidPlan platform plan)
  let identity ← Program.ofResult (config.identity platform)
  Program.ofResult (reject (plan.schemaVersion != uploadPlanSchemaVersionV2 ||
    plan.source.kind != config.sourceKind || plan.configurationSha256 != identity) .invalidPlan)
  let found ← askFallible (.checkpointExists checkpoint) id
  Program.ofResult (reject found .checkpoint)
  let _ ← runExecutor (rescan platform plan config)
  return ImportDryRun.new plan.summary

/-- The adapter of an import plan, or why it has none. -/
def importConfig (kind : ImmichRs.SourceKind) (settings : ExecutionSettings) :
    Except UploadFailure ImportConfig :=
  match kind with
  | .googleTakeout => .ok (.takeout settings.takeout settings.config)
  | .applePhotos => .ok (.applePhotos settings.apple settings.config)
  | .picasa => .ok (.picasa settings.picasa settings.config)
  | .folder => .error (.invalidRequest "unsupported import source kind")
  | .immich => .error (.invalidRequest "Immich migration plans require the migration command")

/-- `dry_run_upload_plan`. -/
def dryRunUploadPlan (plan : UploadPlan) (request : UploadRunRequest) :
    FallibleJob UploadFailure UploadDryRunReport :=
  if plan.schemaVersion = uploadPlanSchemaVersion then do
    Program.ofResult (reject (request.inputs.length != 1)
      (.invalidRequest "folder dry-run requires exactly one source"))
    let report ← convert .executor
      (dryRunUpload platform plan request.checkpoint request.settings.config)
    return .folder report
  else if plan.schemaVersion = uploadPlanSchemaVersionV2 then do
    let config ← Program.ofResult (importConfig plan.source.kind request.settings)
    let report ← convert .executor (dryRunImport platform plan request.checkpoint config)
    return .imported report
  else
    Program.ofResult (.error (.invalidRequest "unsupported upload plan schema"))

/-! ## Plans -/

/-- `plan_folder_upload`. -/
def planFolderUpload (label : String) (scan : FolderScanConfig) (client : JobClient) :
    FallibleJob UploadFailure UploadPlan := do
  let negotiated ← convert .client (readRemote (client.client.probe platform))
  let resolved ← askFallible (.executor (.scanResolved label)) (Except.mapError .scan)
  let files ← (Program.ask JobCall.nativeFiles : JobProgram NativeFiles)
  Program.ofResult ((createUploadPlan platform files resolved negotiated.compatibility
    { UploadExecutionConfig.default with scan }).mapError .executor)

/-- `plan_google_takeout_upload`, `plan_apple_photos_upload` and `plan_picasa_upload`. -/
def planImportUpload (label : String) (config : ImportConfig) (client : JobClient) :
    FallibleJob UploadFailure UploadPlan := do
  let negotiated ← convert .client (readRemote (client.client.probe platform))
  let resolved ← askFallible (.executor (.scanResolved label)) (Except.mapError .scan)
  Program.ofResult
    ((createImportUploadPlan platform resolved negotiated.compatibility config).mapError .executor)

/-- `plan_upload` of the source. -/
def planSourceUpload (source : ResolvedSourceProfile) (client : JobClient) :
    FallibleJob UploadFailure UploadPlan := do
  Program.ofResult (reject source.inputs.isEmpty
    (.invalidRequest "source profile has no configured input"))
  match source.settings with
  | .folder scan => planFolderUpload platform source.label scan client
  | .googleTakeout takeout upload =>
      planImportUpload platform source.label (.takeout takeout upload) client
  | .applePhotos apple upload =>
      planImportUpload platform source.label (.applePhotos apple upload) client
  | .picasa picasa upload => planImportUpload platform source.label (.picasa picasa upload) client

/-! ## Applies -/

/-- `ProductionUploadAuthorization` and `ProductionImportAuthorization`. -/
structure ProductionAuthorization where
  planSha256 : String
  expectedOperations : Nat
  backupReferenceSha256 : String
  deriving DecidableEq

/-- `ProductionUploadAuthorization::matches_plan`. -/
def ProductionAuthorization.matchesUpload (authorization : ProductionAuthorization)
    (plan : UploadPlan) : Bool :=
  match uploadPlanSha256 platform plan with
  | .ok digest =>
      digest == authorization.planSha256 &&
        plan.summary.operations == authorization.expectedOperations &&
        plan.operations.length == authorization.expectedOperations
  | .error _ => false

/-- `ProductionImportAuthorization::matches_plan`. -/
def ProductionAuthorization.matchesImport (authorization : ProductionAuthorization)
    (plan : UploadPlan) : Bool :=
  plan.schemaVersion == uploadPlanSchemaVersionV2 &&
    match uploadPlanSha256 platform plan with
    | .ok digest =>
        digest == authorization.planSha256 &&
          plan.summary.maxMutations == authorization.expectedOperations
    | .error _ => false

/-- A client which may write: what it is bound to, and the proof of a confirmed production write. -/
structure AuthorizedClient where
  binding : ClientBinding
  authorization : Option ProductionAuthorization

/-- `authorize_upload` and `authorize_import`. -/
def authorizeDisposable (client : JobClient) (negotiated : NegotiatedServer) :
    Except ClientError AuthorizedClient := do
  reject (client.access != .disposable) (.new .compatibility)
  client.client.validateBinding platform negotiated
  return {
    binding := { compatibility := negotiated.compatibility, isProduction := false }
    authorization := none }

/-- `authorize_production_upload` and `authorize_production_import`, which differ in what the
confirmation has to match. -/
def authorizeProduction (client : JobClient) (negotiated : NegotiatedServer) (plan : UploadPlan)
    (confirmation : ProductionWriteConfirmation) (mismatch : Bool) :
    Except ClientError AuthorizedClient := do
  reject (client.access != .productionRead) (.new .compatibility)
  client.client.validateBinding platform negotiated
  reject (negotiated.compatibility != plan.server) (.new .compatibility)
  let planSha256 ← uploadPlanSha256 platform plan
  reject (confirmation.planSha256 != planSha256 || mismatch) (.new .compatibility)
  return {
    binding := { compatibility := negotiated.compatibility, isProduction := true }
    authorization := some
      { planSha256
        expectedOperations := confirmation.expectedOperations
        backupReferenceSha256 := platform.sha256 (utf8Bytes confirmation.backupReference) } }

/-- The client of a folder apply. -/
def authorizeFolder (client : JobClient) (negotiated : NegotiatedServer)
    (prepared : PreparedUploadApply) : Except ClientError AuthorizedClient :=
  match prepared.production with
  | some confirmation =>
      authorizeProduction platform client negotiated prepared.plan confirmation
        (confirmation.expectedOperations != prepared.plan.summary.operations ||
          confirmation.expectedOperations != prepared.plan.operations.length)
  | none => authorizeDisposable platform client negotiated

/-- The client of an import. -/
def authorizeImport (client : JobClient) (negotiated : NegotiatedServer)
    (prepared : PreparedUploadApply) : Except ClientError AuthorizedClient :=
  match prepared.production with
  | some confirmation =>
      authorizeProduction platform client negotiated prepared.plan confirmation
        (confirmation.expectedOperations != prepared.plan.summary.maxMutations ||
          prepared.plan.schemaVersion != uploadPlanSchemaVersionV2)
  | none => authorizeDisposable platform client negotiated

/-- The checks of `apply_upload` and of `apply_production_upload`. -/
def requireUploadClient (plan : UploadPlan) (client : AuthorizedClient) :
    Except ExecutorError Unit :=
  match client.authorization with
  | some authorization =>
      reject (!authorization.matchesUpload platform plan || !client.binding.isProduction)
        .invalidPlan
  | none => reject client.binding.isProduction .invalidPlan

/-- The checks of `apply_production_takeout_import` and of the other adapters. -/
def requireImportClient (plan : UploadPlan) (client : AuthorizedClient) :
    Except ExecutorError Unit :=
  match client.authorization with
  | some authorization =>
      reject (!authorization.matchesImport platform plan || !client.binding.isProduction)
        .invalidPlan
  | none => .ok ()

/-- The digest which binds a journal to its backup. -/
def AuthorizedClient.backupReferenceSha256 (client : AuthorizedClient) : Option String :=
  client.authorization.map ProductionAuthorization.backupReferenceSha256

/-- `apply_upload` and `apply_production_upload`. -/
def applyUpload (plan : UploadPlan) (config : UploadExecutionConfig) (client : AuthorizedClient) :
    FallibleJob ExecutorError ApplyReport := do
  Program.ofResult (requireUploadClient platform plan client)
  let start ← runExecutor (uploadStart platform plan config client.binding.compatibility
    client.backupReferenceSha256)
  askFallible (.runGroups config start) id

/-- `apply_takeout_import`, `apply_production_takeout_import` and the other adapters. -/
def applyAdapterImport (plan : UploadPlan) (config : ImportConfig) (client : AuthorizedClient) :
    FallibleJob ExecutorError ImportApplyReport := do
  Program.ofResult (requireImportClient platform plan client)
  runExecutor (applyImportInner platform plan config client.binding client.backupReferenceSha256)

/-- `UploadApplyReport`. -/
inductive UploadApplyReport
  | folder (report : ApplyReport)
  | imported (report : ImportApplyReport)
  deriving DecidableEq

/-- `apply_folder`. -/
def applyFolder (prepared : PreparedUploadApply) (request : UploadRunRequest) (client : JobClient)
    (negotiated : NegotiatedServer) : FallibleJob UploadFailure UploadApplyReport := do
  Program.ofResult (reject (request.inputs.length != 1)
    (.invalidRequest "folder apply requires exactly one source"))
  let authorized ← Program.ofResult
    ((authorizeFolder platform client negotiated prepared).mapError .client)
  let report ← convert .executor
    (applyUpload platform prepared.plan request.settings.config authorized)
  Program.ofResult (reject report.cancelled .cancelled)
  return .folder report

/-- `apply_import`. -/
def applyImport (prepared : PreparedUploadApply) (request : UploadRunRequest) (client : JobClient)
    (negotiated : NegotiatedServer) : FallibleJob UploadFailure UploadApplyReport := do
  let config ← Program.ofResult (importConfig prepared.plan.source.kind request.settings)
  let authorized ← Program.ofResult
    ((authorizeImport platform client negotiated prepared).mapError .client)
  let report ← convert .executor (applyAdapterImport platform prepared.plan config authorized)
  Program.ofResult (reject report.cancelled .cancelled)
  return .imported report

/-- `apply_prepared_upload`. -/
def applyPreparedUpload (prepared : PreparedUploadApply) (request : UploadRunRequest)
    (client : JobClient) : FallibleJob UploadFailure UploadApplyReport := do
  let negotiated ← convert .client (readRemote (client.client.probe platform))
  Program.ofResult (reject (negotiated.compatibility != prepared.plan.server)
    (.invalidRequest "server does not match upload plan"))
  if prepared.plan.schemaVersion = uploadPlanSchemaVersionV2 then
    applyImport platform prepared request client negotiated
  else
    applyFolder platform prepared request client negotiated

end

end ImmichRs.Web
