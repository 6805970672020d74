import ImmichRs.Executor.ImportEffects
import ImmichRs.Executor.ImportPlanner
import ImmichRs.Executor.Operation
import ImmichRs.Executor.Schedule

/-!
# Applying an import plan

The operations of the plan run one after the other, each followed by its metadata update.  Albums
follow when every operation has an asset id.
-/

namespace ImmichRs

open Interaction
open Std (ExtTreeMap ExtTreeSet)

/-- `apply_report`. -/
def applyReport (plan : UploadPlan) : ImportApplyReport :=
  { planned := plan.summary, created := 0, duplicate := 0, metadataUpdated := 0
    albumsCreated := 0, albumsReused := 0, albumMembershipsUpdated := 0, resumedEffects := 0
    retried := 0, failed := 0, indeterminate := 0, cancelled := false }

/-- `initial_asset_ids`. -/
def initialAssetIds (plan : UploadPlan) (state : ImportState) : ExtTreeMap String String :=
  plan.operations.foldl (fun assetIds operation =>
    match state.assetId operation.operationId with
    | some assetId => assetIds.insert operation.operationId assetId
    | none => assetIds) ∅

/-- `live_video_id`. -/
def liveVideoId (operation : UploadOperation) (assetIds : ExtTreeMap String String) :
    Option String :=
  match operation.role with
  | .livePhotoImage _ videoOperationId => assetIds[videoOperationId]?
  | _ => none

/-- The import outcome of an upload outcome. -/
def OutcomeKind.importOutcome : OutcomeKind → ImportOutcome
  | .created => .created
  | .duplicate => .duplicate
  | .failed => .failed
  | .indeterminate => .indeterminate

/-- Count an upload outcome. -/
def ImportApplyReport.countAsset (report : ImportApplyReport) : OutcomeKind → ImportApplyReport
  | .created => { report with created := report.created + 1 }
  | .duplicate => { report with duplicate := report.duplicate + 1 }
  | .failed => { report with failed := report.failed + 1 }
  | .indeterminate => { report with indeterminate := report.indeterminate + 1 }

/-- `record_completed_asset`. -/
def recordCompletedAsset (outcome : OperationOutcome) (report : ImportApplyReport) :
    FallibleExecutor (Option String × ImportApplyReport) := do
  append (assetKey outcome.operationId) outcome.kind.importOutcome outcome.assetId outcome.retries
  return (outcome.assetId, (report.addRetries outcome.retries).countAsset outcome.kind)

/-- `record_asset`. -/
def recordAsset (operation : UploadOperation) (result : OperationResult)
    (report : ImportApplyReport) : FallibleExecutor (Option String × ImportApplyReport) :=
  match result with
  | .completed outcome => recordCompletedAsset outcome report
  | .cancelled none => return (none, report.cancel)
  | .cancelled (some outcome) => do
      append (assetKey operation.operationId) .indeterminate none outcome.retries
      return (none, (report.cancel.addRetries outcome.retries).fail true)

/-- `append_asset_failure`. -/
def appendAssetFailure (operation : UploadOperation) (report : ImportApplyReport) :
    FallibleExecutor ImportApplyReport := do
  append (assetKey operation.operationId) .failed none 0
  return report.fail false

/-- `staging.prepare(..)`. -/
def prepare (operation : UploadOperation) : FallibleExecutor VerifiedAsset :=
  ExceptT.mk (.request (Call.prepare operation) fun answer => .done answer)

section

variable (platform : Platform) (config : UploadExecutionConfig)

/-- The asset of one iteration of `apply_import_inner`: resumed, or uploaded and recorded. -/
def assetReference (state : ImportState) (assetIds : ExtTreeMap String String)
    (operation : UploadOperation) (report : ImportApplyReport) :
    FallibleExecutor (Option String × ImportApplyReport) :=
  match state.assetId operation.operationId with
  | some assetId => return (some assetId, report.resume)
  | none =>
      if operation.role.isLivePhotoImage && (liveVideoId operation assetIds).isNone then do
        return (none, ← appendAssetFailure operation report)
      else do
        let source ← prepare operation
        let outcome ← (applyOperation platform config operation source
          (liveVideoId operation assetIds) : Executor OperationResult)
        recordAsset operation outcome report

/-- The asset ids after one operation; a resumed asset is already among them. -/
def trackAsset (state : ImportState) (operation : UploadOperation) (assetId : String)
    (assetIds : ExtTreeMap String String) : ExtTreeMap String String :=
  match state.assetId operation.operationId with
  | some _ => assetIds
  | none => assetIds.insert operation.operationId assetId

/-- The loop of `apply_import_inner` over the ordered operations. -/
def applyOperationsLoop (state : ImportState) :
    List UploadOperation → ImportApplyReport → ExtTreeMap String String →
      FallibleExecutor (ImportApplyReport × ExtTreeMap String String)
  | [], report, assetIds => return (report, assetIds)
  | operation :: rest, report, assetIds => do
      if ← (isCancelled : Executor Bool) then
        return (report.cancel, assetIds)
      else
        match ← assetReference platform config state assetIds operation report with
        | (none, report) =>
            if report.cancelled then return (report, assetIds)
            else applyOperationsLoop state rest report assetIds
        | (some assetId, report) =>
            match ← applyMetadata platform config state operation assetId report with
            | (true, report) =>
                applyOperationsLoop state rest report (trackAsset state operation assetId assetIds)
            | (false, report) => return (report, trackAsset state operation assetId assetIds)

/-- The effects of `apply_import_inner`, after its checks. -/
def applyEffects (plan : UploadPlan) (state : ImportState) :
    FallibleExecutor ImportApplyReport := do
  let operations ← ofExcept (orderedOperations plan)
  let (report, assetIds) ← applyOperationsLoop platform config state operations (applyReport plan)
    (initialAssetIds plan state)
  if !report.cancelled && assetIds.size == plan.operations.length then
    applyAlbums platform config plan assetIds state report
  else
    return report

/-- The server and the scope which a client is bound to. -/
structure ClientBinding where
  compatibility : ServerCompatibility
  isProduction : Bool

/-- `validate_context`. -/
def validateContext (plan : UploadPlan) (config : ImportConfig) (client : ClientBinding)
    (production : Bool) : Except ExecutorError Unit := do
  config.validateImport
  requireValidPlan platform plan
  let identity ← config.identity platform
  reject (!(plan.schemaVersion == uploadPlanSchemaVersionV2 &&
    plan.source.kind == config.sourceKind && plan.configurationSha256 == identity &&
    client.compatibility == plan.server && client.isProduction == production)) .invalidPlan

/-- `rescan`. -/
def rescan (plan : UploadPlan) (config : ImportConfig) :
    FallibleExecutor ResolvedFolderPlan := do
  let resolved ← scanResolved plan.source.label
  let observed ← ofExcept (createImportUploadPlan platform resolved plan.server config)
  ofExcept (reject (observed != plan) .sourceChanged)
  return resolved

/-- `ImportJournal::open` and `ImportJournal::open_production`. -/
def openImportJournal (plan : UploadPlan) (backupReferenceSha256 : Option String) :
    FallibleExecutor Unit := do
  ofExcept (reject (backupReferenceSha256.any fun digest => !isLowerSha256 digest) .checkpoint)
  ofExcept (requireValidPlan platform plan)
  ofExcept (reject (plan.schemaVersion != uploadPlanSchemaVersionV2) .invalidPlan)
  ExceptT.mk (.request (Call.openJournal backupReferenceSha256) fun answer => .done answer)

/-- `SELECT .. FROM effects`. -/
def readEffects : FallibleExecutor (List ImportEvent) :=
  ExceptT.mk (.request Call.readEffects fun answer => .done answer)

/-- `ImportStaging::open`. -/
def openStaging : FallibleExecutor Unit :=
  ExceptT.mk (.request Call.openStaging fun answer => .done answer)

/-- `apply_import_inner` up to its effects: the state which the run resumes from. -/
def importStart (plan : UploadPlan) (config : ImportConfig) (client : ClientBinding)
    (backupReferenceSha256 : Option String) : FallibleExecutor ImportState := do
  ofExcept (validateContext platform plan config client backupReferenceSha256.isSome)
  let _ ← rescan platform plan config
  openImportJournal platform plan backupReferenceSha256
  let state ← ofExcept (importState (← readEffects))
  ofExcept (state.validateForPlan platform plan)
  openStaging
  return state

/-- `apply_import_inner`. -/
def applyImportInner (plan : UploadPlan) (config : ImportConfig) (client : ClientBinding)
    (backupReferenceSha256 : Option String) : FallibleExecutor ImportApplyReport := do
  let state ← importStart platform plan config client backupReferenceSha256
  applyEffects platform config.upload plan state

end

end ImmichRs
