import ImmichRs.Executor.Operation
import ImmichRs.Executor.Schedule
import ImmichRs.Executor.Verify
import ImmichRs.Interaction.Interleaving

/-!
# Applying a folder plan

Pending groups run concurrently in a bounded pool.  The main loop takes finished groups one at a
time and journals their outcomes before it takes the next.
-/

namespace ImmichRs

open Interaction
open Std (ExtTreeMap ExtTreeSet)

/-- Counters of one folder apply.  They are bounded by the size of the plan and by the retry
budget, so the saturating additions of the source never saturate. -/
structure ApplyReport where
  planned : Nat
  wouldUpload : Nat
  created : Nat
  duplicate : Nat
  resumed : Nat
  retried : Nat
  failed : Nat
  indeterminate : Nat
  cancelled : Bool
  deriving DecidableEq, Repr

/-- `ApplyReport::new` for an apply. -/
def ApplyReport.new (planned : Nat) : ApplyReport :=
  { planned, wouldUpload := 0, created := 0, duplicate := 0, resumed := 0, retried := 0
    failed := 0, indeterminate := 0, cancelled := false }

/-- `record_report`. -/
def recordReport (report : ApplyReport) (outcome : OperationOutcome) : ApplyReport :=
  let report := { report with retried := report.retried + outcome.retries }
  match outcome.kind with
  | .created => { report with created := report.created + 1 }
  | .duplicate => { report with duplicate := report.duplicate + 1 }
  | .failed => { report with failed := report.failed + 1 }
  | .indeterminate => { report with indeterminate := report.indeterminate + 1 }

/-! ## The folder journal -/

/-- The last row of each operation. -/
def latestEvents (events : List JournalEvent) : ExtTreeMap String JournalEvent :=
  events.foldl (fun latest event => latest.insert event.operationId event) ∅

/-- One row of the query of `completed_assets`. -/
def completedRow (completed : ExtTreeMap String String) (row : String × JournalEvent) :
    Except ExecutorError (ExtTreeMap String String) :=
  match row.2.kind with
  | .created | .duplicate =>
      match row.2.assetId with
      | none => .error .checkpoint
      | some assetId =>
          if row.1.isEmpty || assetId.isEmpty || decide (4096 < byteLen assetId) ||
              completed.contains row.1 then
            .error .checkpoint
          else
            .ok (completed.insert row.1 assetId)
  | .failed | .indeterminate => .ok completed

/-- `completed_assets`: operations whose last row is a success, with their asset ids. -/
def completedAssets (events : List JournalEvent) :
    Except ExecutorError (ExtTreeMap String String) :=
  (latestEvents events).toList.foldlM completedRow ∅

/-- `validate_completed`. -/
def validateCompleted (plan : UploadPlan) (completed : ExtTreeMap String String) :
    Except ExecutorError Unit :=
  reject (completed.keys.any fun operationId =>
    !plan.operations.any fun operation => operation.operationId == operationId) .checkpoint

/-- The contract between outcome and asset id which `Journal::append` enforces. -/
def assetContract (event : JournalEvent) : Bool :=
  match event.kind with
  | .created | .duplicate => event.assetId.any fun id => !id.isEmpty && byteLen id ≤ 4096
  | .failed | .indeterminate => event.assetId.isNone

/-- `Journal::append`. -/
def appendEvent (event : JournalEvent) : FallibleExecutor Unit :=
  if event.operationId.isEmpty || !assetContract event then
    ofExcept (.error .invariant)
  else
    ExceptT.mk (.request (Call.appendEvent event) fun answer => .done answer)

/-- The row which is written for an outcome. -/
def OperationOutcome.event (outcome : OperationOutcome) : JournalEvent :=
  { operationId := outcome.operationId, kind := outcome.kind, assetId := outcome.assetId
    retryCount := outcome.retries }

/-! ## Groups -/

/-- Outcomes of one group. -/
structure GroupResult where
  outcomes : List OperationOutcome
  cancelled : Bool
  deriving DecidableEq, Repr

section

variable (platform : Platform) (config : UploadExecutionConfig)
  (verified : ExtTreeMap String VerifiedAsset) (completed : ExtTreeMap String String)

/-- The loop of `apply_group`. -/
def applyGroupLoop :
    List UploadOperation → List OperationOutcome → Option String → Executor GroupResult
  | [], outcomes, _ => return { outcomes, cancelled := false }
  | operation :: rest, outcomes, videoAssetId => do
      if ← isCancelled then
        return { outcomes, cancelled := true }
      else
        match completed[operation.operationId]? with
        | some assetId =>
            applyGroupLoop rest outcomes
              (if operation.role.isLivePhotoVideo then some assetId else videoAssetId)
        | none =>
            if operation.role.isLivePhotoImage && videoAssetId.isNone then
              applyGroupLoop rest (outcomes ++ [failed operation 0]) videoAssetId
            else
              match verified[operation.operationId]? with
              | none => applyGroupLoop rest (outcomes ++ [failed operation 0]) videoAssetId
              | some source =>
                  match ← applyOperation platform config operation source videoAssetId with
                  | .cancelled outcome =>
                      return { outcomes := outcomes ++ outcome.toList, cancelled := true }
                  | .completed outcome =>
                      let videoAssetId :=
                        if operation.role.isLivePhotoVideo then outcome.assetId else videoAssetId
                      if outcome.assetId.isNone && operation.role.isLivePhotoVideo then
                        return { outcomes := outcomes ++ [outcome], cancelled := false }
                      else
                        applyGroupLoop rest (outcomes ++ [outcome]) videoAssetId

/-- `apply_group`. -/
def applyGroup (group : List UploadOperation) : Executor GroupResult :=
  applyGroupLoop platform config verified completed group [] none

end

/-! ## The run -/

/-- Journal and count the outcomes of one group. -/
def journalOutcomes : ApplyReport → List OperationOutcome → FallibleExecutor ApplyReport
  | report, [] => return report
  | report, outcome :: rest => do
      appendEvent outcome.event
      journalOutcomes (recordReport report outcome) rest

/-- One iteration of the main loop of `apply_upload_inner`. -/
def takeGroup (report : ApplyReport) (result : GroupResult) :
    Executor (Except ExecutorError ApplyReport) :=
  (journalOutcomes { report with cancelled := report.cancelled || result.cancelled }
    result.outcomes).run

/-- What `apply_upload_inner` knows when it starts its groups. -/
structure UploadStart where
  verified : ExtTreeMap String VerifiedAsset
  completed : ExtTreeMap String String
  groups : List (List UploadOperation)
  report : ApplyReport

/-- `Journal::open` and `Journal::open_production`. -/
def openJournal (backupReferenceSha256 : Option String) : FallibleExecutor Unit := do
  ofExcept (reject (backupReferenceSha256.any fun digest => !isLowerSha256 digest) .checkpoint)
  ExceptT.mk (.request (Call.openJournal backupReferenceSha256) fun answer => .done answer)

/-- `SELECT .. FROM events`. -/
def readEvents : FallibleExecutor (List JournalEvent) :=
  ExceptT.mk (.request Call.readEvents fun answer => .done answer)

/-- `apply_upload_inner` up to its first group, for a client bound to a server. -/
def uploadStart (platform : Platform) (plan : UploadPlan) (config : UploadExecutionConfig)
    (compatibility : ServerCompatibility) (backupReferenceSha256 : Option String) :
    FallibleExecutor UploadStart := do
  ofExcept config.validate
  ofExcept (reject (compatibility != plan.server) .invalidPlan)
  let verified ← verifySource platform plan config
  openJournal backupReferenceSha256
  let completed ← ofExcept (completedAssets (← readEvents))
  ofExcept (validateCompleted plan completed)
  let groups ← ofExcept (pendingGroups plan completed)
  return { verified, completed, groups
           report := { ApplyReport.new plan.summary.operations with resumed := completed.size } }

/-- The pool which runs the pending groups. -/
def UploadStart.pool (platform : Platform) (config : UploadExecutionConfig) (start : UploadStart) :
    Pool Answer GroupResult :=
  { waiting := start.groups.map (applyGroup platform config start.verified start.completed)
    active := [] }

/-- A run of `apply_upload_inner` which has started its groups, cut off anywhere before the next
group is taken. -/
inductive UploadRun {World : Type} (environment : Environment Answer World) (platform : Platform)
    (plan : UploadPlan) (config : UploadExecutionConfig) (compatibility : ServerCompatibility)
    (backupReferenceSha256 : Option String) (before : World) :
    List (Event Answer) → UploadStart → Pool Answer GroupResult → ApplyReport → World → Prop
  | intro {opening draining : List (Event Answer)} {start : UploadStart} {values : List GroupResult}
      {pool : Pool Answer GroupResult} {report : ApplyReport} {middle after : World} :
      Execution environment
        (uploadStart platform plan config compatibility backupReferenceSha256).run before opening
        (.done (.ok start)) middle →
      Drain environment config.concurrency takeGroup (start.pool platform config) start.report
        middle draining values pool report after →
      UploadRun environment platform plan config compatibility backupReferenceSha256 before
        (opening ++ draining) start pool report after

end ImmichRs
