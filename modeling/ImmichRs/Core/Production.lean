import ImmichRs.Client.Requests
import ImmichRs.Core.Json

/-!
# Confirmed production writes

The operator's confirmation of a production write, and the admission of a plan to be applied.
-/

namespace ImmichRs

/-- `MAX_BACKUP_REFERENCE_BYTES`. -/
def maxBackupReferenceBytes : Nat := 256

/-- Operator-originated confirmation required before remote production writes. -/
structure ProductionWriteConfirmation where
  planSha256 : String
  expectedOperations : Nat
  backupReference : String
  deriving DecidableEq

/-- Why a confirmation was refused. -/
inductive ProductionConfirmationError
  | notAcknowledged | invalidPlanDigest | invalidOperationCount | invalidBackupReference
  deriving DecidableEq, Repr

/-- A backup reference of at most `maximum` bytes, trimmed and without control characters. -/
def acceptsBackupReference (reference : String) (maximum : Nat) : Bool :=
  !(reference.isEmpty || byteLen reference > maximum || trim reference != reference ||
    anyChar reference isControl)

/-- `ProductionWriteConfirmation::new`. -/
def ProductionWriteConfirmation.new (acknowledged : Bool) (planSha256 : String)
    (expectedOperations : Nat) (backupReference : String) :
    Except ProductionConfirmationError ProductionWriteConfirmation := do
  reject (!acknowledged) .notAcknowledged
  reject (!isLowerSha256 planSha256) .invalidPlanDigest
  reject (expectedOperations == 0) .invalidOperationCount
  reject (!acceptsBackupReference backupReference maxBackupReferenceBytes) .invalidBackupReference
  return .mk planSha256 expectedOperations backupReference

/-- The refusals of an apply request, with the text shown to the operator. -/
inductive ApplicationError
  | invalidRequest (message : String)
  deriving DecidableEq, Repr

/-- Explicit operator values for a production write. -/
structure ProductionWriteRequest where
  planSha256 : String
  expectedOperations : Nat
  backupReference : String
  deriving DecidableEq

/-- Validated apply admission. -/
structure PreparedUploadApply where
  plan : UploadPlan
  production : Option ProductionWriteConfirmation
  deriving DecidableEq

/-- `PreparedUploadApply::is_production`. -/
def PreparedUploadApply.isProduction (prepared : PreparedUploadApply) : Bool :=
  prepared.production.isSome

/-- `upload_plan_sha256`. -/
def uploadPlanSha256 (platform : Platform) (plan : UploadPlan) : Except ClientError String :=
  match plan.validate platform with
  | .error _ => .error (.new .compatibility)
  | .ok () => .ok (compactSha256 platform plan.serialize)

/-- `validate_production_confirmation`. -/
def validateProductionConfirmation (platform : Platform) (request : Option ProductionWriteRequest)
    (plan : UploadPlan) : Except ApplicationError (Option ProductionWriteConfirmation) :=
  match request with
  | none => .ok none
  | some request => do
      let confirmation ← (ProductionWriteConfirmation.new true request.planSha256
        request.expectedOperations request.backupReference).mapError fun _ =>
          .invalidRequest "invalid production confirmation"
      let digest ← (uploadPlanSha256 platform plan).mapError fun _ =>
        .invalidRequest "invalid production upload plan"
      let expected := if plan.schemaVersion = uploadPlanSchemaVersionV2 then
        plan.summary.maxMutations else plan.summary.operations
      reject (!(confirmation.planSha256 == digest && confirmation.expectedOperations == expected &&
        (plan.schemaVersion != uploadPlanSchemaVersion ||
          confirmation.expectedOperations == plan.operations.length)))
        (.invalidRequest "production confirmation does not match upload plan")
      return some confirmation

/-- `prepare_upload_apply`. -/
def prepareUploadApply (platform : Platform) (plan : UploadPlan)
    (production : Option ProductionWriteRequest) :
    Except ApplicationError PreparedUploadApply := do
  reject (plan.schemaVersion != uploadPlanSchemaVersion &&
      plan.schemaVersion != uploadPlanSchemaVersionV2)
    (.invalidRequest "apply upload does not support this plan schema")
  let production ← validateProductionConfirmation platform production plan
  return .mk plan production

end ImmichRs
