import ImmichRs.Executor.Config
import ImmichRs.Interaction.Program

/-!
# Calls of the executors

Everything an executor asks of its surroundings: the cancellation token, the shared retry budget,
the backoff timer, the client, the source and the two journals.  An executor is a program over this
signature; its answers are the client responses, cancellation points and failures of one run.
-/

namespace ImmichRs

open Interaction

/-- Outcome of one upload operation. -/
inductive OutcomeKind
  | created | duplicate | failed | indeterminate
  deriving DecidableEq, Repr

/-- One row of the folder journal. -/
structure JournalEvent where
  operationId : String
  kind : OutcomeKind
  assetId : Option String
  retryCount : Nat
  deriving DecidableEq, Repr

/-- Outcome of one import effect. -/
inductive ImportOutcome
  | created | duplicate | completed | reused | failed | indeterminate
  deriving DecidableEq, Repr

/-- One row of the import journal. -/
structure ImportEvent where
  effectKey : String
  outcome : ImportOutcome
  remoteId : Option String
  retries : Nat
  deriving DecidableEq, Repr

/-- Source facts which an upload streams. -/
structure VerifiedAsset where
  mediaPath : String
  fileName : String
  sha1Base64 : String
  xmp : Option (String × UInt64)
  deriving DecidableEq

/-- Digests computed by one streaming read. -/
structure StreamIdentity where
  sha256 : String
  sha1Base64 : String
  deriving DecidableEq

/-- Requests of the executors.

The operation of a metadata update and the identity of a membership update are not part of the
request which is sent; they name the effect on whose behalf it is sent. -/
inductive Call
  | isCancelled
  | claim
  | wait (delay : Nat)
  | duplicateCheck (operationId sha1Base64 : String)
  | upload (request : UploadRequest)
  | updateAssetMetadata (operationId assetId : String) (metadata : NormalizedMetadata)
  | findOwnedAlbums (name : String)
  | createAlbum (name : String)
  | addAlbumAssets (identity albumId : String) (assetIds : List String)
  | scanResolved (sourceLabel : String)
  | streamIdentity (nativePath : String) (byteLen : UInt64) (createdAtUnixMs modifiedAtUnixMs : Int)
  | streamContent (nativePath : String) (byteLen : UInt64)
  | openStaging
  | prepare (operation : UploadOperation)
  | openJournal (backupReferenceSha256 : Option String)
  | readEvents
  | appendEvent (event : JournalEvent)
  | readEffects
  | appendEffect (event : ImportEvent)

/-- The type of the answer to each request. -/
def Answer : Call → Type
  | .isCancelled | .claim | .wait _ => Bool
  | .duplicateCheck _ _ => Except ClientError DuplicateCheck
  | .upload _ => Except ClientError (UploadResult × String)
  | .updateAssetMetadata _ _ _ | .addAlbumAssets _ _ _ => Except ClientError Unit
  | .findOwnedAlbums _ => Except ClientError (List RemoteAlbum)
  | .createAlbum _ => Except ClientError RemoteAlbum
  | .scanResolved _ => Except ScanError ResolvedFolderPlan
  | .streamIdentity _ _ _ _ | .streamContent _ _ => Except ExecutorError StreamIdentity
  | .prepare _ => Except ExecutorError VerifiedAsset
  | .openStaging | .openJournal _ | .appendEvent _ | .appendEffect _ => Except ExecutorError Unit
  | .readEvents => Except ExecutorError (List JournalEvent)
  | .readEffects => Except ExecutorError (List ImportEvent)

/-- Programs of the executors. -/
abbrev Executor (α : Type) : Type := Program Answer α

/-- Executors which may return an error. -/
abbrev FallibleExecutor (α : Type) : Type := ExceptT ExecutorError (Program Answer) α

/-- The answers which end a run at the next occasion. -/
def refuse : (call : Call) → Answer call
  | .isCancelled => true
  | .claim | .wait _ => false
  | .duplicateCheck _ _ | .upload _ | .updateAssetMetadata _ _ _ | .addAlbumAssets _ _ _
  | .findOwnedAlbums _ | .createAlbum _ => .error (.new .cancelled)
  | .scanResolved _ => .error .cancelled
  | .streamIdentity _ _ _ _ | .streamContent _ _ | .prepare _ | .openStaging | .openJournal _
  | .appendEvent _ | .appendEffect _ | .readEvents | .readEffects => .error .cancelled

section Senders

/-- `cancellation.is_cancelled()`. -/
abbrev isCancelled : Executor Bool := .request Call.isCancelled fun answer => .done answer

/-- `RetryBudget::claim`. -/
abbrev claim : Executor Bool := .request Call.claim fun answer => .done answer

/-- `retry::wait`: false when cancellation ended the delay. -/
abbrev wait (delay : Nat) : Executor Bool := .request (Call.wait delay) fun answer => .done answer

/-- `ImmichUploadClient::duplicate_check`. -/
abbrev duplicateCheck (operationId sha1Base64 : String) :
    Executor (Except ClientError DuplicateCheck) :=
  .request (Call.duplicateCheck operationId sha1Base64) fun answer => .done answer

/-- `ImmichUploadClient::upload`. -/
abbrev upload (request : UploadRequest) : Executor (Except ClientError (UploadResult × String)) :=
  .request (Call.upload request) fun answer => .done answer

/-- `ImmichImportClient::update_asset_metadata`. -/
abbrev updateAssetMetadata (operationId assetId : String) (metadata : NormalizedMetadata) :
    Executor (Except ClientError Unit) :=
  .request (Call.updateAssetMetadata operationId assetId metadata) fun answer => .done answer

/-- `ImmichImportClient::find_owned_albums`. -/
abbrev findOwnedAlbums (name : String) : Executor (Except ClientError (List RemoteAlbum)) :=
  .request (Call.findOwnedAlbums name) fun answer => .done answer

/-- `ImmichImportClient::create_album`. -/
abbrev createAlbum (name : String) : Executor (Except ClientError RemoteAlbum) :=
  .request (Call.createAlbum name) fun answer => .done answer

/-- `ImmichImportClient::add_album_assets`. -/
abbrev addAlbumAssets (identity albumId : String) (assetIds : List String) :
    Executor (Except ClientError Unit) :=
  .request (Call.addAlbumAssets identity albumId assetIds) fun answer => .done answer

end Senders

/-- `retry_allowed`: the error class, the attempt limit and the shared budget, in this order. -/
def retryAllowed (config : UploadExecutionConfig) (error : ClientError) (retries : Nat) :
    Executor Bool :=
  if error.isRetryable && decide (retries + 1 < config.maxAttemptsPerOperation) then
    claim
  else
    .done false

end ImmichRs
