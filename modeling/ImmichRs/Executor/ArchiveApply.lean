import ImmichRs.Executor.ArchivePaths
import ImmichRs.Executor.MigrationStaging
import ImmichRs.Files.Tree

/-!
# Materializing an archive

`apply_archive` writes the originals of a manifest below a local destination.  Each original is
downloaded under the part name of its file and renamed when its length and its digest are those of
the manifest; an original which is already there is only verified.
-/

namespace ImmichRs

open Files Interaction Interaction.Program

/-! ## Requests -/

/-- Requests of `apply_archive`. -/
inductive ArchiveCall
  | isCancelled
  /-- `fs::symlink_metadata`. -/
  | metadata (path : FilePath)
  /-- `File::open`, with what each `read` gives until the end; `none` is an error. -/
  | openFile (path : FilePath)
  | step (step : TreeStep FilePath)
  /-- `ImmichReadClient::download_original`. -/
  | download (assetId : String)
  deriving DecidableEq, Repr

/-- The type of the answer to each request. -/
def ArchiveAnswer : ArchiveCall → Type
  | .isCancelled | .step _ => Bool
  | .metadata _ => Metadata
  | .openFile _ => Option (List (Option (List UInt8)))
  | .download _ => Except ClientError Download

/-- Programs which materialize an archive. -/
abbrev ArchiveProgram (α : Type) : Type :=
  ExceptT (Stop ExecutorError) (Program ArchiveAnswer) α

/-- Any step may fail; metadata and contents are those of the tree, to which nobody else writes. -/
def archiveEnvironment (tidy : Bool) : Environment ArchiveAnswer (Files.Tree FilePath)
  | before, ⟨.step step, succeeded⟩, after => step.Performs tidy before succeeded after
  | before, ⟨.metadata path, found⟩, after =>
      after = before ∧ (found = Metadata.of (before path) ∨ found = .unreadable)
  | before, ⟨.openFile path, some readings⟩, after =>
      after = before ∧ ∃ content, before path = some (.file content) ∧ Reads content readings
  | before, _, after => after = before

namespace ArchiveProgram

/-- `Err(ExecutorError::new(error))`. -/
def fail {α : Type} (error : ExecutorError) : ArchiveProgram α := throw (.failed error)

/-- Stop where a condition holds. -/
def stopIf (condition : Bool) (error : ExecutorError) : ArchiveProgram Unit :=
  ofResult (reject condition (.failed error))

/-- `cancellation.is_cancelled()`. -/
abbrev isCancelled : ArchiveProgram Bool :=
  (send ArchiveCall.isCancelled : ArchiveProgram (ArchiveAnswer .isCancelled))

/-- Stop where the token is set. -/
def checkCancelled : ArchiveProgram Unit := do
  let cancelled ← isCancelled
  if cancelled then fail .cancelled else pure ()

/-- `fs::symlink_metadata`. -/
abbrev symlinkMetadata (path : FilePath) : ArchiveProgram Metadata :=
  (send (ArchiveCall.metadata path) : ArchiveProgram (ArchiveAnswer (.metadata path)))

/-- A step on the tree. -/
abbrev treeStep (step : TreeStep FilePath) : ArchiveProgram Bool :=
  (send (ArchiveCall.step step) : ArchiveProgram (ArchiveAnswer (.step step)))

/-- A step whose failure is one of the destination. -/
def perform (step : TreeStep FilePath) : ArchiveProgram Unit := do
  let succeeded ← treeStep step
  if succeeded then pure () else fail .destination

end ArchiveProgram

open ArchiveProgram

/-! ## Directories -/

/-- `create_or_validate_directory`. -/
def createOrValidateDirectory (path : FilePath) : ArchiveProgram Unit := do
  let found ← symlinkMetadata path
  match found with
  | .directory => pure ()
  | .missing => perform (.createDirectory path)
  | _ => fail .destination

/-- `ensure_real_directory`. -/
def ensureRealDirectory (path : FilePath) : ArchiveProgram Unit := do
  let found ← symlinkMetadata path
  match found with
  | .directory => pure ()
  | _ => fail .destination

/-- The loop of `ensure_destination` over the components of the destination. -/
def ensureComponents (current : FilePath) : List String → ArchiveProgram Unit
  | [] => pure ()
  | component :: rest => do
      stopIf (component == "." || component == "..") .destination
      createOrValidateDirectory (current ++ [component])
      ensureComponents (current ++ [component]) rest

/-- `ensure_destination`. -/
def ensureDestination (destination : FilePath) : ArchiveProgram Unit := do
  stopIf destination.isEmpty .destination
  ensureComponents [] destination
  ensureRealDirectory destination

/-- `ensure_asset_directory`. -/
def ensureAssetDirectory (destination : FilePath) (assetId : String) : ArchiveProgram Unit := do
  createOrValidateDirectory (FilePath.join destination "assets")
  createOrValidateDirectory (assetDirectory destination assetId)

/-- `path_exists`. -/
def pathExists (path : FilePath) : ArchiveProgram Bool := do
  let found ← symlinkMetadata path
  match found with
  | .missing => pure false
  | .unreadable => fail .destination
  | _ => pure true

/-- `remove_stale_part`. -/
def removeStalePart (path : FilePath) : ArchiveProgram Unit := do
  let found ← symlinkMetadata path
  match found with
  | .file _ => perform (.remove path)
  | .missing => pure ()
  | _ => fail .destination

/-- `remove_created_part`, whose result is ignored. -/
def removeCreatedPart (path : FilePath) : ArchiveProgram Unit := do
  let _ ← treeStep (.remove path)

/-! ## Verification -/

/-- The loop of `verify_existing`: what was given to the digest. -/
def hashReadings : List (Option (List UInt8)) → List UInt8 → ArchiveProgram (List UInt8)
  | [], hashed => do
      ArchiveProgram.checkCancelled
      pure hashed
  | none :: _, _ => do
      ArchiveProgram.checkCancelled
      fail .destination
  | some bytes :: rest, hashed => do
      ArchiveProgram.checkCancelled
      hashReadings rest (hashed ++ bytes)

/-- `verify_existing`. -/
def verifyExisting (path : FilePath) (asset : ArchiveAsset) : ArchiveProgram Unit := do
  let found ← symlinkMetadata path
  stopIf (found != .file asset.byteLen.toNat) .destination
  let opened ← (send (ArchiveCall.openFile path) :
    ArchiveProgram (ArchiveAnswer (.openFile path)))
  match opened with
  | none => fail .destination
  | some readings =>
      let hashed ← hashReadings readings []
      stopIf (Sha1.hex hashed != asset.checksumSha1) .destination

/-! ## Downloads -/

/-- The loop of `download_asset`: what was given to the digest, and the count of its bytes. -/
def copyDownload (asset : ArchiveAsset) (part : FilePath) :
    List (Except ClientError (List UInt8)) → List UInt8 → Nat → ArchiveProgram (List UInt8 × Nat)
  | [], hashed, byteLen => pure (hashed, byteLen)
  | .error error :: _, _, _ => fail (MigrationStaging.mapClientError error)
  | .ok chunk :: rest, hashed, byteLen => do
      let byteLen := byteLen + chunk.length
      -- `checked_add`
      stopIf (decide (maxU64 < byteLen)) .client
      stopIf (decide (asset.byteLen.toNat < byteLen)) .client
      perform (.write part chunk)
      copyDownload asset part rest (hashed ++ chunk) byteLen

/-- `download_asset`. -/
def downloadAsset (asset : ArchiveAsset) (part : FilePath) : ArchiveProgram Unit := do
  let answer ← (send (ArchiveCall.download asset.assetId) :
    ArchiveProgram (ArchiveAnswer (.download asset.assetId)))
  match (answer : Except ClientError Download) with
  | .error error => fail (MigrationStaging.mapClientError error)
  | .ok download =>
      stopIf (download.contentLength.any (· != asset.byteLen.toNat)) .client
      perform (.create part)
      let (hashed, byteLen) ← copyDownload asset part download.chunks [] 0
      perform (.sync part)
      stopIf (byteLen != asset.byteLen.toNat || Sha1.hex hashed != asset.checksumSha1) .client

/-! ## The run -/

/-- The report with which a run starts. -/
def ArchiveApplyReport.start (manifestSha256 : String) : ArchiveApplyReport :=
  { schemaVersion := archiveApplyReportSchemaVersion
    manifestSha256
    downloaded := 0
    alreadyComplete := 0
    bytesWritten := 0
    retries := 0 }

/-- An original which was already there is counted. -/
def ArchiveApplyReport.complete (report : ArchiveApplyReport) : ArchiveApplyReport :=
  { report with alreadyComplete := saturatingAddU64 report.alreadyComplete 1 }

/-- A download is counted. -/
def ArchiveApplyReport.download (report : ArchiveApplyReport) (byteLen : UInt64) :
    ArchiveApplyReport :=
  { report with
    downloaded := saturatingAddU64 report.downloaded 1
    bytesWritten := saturatingAddU64 report.bytesWritten byteLen.toNat }

/-- Download an original which is missing: the second half of the loop of `apply_archive`. -/
def materialize (destination final : FilePath) (asset : ArchiveAsset) : ArchiveProgram Unit := do
  ensureAssetDirectory destination asset.assetId
  let part ← ofResult ((partPath final).mapError .failed)
  removeStalePart part
  tryCatch (downloadAsset asset part) fun error => do
    removeCreatedPart part
    throw error
  let renamed ← treeStep (.rename part final)
  if renamed then
    pure ()
  else
    removeCreatedPart part
    fail .destination

/-- The loop of `apply_archive`. -/
def applyAssets (destination : FilePath) :
    List ArchiveAsset → ArchiveApplyReport → ArchiveProgram ArchiveApplyReport
  | [], report => pure report
  | asset :: rest, report => do
      ArchiveProgram.checkCancelled
      let final := finalPath destination asset
      let present ← pathExists final
      if present then
        verifyExisting final asset
        applyAssets destination rest report.complete
      else
        materialize destination final asset
        applyAssets destination rest (report.download asset.byteLen)

/-- The error of a manifest which is not valid; its validation may panic. -/
def refuseManifest : Stop ArchiveManifestValidationError → Stop ExecutorError :=
  Stop.map fun _ => .invalidPlan

/-- `apply_archive`. -/
def applyArchive (platform : Platform) (manifest : ArchiveManifest) (destination : FilePath)
    (negotiated : NegotiatedServer) : ArchiveProgram ArchiveApplyReport := do
  ofResult (manifest.validate.mapError refuseManifest)
  stopIf (negotiated.compatibility != manifest.server) .invalidPlan
  ensureDestination destination
  let report ← applyAssets destination manifest.assets
    (.start (compactSha256 platform manifest.serialize))
  ofResult ((report.validate manifest.summary.assets).mapError fun _ => .failed .invariant)
  return report

end ImmichRs
