import ImmichRs.Executor.ImportPlanner

/-!
# Folder upload plans

The conversion of a resolved folder scan into an immutable upload plan, and the native files which
planning and verification read.
-/

namespace ImmichRs

open Std (ExtTreeMap)

/-! ## Native files -/

/-- A directory entry, with its times in milliseconds since the epoch. -/
structure NativeFile where
  /-- A regular file which is no symbolic link. -/
  isRegular : Bool
  /-- The bytes which opening and reading it returns. -/
  content : List UInt8
  /-- Not every file system records a creation time. -/
  created : Option Int
  modified : Int
  deriving DecidableEq

/-- The entries of one state of the source, by native path. -/
abbrev NativeFiles : Type := String → Option NativeFile

/-- `unix_millis`. -/
def unixMillis (millis : Int) : Except ExecutorError Int :=
  if 0 ≤ millis ∧ millis < 2 ^ 63 then .ok millis else .error .sourceChanged

/-- `source_timestamps`. -/
def sourceTimestamps (files : NativeFiles) (path : String) (expectedLen : UInt64) :
    Except ExecutorError (Int × Int) :=
  match files path with
  | none => .error .sourceChanged
  | some file => do
      reject (!file.isRegular || decide (file.content.length ≠ expectedLen.toNat)) .sourceChanged
      let created ← unixMillis (file.created.getD file.modified)
      let modified ← unixMillis file.modified
      return (created, modified)

/-- `stream_content` of unchanging files, without its cancellation points. -/
def readContent (platform : Platform) (sha1Base64 : List UInt8 → String) (files : NativeFiles)
    (path : String) (expectedLen : UInt64) : Except ExecutorError StreamIdentity :=
  match files path with
  | none => .error .sourceChanged
  | some file => do
      reject (decide (file.content.length ≠ expectedLen.toNat)) .sourceChanged
      return { sha256 := platform.sha256 file.content, sha1Base64 := sha1Base64 file.content }

/-- `stream_identity` of unchanging files, without its cancellation points. -/
def readIdentity (platform : Platform) (sha1Base64 : List UInt8 → String) (files : NativeFiles)
    (path : String) (expectedLen : UInt64) (expectedCreated expectedModified : Int) :
    Except ExecutorError StreamIdentity := do
  let before ← sourceTimestamps files path expectedLen
  reject (before != (expectedCreated, expectedModified)) .sourceChanged
  let identity ← readContent platform sha1Base64 files path expectedLen
  let after ← sourceTimestamps files path expectedLen
  reject (after != before) .sourceChanged
  return identity

/-! ## Planning -/

/-- `plan_sidecar`. -/
def planSidecar (resolved : ResolvedFolderPlan) (asset : CandidateAsset) :
    Except ExecutorError (Option UploadSidecar) := do
  reject (decide (1 < asset.metadata.length) ||
    asset.metadata.any fun metadata => metadata.kind == .json) .unsupportedMetadata
  match asset.metadata.head? with
  | none => return none
  | some metadata =>
      let source ← requireSourceFile resolved metadata.relativePath .invariant
      return some
        { relativePath := metadata.relativePath
          byteLen := source.byteLen
          contentSha256 := source.contentSha256 }

/-- `summarize`. -/
def summarize (operations : List UploadOperation) : UploadPlanSummary :=
  { operations := operations.length
    mediaBytes := (operations.map UploadOperation.byteLen).sum
    xmpSidecars := operations.countP fun operation => operation.xmpSidecar.isSome
    livePhotoPairs := operations.countP fun operation => operation.role.isLivePhotoImage
    metadataUpdates := 0
    albumCreates := 0
    albumMemberships := 0
    maxMutations := 0 }

section

variable (platform : Platform) (files : NativeFiles)

/-- The operation planned for one asset.  `live_video_operations` and `upload_role` are the same
functions as those of the import planner. -/
def folderOperation (resolved : ResolvedFolderPlan) (videos : ExtTreeMap String String)
    (asset : CandidateAsset) : Except ExecutorError UploadOperation := do
  let source ← sourceFor resolved asset.relativePath asset.byteLen asset.contentSha256
  let timestamps ← sourceTimestamps files source.nativePath asset.byteLen
  let xmpSidecar ← planSidecar resolved asset
  let role ← uploadRole asset videos
  return { operationId := asset.operationId
           relativePath := asset.relativePath
           mediaKind := asset.mediaKind
           byteLen := asset.byteLen
           contentSha256 := asset.contentSha256
           createdAtUnixMs := timestamps.1
           modifiedAtUnixMs := timestamps.2
           xmpSidecar
           normalizedMetadata := none
           role }

/-- `create_upload_plan`. -/
def createUploadPlan (resolved : ResolvedFolderPlan) (server : ServerCompatibility)
    (config : UploadExecutionConfig) : Except ExecutorError UploadPlan := do
  config.validate
  Except.mapError (fun _ => ExecutorError.invalidPlan) (resolved.plan.validate platform)
  reject (!resolved.plan.errors.isEmpty) .sourceDiagnostics
  reject (server.version.major != 3 || server.version.minor != 1) .invalidPlan
  let operations ← resolved.plan.assets.mapM
    (folderOperation files resolved (liveVideoOperations resolved))
  let identity ← config.identitySha256 platform
  let plan : UploadPlan :=
    { schemaVersion := uploadPlanSchemaVersion
      normalizedPlanSha256 := compactSha256 platform resolved.plan.serialize
      source := resolved.plan.source
      configurationSha256 := identity
      server
      operations
      summary := summarize operations }
  requireValidPlan platform plan
  return plan

end

/-- The counters of a folder plan are those which its validator expects. -/
theorem summarize_eq (operations : List UploadOperation) :
    summarize operations = expectedSummary uploadPlanSchemaVersion operations := rfl

/-- A sidecar is planned from the scan. -/
theorem planSidecar_eq_ok {resolved : ResolvedFolderPlan} {asset : CandidateAsset}
    {planned : Option UploadSidecar} :
    planSidecar resolved asset = .ok planned ↔
      (∀ metadata ∈ asset.metadata, metadata.kind ≠ .json) ∧
        (asset.metadata = [] ∧ planned = none ∨
          ∃ metadata source, asset.metadata = [metadata] ∧
            resolved.sourceFile metadata.relativePath = some source ∧
            planned = some ⟨metadata.relativePath, source.byteLen, source.contentSha256⟩) := by
  rw [planSidecar, reject_bind_eq_ok]
  simp only [Bool.or_eq_false_iff, decide_eq_false_iff_not, List.any_eq_false, beq_iff_eq]
  rcases asset.metadata with _ | ⟨metadata, _ | ⟨second, rest⟩⟩
  · simp [pure, Except.pure, eq_comm]
  · simp only [List.length_singleton, lt_irrefl, not_false_eq_true, true_and, List.head?_cons,
      bind_eq_ok, requireSourceFile_eq_ok, List.mem_singleton, forall_eq, reduceCtorEq, false_and,
      List.cons.injEq, and_true, false_or]
    simp [pure, Except.pure, eq_comm]
  · simp

/-- When `create_upload_plan` succeeds. -/
structure CreatesFolderPlan (platform : Platform) (files : NativeFiles)
    (resolved : ResolvedFolderPlan) (server : ServerCompatibility)
    (config : UploadExecutionConfig) (plan : UploadPlan) : Prop where
  valid : resolved.plan.validate platform = .ok ()
  errors : resolved.plan.errors = []
  version : server.version.major = 3 ∧ server.version.minor = 1
  operations : resolved.plan.assets.mapM
    (folderOperation files resolved (liveVideoOperations resolved)) = .ok plan.operations
  identity : config.identitySha256 platform = .ok plan.configurationSha256
  created : plan =
    { schemaVersion := uploadPlanSchemaVersion
      normalizedPlanSha256 := compactSha256 platform resolved.plan.serialize
      source := resolved.plan.source
      configurationSha256 := plan.configurationSha256
      server
      operations := plan.operations
      summary := expectedSummary uploadPlanSchemaVersion plan.operations }
  accepted : plan.Accepted platform

theorem UploadExecutionConfig.validate_of_identitySha256 {platform : Platform}
    {config : UploadExecutionConfig} {identity : String}
    (bound : config.identitySha256 platform = .ok identity) : config.validate = .ok () := by
  rw [UploadExecutionConfig.identitySha256, bind_eq_ok] at bound
  obtain ⟨⟨⟩, valid, _⟩ := bound
  exact valid

/-- `create_upload_plan` succeeds in exactly these cases. -/
theorem createUploadPlan_ok_iff {platform : Platform} {files : NativeFiles}
    {resolved : ResolvedFolderPlan} {server : ServerCompatibility}
    {config : UploadExecutionConfig} {plan : UploadPlan} :
    createUploadPlan platform files resolved server config = .ok plan ↔
      CreatesFolderPlan platform files resolved server config plan := by
  constructor
  · intro created
    simp only [createUploadPlan, bind_eq_ok, pure, Except.pure, Except.ok.injEq] at created
    obtain ⟨⟨⟩, _, ⟨⟩, valid, ⟨⟩, errors, ⟨⟩, version, operations, planned, identity, bound, ⟨⟩,
      accepted, rfl⟩ := created
    rw [mapError_eq_ok] at valid
    rw [reject_eq_ok] at errors version
    simp only [Bool.or_eq_false_iff, bne_eq_false_iff_eq] at version
    exact
      { valid
        errors := by simpa using errors
        version
        operations := planned
        identity := bound
        created := rfl
        accepted := (requireValidPlan_eq_ok platform _).mp accepted }
  · intro creates
    simp only [createUploadPlan, bind_eq_ok, pure, Except.pure, Except.ok.injEq]
    refine ⟨(), UploadExecutionConfig.validate_of_identitySha256 creates.identity, (),
      mapError_eq_ok.mpr creates.valid, (), ?_, (), ?_, plan.operations, creates.operations,
      plan.configurationSha256, creates.identity, (), ?_, creates.created.symm⟩
    · simp [creates.errors]
    · simp [creates.version]
    · rw [requireValidPlan_eq_ok, summarize_eq, ← creates.created]
      exact creates.accepted

end ImmichRs
