import ImmichRs.Executor.Verify

/-!
# Import plans

The scan and execution identity of the three import adapters, and the conversion of a resolved scan
into an immutable import plan.
-/

namespace ImmichRs

open Std (ExtTreeMap)

/-- The configuration of one import: a source adapter with its limits, and the upload policy. -/
inductive ImportConfig
  | takeout (source : TakeoutScanConfig) (upload : UploadExecutionConfig)
  | applePhotos (source : ApplePhotosScanConfig) (upload : UploadExecutionConfig)
  | picasa (source : PicasaScanConfig) (upload : UploadExecutionConfig)

namespace ImportConfig

/-- `ImportConfig::upload`. -/
def upload : ImportConfig → UploadExecutionConfig
  | .takeout _ upload | .applePhotos _ upload | .picasa _ upload => upload

/-- `ImportConfig::source_kind`. -/
def sourceKind : ImportConfig → SourceKind
  | .takeout _ _ => .googleTakeout
  | .applePhotos _ _ => .applePhotos
  | .picasa _ _ => .picasa

/-- The limits of the folder scan inside the source adapter. -/
def scan : ImportConfig → FolderScanConfig
  | .takeout source _ => source.scan
  | .applePhotos source _ => source.scan
  | .picasa source _ => source.scan

/-- `source.validate()`. -/
def validateSource : ImportConfig → Except ScanError Unit
  | .takeout source _ => source.validate
  | .applePhotos source _ => source.validate
  | .picasa source _ => source.validate

/-- `ImportConfig::validate_import`. -/
def validateImport (config : ImportConfig) : Except ExecutorError Unit := do
  config.upload.validate
  Except.mapError (fun _ => ExecutorError.invalidConfiguration) config.validateSource
  reject (config.scan != config.upload.scan) .invalidConfiguration

/-- `album_mode_name`. -/
def albumModeName : AlbumMode → String
  | .none => "none"
  | .folder => "folder"
  | .path => "path"

/-- The members of the identity which describe the source adapter. -/
def sourceIdentity : ImportConfig → List (String × String)
  | .takeout source _ =>
      [("max_archives", toString source.maxArchives),
        ("max_archive_entry_bytes", toString source.maxArchiveEntryBytes),
        ("max_compression_ratio", toString source.maxCompressionRatio),
        ("compression_ratio_grace_bytes", toString source.compressionRatioGraceBytes)]
  | .applePhotos source _ =>
      [("max_archives", toString source.maxArchives),
        ("max_archive_entry_bytes", toString source.maxArchiveEntryBytes),
        ("max_compression_ratio", toString source.maxCompressionRatio),
        ("compression_ratio_grace_bytes", toString source.compressionRatioGraceBytes),
        ("album_mode", jsonString (albumModeName source.albumMode)),
        ("album_path_joiner", jsonString source.albumPathJoiner)]
  | .picasa source _ =>
      [("max_archives", toString source.maxArchives),
        ("max_archive_entry_bytes", toString source.maxArchiveEntryBytes),
        ("max_compression_ratio", toString source.maxCompressionRatio),
        ("compression_ratio_grace_bytes", toString source.compressionRatioGraceBytes),
        ("album_mode", jsonString (albumModeName source.albumMode)),
        ("album_path_joiner", jsonString source.albumPathJoiner),
        ("picasa_albums", jsonBool source.picasaAlbums),
        ("filename_date", jsonBool source.filenameDate)]

/-- `ImportConfig::identity`. -/
def identity (platform : Platform) (config : ImportConfig) : Except ExecutorError String := do
  config.validateImport
  let uploadSha256 ← config.upload.identitySha256 platform
  return compactSha256 platform
    (jsonObject (("upload_sha256", jsonString uploadSha256) :: config.sourceIdentity))

end ImportConfig

section

variable (platform : Platform)

/-- `source_for`. -/
def sourceFor (resolved : ResolvedFolderPlan) (path : String) (byteLen : UInt64)
    (contentSha256 : String) : Except ExecutorError ResolvedSourceFile := do
  let source ← requireSourceFile resolved path .invariant
  reject (source.byteLen != byteLen || source.contentSha256 != contentSha256) .invariant
  return source

/-- `FALLBACK_TIMESTAMP_UNIX_MS`. -/
def fallbackTimestampUnixMs : Int := 0

/-- `i64::try_from(instant.unix_timestamp_nanos() / 1_000_000)`. -/
def timestampMillis (nanos : Int) : Except ExecutorError Int :=
  let millis := nanos.tdiv 1000000
  if -(2 ^ 63) ≤ millis ∧ millis < 2 ^ 63 then .ok millis else .error .invalidPlan

/-- `import_timestamps`. -/
def importTimestamps (asset : CandidateAsset) (source : ResolvedSourceFile)
    (sourceKind : SourceKind) : Except ExecutorError (Int × Int) :=
  match asset.normalizedMetadata.bind NormalizedMetadata.takenAtUtc with
  | some value =>
      match platform.parseRfc3339 value with
      | none => .error .invalidPlan
      | some instant => do
          let millis ← timestampMillis (platform.unixTimestampNanos instant)
          return (millis, millis)
  | none =>
      if sourceKind = .applePhotos ∨ sourceKind = .picasa then
        let created :=
          (source.createdAtUnixMs.or source.modifiedAtUnixMs).getD fallbackTimestampUnixMs
        .ok (created, source.modifiedAtUnixMs.getD created)
      else
        .ok (fallbackTimestampUnixMs, fallbackTimestampUnixMs)

/-- `xmp_sidecar`. -/
def xmpSidecar (resolved : ResolvedFolderPlan) (asset : CandidateAsset) :
    Except ExecutorError (Option UploadSidecar) :=
  match asset.metadata.filter fun metadata => metadata.kind == .xmp with
  | [] => .ok none
  | [metadata] => do
      let source ← requireSourceFile resolved metadata.relativePath .invariant
      return some
        { relativePath := metadata.relativePath
          byteLen := source.byteLen
          contentSha256 := source.contentSha256 }
  | _ => .error .unsupportedMetadata

/-- `live_video_operations`: the last video of each pair. -/
def liveVideoOperations (resolved : ResolvedFolderPlan) : ExtTreeMap String String :=
  resolved.plan.assets.foldl (fun videos asset =>
    match asset.livePhoto with
    | some { pairId, role := .video } => videos.insert pairId asset.operationId
    | _ => videos) ∅

/-- `upload_role`. -/
def uploadRole (asset : CandidateAsset) (videos : ExtTreeMap String String) :
    Except ExecutorError UploadRole :=
  match asset.livePhoto with
  | none => .ok .standalone
  | some { pairId, role := .video } => .ok (.livePhotoVideo pairId)
  | some { pairId, role := .image } =>
      match videos[pairId]? with
      | some videoOperationId => .ok (.livePhotoImage pairId videoOperationId)
      | none => .error .invalidPlan

/-- The operation planned for one asset. -/
def importOperation (resolved : ResolvedFolderPlan) (sourceKind : SourceKind)
    (videos : ExtTreeMap String String) (asset : CandidateAsset) :
    Except ExecutorError UploadOperation := do
  let source ← sourceFor resolved asset.relativePath asset.byteLen asset.contentSha256
  let timestamps ← importTimestamps platform asset source sourceKind
  let xmpSidecar ← xmpSidecar resolved asset
  let role ← uploadRole asset videos
  return { operationId := asset.operationId
           relativePath := asset.relativePath
           mediaKind := asset.mediaKind
           byteLen := asset.byteLen
           contentSha256 := asset.contentSha256
           createdAtUnixMs := timestamps.1
           modifiedAtUnixMs := timestamps.2
           xmpSidecar
           normalizedMetadata := asset.normalizedMetadata
           role }

/-- `create_import_upload_plan`. -/
def createImportUploadPlan (resolved : ResolvedFolderPlan) (server : ServerCompatibility)
    (config : ImportConfig) : Except ExecutorError UploadPlan := do
  config.validateImport
  Except.mapError (fun _ => ExecutorError.invalidPlan) (resolved.plan.validate platform)
  reject (!resolved.plan.errors.isEmpty || resolved.plan.source.kind != config.sourceKind ||
    server.version.major != 3 || server.version.minor != 1) .invalidPlan
  let operations ← resolved.plan.assets.mapM
    (importOperation platform resolved config.sourceKind (liveVideoOperations resolved))
  let identity ← config.identity platform
  let plan : UploadPlan :=
    { schemaVersion := uploadPlanSchemaVersionV2
      normalizedPlanSha256 := compactSha256 platform resolved.plan.serialize
      source := resolved.plan.source
      configurationSha256 := identity
      server
      operations
      summary := expectedSummary uploadPlanSchemaVersionV2 operations }
  requireValidPlan platform plan
  return plan

end

/-- A created plan is accepted and bound to its scan, its configuration and its server. -/
structure CreatedFrom (platform : Platform) (resolved : ResolvedFolderPlan)
    (server : ServerCompatibility) (config : ImportConfig) (plan : UploadPlan) : Prop where
  accepted : plan.Accepted platform
  schema : plan.schemaVersion = uploadPlanSchemaVersionV2
  valid : config.validateImport = .ok ()
  identity : config.identity platform = .ok plan.configurationSha256
  source : resolved.plan.source = plan.source ∧ plan.source.kind = config.sourceKind
  operations : resolved.plan.assets.mapM
      (importOperation platform resolved config.sourceKind (liveVideoOperations resolved)) =
    .ok plan.operations
  server_eq : plan.server = server

theorem requireSourceFile_eq_ok {resolved : ResolvedFolderPlan} {path : String}
    {error : ExecutorError} {source : ResolvedSourceFile} :
    requireSourceFile resolved path error = .ok source ↔ resolved.sourceFile path = some source := by
  rw [requireSourceFile]
  split <;> simp_all

theorem requireValidPlan_eq_ok (platform : Platform) (plan : UploadPlan) :
    requireValidPlan platform plan = .ok () ↔ plan.Accepted platform := by
  rw [← plan.validate_ok_iff platform, requireValidPlan]
  split <;> simp_all

theorem createImportUploadPlan_ok {platform : Platform} {resolved : ResolvedFolderPlan}
    {server : ServerCompatibility} {config : ImportConfig} {plan : UploadPlan}
    (created : createImportUploadPlan platform resolved server config = .ok plan) :
    CreatedFrom platform resolved server config plan := by
  simp only [createImportUploadPlan, bind_eq_ok, pure, Except.pure, Except.ok.injEq] at created
  obtain ⟨⟨⟩, valid, ⟨⟩, _, ⟨⟩, checked, operations, planned, identity, bound, ⟨⟩, accepted,
    rfl⟩ := created
  rw [reject_eq_ok] at checked
  simp only [Bool.or_eq_false_iff, bne_eq_false_iff_eq] at checked
  exact
    { accepted := (requireValidPlan_eq_ok platform _).mp accepted
      schema := rfl
      valid
      identity := bound
      source := ⟨rfl, checked.1.1.2⟩
      operations := planned
      server_eq := rfl }

/-! ## Plans over files which hold their own names -/

/-- An upload of a file alone, without a capture time. -/
structure UploadOperation.Bare (operation : UploadOperation) : Prop where
  sidecar : operation.xmpSidecar = none
  created : operation.createdAtUnixMs = 0
  modified : operation.modifiedAtUnixMs = 0
  untimed : operation.normalizedMetadata.bind NormalizedMetadata.takenAtUtc = none
  standalone : operation.role = .standalone

theorem importOperation_named (kind sourceKind : SourceKind) {operations : List UploadOperation}
    (sha1Base64 : String → String) (videos : ExtTreeMap String String)
    (sorted : (operations.map UploadOperation.relativePath).Pairwise (· < ·))
    {operation : UploadOperation} (member : operation ∈ operations) (bare : operation.Bare) :
    importOperation .reference (namedResolved kind operations sha1Base64) sourceKind videos
      (namedAsset operation) = .ok operation := by
  have found := namedResolved_sourceFile kind sha1Base64 sorted member
  have source : sourceFor (namedResolved kind operations sha1Base64) operation.relativePath
      operation.byteLen operation.contentSha256 = .ok (namedFile sha1Base64 operation) := by
    rw [sourceFor, requireSourceFile, found]
    simp [namedFile, reject, bind, Except.bind, pure, Except.pure]
  have timestamps : importTimestamps .reference (namedAsset operation)
      (namedFile sha1Base64 operation) sourceKind = .ok (0, 0) := by
    have untimed : (namedAsset operation).normalizedMetadata.bind NormalizedMetadata.takenAtUtc =
        none := bare.untimed
    rw [importTimestamps, untimed]
    simp [namedFile, bare.created, bare.modified, fallbackTimestampUnixMs]
  have role : uploadRole (namedAsset operation) videos = .ok .standalone := by
    rw [uploadRole, namedAsset, bare.standalone]
  have sidecar : xmpSidecar (namedResolved kind operations sha1Base64) (namedAsset operation) =
      .ok none := rfl
  simp only [importOperation, bind_eq_ok]
  refine ⟨_, source, _, timestamps, _, sidecar, _, role, congrArg Except.ok ?_⟩
  obtain ⟨_, _, _, _, _, _, _, _, _, _⟩ := operation
  obtain ⟨rfl, rfl, rfl, _, rfl⟩ := bare
  rfl

/-- Planning the scan of such files gives back the uploads it was made from. -/
theorem createImportUploadPlan_named {kind : SourceKind} {operations : List UploadOperation}
    (sha1Base64 : String → String) {config : ImportConfig} {identity : String}
    (adapter : config.sourceKind = kind) (valid : config.validateImport = .ok ())
    (bound : config.identity .reference = .ok identity)
    (scanned : (namedResolved kind operations sha1Base64).plan.validate .reference = .ok ())
    (accepted : (namedPlan kind operations sha1Base64 identity).validate .reference = .ok ())
    (bare : ∀ operation ∈ operations, operation.Bare) :
    createImportUploadPlan .reference (namedResolved kind operations sha1Base64)
      (samplePlan kind operations).server config =
        .ok (namedPlan kind operations sha1Base64 identity) := by
  have sorted : (operations.map UploadOperation.relativePath).Pairwise (· < ·) :=
    ((UploadPlan.validate_ok_iff .reference _).mp accepted).sorted
  have planned : ∀ remaining ⊆ operations, (remaining.map namedAsset).mapM
      (importOperation .reference (namedResolved kind operations sha1Base64) config.sourceKind
        (liveVideoOperations (namedResolved kind operations sha1Base64))) = .ok remaining := by
    intro remaining listed
    induction remaining with
    | nil => rfl
    | cons operation rest induction =>
        obtain ⟨member, tail⟩ := List.cons_subset.mp listed
        rw [List.map_cons, List.mapM_cons,
          importOperation_named kind config.sourceKind sha1Base64 _ sorted member (bare _ member),
          induction tail]
        rfl
  -- The adapters differ from a folder, so the plan is of the second version.
  have same : namedPlan kind operations sha1Base64 identity =
      { schemaVersion := uploadPlanSchemaVersionV2
        normalizedPlanSha256 :=
          compactSha256 .reference (namedResolved kind operations sha1Base64).plan.serialize
        source := (namedResolved kind operations sha1Base64).plan.source
        configurationSha256 := identity
        server := (samplePlan kind operations).server
        operations
        summary := expectedSummary uploadPlanSchemaVersionV2 operations } := by
    subst adapter
    cases config <;> rfl
  simp only [createImportUploadPlan, bind_eq_ok]
  refine ⟨(), valid, (), by rw [scanned]; rfl, (), ?_, operations,
    planned operations (List.Subset.refl _), identity, bound, (), ?_, congrArg Except.ok same.symm⟩
  · rw [reject_eq_ok, adapter]
    simp [namedResolved, samplePlan]
  · rw [← same, requireValidPlan_eq_ok, ← UploadPlan.validate_ok_iff]
    exact accepted

end ImmichRs
