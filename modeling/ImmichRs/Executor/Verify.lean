import ImmichRs.Executor.Calls

/-!
# Source verification

`verifySource` rescans the folder, compares the scan with the plan and reads every planned file
once.  The rescan and the two streaming reads are calls.
-/

namespace ImmichRs

open Interaction
open Std (ExtTreeMap)

/-- A pure step of a fallible executor. -/
def ofExcept {α : Type} (value : Except ExecutorError α) : FallibleExecutor α :=
  ExceptT.mk (.done value)

/-- `check_cancelled`. -/
def checkCancelled : FallibleExecutor Unit := ExceptT.mk do
  if ← isCancelled then return .error .cancelled else return .ok ()

/-- The error class of a failed rescan. -/
def scanFailure : ScanError → ExecutorError
  | .cancelled => .cancelled
  | _ => .sourceChanged

/-- `config.scan_resolved(..)` or `scan_folder_resolved(..)`, with its error classes. -/
def scanResolved (sourceLabel : String) : FallibleExecutor ResolvedFolderPlan :=
  ExceptT.mk (.request (Call.scanResolved sourceLabel) fun answer =>
    .done (Except.mapError scanFailure answer))

/-- `stream_identity`. -/
def streamIdentity (nativePath : String) (byteLen : UInt64)
    (createdAtUnixMs modifiedAtUnixMs : Int) : FallibleExecutor StreamIdentity :=
  ExceptT.mk (.request
    (Call.streamIdentity nativePath byteLen createdAtUnixMs modifiedAtUnixMs)
    fun answer => .done answer)

/-- `stream_content`. -/
def streamContent (nativePath : String) (byteLen : UInt64) : FallibleExecutor StreamIdentity :=
  ExceptT.mk (.request (Call.streamContent nativePath byteLen) fun answer => .done answer)

/-- `require_same_normalized_plan`. -/
def requireSameNormalizedPlan (platform : Platform) (plan : UploadPlan)
    (resolved : ResolvedFolderPlan) : Except ExecutorError Unit :=
  reject (compactSha256 platform resolved.plan.serialize != plan.normalizedPlanSha256 ||
    resolved.plan.source != plan.source) .sourceChanged

/-- `resolved.source_file(path).ok_or_else(..)`. -/
def requireSourceFile (resolved : ResolvedFolderPlan) (path : String) (error : ExecutorError) :
    Except ExecutorError ResolvedSourceFile :=
  match resolved.sourceFile path with
  | some source => .ok source
  | none => .error error

/-- `verify_sidecar`. -/
def verifySidecar (resolved : ResolvedFolderPlan) (operation : UploadOperation) :
    FallibleExecutor (Option (String × UInt64)) :=
  match operation.xmpSidecar with
  | none => return none
  | some expected => do
      let source ← ofExcept (requireSourceFile resolved expected.relativePath .sourceChanged)
      let identity ← streamContent source.nativePath expected.byteLen
      ofExcept (reject (identity.sha256 != expected.contentSha256) .sourceChanged)
      return some (source.nativePath, expected.byteLen)

/-- One iteration of the loop of `verify_source`. -/
def verifyOperation (resolved : ResolvedFolderPlan) (operation : UploadOperation) :
    FallibleExecutor VerifiedAsset := do
  checkCancelled
  let media ← ofExcept (requireSourceFile resolved operation.relativePath .sourceChanged)
  let identity ← streamIdentity media.nativePath operation.byteLen operation.createdAtUnixMs
    operation.modifiedAtUnixMs
  ofExcept (reject (identity.sha256 != operation.contentSha256) .sourceChanged)
  let xmp ← verifySidecar resolved operation
  return { mediaPath := media.nativePath, fileName := filename operation.relativePath
           sha1Base64 := identity.sha1Base64, xmp }

/-- The loop of `verify_source`. -/
def verifyOperations (resolved : ResolvedFolderPlan) :
    List UploadOperation → ExtTreeMap String VerifiedAsset →
      FallibleExecutor (ExtTreeMap String VerifiedAsset)
  | [], verified => return verified
  | operation :: rest, verified => do
      let asset ← verifyOperation resolved operation
      verifyOperations resolved rest (verified.insert operation.operationId asset)

/-- `plan.validate().map_err(..)`. -/
def requireValidPlan (platform : Platform) (plan : UploadPlan) : Except ExecutorError Unit :=
  match plan.validate platform with
  | .ok () => .ok ()
  | .error _ => .error .invalidPlan

/-- `verify_source`. -/
def verifySource (platform : Platform) (plan : UploadPlan) (config : UploadExecutionConfig) :
    FallibleExecutor (ExtTreeMap String VerifiedAsset) := do
  ofExcept (requireValidPlan platform plan)
  let identity ← ofExcept (config.identitySha256 platform)
  ofExcept (reject (plan.configurationSha256 != identity) .invalidPlan)
  let resolved ← scanResolved plan.source.label
  ofExcept (requireSameNormalizedPlan platform plan resolved)
  verifyOperations resolved plan.operations ∅

/-! ## Runs which succeed -/

/-- A run of a fallible executor over the given events returns the given value. -/
structure Returns {α : Type} (program : FallibleExecutor α) (events : List (Event Answer))
    (value : α) : Prop where
  execution : Execution arbitrary program.run () events (.done (.ok value)) ()

section

variable {α β : Type}

theorem returns_pure (value : α) : Returns (pure value) [] value :=
  ⟨.refl _ _⟩

theorem returns_ofExcept {value : Except ExecutorError α} {result : α}
    (returned : value = .ok result) : Returns (ofExcept value) [] result := by
  rw [returned]
  exact ⟨.refl _ _⟩

theorem returns_ask (call : Call) (answer : Answer call)
    (value : Answer call → Except ExecutorError α) {result : α}
    (returned : value answer = .ok result) :
    Returns (ExceptT.mk (.request call fun answer => .done (value answer))) [⟨call, answer⟩]
      result := by
  refine ⟨.head (show arbitrary () _ () from trivial) ?_⟩
  rw [returned]
  exact .refl _ _

theorem Returns.bind {program : FallibleExecutor α} {next : α → FallibleExecutor β}
    {first second : List (Event Answer)} {value : α} {result : β}
    (head : Returns program first value) (tail : Returns (next value) second result) :
    Returns (program >>= next) (first ++ second) result :=
  ⟨head.execution.exceptT_bind tail.execution⟩

/-- A program which cannot fail in front of a fallible one. -/
theorem returns_lift {program : Executor α} {next : α → FallibleExecutor β}
    {first second : List (Event Answer)} {value : α} {result : β}
    (head : Execution arbitrary program () first (.done value) ())
    (tail : Returns (next value) second result) :
    Returns ((liftM program : FallibleExecutor α) >>= next) (first ++ second) result := by
  have lifted : Returns (liftM program : FallibleExecutor α) (first ++ []) value :=
    ⟨head.bind (.refl _ _)⟩
  rw [List.append_nil] at lifted
  exact lifted.bind tail

theorem returns_checkCancelled : Returns checkCancelled [⟨.isCancelled, false⟩] () :=
  ⟨.head (show arbitrary () _ () from trivial) (.refl _ _)⟩

end

/-! ## Plans over files which hold their own names -/

/-- The upload of a file which holds its own name. -/
def namedOperation (digit : Char) (relativePath : String) (mediaKind : MediaKind)
    (role : UploadRole) (normalizedMetadata : Option NormalizedMetadata) : UploadOperation :=
  { sampleOperation digit relativePath mediaKind role normalizedMetadata with
    byteLen := UInt64.ofNat (byteLen relativePath)
    contentSha256 := sha256Hex (utf8Bytes relativePath) }

/-- The scanned file of such an upload. -/
def namedFile (sha1Base64 : String → String) (operation : UploadOperation) : ResolvedSourceFile :=
  { nativePath := operation.relativePath
    archiveIndex := none
    byteLen := operation.byteLen
    contentSha256 := operation.contentSha256
    contentSha1Base64 := sha1Base64 operation.relativePath
    createdAtUnixMs := some operation.createdAtUnixMs
    modifiedAtUnixMs := some operation.modifiedAtUnixMs }

/-- The scanned asset of such an upload. -/
def namedAsset (operation : UploadOperation) : CandidateAsset :=
  { operationId := operation.operationId
    relativePath := operation.relativePath
    mediaKind := operation.mediaKind
    byteLen := operation.byteLen
    contentSha256 := operation.contentSha256
    metadata := []
    normalizedMetadata := operation.normalizedMetadata
    livePhoto := match operation.role with
      | .standalone => none
      | .livePhotoVideo pairId => some { pairId, role := .video }
      | .livePhotoImage pairId _ => some { pairId, role := .image }
    evidence := [] }

/-- The scan of a folder of such files. -/
def namedResolved (kind : SourceKind) (operations : List UploadOperation)
    (sha1Base64 : String → String) : ResolvedFolderPlan :=
  { plan :=
      { schemaVersion := match kind with
          | .googleTakeout => normalizedPlanSchemaVersionV2
          | .applePhotos => normalizedPlanSchemaVersionV3
          | .picasa => normalizedPlanSchemaVersionV4
          | _ => normalizedPlanSchemaVersion
        source := (samplePlan kind operations).source
        assets := operations.map namedAsset
        warnings := []
        errors := []
        summary :=
          { assets := operations.length
            sidecars := 0
            bytesRead := (operations.map fun operation => operation.byteLen.toNat).sum } }
    files := ExtTreeMap.ofList (operations.map fun operation =>
      (operation.relativePath, namedFile sha1Base64 operation)) }

/-- The upload plan of such a scan. -/
def namedPlan (kind : SourceKind) (operations : List UploadOperation)
    (sha1Base64 : String → String) (configurationSha256 : String) : UploadPlan :=
  { samplePlan kind operations with
    normalizedPlanSha256 :=
      compactSha256 .reference (namedResolved kind operations sha1Base64).plan.serialize
    configurationSha256 }

theorem namedOperation_valid (platform : Platform) {digit : Char} {relativePath : String}
    (mediaKind : MediaKind) (role : UploadRole) (normalizedMetadata : Option NormalizedMetadata)
    (metadata : ∀ metadata ∈ normalizedMetadata, metadata.isValid platform = true)
    (length : UInt64.ofNat (byteLen relativePath) ≠ 0 := by decide)
    (hex : isAsciiHexdigit digit = true := by decide) (ascii : digit.utf8Size = 1 := by decide)
    (path : relativePath.isEmpty = false := by decide) :
    (namedOperation digit relativePath mediaKind role normalizedMetadata).Valid platform :=
  { sampleOperation_valid platform mediaKind role normalizedMetadata metadata hex ascii path with
    content := isSha256_of_isLowerSha256 (isLowerSha256_sha256Hex _)
    length }

theorem isSha256_compactSha256 (json : String) :
    isSha256 (compactSha256 .reference json) = true :=
  isSha256_of_isLowerSha256 (isLowerSha256_sha256Hex _)

/-- The identity of the default policy. -/
def defaultIdentity : String :=
  match UploadExecutionConfig.default.identitySha256 .reference with
  | .ok identity => identity
  | .error _ => ""

theorem defaultIdentity_eq :
    UploadExecutionConfig.default.identitySha256 .reference = .ok defaultIdentity := rfl

theorem isSha256_defaultIdentity : isSha256 defaultIdentity = true :=
  isSha256_compactSha256 _

/-- A named plan is accepted when the plan over its operations is. -/
theorem namedPlan_validate {kind : SourceKind} {operations : List UploadOperation}
    (sha1Base64 : String → String) {configurationSha256 : String}
    (accepted : (samplePlan kind operations).validate .reference = .ok ())
    (identity : isSha256 configurationSha256 = true) :
    (namedPlan kind operations sha1Base64 configurationSha256).validate .reference = .ok () := by
  have accepted := ((samplePlan kind operations).validate_ok_iff .reference).mp accepted
  apply (UploadPlan.validate_ok_iff .reference _).mpr
  exact accepted.rebind (isSha256_compactSha256 _) identity

/-- The scan of the files of an accepted plan is accepted. -/
theorem namedResolved_validate {kind : SourceKind} {operations : List UploadOperation}
    (sha1Base64 : String → String) (adapter : kind ≠ .immich)
    (accepted : (samplePlan kind operations).validate .reference = .ok ()) :
    (namedResolved kind operations sha1Base64).plan.validate .reference = .ok () := by
  have accepted := ((samplePlan kind operations).validate_ok_iff .reference).mp accepted
  have digest : ∀ value, isSha256 value = true → byteLen value = 64 := by
    intro value valid
    rw [isSha256, Bool.and_eq_true, beq_iff_eq] at valid
    exact valid.1
  refine (NormalizedPlan.validate_ok_iff .reference _).mpr
    { schema := ?_
      valid := ?_
      sorted := ?_
      unique := ?_
      assets := (List.length_map _).symm
      sidecars := ?_
      warnings := rfl
      errors := rfl }
  · cases kind <;> first | rfl | exact absurd rfl adapter
  · intro asset member
    obtain ⟨operation, listed, rfl⟩ := List.mem_map.mp member
    have valid := accepted.valid operation listed
    refine ⟨valid.path, digest _ valid.operationId, digest _ valid.content, by simp [namedAsset],
      by simp [namedAsset], fun schema => accepted.folderMetadata ?_ operation listed,
      valid.metadata⟩
    cases kind <;> first | rfl | exact absurd rfl adapter | cases schema
  · have sorted := accepted.sorted
    simpa [namedResolved, namedAsset, samplePlan, Function.comp_def] using sorted
  · have unique := accepted.unique
    simpa [namedResolved, namedAsset, samplePlan, Function.comp_def] using unique
  · simp [namedResolved, namedAsset, Function.comp_def]

theorem namedResolved_sourceFile (kind : SourceKind) {operations : List UploadOperation}
    (sha1Base64 : String → String)
    (sorted : (operations.map UploadOperation.relativePath).Pairwise (· < ·))
    {operation : UploadOperation} (member : operation ∈ operations) :
    (namedResolved kind operations sha1Base64).sourceFile operation.relativePath =
      some (namedFile sha1Base64 operation) := by
  refine ExtTreeMap.getElem?_ofList_of_mem (k := operation.relativePath) Std.ReflCmp.compare_self ?_
    (List.mem_map.mpr ⟨operation, member, rfl⟩)
  rw [List.pairwise_map]
  refine (List.pairwise_map.mp sorted).imp fun less equal => ?_
  exact ne_of_lt less (Std.LawfulEqCmp.eq_of_compare equal)

/-- The events in which one operation is verified against its file. -/
def namedChecks (sha1Base64 : String → String) (operation : UploadOperation) :
    List (Event Answer) :=
  [⟨.isCancelled, false⟩,
    ⟨.streamIdentity (namedFile sha1Base64 operation).nativePath operation.byteLen
      operation.createdAtUnixMs operation.modifiedAtUnixMs,
      .ok ⟨operation.contentSha256, sha1Base64 operation.relativePath⟩⟩]

/-- A read of a file which holds its own name confirms the operation. -/
theorem returns_verifyOperation (kind : SourceKind) {operations : List UploadOperation}
    (sha1Base64 : String → String)
    (sorted : (operations.map UploadOperation.relativePath).Pairwise (· < ·))
    {operation : UploadOperation} (member : operation ∈ operations)
    (plain : operation.xmpSidecar = none) :
    ∃ asset, Returns (verifyOperation (namedResolved kind operations sha1Base64) operation)
      (namedChecks sha1Base64 operation) asset := by
  have found := namedResolved_sourceFile kind sha1Base64 sorted member
  refine ⟨{ mediaPath := operation.relativePath, fileName := filename operation.relativePath
            sha1Base64 := sha1Base64 operation.relativePath, xmp := none }, ?_⟩
  refine returns_checkCancelled.bind ?_
  refine (returns_ofExcept (show requireSourceFile _ _ _ = _ by rw [requireSourceFile, found])).bind ?_
  refine (returns_ask (.streamIdentity _ _ _ _) (.ok _) _ rfl).bind ?_
  refine (returns_ofExcept ((reject_eq_ok _ _).mpr (bne_self_eq_false _))).bind ?_
  rw [verifySidecar, plain]
  exact (returns_pure _).bind (returns_pure _)

theorem returns_verifyOperations (kind : SourceKind) {operations : List UploadOperation}
    (sha1Base64 : String → String)
    (sorted : (operations.map UploadOperation.relativePath).Pairwise (· < ·))
    (plain : ∀ operation ∈ operations, operation.xmpSidecar = none)
    {remaining : List UploadOperation} (listed : remaining ⊆ operations)
    (verified : ExtTreeMap String VerifiedAsset) :
    ∃ result, Returns
      (verifyOperations (namedResolved kind operations sha1Base64) remaining verified)
      (remaining.flatMap (namedChecks sha1Base64)) result := by
  induction remaining generalizing verified with
  | nil => exact ⟨verified, returns_pure verified⟩
  | cons operation rest induction =>
      have member := listed List.mem_cons_self
      obtain ⟨asset, head⟩ := returns_verifyOperation kind sha1Base64 sorted member
        (plain operation member)
      obtain ⟨result, tail⟩ := induction (fun other later => listed (.tail _ later))
        (verified.insert operation.operationId asset)
      exact ⟨result, head.bind tail⟩

/-- The unchanged source of an accepted named plan passes `verify_source`. -/
theorem returns_verifySource (operations : List UploadOperation) (sha1Base64 : String → String)
    (config : UploadExecutionConfig) (identity : String)
    (accepted : (namedPlan .folder operations sha1Base64 identity).validate .reference = .ok ())
    (bound : config.identitySha256 .reference = .ok identity)
    (plain : ∀ operation ∈ operations, operation.xmpSidecar = none) :
    ∃ verified, Returns
      (verifySource .reference (namedPlan .folder operations sha1Base64 identity) config)
      (⟨.scanResolved (namedPlan .folder operations sha1Base64 identity).source.label,
        .ok (namedResolved .folder operations sha1Base64)⟩ ::
          operations.flatMap (namedChecks sha1Base64)) verified := by
  have sorted := ((UploadPlan.validate_ok_iff .reference _).mp accepted).sorted
  obtain ⟨verified, checked⟩ := returns_verifyOperations .folder sha1Base64 sorted plain
    (List.Subset.refl operations) ∅
  refine ⟨verified, ?_⟩
  refine (returns_ofExcept (show requireValidPlan _ _ = _ by
    rw [requireValidPlan, accepted])).bind ?_
  refine (returns_ofExcept bound).bind ?_
  refine (returns_ofExcept ((reject_eq_ok _ _).mpr (bne_self_eq_false _))).bind ?_
  refine (returns_ask (.scanResolved _) (.ok _) _ rfl).bind ?_
  refine (returns_ofExcept ((reject_eq_ok _ _).mpr ?_)).bind checked
  exact Bool.or_eq_false_iff.mpr ⟨bne_self_eq_false _, bne_self_eq_false _⟩

end ImmichRs
