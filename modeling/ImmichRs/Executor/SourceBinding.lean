import ImmichRs.Executor.Planner

/-!
# Binding of a folder plan to its source

What `verify_source` checks of a plan against one state of the source, compared with planning the
same rescan again.
-/

namespace ImmichRs

open Interaction
open Std (ExtTreeMap)

/-! ## Executors which succeed -/

section

variable {α β : Type} {environment : Environment Answer Unit}

/-- Some run of a fallible executor returns a value which satisfies `post`. -/
def Succeeds (environment : Environment Answer Unit) (program : FallibleExecutor α)
    (post : α → Prop) : Prop :=
  program.run.Reaches environment () fun _ outcome _ => ∃ value, outcome = .ok value ∧ post value

theorem succeeds_bind (program : FallibleExecutor α) (next : α → FallibleExecutor β)
    (post : β → Prop) :
    Succeeds environment (program >>= next) post ↔
      Succeeds environment program fun value => Succeeds environment (next value) post := by
  rw [Succeeds, ExceptT.run_bind, Program.bind_eq, Program.reaches_bind]
  constructor
  · intro reaches
    apply reaches.mono
    intro events outcome world reached
    cases outcome with
    | error error =>
        obtain ⟨value, failed, _⟩ := reached
        cases failed
    | ok value => exact ⟨value, rfl, reached.mono fun _ _ _ => id⟩
  · intro reaches
    apply reaches.mono
    intro events outcome world reached
    obtain ⟨value, rfl, rest⟩ := reached
    exact rest.mono fun _ _ _ => id

@[simp] theorem succeeds_pure (value : α) (post : α → Prop) :
    Succeeds environment (pure value) post ↔ post value := by
  constructor
  · rintro ⟨_, same, holds⟩
    exact Except.ok.inj same ▸ holds
  · intro holds
    exact ⟨value, rfl, holds⟩

@[simp] theorem succeeds_ofExcept (result : Except ExecutorError α) (post : α → Prop) :
    Succeeds environment (ofExcept result) post ↔ ∃ value, result = .ok value ∧ post value :=
  Iff.rfl

end

/-- A condition on no value can be checked beside a program. -/
theorem succeeds_and {α : Type} {environment : Environment Answer Unit}
    (program : FallibleExecutor α) (condition : Prop) :
    Succeeds environment program (fun _ => condition) ↔
      Succeeds environment program (fun _ => True) ∧ condition := by
  constructor
  · intro succeeds
    refine ⟨succeeds.mono fun _ _ _ found => ?_, ?_⟩
    · obtain ⟨value, returned, _⟩ := found
      exact ⟨value, returned, trivial⟩
    · obtain ⟨_, _, _, _, _, _, holds⟩ := succeeds.execution
      exact holds
  · rintro ⟨succeeds, holds⟩
    apply succeeds.mono
    rintro _ _ _ ⟨value, returned, _⟩
    exact ⟨value, returned, holds⟩

@[simp] theorem succeeds_reject {environment : Environment Answer Unit} (condition : Bool)
    (error : ExecutorError) (post : Unit → Prop) :
    Succeeds environment (ofExcept (reject condition error)) post ↔
      condition = false ∧ post () := by
  rw [succeeds_ofExcept]
  constructor
  · rintro ⟨⟨⟩, passed, holds⟩
    exact ⟨(reject_eq_ok _ _).mp passed, holds⟩
  · rintro ⟨passed, holds⟩
    exact ⟨(), (reject_eq_ok _ _).mpr passed, holds⟩

/-! ## One state of the source -/

/-- A state of the source with the scan of it. -/
structure Rescan (platform : Platform) where
  files : NativeFiles
  /-- The SHA-1 digest of a content. -/
  sha1Base64 : List UInt8 → String
  resolved : ResolvedFolderPlan
  /-- A scan is returned after its plan was validated. -/
  valid : resolved.plan.validate platform = .ok ()
  folder : resolved.plan.source.kind = .folder
  /-- The recorded length and digest of a file are those of its content. -/
  recorded : ∀ path source, resolved.sourceFile path = some source →
    ∃ file, files source.nativePath = some file ∧
      file.content.length = source.byteLen.toNat ∧
      platform.sha256 file.content = source.contentSha256
  /-- Every asset is a recorded file. -/
  assets : ∀ asset ∈ resolved.plan.assets, ∀ source,
    resolved.sourceFile asset.relativePath = some source →
      source.byteLen = asset.byteLen ∧ source.contentSha256 = asset.contentSha256

section

variable {platform : Platform} (rescan : Rescan platform)

/-- Rescanning and reading an unchanging source, where a read may also be cancelled. -/
def sourceEnvironment : Environment Answer Unit
  | _, ⟨.scanResolved _, answer⟩, _ => answer = .ok rescan.resolved ∨ ∃ error, answer = .error error
  | _, ⟨.streamIdentity path expectedLen created modified, answer⟩, _ =>
      answer = readIdentity platform rescan.sha1Base64 rescan.files path expectedLen created
          modified ∨
        answer = .error .cancelled
  | _, ⟨.streamContent path expectedLen, answer⟩, _ =>
      answer = readContent platform rescan.sha1Base64 rescan.files path expectedLen ∨
        answer = .error .cancelled
  | _, _, _ => True

/-- Some run of `verify_source` over this source accepts the plan. -/
def VerifySourceAccepts (plan : UploadPlan) (config : UploadExecutionConfig) : Prop :=
  ∃ events verified, Execution (sourceEnvironment rescan) (verifySource platform plan config).run ()
    events (.done (.ok verified)) ()

theorem succeeds_checkCancelled (post : Unit → Prop) :
    Succeeds (sourceEnvironment rescan) checkCancelled post ↔ post () := by
  constructor
  · rintro ⟨cancelled, _, _, reached⟩
    cases cancelled with
    | true =>
        obtain ⟨_, failed, _⟩ := reached
        cases failed
    | false =>
        obtain ⟨_, _, holds⟩ := reached
        exact holds
  · intro holds
    exact ⟨false, (), trivial, (), rfl, holds⟩

theorem succeeds_scanResolved (label : String) (post : ResolvedFolderPlan → Prop) :
    Succeeds (sourceEnvironment rescan) (scanResolved label) post ↔ post rescan.resolved := by
  constructor
  · rintro ⟨answer, _, scanned, value, returned, holds⟩
    obtain rfl | ⟨error, rfl⟩ := scanned
    · exact Except.ok.inj returned ▸ holds
    · cases returned
  · intro holds
    exact ⟨.ok rescan.resolved, (), .inl rfl, _, rfl, holds⟩

theorem succeeds_streamIdentity (path : String) (expectedLen : UInt64) (created modified : Int)
    (post : StreamIdentity → Prop) :
    Succeeds (sourceEnvironment rescan) (streamIdentity path expectedLen created modified) post ↔
      ∃ identity, readIdentity platform rescan.sha1Base64 rescan.files path expectedLen created
        modified = .ok identity ∧ post identity := by
  constructor
  · rintro ⟨answer, _, read, value, rfl, holds⟩
    obtain read | failed := read
    · exact ⟨value, read.symm, holds⟩
    · cases failed
  · rintro ⟨identity, read, holds⟩
    exact ⟨.ok identity, (), .inl read.symm, identity, rfl, holds⟩

theorem succeeds_streamContent (path : String) (expectedLen : UInt64)
    (post : StreamIdentity → Prop) :
    Succeeds (sourceEnvironment rescan) (streamContent path expectedLen) post ↔
      ∃ identity, readContent platform rescan.sha1Base64 rescan.files path expectedLen =
        .ok identity ∧ post identity := by
  constructor
  · rintro ⟨answer, _, read, value, rfl, holds⟩
    obtain read | failed := read
    · exact ⟨value, read.symm, holds⟩
    · cases failed
  · rintro ⟨identity, read, holds⟩
    exact ⟨.ok identity, (), .inl read.symm, identity, rfl, holds⟩

/-! ## What `verify_source` checks -/

/-- The file which an operation or a sidecar names, read from the source. -/
structure FileChecked (path : String) (byteLen : UInt64) (contentSha256 : String)
    (source : ResolvedSourceFile) (file : NativeFile) : Prop where
  scanned : rescan.resolved.sourceFile path = some source
  found : rescan.files source.nativePath = some file
  length : file.content.length = byteLen.toNat
  digest : platform.sha256 file.content = contentSha256

/-- The checks on one operation. -/
structure OperationChecked (operation : UploadOperation) : Prop where
  media : ∃ source file, FileChecked rescan operation.relativePath operation.byteLen
      operation.contentSha256 source file ∧
    sourceTimestamps rescan.files source.nativePath operation.byteLen =
      .ok (operation.createdAtUnixMs, operation.modifiedAtUnixMs)
  sidecar : ∀ sidecar ∈ operation.xmpSidecar, ∃ source file,
    FileChecked rescan sidecar.relativePath sidecar.byteLen sidecar.contentSha256 source file

/-- The checks on a plan.  Each operation is checked by itself. -/
structure PlanChecked (plan : UploadPlan) (config : UploadExecutionConfig) : Prop where
  accepted : plan.Accepted platform
  identity : config.identitySha256 platform = .ok plan.configurationSha256
  normalized : compactSha256 platform rescan.resolved.plan.serialize = plan.normalizedPlanSha256
  source : rescan.resolved.plan.source = plan.source
  operations : ∀ operation ∈ plan.operations, OperationChecked rescan operation

theorem readContent_eq_ok {sha1Base64 : List UInt8 → String} {files : NativeFiles}
    {path : String} {expectedLen : UInt64} {identity : StreamIdentity} :
    readContent platform sha1Base64 files path expectedLen = .ok identity ↔
      ∃ file, files path = some file ∧ file.content.length = expectedLen.toNat ∧
        identity = ⟨platform.sha256 file.content, sha1Base64 file.content⟩ := by
  cases found : files path with
  | none => simp [readContent, found]
  | some file =>
      simp only [readContent, found, reject_bind_eq_ok, decide_eq_false_iff_not, not_not]
      simp [pure, Except.pure, eq_comm]

theorem readIdentity_eq_ok {sha1Base64 : List UInt8 → String} {files : NativeFiles}
    {path : String} {expectedLen : UInt64} {created modified : Int} {identity : StreamIdentity} :
    readIdentity platform sha1Base64 files path expectedLen created modified = .ok identity ↔
      sourceTimestamps files path expectedLen = .ok (created, modified) ∧
        readContent platform sha1Base64 files path expectedLen = .ok identity := by
  constructor
  · intro read
    simp only [readIdentity, bind_eq_ok] at read
    obtain ⟨before, stamped, ⟨⟩, same, read, content, _, _, ⟨⟩, _, returned⟩ := read
    rw [reject_eq_ok, bne_eq_false_iff_eq] at same
    obtain rfl := Except.ok.inj returned
    exact ⟨same ▸ stamped, content⟩
  · rintro ⟨stamped, content⟩
    simp [readIdentity, stamped, content, reject, bind, Except.bind, pure, Except.pure]

theorem succeeds_requireSourceFile (path : String) (error : ExecutorError)
    (post : ResolvedSourceFile → Prop) :
    Succeeds (sourceEnvironment rescan)
        (ofExcept (requireSourceFile rescan.resolved path error)) post ↔
      ∃ source, rescan.resolved.sourceFile path = some source ∧ post source := by
  simp only [succeeds_ofExcept, requireSourceFile_eq_ok]

theorem succeeds_verifySidecar (operation : UploadOperation)
    (post : Option (String × UInt64) → Prop) :
    Succeeds (sourceEnvironment rescan) (verifySidecar rescan.resolved operation) post ↔
      (operation.xmpSidecar = none ∧ post none) ∨
        ∃ sidecar source file, operation.xmpSidecar = some sidecar ∧
          FileChecked rescan sidecar.relativePath sidecar.byteLen sidecar.contentSha256 source
            file ∧
          post (some (source.nativePath, sidecar.byteLen)) := by
  cases planned : operation.xmpSidecar with
  | none => simp [verifySidecar, planned]
  | some sidecar =>
      simp only [verifySidecar, planned, succeeds_bind, succeeds_requireSourceFile,
        succeeds_streamContent, succeeds_pure, succeeds_reject, readContent_eq_ok,
        bne_eq_false_iff_eq]
      constructor
      · rintro ⟨source, scanned, _, ⟨file, found, length, rfl⟩, digest, holds⟩
        exact .inr ⟨sidecar, source, file, rfl, ⟨scanned, found, length, digest⟩, holds⟩
      · rintro (⟨⟨⟩, _⟩ | ⟨_, source, file, ⟨⟩, checked, holds⟩)
        exact ⟨source, checked.scanned, _, ⟨file, checked.found, checked.length, rfl⟩,
          checked.digest, holds⟩

theorem succeeds_verifyOperation (operation : UploadOperation) :
    Succeeds (sourceEnvironment rescan) (verifyOperation rescan.resolved operation)
      (fun _ => True) ↔ OperationChecked rescan operation := by
  simp only [verifyOperation, succeeds_bind, succeeds_requireSourceFile, succeeds_checkCancelled,
    succeeds_streamIdentity, succeeds_verifySidecar, succeeds_pure, succeeds_reject,
    readIdentity_eq_ok, readContent_eq_ok, bne_eq_false_iff_eq, and_true]
  constructor
  · rintro ⟨source, scanned, _, ⟨stamped, file, found, length, rfl⟩, digest, sidecar⟩
    refine ⟨⟨source, file, ⟨scanned, found, length, digest⟩, stamped⟩, ?_⟩
    intro planned member
    obtain absent | ⟨other, source, file, same, checked⟩ := sidecar
    · rw [absent] at member
      cases member
    · rw [same] at member
      obtain rfl := Option.some.inj member
      exact ⟨source, file, checked⟩
  · intro checked
    obtain ⟨source, file, media, stamped⟩ := checked.media
    refine ⟨source, media.scanned, _, ⟨stamped, file, media.found, media.length, rfl⟩,
      media.digest, ?_⟩
    cases planned : operation.xmpSidecar with
    | none => exact .inl rfl
    | some sidecar =>
        obtain ⟨source, file, read⟩ := checked.sidecar sidecar planned
        exact .inr ⟨sidecar, source, file, rfl, read⟩

/-- The loop checks every operation which the plan lists, and nothing else. -/
theorem succeeds_verifyOperations (operations : List UploadOperation)
    (verified : ExtTreeMap String VerifiedAsset) :
    Succeeds (sourceEnvironment rescan)
        (verifyOperations rescan.resolved operations verified) (fun _ => True) ↔
      ∀ operation ∈ operations, OperationChecked rescan operation := by
  induction operations generalizing verified with
  | nil => simp [verifyOperations]
  | cons operation rest induction =>
      rw [verifyOperations, succeeds_bind, List.forall_mem_cons, ← succeeds_verifyOperation]
      simp only [induction]
      exact succeeds_and _ _

/-- A plan is accepted if and only if it passes these checks. -/
theorem verifySourceAccepts_iff (plan : UploadPlan) (config : UploadExecutionConfig) :
    VerifySourceAccepts rescan plan config ↔ PlanChecked rescan plan config := by
  have reached : VerifySourceAccepts rescan plan config ↔
      Succeeds (sourceEnvironment rescan) (verifySource platform plan config) fun _ => True := by
    constructor
    · rintro ⟨events, verified, execution⟩
      exact execution.reaches ⟨verified, rfl, trivial⟩
    · intro succeeds
      obtain ⟨events, _, _, execution, verified, rfl, _⟩ := succeeds.execution
      exact ⟨events, verified, execution⟩
  rw [reached]
  simp only [verifySource, succeeds_bind, succeeds_reject, succeeds_scanResolved,
    requireSameNormalizedPlan, succeeds_verifyOperations, bne_eq_false_iff_eq,
    Bool.or_eq_false_iff]
  simp only [succeeds_ofExcept]
  constructor
  · rintro ⟨⟨⟩, valid, _, identity, rfl, ⟨normalized, source⟩, operations⟩
    exact ⟨(requireValidPlan_eq_ok platform plan).mp valid, identity, normalized, source,
      operations⟩
  · intro checked
    exact ⟨(), (requireValidPlan_eq_ok platform plan).mpr checked.accepted, _, checked.identity,
      rfl, ⟨checked.normalized, checked.source⟩, checked.operations⟩

/-! ## What it leaves unchecked -/

/-- An operation names the asset which it uploads: its identity, kind, role and sidecar. -/
structure NamesAsset (operation : UploadOperation) (asset : CandidateAsset) : Prop where
  path : operation.relativePath = asset.relativePath
  operationId : operation.operationId = asset.operationId
  mediaKind : operation.mediaKind = asset.mediaKind
  role : uploadRole asset (liveVideoOperations rescan.resolved) = .ok operation.role
  supported : ∀ metadata ∈ asset.metadata, metadata.kind ≠ .json
  sidecar : operation.xmpSidecar.toList.map UploadSidecar.relativePath =
    asset.metadata.map MetadataCandidate.relativePath

/-- The scan is free of errors and the operations name its assets one by one. -/
structure NamesAssets (plan : UploadPlan) : Prop where
  errors : rescan.resolved.plan.errors = []
  operations : List.Forall₂ (NamesAsset rescan) plan.operations rescan.resolved.plan.assets

/-- Planning the rescan again gives these operations. -/
def Replans (plan : UploadPlan) (config : UploadExecutionConfig) : Prop :=
  ∃ server rebuilt, createUploadPlan platform rescan.files rescan.resolved server config =
    .ok rebuilt ∧ rebuilt.operations = plan.operations

section

variable {rescan} {asset : CandidateAsset} {operation : UploadOperation}

/-- A planned operation names its asset. -/
theorem namesAsset_of_folderOperation
    (planned : folderOperation rescan.files rescan.resolved
      (liveVideoOperations rescan.resolved) asset = .ok operation) :
    NamesAsset rescan operation asset := by
  simp only [folderOperation, bind_eq_ok] at planned
  obtain ⟨source, _, timestamps, _, sidecar, sidecarPlanned, role, rolePlanned, returned⟩ := planned
  obtain rfl := Except.ok.inj returned
  obtain ⟨supported, origin⟩ := planSidecar_eq_ok.mp sidecarPlanned
  refine ⟨rfl, rfl, rfl, rolePlanned, supported, ?_⟩
  obtain ⟨absent, rfl⟩ | ⟨metadata, source, single, _, rfl⟩ := origin
  · rw [absent]
    rfl
  · rw [single]
    rfl

/-- A checked file is the recorded one. -/
theorem FileChecked.recorded {path : String} {byteLen : UInt64} {contentSha256 : String}
    {source : ResolvedSourceFile} {file : NativeFile}
    (checked : FileChecked rescan path byteLen contentSha256 source file) :
    source.byteLen = byteLen ∧ source.contentSha256 = contentSha256 := by
  obtain ⟨other, found, length, digest⟩ := rescan.recorded path source checked.scanned
  obtain rfl : file = other := Option.some.inj (checked.found.symm.trans found)
  have same : source.byteLen.toNat = byteLen.toNat := length.symm.trans checked.length
  exact ⟨UInt64.toNat_inj.mp same, digest.symm.trans checked.digest⟩

/-- A checked operation which names its asset is the one planned for it. -/
theorem folderOperation_of_namesAsset (listed : asset ∈ rescan.resolved.plan.assets)
    (checked : OperationChecked rescan operation) (names : NamesAsset rescan operation asset)
    (plain : operation.normalizedMetadata = none) :
    folderOperation rescan.files rescan.resolved (liveVideoOperations rescan.resolved) asset =
      .ok operation := by
  obtain ⟨source, file, media, stamped⟩ := checked.media
  obtain ⟨length, digest⟩ := media.recorded
  have scanned : rescan.resolved.sourceFile asset.relativePath = some source :=
    names.path ▸ media.scanned
  obtain ⟨assetLength, assetDigest⟩ := rescan.assets asset listed source scanned
  have found : sourceFor rescan.resolved asset.relativePath asset.byteLen asset.contentSha256 =
      .ok source := by
    rw [sourceFor, requireSourceFile_eq_ok.mpr scanned]
    simp [assetLength, assetDigest, reject, bind, Except.bind, pure, Except.pure]
  have sidecar : planSidecar rescan.resolved asset = .ok operation.xmpSidecar := by
    refine planSidecar_eq_ok.mpr ⟨names.supported, ?_⟩
    have paths := names.sidecar
    cases planned : operation.xmpSidecar with
    | none =>
        rw [planned] at paths
        exact .inl ⟨List.map_eq_nil_iff.mp paths.symm, rfl⟩
    | some sidecar =>
        rw [planned] at paths
        obtain ⟨metadata, single, same⟩ := List.map_eq_singleton_iff.mp paths.symm
        obtain ⟨sidecarSource, sidecarFile, read⟩ := checked.sidecar sidecar planned
        obtain ⟨sidecarLength, sidecarDigest⟩ := read.recorded
        refine .inr ⟨metadata, sidecarSource, single, same ▸ read.scanned, ?_⟩
        rw [same, sidecarLength, sidecarDigest]
  have stamps : sourceTimestamps rescan.files source.nativePath asset.byteLen =
      .ok (operation.createdAtUnixMs, operation.modifiedAtUnixMs) := by
    rw [← assetLength, length]
    exact stamped
  simp only [folderOperation, bind_eq_ok]
  refine ⟨source, found, _, stamps, _, sidecar, _, names.role, congrArg Except.ok ?_⟩
  obtain ⟨path, operationId, mediaKind, _, _, _⟩ := names
  rw [← path, ← operationId, ← mediaKind, ← assetLength, ← assetDigest, length, digest, ← plain]

/-- Checked operations which name the assets are those which planning builds. -/
theorem mapM_folderOperation {operations : List UploadOperation} {assets : List CandidateAsset}
    (listed : assets ⊆ rescan.resolved.plan.assets)
    (checked : ∀ operation ∈ operations,
      OperationChecked rescan operation ∧ operation.normalizedMetadata = none)
    (names : List.Forall₂ (NamesAsset rescan) operations assets) :
    assets.mapM (folderOperation rescan.files rescan.resolved
      (liveVideoOperations rescan.resolved)) = .ok operations := by
  induction names with
  | nil => rfl
  | @cons operation asset rest others names _ induction =>
      obtain ⟨member, tail⟩ := List.cons_subset.mp listed
      obtain ⟨head, others⟩ := List.forall_mem_cons.mp checked
      rw [List.mapM_cons, folderOperation_of_namesAsset member head.1 names head.2,
        induction tail others]
      rfl

variable {plan : UploadPlan} {config : UploadExecutionConfig}

/-- A checked plan is replanned if and only if it names the assets of the scan. -/
theorem PlanChecked.replans_iff (checked : PlanChecked rescan plan config) :
    Replans rescan plan config ↔ NamesAssets rescan plan := by
  constructor
  · rintro ⟨server, rebuilt, created, same⟩
    have creates := createUploadPlan_ok_iff.mp created
    have planned := forall₂_of_mapM creates.operations
    rw [same] at planned
    exact ⟨creates.errors, (planned.imp fun _ _ => namesAsset_of_folderOperation).flip⟩
  · intro names
    have kind : plan.source.kind = .folder := checked.source ▸ rescan.folder
    have schema : plan.schemaVersion = uploadPlanSchemaVersion := by
      obtain first | second := checked.accepted.schema
      · exact first
      · have source := checked.accepted.source
        rw [second, kind] at source
        cases source
    let server : ServerCompatibility :=
      { version := { major := 3, minor := 1, patch := 0 }
        identitySha256 := plan.server.identitySha256 }
    have operations := mapM_folderOperation (List.Subset.refl _)
      (fun operation member =>
        ⟨checked.operations operation member,
          checked.accepted.folderMetadata schema operation member⟩) names.operations
    refine ⟨server, { plan with server }, createUploadPlan_ok_iff.mpr ?_, rfl⟩
    exact
      { valid := rescan.valid
        errors := names.errors
        version := ⟨rfl, rfl⟩
        operations
        identity := checked.identity
        created := by
          have summary := checked.accepted.summary
          rw [schema] at summary
          rw [checked.normalized, checked.source, summary, ← schema]
        accepted := { checked.accepted with } }

end

end

/-- An accepted folder plan is the one which planning the rescan again gives if and only if it
lists every asset of the scan under its identity, kind, role and sidecar. -/
theorem verifySource_replans_iff {platform : Platform} (rescan : Rescan platform)
    (plan : UploadPlan) (config : UploadExecutionConfig) :
    (VerifySourceAccepts rescan plan config → Replans rescan plan config) ↔
      (PlanChecked rescan plan config → NamesAssets rescan plan) := by
  rw [verifySourceAccepts_iff]
  constructor
  · intro replans checked
    exact checked.replans_iff.mp (replans checked)
  · intro names checked
    exact checked.replans_iff.mpr (names checked)

/-- A photograph which holds its own name. -/
def photo : UploadOperation := namedOperation '1' "a.jpg" .image .standalone none

theorem photo_sample : (samplePlan .folder [photo]).validate .reference = .ok () := by
  apply samplePlan_validate
  · simp only [List.forall_mem_cons, List.not_mem_nil, false_imp_iff, implies_true, and_true]
    exact namedOperation_valid _ _ _ _ (by simp)
  all_goals simp [photo, namedOperation, sampleOperation]

/-- The photograph is the only file of its scan. -/
theorem eq_of_sourceFile_photo {path : String} {source : ResolvedSourceFile}
    (scanned : (namedResolved .folder [photo] fun _ => "").sourceFile path = some source) :
    source = namedFile (fun _ => "") photo := by
  simp only [ResolvedFolderPlan.sourceFile, namedResolved, List.map_cons, List.map_nil,
    ExtTreeMap.ofList_singleton, ExtTreeMap.getElem?_insert] at scanned
  split at scanned
  · exact (Option.some.inj scanned).symm
  · simp at scanned

/-- A folder with one photograph. -/
def photoFolder : Rescan .reference where
  files path :=
    if path = "a.jpg" then
      some { isRegular := true, content := utf8Bytes "a.jpg", created := none, modified := 0 }
    else
      none
  sha1Base64 _ := ""
  resolved := namedResolved .folder [photo] fun _ => ""
  valid := namedResolved_validate _ (by decide) photo_sample
  folder := rfl
  recorded path source scanned := by
    obtain rfl := eq_of_sourceFile_photo scanned
    exact ⟨_, rfl, by decide, rfl⟩
  assets asset member source scanned := by
    obtain rfl := List.mem_singleton.mp member
    obtain rfl := eq_of_sourceFile_photo scanned
    exact ⟨rfl, rfl⟩

/-- Its plan without the upload. -/
def strippedPlan : UploadPlan :=
  { namedPlan .folder [] (fun _ => "") defaultIdentity with
    normalizedPlanSha256 := compactSha256 .reference photoFolder.resolved.plan.serialize }

/-- A plan which has lost its only upload is accepted. -/
theorem strippedPlan_accepted :
    VerifySourceAccepts photoFolder strippedPlan .default ∧
      ¬Replans photoFolder strippedPlan .default := by
  have checked : PlanChecked photoFolder strippedPlan .default := by
    have sample : (samplePlan .folder []).Accepted .reference := by
      apply (UploadPlan.validate_ok_iff _ _).mp
      apply samplePlan_validate <;> simp
    have accepted : strippedPlan.Accepted .reference :=
      sample.rebind (isSha256_compactSha256 _) isSha256_defaultIdentity
    refine ⟨accepted, defaultIdentity_eq, rfl, rfl, ?_⟩
    simp [strippedPlan, namedPlan, samplePlan]
  refine ⟨(verifySourceAccepts_iff _ _ _).mpr checked, ?_⟩
  intro replans
  cases (checked.replans_iff.mp replans).operations

end ImmichRs
