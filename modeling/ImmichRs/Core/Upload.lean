import ImmichRs.Collections.Maps
import ImmichRs.Core.Planning

/-!
# Upload plans

The immutable plan consumed by the two executors, its counters and its validator.  Byte counts are
64-bit words, whose sums wrap; operation counters never exceed the length of a list in memory and
are natural numbers.
-/

namespace ImmichRs

open Std (ExtTreeMap ExtTreeSet)

/-- Server version observed during negotiation. -/
structure ServerVersion where
  major : Nat
  minor : Nat
  patch : Nat
  deriving DecidableEq, Repr

/-- Server facts that bind an upload plan. -/
structure ServerCompatibility where
  version : ServerVersion
  identitySha256 : String
  deriving DecidableEq, Repr

/-- Optional XMP sidecar streamed with one asset upload. -/
structure UploadSidecar where
  relativePath : String
  byteLen : UInt64
  contentSha256 : String
  deriving DecidableEq

/-- Execution role and dependency of one upload operation. -/
inductive UploadRole
  | standalone
  | livePhotoVideo (pairId : String)
  | livePhotoImage (pairId videoOperationId : String)
  deriving DecidableEq, Repr

/-- One source-verified server mutation in an upload plan. -/
structure UploadOperation where
  operationId : String
  relativePath : String
  mediaKind : MediaKind
  byteLen : UInt64
  contentSha256 : String
  createdAtUnixMs : Int
  modifiedAtUnixMs : Int
  xmpSidecar : Option UploadSidecar
  normalizedMetadata : Option NormalizedMetadata
  role : UploadRole
  deriving DecidableEq

/-- Counters of an immutable upload plan. -/
structure UploadPlanSummary where
  operations : Nat
  mediaBytes : UInt64
  xmpSidecars : Nat
  livePhotoPairs : Nat
  metadataUpdates : Nat
  albumCreates : Nat
  albumMemberships : Nat
  maxMutations : Nat
  deriving DecidableEq

/-- Versioned immutable plan. -/
structure UploadPlan where
  schemaVersion : Nat
  normalizedPlanSha256 : String
  source : SourceDescriptor
  configurationSha256 : String
  server : ServerCompatibility
  operations : List UploadOperation
  summary : UploadPlanSummary
  deriving DecidableEq

/-- `UPLOAD_PLAN_SCHEMA_VERSION`. -/
def uploadPlanSchemaVersion : Nat := 1

/-- `UPLOAD_PLAN_SCHEMA_VERSION_V2`. -/
def uploadPlanSchemaVersionV2 : Nat := 2

/-- Reason an upload plan failed validation. -/
inductive UploadPlanValidationError
  | unsupportedSchema (version : Nat)
  | invalidIdentity
  | invalidOperation
  | operationsNotStrictlySorted
  | duplicateOperationId
  | invalidSidecar
  | invalidMetadata
  | invalidSchemaSource
  | invalidLivePhotoDependency
  | summaryMismatch
  deriving DecidableEq, Repr

/-- The album names of one operation. -/
def UploadOperation.albums (operation : UploadOperation) : List String :=
  match operation.normalizedMetadata with
  | none => []
  | some metadata => metadata.albums

/-- Whether an operation carries a metadata assignment. -/
def UploadOperation.assignsMetadata (operation : UploadOperation) : Bool :=
  operation.normalizedMetadata.any hasAssignment

/-- Whether an operation is the still half of a live photo. -/
def UploadRole.isLivePhotoImage : UploadRole → Bool
  | .livePhotoImage _ _ => true
  | _ => false

/-- The distinct album names of a list of operations. -/
def albumNames (operations : List UploadOperation) : ExtTreeSet String :=
  ExtTreeSet.ofList (operations.flatMap UploadOperation.albums)

theorem nodup_albumNames (operations : List UploadOperation) :
    (albumNames operations).toList.Nodup := by
  refine (ExtTreeSet.distinct_toList (t := albumNames operations)).imp fun different same => ?_
  exact different (same ▸ Std.ReflCmp.compare_self)

theorem mem_albumNames {operations : List UploadOperation} {name : String} :
    name ∈ (albumNames operations).toList ↔
      ∃ operation ∈ operations, name ∈ operation.albums := by
  rw [ExtTreeSet.mem_toList, albumNames, ExtTreeSet.mem_ofList, List.contains_iff_mem,
    List.mem_flatMap]

/-- `expected_summary`. -/
def expectedSummary (schemaVersion : Nat) (operations : List UploadOperation) :
    UploadPlanSummary :=
  let imports := schemaVersion == uploadPlanSchemaVersionV2
  let metadataUpdates := if imports then operations.countP UploadOperation.assignsMetadata else 0
  let albumCount := if imports then (albumNames operations).size else 0
  { operations := operations.length
    mediaBytes := (operations.map UploadOperation.byteLen).sum
    xmpSidecars := operations.countP fun operation => operation.xmpSidecar.isSome
    livePhotoPairs := operations.countP fun operation => operation.role.isLivePhotoImage
    metadataUpdates
    albumCreates := albumCount
    albumMemberships := albumCount
    maxMutations :=
      if imports then operations.length + metadataUpdates + albumCount * 2 else 0 }

section

variable (platform : Platform)

/-- `validate_operation`: returns the extended set of identifiers. -/
def validateOperation (operation : UploadOperation) (previousPath : Option String)
    (ids : ExtTreeSet String) : Except UploadPlanValidationError (ExtTreeSet String) := do
  reject (operation.relativePath.isEmpty || !isSha256 operation.operationId ||
    !isSha256 operation.contentSha256 || operation.byteLen == 0) .invalidOperation
  reject (previousPath.any fun path => decide (operation.relativePath ≤ path))
    .operationsNotStrictlySorted
  reject (ids.contains operation.operationId) .duplicateOperationId
  reject (operation.xmpSidecar.any fun sidecar =>
    sidecar.relativePath.isEmpty || sidecar.byteLen == 0 || !isSha256 sidecar.contentSha256)
    .invalidSidecar
  reject (operation.normalizedMetadata.any fun metadata => !metadata.isValid platform)
    .invalidMetadata
  return ids.insert operation.operationId

/-- The loop of `UploadPlan::validate` over the operations, which collects their roles. -/
def validateOperations :
    List UploadOperation → Option String → ExtTreeSet String → ExtTreeMap String UploadRole →
      Except UploadPlanValidationError (ExtTreeMap String UploadRole)
  | [], _, _, roles => .ok roles
  | operation :: rest, previousPath, ids, roles => do
      let ids ← validateOperation platform operation previousPath ids
      validateOperations rest (some operation.relativePath) ids
        (roles.insert operation.operationId operation.role)

/-- The dependency rule for one operation. -/
def dependencyValid (roles : ExtTreeMap String UploadRole) (operation : UploadOperation) : Bool :=
  match operation.role with
  | .livePhotoImage pairId videoOperationId =>
      match roles[videoOperationId]? with
      | some (.livePhotoVideo videoPair) => videoPair == pairId
      | _ => false
  | _ => true

/-- `validate_dependencies`. -/
def validateDependencies (operations : List UploadOperation)
    (roles : ExtTreeMap String UploadRole) : Except UploadPlanValidationError Unit :=
  if operations.all (dependencyValid roles) then .ok () else .error .invalidLivePhotoDependency

/-- Whether a plan schema admits a source adapter. -/
def sourceSchemaMatches (schemaVersion : Nat) (kind : SourceKind) : Bool :=
  if schemaVersion = uploadPlanSchemaVersion then
    kind == .folder
  else if schemaVersion = uploadPlanSchemaVersionV2 then
    kind == .googleTakeout || kind == .applePhotos || kind == .picasa || kind == .immich
  else
    false

/-- `UploadPlan::validate`. -/
def UploadPlan.validate (plan : UploadPlan) : Except UploadPlanValidationError Unit := do
  reject (plan.schemaVersion != uploadPlanSchemaVersion &&
    plan.schemaVersion != uploadPlanSchemaVersionV2) (.unsupportedSchema plan.schemaVersion)
  reject (!isSha256 plan.normalizedPlanSha256 || !isSha256 plan.configurationSha256 ||
    !isSha256 plan.source.fingerprintSha256 || !isSha256 plan.server.identitySha256)
    .invalidIdentity
  reject (!sourceSchemaMatches plan.schemaVersion plan.source.kind) .invalidSchemaSource
  reject (plan.schemaVersion == uploadPlanSchemaVersion &&
    plan.operations.any fun operation => operation.normalizedMetadata.isSome) .invalidMetadata
  let roles ← validateOperations platform plan.operations none ∅ ∅
  validateDependencies plan.operations roles
  reject (expectedSummary plan.schemaVersion plan.operations != plan.summary) .summaryMismatch

/-! ## What an accepted plan satisfies -/

/-- The checks of one operation that do not depend on its position. -/
structure UploadOperation.Valid (operation : UploadOperation) : Prop where
  path : operation.relativePath.isEmpty = false
  operationId : isSha256 operation.operationId = true
  content : isSha256 operation.contentSha256 = true
  length : operation.byteLen ≠ 0
  sidecar : ∀ sidecar ∈ operation.xmpSidecar,
    sidecar.relativePath.isEmpty = false ∧ sidecar.byteLen ≠ 0 ∧
      isSha256 sidecar.contentSha256 = true
  metadata : ∀ metadata ∈ operation.normalizedMetadata, metadata.isValid platform = true

/-- The content of a successful `UploadPlan::validate`. -/
structure UploadPlan.Accepted (plan : UploadPlan) : Prop where
  schema : plan.schemaVersion = uploadPlanSchemaVersion ∨
    plan.schemaVersion = uploadPlanSchemaVersionV2
  identities : isSha256 plan.normalizedPlanSha256 = true ∧
    isSha256 plan.configurationSha256 = true ∧
    isSha256 plan.source.fingerprintSha256 = true ∧
    isSha256 plan.server.identitySha256 = true
  source : sourceSchemaMatches plan.schemaVersion plan.source.kind = true
  folderMetadata : plan.schemaVersion = uploadPlanSchemaVersion →
    ∀ operation ∈ plan.operations, operation.normalizedMetadata = none
  valid : ∀ operation ∈ plan.operations, operation.Valid platform
  sorted : (plan.operations.map UploadOperation.relativePath).Pairwise (· < ·)
  unique : (plan.operations.map UploadOperation.operationId).Nodup
  dependencies : ∀ image ∈ plan.operations, ∀ pairId videoOperationId,
    image.role = .livePhotoImage pairId videoOperationId →
      ∃ video ∈ plan.operations,
        video.operationId = videoOperationId ∧ video.role = .livePhotoVideo pairId
  summary : expectedSummary plan.schemaVersion plan.operations = plan.summary

theorem validateOperation_ok_iff (operation : UploadOperation) (previousPath : Option String)
    (ids result : ExtTreeSet String) :
    validateOperation platform operation previousPath ids = .ok result ↔
      operation.Valid platform ∧ (∀ path ∈ previousPath, path < operation.relativePath) ∧
        operation.operationId ∉ ids ∧ result = ids.insert operation.operationId := by
  simp only [validateOperation, reject_bind_eq_ok, Bool.or_eq_false_iff, Bool.not_eq_false',
    beq_eq_false_iff_ne, Option.any_eq_false, decide_eq_false_iff_not, not_le, pure, Except.pure,
    Except.ok.injEq]
  constructor
  · rintro ⟨⟨⟨⟨path, operationId⟩, content⟩, length⟩, sorted, fresh, sidecar, metadata, rfl⟩
    refine ⟨⟨path, operationId, content, length, fun value member => ?_, metadata⟩, sorted, ?_, rfl⟩
    · obtain ⟨⟨sidecarPath, sidecarLength⟩, sidecarContent⟩ := sidecar value member
      exact ⟨sidecarPath, sidecarLength, sidecarContent⟩
    · rw [← ExtTreeSet.contains_iff_mem, fresh]
      exact Bool.false_ne_true
  · rintro ⟨valid, sorted, fresh, rfl⟩
    refine ⟨⟨⟨⟨valid.path, valid.operationId⟩, valid.content⟩, valid.length⟩, sorted, ?_,
      fun value member => ?_, valid.metadata, rfl⟩
    · rw [Bool.eq_false_iff, ne_eq, ExtTreeSet.contains_iff_mem]
      exact fresh
    · obtain ⟨sidecarPath, sidecarLength, sidecarContent⟩ := valid.sidecar value member
      exact ⟨⟨sidecarPath, sidecarLength⟩, sidecarContent⟩

/-- The map from operation identifiers to roles which the validator builds. -/
def rolesOf (operations : List UploadOperation) (roles : ExtTreeMap String UploadRole) :
    ExtTreeMap String UploadRole :=
  operations.foldl (fun roles operation => roles.insert operation.operationId operation.role) roles

theorem validateOperations_ok_iff (operations : List UploadOperation)
    (previousPath : Option String) (ids : ExtTreeSet String)
    (roles result : ExtTreeMap String UploadRole) :
    validateOperations platform operations previousPath ids roles = .ok result ↔
      (∀ operation ∈ operations, operation.Valid platform) ∧
        (previousPath.toList ++ operations.map UploadOperation.relativePath).Pairwise (· < ·) ∧
        (operations.map UploadOperation.operationId).Nodup ∧
        (∀ operation ∈ operations, operation.operationId ∉ ids) ∧
        result = rolesOf operations roles := by
  induction operations generalizing previousPath ids roles with
  | nil =>
      have swap : roles = result ↔ result = roles := eq_comm
      cases previousPath <;> simp [validateOperations, rolesOf, swap]
  | cons operation rest induction =>
      simp only [validateOperations, bind_eq_ok, validateOperation_ok_iff, induction]
      constructor
      · rintro ⟨_, ⟨valid, above, fresh, rfl⟩, restValid, restSorted, restUnique, restFresh,
          result_eq⟩
        simp only [Option.toList_some, List.singleton_append] at restSorted
        refine ⟨List.forall_mem_cons.mpr ⟨valid, restValid⟩, ?_, ?_, ?_, result_eq⟩
        · exact pairwise_toList_append above restSorted
        · refine List.nodup_cons.mpr ⟨fun member => ?_, restUnique⟩
          obtain ⟨other, otherMember, same⟩ := List.mem_map.mp member
          have := restFresh other otherMember
          simp [ExtTreeSet.mem_insert, same] at this
        · intro other member
          rcases List.mem_cons.mp member with rfl | member
          · exact fresh
          · have := restFresh other member
            simp only [ExtTreeSet.mem_insert, not_or] at this
            exact this.2
      · rintro ⟨valid, sorted, unique, fresh, result_eq⟩
        simp only [List.map_cons, List.nodup_cons] at unique
        refine ⟨_, ⟨valid operation List.mem_cons_self, ?_, fresh operation List.mem_cons_self, rfl⟩,
          fun other member => valid other (List.mem_cons_of_mem _ member), ?_, unique.2, ?_,
          result_eq⟩
        · rintro path rfl
          exact (List.pairwise_cons.mp sorted).1 _ List.mem_cons_self
        · exact (List.pairwise_append.mp sorted).2.1
        · intro other member
          simp only [ExtTreeSet.mem_insert, not_or, Std.compare_eq_iff_eq]
          refine ⟨fun same => unique.1 ?_, fresh other (List.mem_cons_of_mem _ member)⟩
          exact List.mem_map.mpr ⟨other, member, same.symm⟩

theorem getElem?_rolesOf {operations : List UploadOperation}
    (unique : (operations.map UploadOperation.operationId).Nodup)
    (roles : ExtTreeMap String UploadRole) (fresh : ∀ operation ∈ operations,
      roles[operation.operationId]? = none) (operationId : String) (role : UploadRole) :
    (rolesOf operations roles)[operationId]? = some role ↔
      roles[operationId]? = some role ∨
        ∃ operation ∈ operations, operation.operationId = operationId ∧ operation.role = role :=
  Collections.getElem?_fill UploadOperation.role unique fresh operationId role

theorem dependencyValid_rolesOf_iff {operations : List UploadOperation}
    (unique : (operations.map UploadOperation.operationId).Nodup) (image : UploadOperation) :
    dependencyValid (rolesOf operations ∅) image = true ↔
      ∀ pairId videoOperationId, image.role = .livePhotoImage pairId videoOperationId →
        ∃ video ∈ operations,
          video.operationId = videoOperationId ∧ video.role = .livePhotoVideo pairId := by
  have found := getElem?_rolesOf unique ∅ (by simp)
  cases role : image.role with
  | standalone => simp [dependencyValid, role]
  | livePhotoVideo pairId => simp [dependencyValid, role]
  | livePhotoImage pairId videoOperationId =>
      simp only [dependencyValid, role, UploadRole.livePhotoImage.injEq, and_imp]
      constructor
      · rintro accepted _ _ rfl rfl
        cases lookup : (rolesOf operations ∅)[videoOperationId]? with
        | none => simp [lookup] at accepted
        | some videoRole =>
            cases videoRole with
            | livePhotoVideo videoPair =>
                simp only [lookup, beq_iff_eq] at accepted
                subst accepted
                simpa using (found videoOperationId (.livePhotoVideo videoPair)).mp lookup
            | standalone => simp [lookup] at accepted
            | livePhotoImage _ _ => simp [lookup] at accepted
      · intro dependency
        have lookup := (found videoOperationId (.livePhotoVideo pairId)).mpr
          (.inr (dependency pairId videoOperationId rfl rfl))
        simp [lookup]

/-- `UploadPlan::validate` accepts exactly the plans described by `UploadPlan.Accepted`. -/
theorem UploadPlan.validate_ok_iff (plan : UploadPlan) :
    plan.validate platform = .ok () ↔ plan.Accepted platform := by
  simp only [UploadPlan.validate, reject_bind_eq_ok]
  simp only [bind_eq_ok, validateOperations_ok_iff, validateDependencies, reject_eq_ok, ite_eq_left_iff, reduceCtorEq, imp_false,
    Bool.not_eq_true, Bool.not_eq_false, Option.toList_none, List.nil_append]
  constructor
  · rintro ⟨schema, identities, source, metadata, _, ⟨valid, sorted, unique, -, rfl⟩, _,
      dependencies, summary⟩
    refine ⟨?_, ?_, ?_, ?_, valid, sorted, unique, ?_, ?_⟩
    · simp only [Bool.and_eq_false_imp, bne_iff_ne, ne_eq, bne_eq_false_iff_eq] at schema
      tauto
    · simpa [and_assoc] using identities
    · simpa using source
    · simpa using metadata
    · intro image member
      exact (dependencyValid_rolesOf_iff unique image).mp (List.all_eq_true.mp dependencies image member)
    · simpa using summary
  · intro accepted
    refine ⟨?_, ?_, ?_, ?_, _, ⟨accepted.valid, accepted.sorted, accepted.unique, by simp, rfl⟩, (),
      ?_, ?_⟩
    · rcases accepted.schema with schema | schema <;> simp [schema]
    · simpa [and_assoc] using accepted.identities
    · simpa using accepted.source
    · simpa using accepted.folderMetadata
    · refine List.all_eq_true.mpr fun image member => ?_
      exact (dependencyValid_rolesOf_iff accepted.unique image).mpr
        (accepted.dependencies image member)
    · simpa using accepted.summary

end

/-- Acceptance depends on the digests of the scan and of the configuration only by their form. -/
theorem UploadPlan.Accepted.rebind {platform : Platform} {plan : UploadPlan}
    (accepted : plan.Accepted platform) {normalizedPlanSha256 configurationSha256 : String}
    (normalized : isSha256 normalizedPlanSha256 = true)
    (configuration : isSha256 configurationSha256 = true) :
    { plan with normalizedPlanSha256, configurationSha256 }.Accepted platform :=
  { accepted with identities := ⟨normalized, configuration, accepted.identities.2.2⟩ }

/-! ## Plans over one-byte files -/

/-- An operation of one byte with the given identity, role and metadata. -/
def sampleOperation (digit : Char) (relativePath : String) (mediaKind : MediaKind)
    (role : UploadRole) (normalizedMetadata : Option NormalizedMetadata) : UploadOperation :=
  { operationId := digestOf digit
    relativePath
    mediaKind
    byteLen := 1
    contentSha256 := digestOf digit
    createdAtUnixMs := 0
    modifiedAtUnixMs := 0
    xmpSidecar := none
    normalizedMetadata
    role }

/-- A plan of the given adapter over the given operations. -/
def samplePlan (kind : SourceKind) (operations : List UploadOperation) : UploadPlan :=
  let schemaVersion :=
    if kind = .folder then uploadPlanSchemaVersion else uploadPlanSchemaVersionV2
  { schemaVersion
    normalizedPlanSha256 := digestOf '0'
    source :=
      { kind
        label := "photos"
        fingerprintSha256 := digestOf '0'
        caseSensitive := true
        unicodeNormalization := .nfc }
    configurationSha256 := digestOf '0'
    server := { version := { major := 3, minor := 1, patch := 0 }, identitySha256 := digestOf '0' }
    operations
    summary := expectedSummary schemaVersion operations }

theorem sampleOperation_valid (platform : Platform) {digit : Char} {relativePath : String}
    (mediaKind : MediaKind) (role : UploadRole) (normalizedMetadata : Option NormalizedMetadata)
    (metadata : ∀ metadata ∈ normalizedMetadata, metadata.isValid platform = true)
    (hex : isAsciiHexdigit digit = true := by decide) (ascii : digit.utf8Size = 1 := by decide)
    (path : relativePath.isEmpty = false := by decide) :
    (sampleOperation digit relativePath mediaKind role normalizedMetadata).Valid platform where
  path := path
  operationId := isSha256_digestOf hex ascii
  content := isSha256_digestOf hex ascii
  length := show (1 : UInt64) ≠ 0 by decide
  sidecar := by simp [sampleOperation]
  metadata := metadata

theorem samplePlan_validate (platform : Platform) (kind : SourceKind)
    (operations : List UploadOperation)
    (valid : ∀ operation ∈ operations, operation.Valid platform)
    (metadata : kind = .folder → ∀ operation ∈ operations, operation.normalizedMetadata = none)
    (sorted : (operations.map UploadOperation.relativePath).Pairwise (· < ·))
    (unique : (operations.map UploadOperation.operationId).Nodup)
    (dependencies : ∀ image ∈ operations, ∀ pairId videoOperationId,
      image.role = .livePhotoImage pairId videoOperationId →
        ∃ video ∈ operations,
          video.operationId = videoOperationId ∧ video.role = .livePhotoVideo pairId) :
    (samplePlan kind operations).validate platform = .ok () := by
  have identity : isSha256 (digestOf '0') = true := isSha256_digestOf (by decide) (by decide)
  refine ((samplePlan kind operations).validate_ok_iff platform).mpr
    { schema := ?_
      identities := ⟨identity, identity, identity, identity⟩
      source := ?_
      folderMetadata := fun schema => metadata ?_
      valid
      sorted
      unique
      dependencies
      summary := rfl }
  · cases kind <;> simp [samplePlan]
  · cases kind <;> rfl
  · by_contra other
    simp [samplePlan, other, uploadPlanSchemaVersion, uploadPlanSchemaVersionV2] at schema

end ImmichRs
