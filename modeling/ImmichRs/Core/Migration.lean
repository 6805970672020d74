import ImmichRs.Core.Json

/-!
# Migration plans

The contract of an Immich-to-Immich migration: assets sorted by their source identifier, albums
which list operations, and counters.  `MigrationPlan.Accepted` is what its validator establishes.
-/

namespace ImmichRs

open Std (ExtTreeMap ExtTreeSet)

/-- Privacy-safe identity of one endpoint. -/
structure MigrationServer where
  compatibility : ServerCompatibility
  originSha256 : String
  deriving DecidableEq, Repr

/-- One source asset and the destination facts derived from it. -/
structure MigrationAsset where
  sourceAssetId : String
  operationId : String
  originalFileName : String
  mediaKind : MediaKind
  byteLen : UInt64
  checksumSha1 : String
  contentSha256 : String
  createdAtUnixMs : Int
  modifiedAtUnixMs : Int
  normalizedMetadata : Option NormalizedMetadata
  role : UploadRole
  deriving DecidableEq

/-- One owned album projected onto migrated assets. -/
structure MigrationAlbum where
  name : String
  memberOperationIds : List String
  deriving DecidableEq, Repr

/-- Counters of a migration plan. -/
structure MigrationPlanSummary where
  assets : Nat
  mediaBytes : UInt64
  metadataUpdates : Nat
  albumCreates : Nat
  albumMemberships : Nat
  maxMutations : Nat
  deriving DecidableEq

/-- Immutable two-server migration contract. -/
structure MigrationPlan where
  schemaVersion : Nat
  sourceServer : MigrationServer
  destinationServer : MigrationServer
  sourceFingerprintSha256 : String
  configurationSha256 : String
  assets : List MigrationAsset
  albums : List MigrationAlbum
  summary : MigrationPlanSummary
  deriving DecidableEq

/-- `MIGRATION_PLAN_SCHEMA_VERSION`. -/
def migrationPlanSchemaVersion : Nat := 1

/-! ## Serialization -/

/-- Serialization of one endpoint. -/
def MigrationServer.serialize (server : MigrationServer) : String :=
  jsonObject
    [("compatibility", server.compatibility.serialize),
      ("origin_sha256", jsonString server.originSha256)]

/-- Serialization of one migrated asset. -/
def MigrationAsset.serialize (asset : MigrationAsset) : String :=
  jsonObject
    [("source_asset_id", jsonString asset.sourceAssetId),
      ("operation_id", jsonString asset.operationId),
      ("original_file_name", jsonString asset.originalFileName),
      ("media_kind", asset.mediaKind.serialize), ("byte_len", toString asset.byteLen.toNat),
      ("checksum_sha1", jsonString asset.checksumSha1),
      ("content_sha256", jsonString asset.contentSha256),
      ("created_at_unix_ms", toString asset.createdAtUnixMs),
      ("modified_at_unix_ms", toString asset.modifiedAtUnixMs),
      ("normalized_metadata", jsonOption NormalizedMetadata.serialize asset.normalizedMetadata),
      ("role", asset.role.serialize)]

/-- Serialization of one migrated album. -/
def MigrationAlbum.serialize (album : MigrationAlbum) : String :=
  jsonObject
    [("name", jsonString album.name),
      ("member_operation_ids", jsonArray (album.memberOperationIds.map jsonString))]

/-- Serialization of a migration plan. -/
def MigrationPlan.serialize (plan : MigrationPlan) : String :=
  jsonObject
    [("schema_version", toString plan.schemaVersion),
      ("source_server", plan.sourceServer.serialize),
      ("destination_server", plan.destinationServer.serialize),
      ("source_fingerprint_sha256", jsonString plan.sourceFingerprintSha256),
      ("configuration_sha256", jsonString plan.configurationSha256),
      ("assets", jsonArray (plan.assets.map MigrationAsset.serialize)),
      ("albums", jsonArray (plan.albums.map MigrationAlbum.serialize)),
      ("summary", jsonObject
        [("assets", toString plan.summary.assets),
          ("media_bytes", toString plan.summary.mediaBytes.toNat),
          ("metadata_updates", toString plan.summary.metadataUpdates),
          ("album_creates", toString plan.summary.albumCreates),
          ("album_memberships", toString plan.summary.albumMemberships),
          ("max_mutations", toString plan.summary.maxMutations)])]

/-! ## Validation -/

/-- Reason a migration plan failed validation. -/
inductive MigrationPlanValidationError
  | unsupportedSchema (version : Nat)
  | invalidIdentity
  | invalidAsset
  | assetsNotStrictlySorted
  | invalidLivePhotoDependency
  | invalidAlbum
  | summaryMismatch
  deriving DecidableEq, Repr

/-- `u8::is_ascii_hexdigit` without upper case, on a character. -/
def isLowerHexdigit (character : Char) : Bool :=
  isAsciiHexdigit character && !('A' ≤ character && character ≤ 'Z')

/-- `lower_hex`. -/
def lowerHex (value : String) (length : Nat) : Bool :=
  byteLen value == length && value.toList.all isLowerHexdigit

/-- Positions of the hyphens of a UUID. -/
def uuidHyphens : List Nat := [8, 13, 18, 23]

/-- `uuid_v4`. -/
def uuidV4 (value : String) : Bool :=
  let characters := value.toList
  byteLen value == 36 && uuidHyphens.all (fun index => characters[index]? == some '-') &&
    characters[14]? == some '4' &&
    (['8', '9', 'a', 'b'].any fun variant => characters[19]? == some variant) &&
    (characters.zipIdx.all fun entry => uuidHyphens.contains entry.2 || isLowerHexdigit entry.1)

/-- `portable_file_name`. -/
def portableFileName (value : String) : Bool :=
  !value.isEmpty && decide (byteLen value ≤ 4096) &&
    !(containsChar value '/' || containsChar value '\\') && value != "." && value != ".." &&
    !anyChar value isControl

/-- `valid_unix_ms`: the instants from year -9999 to year 9999 which `time` represents. -/
def validUnixMs (value : Int) : Bool :=
  decide (-377705116800 ≤ value.fdiv 1000) && decide (value.fdiv 1000 ≤ 253402300799)

/-- `server_valid`. -/
def serverValid (server : MigrationServer) : Bool :=
  lowerHex server.compatibility.identitySha256 64 && lowerHex server.originSha256 64

/-- `expected_summary` of a migration, with wrapping byte counts. -/
def expectedMigrationSummary (assets : List MigrationAsset) (albums : List MigrationAlbum) :
    MigrationPlanSummary :=
  let metadataUpdates := assets.countP fun asset => asset.normalizedMetadata.any hasAssignment
  { assets := assets.length
    mediaBytes := (assets.map MigrationAsset.byteLen).sum
    metadataUpdates
    albumCreates := albums.length
    albumMemberships := albums.length
    maxMutations := assets.length + metadataUpdates + albums.length * 2 }

section

variable (platform : Platform)

/-- The checks of one asset which do not depend on its position. -/
def MigrationAsset.isValid (asset : MigrationAsset) : Bool :=
  uuidV4 asset.sourceAssetId && lowerHex asset.operationId 64 &&
    portableFileName asset.originalFileName && asset.byteLen != 0 &&
    lowerHex asset.checksumSha1 40 && lowerHex asset.contentSha256 64 &&
    validUnixMs asset.createdAtUnixMs && validUnixMs asset.modifiedAtUnixMs &&
    !asset.normalizedMetadata.any fun metadata =>
      !metadata.isValid platform || !metadata.albums.isEmpty

/-- The first loop of `validate_assets`, which collects the roles. -/
def validateMigrationAssets :
    List MigrationAsset → Option String → ExtTreeMap String UploadRole →
      Except MigrationPlanValidationError (ExtTreeMap String UploadRole)
  | [], _, operations => .ok operations
  | asset :: rest, previous, operations => do
      reject (previous.any fun value => decide (asset.sourceAssetId ≤ value))
        .assetsNotStrictlySorted
      reject (!asset.isValid platform || operations.contains asset.operationId) .invalidAsset
      validateMigrationAssets rest (some asset.sourceAssetId)
        (operations.insert asset.operationId asset.role)

/-- The dependency rule for one asset. -/
def migrationDependencyValid (operations : ExtTreeMap String UploadRole)
    (asset : MigrationAsset) : Bool :=
  match asset.role with
  | .livePhotoImage pairId videoOperationId =>
      match operations[videoOperationId]? with
      | some (.livePhotoVideo videoPair) => videoPair == pairId
      | _ => false
  | _ => true

/-- `validate_assets`. -/
def validateAssetsOfMigration (assets : List MigrationAsset) :
    Except MigrationPlanValidationError (ExtTreeMap String UploadRole) := do
  let operations ← validateMigrationAssets platform assets none ∅
  reject (!assets.all (migrationDependencyValid operations)) .invalidLivePhotoDependency
  return operations

/-- The checks of one album which do not depend on its position. -/
def MigrationAlbum.isValid (operations : ExtTreeMap String UploadRole) (album : MigrationAlbum) :
    Bool :=
  NormalizedMetadata.isValid platform { NormalizedMetadata.empty with albums := [album.name] } &&
    !album.memberOperationIds.isEmpty && strictlySorted album.memberOperationIds &&
    album.memberOperationIds.all operations.contains

/-- `validate_albums`. -/
def validateAlbums (operations : ExtTreeMap String UploadRole) :
    List MigrationAlbum → Option String → Except MigrationPlanValidationError Unit
  | [], _ => .ok ()
  | album :: rest, previous => do
      reject ((previous.any fun value => decide (album.name ≤ value)) ||
        !album.isValid platform operations) .invalidAlbum
      validateAlbums operations rest (some album.name)

/-- `MigrationPlan::validate`. -/
def MigrationPlan.validate (plan : MigrationPlan) : Except MigrationPlanValidationError Unit := do
  reject (plan.schemaVersion != migrationPlanSchemaVersion) (.unsupportedSchema plan.schemaVersion)
  reject (!serverValid plan.sourceServer || !serverValid plan.destinationServer ||
    plan.sourceServer.originSha256 == plan.destinationServer.originSha256 ||
    plan.sourceServer.compatibility.identitySha256 ==
      plan.destinationServer.compatibility.identitySha256 ||
    !lowerHex plan.sourceFingerprintSha256 64 || !lowerHex plan.configurationSha256 64)
    .invalidIdentity
  let operations ← validateAssetsOfMigration platform plan.assets
  validateAlbums platform operations plan.albums none
  reject (expectedMigrationSummary plan.assets plan.albums != plan.summary) .summaryMismatch

theorem lowerHex_isSha256 {value : String} (lower : lowerHex value 64 = true) :
    isSha256 value = true := by
  simp only [lowerHex, isLowerHexdigit, Bool.and_eq_true, List.all_eq_true] at lower
  rw [isSha256, Bool.and_eq_true, List.all_eq_true]
  exact ⟨lower.1, fun digit member => (lower.2 digit member).1⟩

/-- The two spellings of the lower-case hexadecimal check agree. -/
theorem lowerHex_eq_isLowerSha256 (value : String) : lowerHex value 64 = isLowerSha256 value := by
  rw [lowerHex, isLowerSha256]
  congr 2
  funext character
  rw [Bool.eq_iff_iff]
  simp only [isLowerHexdigit, isAsciiHexdigit, isAsciiDigit, Bool.and_eq_true, Bool.or_eq_true,
    Bool.not_eq_true', Bool.and_eq_false_iff, decide_eq_true_eq, decide_eq_false_iff_not,
    Char.le_def, UInt32.le_iff_toNat_le, Char.reduceVal, UInt32.reduceToNat]
  omega

theorem utf8Size_of_isLowerHexdigit {digit : Char} (lower : isLowerHexdigit digit = true) :
    digit.utf8Size = 1 := by
  have small : digit.toNat ≤ 127 := by
    simp only [isLowerHexdigit, isAsciiHexdigit, isAsciiDigit, Bool.and_eq_true, Bool.or_eq_true,
      decide_eq_true_eq] at lower
    rcases lower.1 with (digitRange | lowerRange) | upperRange
    · exact (show digit.toNat ≤ '9'.toNat from digitRange.2).trans (by decide)
    · exact (show digit.toNat ≤ 'f'.toNat from lowerRange.2).trans (by decide)
    · exact (show digit.toNat ≤ 'F'.toNat from upperRange.2).trans (by decide)
  exact Char.utf8Size_eq_one_iff.mpr (UInt32.le_iff_toNat_le.mpr small)

/-- Identifiers of assets have equally many characters. -/
theorem length_of_uuidV4 {value : String} (uuid : uuidV4 value = true) :
    value.toList.length = 36 := by
  simp only [uuidV4, Bool.and_eq_true, beq_iff_eq, List.all_eq_true, Bool.or_eq_true,
    List.contains_iff_mem] at uuid
  obtain ⟨⟨⟨⟨length, hyphens⟩, _⟩, _⟩, digits⟩ := uuid
  have ascii : ∀ digit ∈ value.toList, digit.utf8Size = 1 := by
    intro digit member
    obtain ⟨index, bound, found⟩ := List.getElem_of_mem member
    have entry : (digit, index) ∈ value.toList.zipIdx :=
      List.mk_mem_zipIdx_iff_getElem?.mpr (found ▸ List.getElem?_eq_getElem bound)
    rcases digits _ entry with hyphen | lower
    · have same := hyphens index hyphen
      rw [List.getElem?_eq_getElem bound, found, Option.some.injEq] at same
      rw [same]
      rfl
    · exact utf8Size_of_isLowerHexdigit lower
  rw [← byteLen_ofList_of_ascii ascii, String.ofList_toList, length]

/-! ## What an accepted plan satisfies -/

/-- The content of a successful `MigrationPlan::validate`. -/
structure MigrationPlan.Accepted (plan : MigrationPlan) : Prop where
  schema : plan.schemaVersion = migrationPlanSchemaVersion
  identities : lowerHex plan.destinationServer.compatibility.identitySha256 64 = true ∧
    lowerHex plan.sourceFingerprintSha256 64 = true ∧ lowerHex plan.configurationSha256 64 = true
  valid : ∀ asset ∈ plan.assets, asset.isValid platform = true
  sorted : (plan.assets.map MigrationAsset.sourceAssetId).Pairwise (· < ·)
  unique : (plan.assets.map MigrationAsset.operationId).Nodup
  dependencies : ∀ image ∈ plan.assets, ∀ pairId videoOperationId,
    image.role = .livePhotoImage pairId videoOperationId →
      ∃ video ∈ plan.assets,
        video.operationId = videoOperationId ∧ video.role = .livePhotoVideo pairId
  names : (plan.albums.map MigrationAlbum.name).Pairwise (· < ·)
  albums : ∀ album ∈ plan.albums, validAlbum album.name = true ∧ album.memberOperationIds ≠ [] ∧
    album.memberOperationIds.Nodup ∧
    ∀ operationId ∈ album.memberOperationIds,
      operationId ∈ plan.assets.map MigrationAsset.operationId
  summary : expectedMigrationSummary plan.assets plan.albums = plan.summary

/-- The roles which the first loop of `validate_assets` collects. -/
theorem validateMigrationAssets_ok {assets : List MigrationAsset} {previous : Option String}
    {operations result : ExtTreeMap String UploadRole}
    (returned : validateMigrationAssets platform assets previous operations = .ok result) :
    (∀ asset ∈ assets, asset.isValid platform = true) ∧
      (previous.toList ++ assets.map MigrationAsset.sourceAssetId).Pairwise (· < ·) ∧
      (assets.map MigrationAsset.operationId).Nodup ∧
      (∀ asset ∈ assets, asset.operationId ∉ operations) ∧
      ∀ operationId role, result[operationId]? = some role ↔
        operations[operationId]? = some role ∨
          ∃ asset ∈ assets, asset.operationId = operationId ∧ asset.role = role := by
  induction assets generalizing previous operations with
  | nil =>
      obtain rfl := Except.ok.inj returned
      cases previous <;> simp
  | cons asset rest induction =>
      simp only [validateMigrationAssets, reject_bind_eq_ok, Option.any_eq_false,
        decide_eq_false_iff_not, not_le, Bool.or_eq_false_iff, Bool.not_eq_false'] at returned
      obtain ⟨above, ⟨valid, fresh⟩, returned⟩ := returned
      obtain ⟨restValid, restSorted, restUnique, restFresh, roles⟩ := induction returned
      rw [Option.toList_some, List.singleton_append] at restSorted
      have absent : asset.operationId ∉ operations := by
        rw [← ExtTreeMap.contains_iff_mem, fresh]
        exact Bool.false_ne_true
      refine ⟨List.forall_mem_cons.mpr ⟨valid, restValid⟩, ?_, ?_, ?_, ?_⟩
      · exact pairwise_toList_append above restSorted
      · refine List.nodup_cons.mpr ⟨fun member => ?_, restUnique⟩
        obtain ⟨other, otherMember, same⟩ := List.mem_map.mp member
        refine restFresh other otherMember ?_
        rw [ExtTreeMap.mem_insert, same]
        exact .inl Std.ReflCmp.compare_self
      · refine List.forall_mem_cons.mpr ⟨absent, fun other member inside => ?_⟩
        refine restFresh other member ?_
        rw [ExtTreeMap.mem_insert]
        exact .inr inside
      · intro operationId role
        rw [roles, ExtTreeMap.getElem?_insert]
        by_cases same : asset.operationId = operationId
        · subst same
          have none : operations[asset.operationId]? = none :=
            ExtTreeMap.getElem?_eq_none absent
          have others : ¬∃ other ∈ rest, other.operationId = asset.operationId ∧
              other.role = role := by
            rintro ⟨other, member, same, _⟩
            refine restFresh other member ?_
            rw [ExtTreeMap.mem_insert, same]
            exact .inl Std.ReflCmp.compare_self
          simp [none, others, Std.ReflCmp.compare_self]
        · have different : compare asset.operationId operationId ≠ .eq := fun equal =>
            same (Std.LawfulEqCmp.eq_of_compare equal)
          simp [same, different]

theorem validateAlbums_ok {operations : ExtTreeMap String UploadRole}
    {albums : List MigrationAlbum} {previous : Option String}
    (returned : validateAlbums platform operations albums previous = .ok ()) :
    (∀ album ∈ albums, album.isValid platform operations = true) ∧
      (previous.toList ++ albums.map MigrationAlbum.name).Pairwise (· < ·) := by
  induction albums generalizing previous with
  | nil => cases previous <;> simp
  | cons album rest induction =>
      simp only [validateAlbums, reject_bind_eq_ok, Bool.or_eq_false_iff, Option.any_eq_false,
        decide_eq_false_iff_not, not_le, Bool.not_eq_false'] at returned
      obtain ⟨⟨above, valid⟩, returned⟩ := returned
      obtain ⟨restValid, restSorted⟩ := induction returned
      rw [Option.toList_some, List.singleton_append] at restSorted
      exact ⟨List.forall_mem_cons.mpr ⟨valid, restValid⟩,
        pairwise_toList_append above restSorted⟩

theorem isValid_singleton_album (name : String) :
    NormalizedMetadata.isValid platform { NormalizedMetadata.empty with albums := [name] } =
      validAlbum name := by
  simp [NormalizedMetadata.isValid, NormalizedMetadata.empty, strictlySorted]

theorem MigrationPlan.accepted_of_validate {plan : MigrationPlan}
    (valid : plan.validate platform = .ok ()) : plan.Accepted platform := by
  simp only [MigrationPlan.validate, reject_bind_eq_ok, bne_eq_false_iff_eq,
    Bool.or_eq_false_iff, Bool.not_eq_false'] at valid
  obtain ⟨schema, ⟨⟨⟨⟨⟨_, destination⟩, _⟩, _⟩, fingerprint⟩, configuration⟩, rest⟩ := valid
  simp only [bind_eq_ok, reject_eq_ok, bne_eq_false_iff_eq] at rest
  obtain ⟨_, checked, ⟨⟩, albums, summary⟩ := rest
  rw [validateAssetsOfMigration, bind_eq_ok] at checked
  obtain ⟨operations, collected, checked⟩ := checked
  rw [reject_bind_eq_ok, Bool.not_eq_false', List.all_eq_true] at checked
  obtain ⟨dependencies, returned⟩ := checked
  obtain rfl := Except.ok.inj returned
  obtain ⟨assets, sorted, unique, _, roles⟩ := validateMigrationAssets_ok platform collected
  obtain ⟨listed, names⟩ := validateAlbums_ok platform albums
  have known : ∀ operationId, operations.contains operationId = true →
      operationId ∈ plan.assets.map MigrationAsset.operationId := by
    intro operationId contained
    rw [ExtTreeMap.contains_eq_isSome_getElem?, Option.isSome_iff_exists] at contained
    obtain ⟨role, found⟩ := contained
    rcases (roles operationId role).mp found with absent | ⟨asset, member, same, _⟩
    · simp at absent
    · exact List.mem_map.mpr ⟨asset, member, same⟩
  simp only [serverValid, Bool.and_eq_true] at destination
  refine ⟨schema, ⟨destination.1, fingerprint, configuration⟩, assets, sorted, unique, ?_, names,
    fun album member => ?_, summary⟩
  · intro image member pairId videoOperationId role
    have depends := dependencies image member
    rw [migrationDependencyValid, role] at depends
    simp only at depends
    split at depends
    · next videoPair found =>
        rw [beq_iff_eq] at depends
        subst depends
        rcases (roles videoOperationId _).mp found with absent | ⟨video, member, same, role⟩
        · simp at absent
        · exact ⟨video, member, same, role⟩
    · cases depends
  · have checked := listed album member
    simp only [MigrationAlbum.isValid, isValid_singleton_album, Bool.and_eq_true,
      Bool.not_eq_true', List.all_eq_true, List.isEmpty_eq_false_iff] at checked
    obtain ⟨⟨⟨name, nonempty⟩, ordered⟩, inside⟩ := checked
    refine ⟨name, nonempty, ?_, fun operationId member => known _ (inside operationId member)⟩
    exact (pairwise_of_strictlySorted ordered).imp fun less => ne_of_lt less

end

end ImmichRs
