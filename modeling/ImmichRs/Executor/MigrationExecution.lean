import ImmichRs.Core.Migration
import ImmichRs.Executor.Config

/-!
# Execution of migration plans

`executionPlan` turns a migration plan into the import plan which is applied.  It inverts the album
relation through a map which it consumes, and compares two summaries.  For an accepted migration it
always succeeds and keeps the meaning of the plan.
-/

namespace ImmichRs

open Std (ExtTreeMap ExtTreeSet)

/-- `albums.entry(operation_id).or_default().push(album.name)`. -/
def pushAlbum (name : String) (albums : ExtTreeMap String (List String)) (operationId : String) :
    ExtTreeMap String (List String) :=
  albums.insert operationId (albums.getD operationId [] ++ [name])

/-- The album names of each operation. -/
def albumsByOperation (albums : List MigrationAlbum) : ExtTreeMap String (List String) :=
  albums.foldl (fun index album => album.memberOperationIds.foldl (pushAlbum album.name) index) ∅

/-- The operation of one asset with its album names. -/
def executionOperation (asset : MigrationAsset) (albums : List String) : UploadOperation :=
  let metadata := { asset.normalizedMetadata.getD .empty with albums }
  { operationId := asset.operationId
    relativePath := "assets/" ++ asset.sourceAssetId ++ "/" ++ asset.originalFileName
    mediaKind := asset.mediaKind
    byteLen := asset.byteLen
    contentSha256 := asset.contentSha256
    createdAtUnixMs := asset.createdAtUnixMs
    modifiedAtUnixMs := asset.modifiedAtUnixMs
    xmpSidecar := none
    normalizedMetadata := if metadata = .empty then none else some metadata
    role := asset.role }

/-- The operations of all assets, each taking its album names out of the map. -/
def executionOperations :
    List MigrationAsset → ExtTreeMap String (List String) →
      List UploadOperation × ExtTreeMap String (List String)
  | [], albums => ([], albums)
  | asset :: rest, albums =>
      let remaining := executionOperations rest (albums.erase asset.operationId)
      (executionOperation asset (albums.getD asset.operationId []) :: remaining.1, remaining.2)

section

variable (platform : Platform)

/-- `migration_plan_sha256`. -/
def migrationPlanSha256 (plan : MigrationPlan) : Except ClientError String := do
  reject (plan.schemaVersion != migrationPlanSchemaVersion) (.new .compatibility)
  match plan.validate platform with
  | .error _ => .error (.new .compatibility)
  | .ok () => .ok (compactSha256 platform plan.serialize)

/-- The counters which the two summaries share. -/
def sameCounters (summary : UploadPlanSummary) (expected : MigrationPlanSummary) : Bool :=
  summary.operations == expected.assets && summary.mediaBytes == expected.mediaBytes &&
    summary.metadataUpdates == expected.metadataUpdates &&
    summary.albumCreates == expected.albumCreates &&
    summary.albumMemberships == expected.albumMemberships &&
    summary.maxMutations == expected.maxMutations

/-- The import plan of a migration with the given digest and operations. -/
def migrationUploadPlan (plan : MigrationPlan) (migrationSha256 : String)
    (operations : List UploadOperation) : UploadPlan :=
  { schemaVersion := uploadPlanSchemaVersionV2
    normalizedPlanSha256 := migrationSha256
    source :=
      { kind := .immich
        label := "immich-migration"
        fingerprintSha256 := plan.sourceFingerprintSha256
        caseSensitive := true
        unicodeNormalization := .nfc }
    configurationSha256 := plan.configurationSha256
    server := plan.destinationServer.compatibility
    operations
    summary := expectedSummary uploadPlanSchemaVersionV2 operations }

/-- `execution_plan`. -/
def executionPlan (plan : MigrationPlan) : Except ExecutorError UploadPlan := do
  Except.mapError (fun _ => .invalidPlan) (plan.validate platform)
  let migrationSha256 ← Except.mapError (fun _ => ExecutorError.invalidPlan)
    (migrationPlanSha256 platform plan)
  let (operations, albums) := executionOperations plan.assets (albumsByOperation plan.albums)
  reject (!albums.isEmpty) .invalidPlan
  reject (!sameCounters (expectedSummary uploadPlanSchemaVersionV2 operations) plan.summary)
    .invalidPlan
  let execution := migrationUploadPlan plan migrationSha256 operations
  Except.mapError (fun _ => .invalidPlan) (execution.validate platform)
  return execution

end

/-! ## The album relation -/

/-- The names of the albums which list an operation, in the order of the albums. -/
def albumNamesOf (albums : List MigrationAlbum) (operationId : String) : List String :=
  (albums.filter fun album => album.memberOperationIds.contains operationId).map
    MigrationAlbum.name

/-- One album appends its name to the entries of its members. -/
theorem getD_foldl_pushAlbum (name : String) {members : List String} (distinct : members.Nodup)
    (index : ExtTreeMap String (List String)) (operationId : String) :
    (members.foldl (pushAlbum name) index).getD operationId [] =
      index.getD operationId [] ++ if members.contains operationId then [name] else [] := by
  induction members generalizing index with
  | nil => simp
  | cons member rest induction =>
      obtain ⟨absent, distinct⟩ := List.nodup_cons.mp distinct
      rw [List.foldl_cons, induction distinct, pushAlbum, ExtTreeMap.getD_insert]
      by_cases same : member = operationId
      · subst same
        simp [absent]
      · have different : compare member operationId ≠ .eq := fun equal =>
          same (Std.LawfulEqCmp.eq_of_compare equal)
        rw [if_neg different]
        simp [Ne.symm same]

theorem mem_foldl_pushAlbum {name : String} {members : List String}
    {index : ExtTreeMap String (List String)} {operationId : String}
    (found : operationId ∈ members.foldl (pushAlbum name) index) :
    operationId ∈ index ∨ operationId ∈ members := by
  induction members generalizing index with
  | nil => exact .inl found
  | cons member rest induction =>
      rcases induction found with inside | listed
      · rw [pushAlbum, ExtTreeMap.mem_insert] at inside
        rcases inside with equal | inside
        · exact .inr (Std.LawfulEqCmp.eq_of_compare equal ▸ List.mem_cons_self)
        · exact .inl inside
      · exact .inr (List.mem_cons_of_mem _ listed)

theorem getD_foldl_albums {albums : List MigrationAlbum}
    (distinct : ∀ album ∈ albums, album.memberOperationIds.Nodup)
    (index : ExtTreeMap String (List String)) (operationId : String) :
    (albums.foldl (fun index album =>
        album.memberOperationIds.foldl (pushAlbum album.name) index) index).getD operationId [] =
      index.getD operationId [] ++ albumNamesOf albums operationId := by
  induction albums generalizing index with
  | nil => simp [albumNamesOf]
  | cons album rest induction =>
      rw [List.foldl_cons, induction fun other member => distinct other (.tail _ member),
        getD_foldl_pushAlbum _ (distinct album List.mem_cons_self), List.append_assoc]
      congr 1
      rw [albumNamesOf, albumNamesOf, List.filter_cons]
      split
      · rw [List.map_cons]
        rfl
      · rfl

theorem getD_albumsByOperation {albums : List MigrationAlbum}
    (distinct : ∀ album ∈ albums, album.memberOperationIds.Nodup) (operationId : String) :
    (albumsByOperation albums).getD operationId [] = albumNamesOf albums operationId := by
  rw [albumsByOperation, getD_foldl_albums distinct]
  simp

theorem mem_foldl_albums {albums : List MigrationAlbum} {index : ExtTreeMap String (List String)}
    {operationId : String}
    (found : operationId ∈ albums.foldl (fun index album =>
      album.memberOperationIds.foldl (pushAlbum album.name) index) index) :
    operationId ∈ index ∨ ∃ album ∈ albums, operationId ∈ album.memberOperationIds := by
  induction albums generalizing index with
  | nil => exact .inl found
  | cons album rest induction =>
      rcases induction found with inside | ⟨other, member, listed⟩
      · rcases mem_foldl_pushAlbum inside with inside | listed
        · exact .inl inside
        · exact .inr ⟨album, List.mem_cons_self, listed⟩
      · exact .inr ⟨other, List.mem_cons_of_mem _ member, listed⟩

/-- Assets with different operations take their album names and nothing else out of the map. -/
theorem executionOperations_eq {assets : List MigrationAsset}
    (distinct : (assets.map MigrationAsset.operationId).Nodup)
    (albums : ExtTreeMap String (List String)) :
    (executionOperations assets albums).1 =
        assets.map (fun asset => executionOperation asset (albums.getD asset.operationId [])) ∧
      ∀ operationId ∈ (executionOperations assets albums).2,
        operationId ∈ albums ∧ operationId ∉ assets.map MigrationAsset.operationId := by
  induction assets generalizing albums with
  | nil => exact ⟨rfl, fun operationId member => ⟨member, List.not_mem_nil⟩⟩
  | cons asset rest induction =>
      obtain ⟨absent, distinct⟩ := List.nodup_cons.mp distinct
      obtain ⟨operations, remaining⟩ := induction distinct (albums.erase asset.operationId)
      refine ⟨?_, fun operationId member => ?_⟩
      · rw [executionOperations, List.map_cons, operations]
        refine congrArg _ (List.map_congr_left fun other member => ?_)
        have different : compare asset.operationId other.operationId ≠ .eq := fun equal =>
          absent (Std.LawfulEqCmp.eq_of_compare equal ▸ List.mem_map_of_mem member)
        rw [ExtTreeMap.getD_erase, if_neg different]
      · obtain ⟨inside, outside⟩ := remaining operationId member
        rw [ExtTreeMap.mem_erase] at inside
        refine ⟨inside.2, fun listed => ?_⟩
        rcases List.mem_cons.mp listed with rfl | listed
        · exact inside.1 Std.ReflCmp.compare_self
        · exact outside listed

/-! ## What an execution plan keeps -/

/-- The operation which stands for an asset: the same identifiers, facts and role, the same
assignable metadata, and the albums which list it. -/
structure Migrates (plan : MigrationPlan) (asset : MigrationAsset) (operation : UploadOperation) :
    Prop where
  operationId : operation.operationId = asset.operationId
  mediaKind : operation.mediaKind = asset.mediaKind
  byteLen : operation.byteLen = asset.byteLen
  content : operation.contentSha256 = asset.contentSha256
  created : operation.createdAtUnixMs = asset.createdAtUnixMs
  modified : operation.modifiedAtUnixMs = asset.modifiedAtUnixMs
  role : operation.role = asset.role
  albums : ∀ name, name ∈ operation.albums ↔ ∃ album ∈ plan.albums,
    album.name = name ∧ asset.operationId ∈ album.memberOperationIds
  description : operation.normalizedMetadata.bind NormalizedMetadata.description =
    asset.normalizedMetadata.bind NormalizedMetadata.description
  takenAt : operation.normalizedMetadata.bind NormalizedMetadata.takenAtUtc =
    asset.normalizedMetadata.bind NormalizedMetadata.takenAtUtc
  location : operation.normalizedMetadata.bind NormalizedMetadata.location =
    asset.normalizedMetadata.bind NormalizedMetadata.location

/-- An import plan with the meaning of a migration plan. -/
structure Executes (platform : Platform) (plan : MigrationPlan) (execution : UploadPlan) :
    Prop where
  operations : List.Forall₂ (Migrates plan) plan.assets execution.operations
  counters : execution.summary.operations = plan.summary.assets ∧
    execution.summary.mediaBytes = plan.summary.mediaBytes ∧
    execution.summary.metadataUpdates = plan.summary.metadataUpdates ∧
    execution.summary.albumCreates = plan.summary.albumCreates ∧
    execution.summary.albumMemberships = plan.summary.albumMemberships ∧
    execution.summary.maxMutations = plan.summary.maxMutations
  valid : execution.validate platform = .ok ()

theorem mem_albumNamesOf {albums : List MigrationAlbum} {operationId name : String} :
    name ∈ albumNamesOf albums operationId ↔ ∃ album ∈ albums,
      album.name = name ∧ operationId ∈ album.memberOperationIds := by
  simp only [albumNamesOf, List.mem_map, List.mem_filter, List.contains_iff_mem]
  constructor
  · rintro ⟨album, ⟨member, listed⟩, same⟩
    exact ⟨album, member, same, listed⟩
  · rintro ⟨album, member, same, listed⟩
    exact ⟨album, ⟨member, listed⟩, same⟩

/-- The merged metadata of an operation, whether it is kept or dropped as empty. -/
theorem executionOperation_metadata (asset : MigrationAsset) (albums : List String) :
    (executionOperation asset albums).albums = albums ∧
      (executionOperation asset albums).normalizedMetadata.bind NormalizedMetadata.description =
        asset.normalizedMetadata.bind NormalizedMetadata.description ∧
      (executionOperation asset albums).normalizedMetadata.bind NormalizedMetadata.takenAtUtc =
        asset.normalizedMetadata.bind NormalizedMetadata.takenAtUtc ∧
      (executionOperation asset albums).normalizedMetadata.bind NormalizedMetadata.location =
        asset.normalizedMetadata.bind NormalizedMetadata.location := by
  have getD_empty : ∀ {α : Type} (field : NormalizedMetadata → Option α),
      field .empty = none →
        field (asset.normalizedMetadata.getD .empty) = asset.normalizedMetadata.bind field := by
    intro α field absent
    cases asset.normalizedMetadata with
    | none => exact absent
    | some metadata => rfl
  have description := getD_empty NormalizedMetadata.description rfl
  have takenAt := getD_empty NormalizedMetadata.takenAtUtc rfl
  have location := getD_empty NormalizedMetadata.location rfl
  by_cases dropped :
      { asset.normalizedMetadata.getD .empty with albums } = NormalizedMetadata.empty
  · have fields := dropped
    rw [NormalizedMetadata.empty, NormalizedMetadata.mk.injEq] at fields
    obtain ⟨noDescription, noTakenAt, noLocation, noAlbums⟩ := fields
    simp only [executionOperation, UploadOperation.albums, if_pos dropped, Option.bind_none]
    exact ⟨noAlbums.symm, noDescription ▸ description, noTakenAt ▸ takenAt,
      noLocation ▸ location⟩
  · simp only [executionOperation, UploadOperation.albums, if_neg dropped, Option.bind_some]
    exact ⟨trivial, description, takenAt, location⟩

section

variable {platform : Platform} {plan : MigrationPlan}

/-- The operations of the execution plan of an accepted migration. -/
def migratedOperations (plan : MigrationPlan) : List UploadOperation :=
  plan.assets.map fun asset =>
    executionOperation asset (albumNamesOf plan.albums asset.operationId)

theorem MigrationPlan.Accepted.operations (accepted : plan.Accepted platform) :
    (executionOperations plan.assets (albumsByOperation plan.albums)).1 =
        migratedOperations plan ∧
      (executionOperations plan.assets (albumsByOperation plan.albums)).2.isEmpty = true := by
  obtain ⟨operations, remaining⟩ :=
    executionOperations_eq accepted.unique (albumsByOperation plan.albums)
  refine ⟨?_, ?_⟩
  · rw [operations]
    refine List.map_congr_left fun asset _ => ?_
    rw [getD_albumsByOperation fun album member => (accepted.albums album member).2.2.1]
  · rw [ExtTreeMap.isEmpty_iff]
    refine ExtTreeMap.ext_getElem? fun {operationId} => ?_
    rw [ExtTreeMap.getElem?_empty]
    refine ExtTreeMap.getElem?_eq_none fun member => ?_
    obtain ⟨inside, outside⟩ := remaining operationId member
    rcases mem_foldl_albums inside with absent | ⟨album, listed, belongs⟩
    · exact ExtTreeMap.not_mem_empty absent
    · exact outside ((accepted.albums album listed).2.2.2 operationId belongs)

theorem migrates_executionOperation (asset : MigrationAsset) :
    Migrates plan asset (executionOperation asset (albumNamesOf plan.albums asset.operationId)) := by
  obtain ⟨albums, description, takenAt, location⟩ :=
    executionOperation_metadata asset (albumNamesOf plan.albums asset.operationId)
  refine ⟨rfl, rfl, rfl, rfl, rfl, rfl, rfl, fun name => ?_, description, takenAt, location⟩
  rw [albums, mem_albumNamesOf]

/-- Assignments are those of the asset: album names are not sent by a metadata update. -/
theorem assignsMetadata_executionOperation (asset : MigrationAsset) (albums : List String) :
    (executionOperation asset albums).assignsMetadata =
      asset.normalizedMetadata.any hasAssignment := by
  obtain ⟨_, description, takenAt, location⟩ := executionOperation_metadata asset albums
  have fields : ∀ metadata : Option NormalizedMetadata, metadata.any hasAssignment =
      ((metadata.bind NormalizedMetadata.description).isSome ||
        (metadata.bind NormalizedMetadata.takenAtUtc).isSome ||
        (metadata.bind NormalizedMetadata.location).isSome) := by
    intro metadata
    cases metadata <;> rfl
  rw [UploadOperation.assignsMetadata, fields, fields, description, takenAt, location]

/-- Every album of an accepted migration is an album of some operation, and no other is. -/
theorem MigrationPlan.Accepted.albumNames (accepted : plan.Accepted platform) :
    (albumNames (migratedOperations plan)).toList.Perm
      (plan.albums.map MigrationAlbum.name) := by
  have sorted : (plan.albums.map MigrationAlbum.name).Nodup :=
    accepted.names.imp fun less => ne_of_lt less
  refine (List.perm_ext_iff_of_nodup (nodup_albumNames _) sorted).mpr fun name => ?_
  rw [mem_albumNames, List.mem_map]
  constructor
  · rintro ⟨operation, member, listed⟩
    obtain ⟨asset, _, rfl⟩ := List.mem_map.mp member
    rw [(executionOperation_metadata asset _).1, mem_albumNamesOf] at listed
    obtain ⟨album, member, same, _⟩ := listed
    exact ⟨album, member, same⟩
  · rintro ⟨album, member, rfl⟩
    obtain ⟨_, nonempty, _, known⟩ := accepted.albums album member
    obtain ⟨operationId, listed⟩ := List.exists_mem_of_ne_nil _ nonempty
    obtain ⟨asset, assetMember, rfl⟩ := List.mem_map.mp (known operationId listed)
    refine ⟨_, List.mem_map_of_mem assetMember, ?_⟩
    rw [(executionOperation_metadata asset _).1, mem_albumNamesOf]
    exact ⟨album, member, rfl, listed⟩

/-- The two summary formulas agree. -/
theorem MigrationPlan.Accepted.counters (accepted : plan.Accepted platform) :
    sameCounters (expectedSummary uploadPlanSchemaVersionV2 (migratedOperations plan))
      plan.summary = true := by
  have operations : (migratedOperations plan).length = plan.assets.length := by
    rw [migratedOperations, List.length_map]
  have bytes : ((migratedOperations plan).map UploadOperation.byteLen).sum =
      (plan.assets.map MigrationAsset.byteLen).sum := by
    rw [migratedOperations, List.map_map]
    rfl
  have updates : (migratedOperations plan).countP UploadOperation.assignsMetadata =
      plan.assets.countP fun asset => asset.normalizedMetadata.any hasAssignment := by
    rw [migratedOperations, List.countP_map]
    exact List.countP_congr fun asset _ => by
      rw [Function.comp_apply, assignsMetadata_executionOperation]
  have albums : (ImmichRs.albumNames (migratedOperations plan)).size = plan.albums.length := by
    rw [← ExtTreeSet.length_toList, accepted.albumNames.length_eq, List.length_map]
  rw [← accepted.summary]
  simp only [sameCounters, expectedSummary, expectedMigrationSummary, beq_self_eq_true, if_true,
    operations, bytes, updates, albums, Bool.and_self]

/-! ## Acceptance of the execution plan -/

theorem relativePath_executionOperation_lt {first second : MigrationAsset}
    (firstUuid : uuidV4 first.sourceAssetId = true)
    (secondUuid : uuidV4 second.sourceAssetId = true)
    (less : first.sourceAssetId < second.sourceAssetId) (left right : List String) :
    (executionOperation first left).relativePath < (executionOperation second right).relativePath := by
  have same : first.sourceAssetId.toList.length = second.sourceAssetId.toList.length := by
    rw [length_of_uuidV4 firstUuid, length_of_uuidV4 secondUuid]
  have ordered := append_lt_append_of_length same (String.lt_iff_toList_lt.mp less)
    ("/".toList ++ first.originalFileName.toList) ("/".toList ++ second.originalFileName.toList)
  rw [String.lt_iff_toList_lt]
  simp only [executionOperation, String.toList_append, List.append_assoc]
  exact List.append_left_lt ordered

theorem MigrationPlan.Accepted.valid_operation (accepted : plan.Accepted platform)
    {asset : MigrationAsset} (member : asset ∈ plan.assets) :
    (executionOperation asset (albumNamesOf plan.albums asset.operationId)).Valid platform := by
  have checked := accepted.valid asset member
  simp only [MigrationAsset.isValid, Bool.and_eq_true, bne_iff_ne, ne_eq, Bool.not_eq_true',
    Option.any_eq_false, Bool.or_eq_false_iff, Bool.not_eq_false'] at checked
  obtain ⟨⟨⟨⟨⟨⟨⟨⟨_, operationId⟩, _⟩, length⟩, _⟩, content⟩, _⟩, _⟩, metadata⟩ := checked
  refine ⟨?_, lowerHex_isSha256 operationId, lowerHex_isSha256 content, length, ?_, ?_⟩
  · simp [executionOperation, String.isEmpty]
  · rintro sidecar ⟨⟩
  · intro merged kept
    have names : (albumNamesOf plan.albums asset.operationId).Pairwise (· < ·) :=
      accepted.names.sublist (List.filter_sublist.map _)
    have albums : ∀ name ∈ albumNamesOf plan.albums asset.operationId,
        validAlbum name = true := by
      intro name listed
      obtain ⟨album, albumMember, rfl, _⟩ := mem_albumNamesOf.mp listed
      exact (accepted.albums album albumMember).1
    have original : (asset.normalizedMetadata.getD .empty).isValid platform = true := by
      cases own : asset.normalizedMetadata with
      | none => rfl
      | some value => exact (metadata value own).1
    simp only [executionOperation, Option.mem_def, Option.ite_none_left_eq_some,
      Option.some.injEq] at kept
    obtain ⟨_, rfl⟩ := kept
    simp only [NormalizedMetadata.isValid, Bool.and_eq_true] at original ⊢
    exact ⟨⟨original.1.1, List.all_eq_true.mpr albums⟩, strictlySorted_of_pairwise names⟩

theorem MigrationPlan.Accepted.sorted_paths (accepted : plan.Accepted platform) :
    ((migratedOperations plan).map UploadOperation.relativePath).Pairwise (· < ·) := by
  have uuid : ∀ asset ∈ plan.assets, uuidV4 asset.sourceAssetId = true := by
    intro asset member
    have checked := accepted.valid asset member
    simp only [MigrationAsset.isValid, Bool.and_eq_true] at checked
    exact checked.1.1.1.1.1.1.1.1
  have sorted := List.pairwise_map.mp accepted.sorted
  rw [migratedOperations, List.map_map, List.pairwise_map]
  refine sorted.imp_of_mem fun {first second} firstMember secondMember less => ?_
  exact relativePath_executionOperation_lt (uuid first firstMember) (uuid second secondMember)
    less _ _

theorem MigrationPlan.Accepted.upload (accepted : plan.Accepted platform)
    {migrationSha256 : String} (digest : isSha256 migrationSha256 = true) :
    (migrationUploadPlan plan migrationSha256 (migratedOperations plan)).Accepted platform where
  schema := .inr rfl
  identities := ⟨digest, lowerHex_isSha256 accepted.identities.2.2,
    lowerHex_isSha256 accepted.identities.2.1, lowerHex_isSha256 accepted.identities.1⟩
  source := rfl
  folderMetadata folder := by cases folder
  valid operation member := by
    obtain ⟨asset, assetMember, rfl⟩ := List.mem_map.mp member
    exact accepted.valid_operation assetMember
  sorted := accepted.sorted_paths
  unique := by
    have same : (migratedOperations plan).map UploadOperation.operationId =
        plan.assets.map MigrationAsset.operationId := by
      rw [migratedOperations, List.map_map]
      rfl
    exact same ▸ accepted.unique
  dependencies image member pairId videoOperationId role := by
    obtain ⟨asset, assetMember, rfl⟩ := List.mem_map.mp member
    obtain ⟨video, videoMember, same, videoRole⟩ :=
      accepted.dependencies asset assetMember pairId videoOperationId role
    exact ⟨_, List.mem_map_of_mem videoMember, same, videoRole⟩
  summary := rfl

/-- A hexadecimal digest of a serialized value. -/
theorem isSha256_compactSha256_of {json : String}
    (digests : ∀ bytes, isLowerSha256 (platform.sha256 bytes) = true) :
    isSha256 (compactSha256 platform json) = true :=
  isSha256_of_isLowerSha256 (digests (utf8Bytes json))

/-- What `execution_plan` returns for an accepted migration. -/
theorem executionPlan_eq (digests : ∀ bytes, isLowerSha256 (platform.sha256 bytes) = true)
    (valid : plan.validate platform = .ok ()) :
    executionPlan platform plan = .ok (migrationUploadPlan plan
      (compactSha256 platform plan.serialize) (migratedOperations plan)) := by
  have accepted := MigrationPlan.accepted_of_validate platform valid
  obtain ⟨operations, consumed⟩ := accepted.operations
  have digest : migrationPlanSha256 platform plan =
      .ok (compactSha256 platform plan.serialize) := by
    rw [migrationPlanSha256, accepted.schema, valid]
    rfl
  have upload := (UploadPlan.validate_ok_iff platform (migrationUploadPlan plan
    (compactSha256 platform plan.serialize) (migratedOperations plan))).mpr
      (accepted.upload (isSha256_compactSha256_of digests))
  have counters := accepted.counters
  simp only [executionPlan, valid, digest, Except.mapError, bind, Except.bind, operations, consumed,
    counters, reject, Bool.not_true, Bool.false_eq_true, if_false, upload]
  rfl

theorem MigrationPlan.Accepted.executes (accepted : plan.Accepted platform)
    (digests : ∀ bytes, isLowerSha256 (platform.sha256 bytes) = true) :
    Executes platform plan (migrationUploadPlan plan (compactSha256 platform plan.serialize)
      (migratedOperations plan)) := by
  refine ⟨?_, ?_, ?_⟩
  · exact List.forall₂_map_right_iff.mpr
      (List.forall₂_same.mpr fun asset _ => migrates_executionOperation asset)
  · have counters := accepted.counters
    simp only [sameCounters, Bool.and_eq_true, beq_iff_eq] at counters
    obtain ⟨⟨⟨⟨⟨operations, bytes⟩, updates⟩, creates⟩, memberships⟩, mutations⟩ := counters
    exact ⟨operations, bytes, updates, creates, memberships, mutations⟩
  · exact (UploadPlan.validate_ok_iff platform _).mpr
      (accepted.upload (isSha256_compactSha256_of digests))

/-- Every accepted migration has an execution plan with its meaning. -/
theorem executionPlan_executes
    (digests : ∀ bytes, isLowerSha256 (platform.sha256 bytes) = true)
    (valid : plan.validate platform = .ok ()) :
    ∃ execution, executionPlan platform plan = .ok execution ∧
      Executes platform plan execution :=
  ⟨_, executionPlan_eq digests valid,
    (MigrationPlan.accepted_of_validate platform valid).executes digests⟩

end

/-! ## A migrated live photo -/

/-- An endpoint whose digests repeat one digit. -/
def sampleServer (digit : Char) : MigrationServer :=
  { compatibility := { version := { major := 3, minor := 1, patch := 0 }
                       identitySha256 := digestOf digit }
    originSha256 := digestOf digit }

/-- An asset whose identifiers repeat one digit. -/
def migratedAsset (sourceAssetId : String) (digit : Char) (originalFileName : String)
    (mediaKind : MediaKind) (role : UploadRole) : MigrationAsset :=
  { sourceAssetId
    operationId := digestOf digit
    originalFileName
    mediaKind
    byteLen := 1
    checksumSha1 := String.ofList (List.replicate 40 digit)
    contentSha256 := digestOf digit
    createdAtUnixMs := 0
    modifiedAtUnixMs := 0
    normalizedMetadata := none
    role }

/-- A live photo whose still image is in one album. -/
def liveMigration : MigrationPlan :=
  let assets :=
    [migratedAsset "00000000-0000-4000-8000-000000000001" 'a' "a.heic" .image
        (.livePhotoImage (digestOf '1') (digestOf 'c')),
      migratedAsset "00000000-0000-4000-8000-000000000002" 'c' "a.mov" .video
        (.livePhotoVideo (digestOf '1'))]
  let albums := [{ name := "Trip", memberOperationIds := [digestOf 'a'] }]
  { schemaVersion := migrationPlanSchemaVersion
    sourceServer := sampleServer '2'
    destinationServer := sampleServer '3'
    sourceFingerprintSha256 := digestOf '4'
    configurationSha256 := digestOf '5'
    assets
    albums
    summary := expectedMigrationSummary assets albums }

theorem liveMigration_validate : liveMigration.validate .reference = .ok () := by
  decide +kernel

/-- The still image of the live photo is uploaded into the album. -/
theorem liveMigration_executes :
    ∃ execution, executionPlan .reference liveMigration = .ok execution ∧
      Executes .reference liveMigration execution :=
  executionPlan_executes isLowerSha256_sha256Hex liveMigration_validate

end ImmichRs
