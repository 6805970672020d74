import ImmichRs.Client.Migration
import ImmichRs.Executor.MigrationExecution
import ImmichRs.Executor.Schedule

/-!
# Assembly of migration plans

`assembleMigrationPlan` turns the inventory of a source server into a migration plan.  The roles of
live photos are collected in a map which is overwritten while the images are visited; the checks of
each image make the result independent of that order.
-/

namespace ImmichRs

open Std (ExtTreeMap ExtTreeSet)

/-! ## Configuration -/

/-- Limits which are bound into a migration plan. -/
structure MigrationPlanningConfig where
  inventory : MigrationListConfig
  maxAssetBytes : Nat
  maxTotalBytes : Nat
  upload : UploadExecutionConfig
  deriving DecidableEq, Repr

/-- `MigrationPlanningConfig::default`. -/
def MigrationPlanningConfig.default : MigrationPlanningConfig :=
  { inventory :=
      { pageSize := 100, maxAssets := 100000, maxAlbums := 10000, maxAlbumMemberships := 1000000 }
    maxAssetBytes := 1024 ^ 4
    maxTotalBytes := 16 * 1024 ^ 4
    upload := .default }

/-- `MigrationPlanningConfig::validate`. -/
def MigrationPlanningConfig.validate (config : MigrationPlanningConfig) :
    Except ExecutorError Unit := do
  config.upload.validate
  reject (!(within 1 1000 config.inventory.pageSize && decide (0 < config.inventory.maxAssets) &&
    decide (0 < config.inventory.maxAlbums) && decide (0 < config.inventory.maxAlbumMemberships) &&
    config.upload.concurrency == 1 && decide (0 < config.maxAssetBytes) &&
    decide (config.maxAssetBytes ≤ config.maxTotalBytes))) .invalidConfiguration

/-- The bytes of values which are separated by a zero byte. -/
def zeroSeparated (values : List String) : List UInt8 :=
  ([0] : List UInt8).intercalate (values.map utf8Bytes)

/-- `u64::to_be_bytes`, and `i64::to_be_bytes` of the two's complement. -/
def u64BigEndian (value : Nat) : List UInt8 :=
  [56, 48, 40, 32, 24, 16, 8, 0].map fun shift => UInt8.ofNat (value / 2 ^ shift)

/-- The 64-bit two's complement of an integer. -/
def twosComplement (value : Int) : Nat := (value % 2 ^ 64).toNat

section

variable (platform : Platform)

/-- `MigrationPlanningConfig::identity`. -/
def MigrationPlanningConfig.identity (config : MigrationPlanningConfig) :
    Except ExecutorError String := do
  let upload ← config.upload.identitySha256 platform
  return platform.sha256 (zeroSeparated
    ["migration-config-v1", toString config.inventory.pageSize,
      toString config.inventory.maxAssets, toString config.inventory.maxAlbums,
      toString config.inventory.maxAlbumMemberships, toString config.maxAssetBytes,
      toString config.maxTotalBytes, upload])

/-- `operation_id` of a migration. -/
def migrationOperationId (source : MigrationServer) (asset : RemoteMigrationAsset)
    (contentSha256 : String) : String :=
  let values :=
    ["immich-migration-operation-v1", source.compatibility.identitySha256, asset.assetId,
      asset.originalFileName, asset.checksumSha1, contentSha256,
      jsonOption NormalizedMetadata.serialize asset.normalizedMetadata]
  platform.sha256 (values.flatMap (fun value => utf8Bytes value ++ [0]) ++
    u64BigEndian asset.byteLen.toNat ++ u64BigEndian (twosComplement asset.createdAtUnixMs) ++
    u64BigEndian (twosComplement asset.modifiedAtUnixMs))

/-- `pair_id` of a migration. -/
def migrationPairId (imageId videoId : String) : String :=
  platform.sha256 (zeroSeparated ["immich-migration-live-photo-v1", imageId, videoId])

/-- `source_fingerprint` of a migration. -/
def migrationFingerprint (source : MigrationServer) (assets : List MigrationAsset)
    (albums : List MigrationAlbum) : String :=
  compactSha256 platform (jsonArray
    [source.serialize, jsonArray (assets.map MigrationAsset.serialize),
      jsonArray (albums.map MigrationAlbum.serialize)])

/-! ## Assembly -/

/-- The operation of each asset, as they are collected into a map. -/
def migrationOperationIds (source : MigrationServer) (contentSha256 : ExtTreeMap String String) :
    List RemoteMigrationAsset → ExtTreeMap String String →
      Except ExecutorError (ExtTreeMap String String)
  | [], ids => .ok ids
  | asset :: rest, ids =>
      match contentSha256[asset.assetId]? with
      | none => .error .sourceChanged
      | some body =>
          migrationOperationIds source contentSha256 rest
            (ids.insert asset.assetId (migrationOperationId platform source asset body))

/-- The loop of `live_photo_roles` over the images, with the owners of the videos so far. -/
def livePhotoRolesLoop (byId : ExtTreeMap String RemoteMigrationAsset)
    (operationIds : ExtTreeMap String String) :
    List RemoteMigrationAsset → ExtTreeMap String String → ExtTreeMap String UploadRole →
      Except ExecutorError (ExtTreeMap String UploadRole)
  | [], _, roles => .ok roles
  | image :: rest, videoOwners, roles =>
      match image.livePhotoVideoId with
      | none => livePhotoRolesLoop byId operationIds rest videoOwners roles
      | some videoId =>
          match byId[videoId]? with
          | none => .error .unsupportedMetadata
          | some video => do
              reject (image.mediaKind != .image || video.mediaKind != .video ||
                video.livePhotoVideoId.isSome || videoOwners.contains videoId)
                .unsupportedMetadata
              match operationIds[videoId]? with
              | none => .error .invariant
              | some videoOperationId =>
                  let pairId := migrationPairId platform image.assetId videoId
                  livePhotoRolesLoop byId operationIds rest
                    (videoOwners.insert videoId image.assetId)
                    ((roles.insert image.assetId (.livePhotoImage pairId videoOperationId)).insert
                      videoId (.livePhotoVideo pairId))

/-- `by_id` of `live_photo_roles`. -/
def assetsById (assets : List RemoteMigrationAsset) : ExtTreeMap String RemoteMigrationAsset :=
  Collections.fill RemoteMigrationAsset.assetId id assets ∅

/-- The roles which `live_photo_roles` starts from. -/
def standaloneRoles (assets : List RemoteMigrationAsset) : ExtTreeMap String UploadRole :=
  Collections.fill RemoteMigrationAsset.assetId (fun _ => .standalone) assets ∅

/-- `live_photo_roles`. -/
def livePhotoRoles (assets : List RemoteMigrationAsset)
    (operationIds : ExtTreeMap String String) :
    Except ExecutorError (ExtTreeMap String UploadRole) :=
  livePhotoRolesLoop platform (assetsById assets) operationIds assets ∅ (standaloneRoles assets)

end

/-- `map.get(key).ok_or_else(invariant)`. -/
def requireEntry {α : Type} (entries : ExtTreeMap String α) (key : String) :
    Except ExecutorError α :=
  match entries[key]? with
  | none => .error .invariant
  | some value => .ok value

/-- One asset of the plan. -/
def migrationAsset (operationIds contentSha256 : ExtTreeMap String String)
    (roles : ExtTreeMap String UploadRole) (asset : RemoteMigrationAsset) :
    Except ExecutorError MigrationAsset := do
  let operationId ← requireEntry operationIds asset.assetId
  let content ← requireEntry contentSha256 asset.assetId
  let role ← requireEntry roles asset.assetId
  return { sourceAssetId := asset.assetId, operationId, originalFileName := asset.originalFileName
           mediaKind := asset.mediaKind, byteLen := asset.byteLen
           checksumSha1 := asset.checksumSha1, contentSha256 := content
           createdAtUnixMs := asset.createdAtUnixMs, modifiedAtUnixMs := asset.modifiedAtUnixMs
           normalizedMetadata := asset.normalizedMetadata, role }

/-- `Vec::dedup`. -/
def dedupAdjacent : List String → List String
  | first :: second :: rest =>
      if first = second then dedupAdjacent (second :: rest)
      else first :: dedupAdjacent (second :: rest)
  | values => values

/-- One album of the plan. -/
def migrationAlbum (operationIds : ExtTreeMap String String) (album : RemoteOwnedAlbum) :
    Except ExecutorError MigrationAlbum := do
  let members ← album.assetIds.mapM (requireEntry operationIds)
  return { name := album.name
           memberOperationIds := dedupAdjacent (members.insertionSort (· ≤ ·)) }

/-- `migration_albums`. -/
def migrationAlbums (albums : List RemoteOwnedAlbum) (operationIds : ExtTreeMap String String) :
    Except ExecutorError (List MigrationAlbum) := do
  return (← albums.mapM (migrationAlbum operationIds)).insertionSort fun left right =>
    left.name ≤ right.name

/-- `summary` of the assembly, the formula of `expected_summary`. -/
def migrationSummary (assets : List MigrationAsset) (albums : List MigrationAlbum) :
    MigrationPlanSummary :=
  expectedMigrationSummary assets albums

/-- `assemble_migration_plan`. -/
def assembleMigrationPlan (platform : Platform) (inventory : RemoteMigrationInventory)
    (sourceServer destinationServer : MigrationServer)
    (contentSha256 : ExtTreeMap String String) (config : MigrationPlanningConfig) :
    Except ExecutorError MigrationPlan := do
  config.validate
  let operationIds ←
    migrationOperationIds platform sourceServer contentSha256 inventory.assets ∅
  reject (operationIds.size != inventory.assets.length ||
    contentSha256.size != inventory.assets.length) .sourceChanged
  let roles ← livePhotoRoles platform inventory.assets operationIds
  let assets ← inventory.assets.mapM (migrationAsset operationIds contentSha256 roles)
  let albums ← migrationAlbums inventory.albums operationIds
  let plan : MigrationPlan :=
    { schemaVersion := migrationPlanSchemaVersion
      sourceServer
      destinationServer
      sourceFingerprintSha256 := migrationFingerprint platform sourceServer assets albums
      configurationSha256 := ← config.identity platform
      assets
      albums
      summary := migrationSummary assets albums }
  Except.mapError (fun _ => .invalidPlan) (plan.validate platform)
  return plan

/-! ## Roles of live photos -/

section

variable {platform : Platform} {source : MigrationServer}
  {contentSha256 operationIds : ExtTreeMap String String}
  {byId : ExtTreeMap String RemoteMigrationAsset}

theorem migrationOperationIds_eq {assets : List RemoteMigrationAsset}
    {ids result : ExtTreeMap String String}
    (returned : migrationOperationIds platform source contentSha256 assets ids = .ok result) :
    result = Collections.fill RemoteMigrationAsset.assetId
      (fun asset => migrationOperationId platform source asset
        (contentSha256.getD asset.assetId "")) assets ids := by
  induction assets generalizing ids with
  | nil => exact (Except.ok.inj returned).symm
  | cons asset rest induction =>
      rw [migrationOperationIds] at returned
      cases found : contentSha256[asset.assetId]? with
      | none =>
          rw [found] at returned
          cases returned
      | some body =>
          rw [found] at returned
          rw [induction returned]
          simp only [Collections.fill, List.foldl_cons, ExtTreeMap.getD_eq_getD_getElem?, found,
            Option.getD_some]

/-- An image which passed the checks of `live_photo_roles`. -/
structure PairChecked (byId : ExtTreeMap String RemoteMigrationAsset)
    (operationIds : ExtTreeMap String String) (image : RemoteMigrationAsset)
    (videoId videoOperationId : String) : Prop where
  video : ∃ video, byId[videoId]? = some video ∧ video.livePhotoVideoId = none ∧
    video.mediaKind = .video
  image : image.mediaKind = .image
  operation : operationIds[videoId]? = some videoOperationId

/-- How an asset gets its role from the images of a list. -/
inductive RoleFrom (platform : Platform) (operationIds : ExtTreeMap String String)
    (images : List RemoteMigrationAsset) (roles : ExtTreeMap String UploadRole) (assetId : String) :
    UploadRole → Prop
  | image {image : RemoteMigrationAsset} {videoId videoOperationId : String} :
      image ∈ images → image.assetId = assetId → image.livePhotoVideoId = some videoId →
      operationIds[videoId]? = some videoOperationId →
      RoleFrom platform operationIds images roles assetId
        (.livePhotoImage (migrationPairId platform assetId videoId) videoOperationId)
  | video {image : RemoteMigrationAsset} :
      image ∈ images → image.livePhotoVideoId = some assetId →
      RoleFrom platform operationIds images roles assetId
        (.livePhotoVideo (migrationPairId platform image.assetId assetId))
  | other {role : UploadRole} :
      roles[assetId]? = some role →
      (∀ image ∈ images, image.assetId = assetId → image.livePhotoVideoId = none) →
      (∀ image ∈ images, image.livePhotoVideoId ≠ some assetId) →
      RoleFrom platform operationIds images roles assetId role

/-- One checked image in front of the others. -/
theorem RoleFrom.cons {image : RemoteMigrationAsset} {rest : List RemoteMigrationAsset}
    {roles : ExtTreeMap String UploadRole} {videoId videoOperationId assetId : String}
    {role : UploadRole} (names : image.livePhotoVideoId = some videoId)
    (operation : operationIds[videoId]? = some videoOperationId)
    (origin : RoleFrom platform operationIds rest
      ((roles.insert image.assetId (.livePhotoImage
        (migrationPairId platform image.assetId videoId) videoOperationId)).insert videoId
          (.livePhotoVideo (migrationPairId platform image.assetId videoId))) assetId role) :
    RoleFrom platform operationIds (image :: rest) roles assetId role := by
  cases origin with
  | image member same lists found =>
      exact .image (List.mem_cons_of_mem _ member) same lists found
  | video member lists => exact .video (List.mem_cons_of_mem _ member) lists
  | other entry still unnamed =>
      by_cases isVideo : videoId = assetId
      · subst isVideo
        rw [ExtTreeMap.getElem?_insert_self, Option.some.injEq] at entry
        subst entry
        exact .video List.mem_cons_self names
      · rw [Collections.getElem?_insert_of_ne isVideo] at entry
        by_cases isImage : image.assetId = assetId
        · subst isImage
          rw [ExtTreeMap.getElem?_insert_self, Option.some.injEq] at entry
          subst entry
          exact .image List.mem_cons_self rfl names operation
        · rw [Collections.getElem?_insert_of_ne isImage] at entry
          refine .other entry (List.forall_mem_cons.mpr ⟨fun same => absurd same isImage, still⟩)
            (List.forall_mem_cons.mpr ⟨fun lists => isVideo ?_, unnamed⟩)
          rw [names, Option.some.injEq] at lists
          exact lists

theorem livePhotoRolesLoop_ok {images : List RemoteMigrationAsset}
    {videoOwners : ExtTreeMap String String} {roles result : ExtTreeMap String UploadRole}
    (returned : livePhotoRolesLoop platform byId operationIds images videoOwners roles =
      .ok result) :
    (∀ image ∈ images, ∀ videoId, image.livePhotoVideoId = some videoId →
      videoId ∉ videoOwners ∧
        ∃ videoOperationId, PairChecked byId operationIds image videoId videoOperationId) ∧
      (images.filterMap RemoteMigrationAsset.livePhotoVideoId).Nodup ∧
      ∀ assetId role, result[assetId]? = some role →
        RoleFrom platform operationIds images roles assetId role := by
  induction images generalizing videoOwners roles with
  | nil =>
      obtain rfl := Except.ok.inj returned
      exact ⟨by simp, List.nodup_nil, fun assetId role entry => .other entry (by simp) (by simp)⟩
  | cons image rest induction =>
      rw [livePhotoRolesLoop] at returned
      cases names : image.livePhotoVideoId with
      | none =>
          rw [names] at returned
          obtain ⟨checked, distinct, origin⟩ := induction returned
          refine ⟨List.forall_mem_cons.mpr ⟨fun videoId lists => ?_, checked⟩, ?_,
            fun assetId role entry => ?_⟩
          · rw [names] at lists
            cases lists
          · rw [List.filterMap_cons, names]
            exact distinct
          · cases origin assetId role entry with
            | image member same lists found =>
                exact .image (List.mem_cons_of_mem _ member) same lists found
            | video member lists => exact .video (List.mem_cons_of_mem _ member) lists
            | other entry still unnamed =>
                refine .other entry (List.forall_mem_cons.mpr ⟨fun _ => names, still⟩)
                  (List.forall_mem_cons.mpr ⟨fun lists => ?_, unnamed⟩)
                rw [names] at lists
                cases lists
      | some videoId =>
          rw [names] at returned
          cases found : byId[videoId]? with
          | none =>
              simp only [found] at returned
              cases returned
          | some video =>
              simp only [found, reject_bind_eq_ok, Bool.or_eq_false_iff, bne_eq_false_iff_eq,
                Option.isSome_eq_false_iff, Option.isNone_iff_eq_none] at returned
              obtain ⟨⟨⟨⟨isImage, isVideo⟩, single⟩, fresh⟩, returned⟩ := returned
              cases operation : operationIds[videoId]? with
              | none =>
                  rw [operation] at returned
                  cases returned
              | some videoOperationId =>
                  rw [operation] at returned
                  obtain ⟨checked, distinct, origin⟩ := induction returned
                  have unowned : videoId ∉ videoOwners := by
                    rw [← ExtTreeMap.contains_iff_mem, fresh]
                    exact Bool.false_ne_true
                  refine ⟨List.forall_mem_cons.mpr ⟨fun other lists => ?_, ?_⟩, ?_,
                    fun assetId role entry => (origin assetId role entry).cons names operation⟩
                  · rw [names, Option.some.injEq] at lists
                    subst lists
                    exact ⟨unowned, videoOperationId, ⟨video, found, single, isVideo⟩, isImage,
                      operation⟩
                  · intro other member otherVideo lists
                    obtain ⟨absent, pair⟩ := checked other member otherVideo lists
                    refine ⟨fun inside => absent ?_, pair⟩
                    rw [ExtTreeMap.mem_insert]
                    exact .inr inside
                  · rw [List.filterMap_cons, names]
                    refine List.nodup_cons.mpr ⟨fun listed => ?_, distinct⟩
                    obtain ⟨other, member, lists⟩ := List.mem_filterMap.mp listed
                    refine (checked other member videoId lists).1 ?_
                    rw [ExtTreeMap.mem_insert]
                    exact .inl Std.ReflCmp.compare_self

end

/-! ## Assembled plans -/

/-- The plan which an inventory was assembled to.  Every asset occurs once, an image names exactly
its own video, a video is named by exactly one image, and every other asset stands alone. -/
structure Assembled (inventory : RemoteMigrationInventory) (plan : MigrationPlan) : Prop where
  once : plan.assets.map MigrationAsset.sourceAssetId =
    inventory.assets.map RemoteMigrationAsset.assetId ∧
      (inventory.assets.map RemoteMigrationAsset.assetId).Nodup
  images : ∀ remote ∈ inventory.assets, ∀ videoId, remote.livePhotoVideoId = some videoId →
    ∀ asset ∈ plan.assets, asset.sourceAssetId = remote.assetId →
      ∃ video ∈ plan.assets, video.sourceAssetId = videoId ∧
        ∃ pairId, asset.role = .livePhotoImage pairId video.operationId ∧
          video.role = .livePhotoVideo pairId
  videos : ∀ video ∈ plan.assets, video.role.isLivePhotoVideo = true →
    ∃! image, image ∈ plan.assets ∧ ∃ pairId, image.role = .livePhotoImage pairId video.operationId
  others : ∀ remote ∈ inventory.assets, remote.livePhotoVideoId = none →
    (∀ image ∈ inventory.assets, image.livePhotoVideoId ≠ some remote.assetId) →
      ∀ asset ∈ plan.assets, asset.sourceAssetId = remote.assetId → asset.role = .standalone

/-- What the assembly knows about the asset of a plan. -/
structure AssetFrom (operationIds : ExtTreeMap String String)
    (roles : ExtTreeMap String UploadRole) (remote : RemoteMigrationAsset)
    (asset : MigrationAsset) : Prop where
  sourceAssetId : asset.sourceAssetId = remote.assetId
  operationId : operationIds[remote.assetId]? = some asset.operationId
  role : roles[remote.assetId]? = some asset.role

theorem requireEntry_eq_ok {α : Type} {entries : ExtTreeMap String α} {key : String} {value : α} :
    requireEntry entries key = .ok value ↔ entries[key]? = some value := by
  unfold requireEntry
  cases entries[key]? <;> simp

theorem assetFrom_of_migrationAsset {operationIds contentSha256 : ExtTreeMap String String}
    {roles : ExtTreeMap String UploadRole} {remote : RemoteMigrationAsset} {asset : MigrationAsset}
    (returned : migrationAsset operationIds contentSha256 roles remote = .ok asset) :
    AssetFrom operationIds roles remote asset := by
  simp only [migrationAsset, bind_eq_ok, requireEntry_eq_ok, pure, Except.pure,
    Except.ok.injEq] at returned
  obtain ⟨operationId, found, content, _, role, entry, rfl⟩ := returned
  exact ⟨rfl, found, entry⟩

/-- What a successful assembly went through. -/
theorem assembleMigrationPlan_ok {platform : Platform} {inventory : RemoteMigrationInventory}
    {sourceServer destinationServer : MigrationServer}
    {contentSha256 : ExtTreeMap String String} {config : MigrationPlanningConfig}
    {plan : MigrationPlan}
    (returned : assembleMigrationPlan platform inventory sourceServer destinationServer
      contentSha256 config = .ok plan) :
    plan.validate platform = .ok () ∧
      (inventory.assets.map RemoteMigrationAsset.assetId).Nodup ∧
      ∃ operationIds roles, livePhotoRoles platform inventory.assets operationIds = .ok roles ∧
        List.Forall₂ (AssetFrom operationIds roles) inventory.assets plan.assets := by
  rw [assembleMigrationPlan, bind_eq_ok] at returned
  obtain ⟨⟨⟩, _, returned⟩ := returned
  rw [bind_eq_ok] at returned
  obtain ⟨operationIds, collected, returned⟩ := returned
  rw [reject_bind_eq_ok, Bool.or_eq_false_iff, bne_eq_false_iff_eq, bind_eq_ok] at returned
  obtain ⟨⟨size, _⟩, roles, assigned, returned⟩ := returned
  simp only [bind_eq_ok] at returned
  obtain ⟨assets, listed, albums, _, identity, _, ⟨⟩, valid, last⟩ := returned
  obtain rfl := Except.ok.inj last
  rw [migrationOperationIds_eq collected] at size
  have full := size.trans (Nat.zero_add inventory.assets.length).symm
  rw [← ExtTreeMap.size_empty] at full
  obtain ⟨distinct, _⟩ := Collections.nodup_of_size_fill full
  refine ⟨?_, distinct, operationIds, roles, assigned, ?_⟩
  · exact mapError_eq_ok.mp valid
  · exact (forall₂_of_mapM listed).imp fun _ _ made => assetFrom_of_migrationAsset made

section

variable {platform : Platform} {operationIds : ExtTreeMap String String}
  {roles : ExtTreeMap String UploadRole} {inventory : RemoteMigrationInventory}
  {plan : MigrationPlan}

theorem getElem?_assetsById
    (distinct : (inventory.assets.map RemoteMigrationAsset.assetId).Nodup)
    {remote : RemoteMigrationAsset} (member : remote ∈ inventory.assets) :
    (assetsById inventory.assets)[remote.assetId]? = some remote := by
  refine (Collections.getElem?_fill id distinct ?_ remote.assetId remote).mpr
    (.inr ⟨remote, member, rfl, rfl⟩)
  intro other _
  exact ExtTreeMap.getElem?_empty

theorem mem_of_getElem?_assetsById {assetId : String} {remote : RemoteMigrationAsset}
    (found : (assetsById inventory.assets)[assetId]? = some remote) :
    remote ∈ inventory.assets ∧ remote.assetId = assetId := by
  rcases Collections.getElem?_fill_cases found with absent | ⟨other, member, same, rfl⟩
  · rw [ExtTreeMap.getElem?_empty] at absent
    cases absent
  · exact ⟨member, same⟩

/-- A role of the inventory in one of its three ways, which exclude each other. -/
theorem role_cases (distinct : (inventory.assets.map RemoteMigrationAsset.assetId).Nodup)
    (assigned : livePhotoRoles platform inventory.assets operationIds = .ok roles)
    {remote : RemoteMigrationAsset} (member : remote ∈ inventory.assets) {role : UploadRole}
    (entry : roles[remote.assetId]? = some role) :
    (∃ videoId videoOperationId, remote.livePhotoVideoId = some videoId ∧
        operationIds[videoId]? = some videoOperationId ∧
        role = .livePhotoImage (migrationPairId platform remote.assetId videoId)
          videoOperationId) ∨
      remote.livePhotoVideoId = none ∧
        ((∃ image ∈ inventory.assets, image.livePhotoVideoId = some remote.assetId ∧
            role = .livePhotoVideo (migrationPairId platform image.assetId remote.assetId)) ∨
          (∀ image ∈ inventory.assets, image.livePhotoVideoId ≠ some remote.assetId) ∧
            role = .standalone) := by
  obtain ⟨checked, _, origin⟩ := livePhotoRolesLoop_ok assigned
  have same : ∀ other ∈ inventory.assets, other.assetId = remote.assetId → other = remote :=
    fun other otherMember equal =>
      List.inj_on_of_nodup_map distinct otherMember member equal
  cases origin remote.assetId role entry with
  | image imageMember equal names operation =>
      obtain rfl := same _ imageMember equal
      exact .inl ⟨_, _, names, operation, rfl⟩
  | video imageMember names =>
      obtain ⟨_, _, ⟨video, found, single, _⟩, _, _⟩ := checked _ imageMember _ names
      rw [getElem?_assetsById distinct member, Option.some.injEq] at found
      subst found
      exact .inr ⟨single, .inl ⟨_, imageMember, names, rfl⟩⟩
  | other start still unnamed =>
      refine .inr ⟨still remote member rfl, .inr ⟨unnamed, ?_⟩⟩
      rcases Collections.getElem?_fill_cases start with absent | ⟨_, _, _, rfl⟩
      · rw [ExtTreeMap.getElem?_empty] at absent
        cases absent
      · rfl

/-- The assets of the plan belong to those of the inventory one by one. -/
structure Aligned (platform : Platform) (inventory : RemoteMigrationInventory)
    (operationIds : ExtTreeMap String String) (roles : ExtTreeMap String UploadRole)
    (plan : MigrationPlan) : Prop where
  distinct : (inventory.assets.map RemoteMigrationAsset.assetId).Nodup
  unique : (plan.assets.map MigrationAsset.operationId).Nodup
  assigned : livePhotoRoles platform inventory.assets operationIds = .ok roles
  assets : List.Forall₂ (AssetFrom operationIds roles) inventory.assets plan.assets

theorem Aligned.sources (aligned : Aligned platform inventory operationIds roles plan) :
    plan.assets.map MigrationAsset.sourceAssetId =
      inventory.assets.map RemoteMigrationAsset.assetId := by
  rw [← List.forall₂_eq_eq_eq, List.forall₂_map_left_iff, List.forall₂_map_right_iff]
  exact aligned.assets.flip.imp fun _ _ made => made.sourceAssetId

theorem Aligned.eq_of_source (aligned : Aligned platform inventory operationIds roles plan)
    {first second : MigrationAsset} (firstMember : first ∈ plan.assets)
    (secondMember : second ∈ plan.assets)
    (same : first.sourceAssetId = second.sourceAssetId) : first = second := by
  have sources := aligned.distinct
  rw [← aligned.sources] at sources
  exact List.inj_on_of_nodup_map sources firstMember secondMember same

/-- An asset of the plan was made from the asset of the inventory with its identifier. -/
theorem Aligned.assetFrom (aligned : Aligned platform inventory operationIds roles plan)
    {remote : RemoteMigrationAsset} (member : remote ∈ inventory.assets) {asset : MigrationAsset}
    (assetMember : asset ∈ plan.assets) (same : asset.sourceAssetId = remote.assetId) :
    AssetFrom operationIds roles remote asset := by
  obtain ⟨origin, originMember, made⟩ := forall₂_exists_right aligned.assets.flip assetMember
  have equal := List.inj_on_of_nodup_map aligned.distinct originMember member
    (made.sourceAssetId.symm.trans same)
  exact equal ▸ made

/-- The plan has the video of every image. -/
theorem Aligned.exists_video (aligned : Aligned platform inventory operationIds roles plan)
    {image : RemoteMigrationAsset} (member : image ∈ inventory.assets) {videoId : String}
    (names : image.livePhotoVideoId = some videoId) :
    ∃ video ∈ plan.assets, video.sourceAssetId = videoId ∧
      operationIds[videoId]? = some video.operationId ∧
      video.role = .livePhotoVideo (migrationPairId platform image.assetId videoId) := by
  obtain ⟨checked, single, _⟩ := livePhotoRolesLoop_ok aligned.assigned
  obtain ⟨_, _, ⟨remote, found, alone, _⟩, _, _⟩ := checked image member _ names
  obtain ⟨remoteMember, rfl⟩ := mem_of_getElem?_assetsById found
  obtain ⟨video, videoMember, made⟩ := forall₂_exists_right aligned.assets remoteMember
  refine ⟨video, videoMember, made.sourceAssetId, made.operationId, ?_⟩
  rcases role_cases aligned.distinct aligned.assigned remoteMember made.role with
    ⟨_, _, paired, _⟩ | ⟨_, ⟨other, otherMember, otherNames, role⟩ | ⟨unnamed, _⟩⟩
  · rw [alone] at paired
    cases paired
  · rw [role, Collections.eq_of_nodup_filterMap single otherMember member otherNames names]
  · exact absurd names (unnamed image member)

/-- The role of an image holds the operation of its video. -/
theorem Aligned.role_image (aligned : Aligned platform inventory operationIds roles plan)
    {remote : RemoteMigrationAsset} (member : remote ∈ inventory.assets) {videoId : String}
    (names : remote.livePhotoVideoId = some videoId) {asset : MigrationAsset}
    (made : AssetFrom operationIds roles remote asset) :
    ∃ videoOperationId, operationIds[videoId]? = some videoOperationId ∧
      asset.role = .livePhotoImage (migrationPairId platform remote.assetId videoId)
        videoOperationId := by
  rcases role_cases aligned.distinct aligned.assigned member made.role with
    ⟨otherId, videoOperationId, otherNames, found, role⟩ | ⟨alone, _⟩
  · rw [names, Option.some.injEq] at otherNames
    subst otherNames
    exact ⟨videoOperationId, found, role⟩
  · rw [names] at alone
    cases alone

/-- Only the image which names a video holds its operation. -/
theorem Aligned.names_of_role (aligned : Aligned platform inventory operationIds roles plan)
    {video asset : MigrationAsset} (videoMember : video ∈ plan.assets) {pairId : String}
    (role : asset.role = .livePhotoImage pairId video.operationId)
    {remote : RemoteMigrationAsset} (member : remote ∈ inventory.assets)
    (made : AssetFrom operationIds roles remote asset) :
    remote.livePhotoVideoId = some video.sourceAssetId := by
  rcases role_cases aligned.distinct aligned.assigned member made.role with
    ⟨videoId, videoOperationId, names, found, same⟩ | ⟨_, ⟨_, _, _, same⟩ | ⟨_, same⟩⟩
  · rw [role, UploadRole.livePhotoImage.injEq] at same
    obtain ⟨_, rfl⟩ := same
    obtain ⟨other, otherMember, rfl, operation, _⟩ := aligned.exists_video member names
    rw [operation, Option.some.injEq] at found
    rw [List.inj_on_of_nodup_map aligned.unique otherMember videoMember found] at names
    exact names
  · rw [role] at same
    cases same
  · rw [role] at same
    cases same

/-- A video is named by the one image whose asset names it. -/
theorem Aligned.existsUnique_image (aligned : Aligned platform inventory operationIds roles plan)
    {video : MigrationAsset} (videoMember : video ∈ plan.assets)
    (isVideo : video.role.isLivePhotoVideo = true) :
    ∃! image, image ∈ plan.assets ∧
      ∃ pairId, image.role = .livePhotoImage pairId video.operationId := by
  obtain ⟨_, single, _⟩ := livePhotoRolesLoop_ok aligned.assigned
  obtain ⟨remote, remoteMember, made⟩ := forall₂_exists_right aligned.assets.flip videoMember
  rcases role_cases aligned.distinct aligned.assigned remoteMember made.role with
    ⟨_, _, _, _, role⟩ | ⟨_, ⟨image, imageMember, names, _⟩ | ⟨_, role⟩⟩
  · rw [role] at isVideo
    cases isVideo
  · obtain ⟨asset, assetMember, madeImage⟩ := forall₂_exists_right aligned.assets imageMember
    obtain ⟨videoOperationId, found, imageRole⟩ := aligned.role_image imageMember names madeImage
    rw [made.operationId, Option.some.injEq] at found
    subst found
    refine ⟨asset, ⟨assetMember, _, imageRole⟩, ?_⟩
    rintro other ⟨otherMember, pairId, otherRole⟩
    obtain ⟨origin, originMember, madeOther⟩ :=
      forall₂_exists_right aligned.assets.flip otherMember
    have otherNames := aligned.names_of_role videoMember otherRole originMember madeOther
    rw [made.sourceAssetId] at otherNames
    have equal := Collections.eq_of_nodup_filterMap single originMember imageMember otherNames names
    refine aligned.eq_of_source otherMember assetMember ?_
    rw [madeOther.sourceAssetId, madeImage.sourceAssetId, equal]
  · rw [role] at isVideo
    cases isVideo

theorem Aligned.assembled (aligned : Aligned platform inventory operationIds roles plan) :
    Assembled inventory plan where
  once := ⟨aligned.sources, aligned.distinct⟩
  images remote member videoId names asset assetMember same := by
    have made := aligned.assetFrom member assetMember same
    obtain ⟨video, videoMember, source, operation, videoRole⟩ := aligned.exists_video member names
    obtain ⟨videoOperationId, found, role⟩ := aligned.role_image member names made
    rw [operation, Option.some.injEq] at found
    exact ⟨video, videoMember, source, _, found ▸ role, videoRole⟩
  videos video videoMember isVideo := aligned.existsUnique_image videoMember isVideo
  others remote member alone unnamed asset assetMember same := by
    have made := aligned.assetFrom member assetMember same
    rcases role_cases aligned.distinct aligned.assigned member made.role with
      ⟨_, _, names, _⟩ | ⟨_, ⟨image, imageMember, names, _⟩ | ⟨_, role⟩⟩
    · rw [alone] at names
      cases names
    · exact absurd names (unnamed image imageMember)
    · exact role

/-- The live photos of an assembled plan stay pairs in its execution plan. -/
theorem Assembled.livePhotosPaired (assembled : Assembled inventory plan)
    (accepted : plan.Accepted platform) {execution : UploadPlan}
    (executes : Executes platform plan execution) : LivePhotosPaired execution := by
  have operations := executes.operations
  have executionAccepted := (UploadPlan.validate_ok_iff platform execution).mp executes.valid
  have imageOf : ∀ video ∈ plan.assets, ∀ image ∈ execution.operations,
      image.dependsOn video.operationId = true → ∃ asset ∈ plan.assets,
        Migrates plan asset image ∧
          ∃ pairId, asset.role = .livePhotoImage pairId video.operationId := by
    intro video _ image imageMember names
    obtain ⟨pairId, role⟩ := (image.dependsOn_iff _).mp names
    obtain ⟨asset, assetMember, migrates⟩ := forall₂_exists_right operations.flip imageMember
    exact ⟨asset, assetMember, migrates, pairId, migrates.role ▸ role⟩
  constructor
  · intro operation member isVideo
    obtain ⟨video, videoMember, migrates⟩ := forall₂_exists_right operations.flip member
    rw [migrates.role] at isVideo
    obtain ⟨asset, ⟨assetMember, pairId, role⟩, _⟩ := assembled.videos video videoMember isVideo
    obtain ⟨image, imageMember, imageMigrates⟩ := forall₂_exists_right operations assetMember
    refine ⟨image, imageMember, (image.dependsOn_iff _).mpr ⟨pairId, ?_⟩⟩
    rw [imageMigrates.role, role, migrates.operationId]
  · intro operation member first firstMember second secondMember firstNames secondNames
    obtain ⟨video, videoMember, migrates⟩ := forall₂_exists_right operations.flip member
    rw [migrates.operationId] at firstNames secondNames
    obtain ⟨left, leftMember, leftMigrates, pairId, leftRole⟩ :=
      imageOf video videoMember first firstMember firstNames
    obtain ⟨right, rightMember, rightMigrates, rightRole⟩ :=
      imageOf video videoMember second secondMember secondNames
    obtain ⟨named, namedMember, namedOperation, namedRole⟩ :=
      accepted.dependencies left leftMember _ _ leftRole
    obtain rfl := List.inj_on_of_nodup_map accepted.unique namedMember videoMember namedOperation
    have isVideo : named.role.isLivePhotoVideo = true := by
      rw [namedRole]
      rfl
    obtain ⟨_, _, only⟩ := assembled.videos named videoMember isVideo
    have equal := (only left ⟨leftMember, pairId, leftRole⟩).trans
      (only right ⟨rightMember, rightRole⟩).symm
    refine executionAccepted.eq_of_operationId firstMember secondMember ?_
    rw [leftMigrates.operationId, rightMigrates.operationId, equal]

/-- An inventory either fails to assemble, or the plan keeps its assets and live photos, and the
schedule of its execution plan runs every operation once with each video directly before its
image. -/
theorem assembleMigrationPlan_assembled
    (digests : ∀ bytes, isLowerSha256 (platform.sha256 bytes) = true)
    {sourceServer destinationServer : MigrationServer}
    {contentSha256 : ExtTreeMap String String} {config : MigrationPlanningConfig}
    (returned : assembleMigrationPlan platform inventory sourceServer destinationServer
      contentSha256 config = .ok plan) :
    Assembled inventory plan ∧
      ∃ execution schedule, executionPlan platform plan = .ok execution ∧
        orderedOperations execution = .ok schedule ∧ schedule.Perm execution.operations ∧
        ∀ video ∈ execution.operations, ∀ image ∈ execution.operations,
          image.dependsOn video.operationId = true → [video, image] <:+: schedule := by
  obtain ⟨valid, distinct, operationIds, roles, assigned, assets⟩ :=
    assembleMigrationPlan_ok returned
  have accepted := MigrationPlan.accepted_of_validate platform valid
  have aligned : Aligned platform inventory operationIds roles plan :=
    ⟨distinct, accepted.unique, assigned, assets⟩
  have executes := accepted.executes digests
  obtain ⟨⟨schedule, ordered, once, adjacent⟩, _⟩ :=
    (aligned.assembled.livePhotosPaired accepted executes).schedules
      ((UploadPlan.validate_ok_iff platform _).mp executes.valid)
  exact ⟨aligned.assembled, _, schedule, executionPlan_eq digests valid, ordered, once, adjacent⟩

end

/-! ## The inventory of one live photo -/

/-- One asset of a source. -/
def remoteAsset (assetId originalFileName : String) (mediaKind : MediaKind)
    (livePhotoVideoId : Option String) : RemoteMigrationAsset :=
  { assetId
    originalFileName
    mediaKind
    byteLen := 1
    checksumSha1 := String.ofList (List.replicate 40 'a')
    createdAtUnixMs := 0
    modifiedAtUnixMs := 0
    normalizedMetadata := none
    livePhotoVideoId }

/-- The motion video of a live photo. -/
def liveVideo : RemoteMigrationAsset :=
  remoteAsset "00000000-0000-4000-8000-000000000002" "a.mov" .video none

/-- The still image of a live photo. -/
def liveImage : RemoteMigrationAsset :=
  remoteAsset "00000000-0000-4000-8000-000000000001" "a.heic" .image (some liveVideo.assetId)

/-- A source with one live photo and no albums. -/
def liveInventory : RemoteMigrationInventory :=
  { assets := [liveImage, liveVideo], albums := [] }

/-- The digests of the two files. -/
def liveDigests : ExtTreeMap String String :=
  Collections.fill RemoteMigrationAsset.assetId (fun _ => digestOf 'b') liveInventory.assets ∅

section

variable (platform : Platform)

/-- The operation of one of the two assets. -/
def liveOperationId (asset : RemoteMigrationAsset) : String :=
  migrationOperationId platform (sampleServer '2') asset (digestOf 'b')

/-- The asset of the plan with its role. -/
def liveAsset (remote : RemoteMigrationAsset) (role : UploadRole) : MigrationAsset :=
  { sourceAssetId := remote.assetId
    operationId := liveOperationId platform remote
    originalFileName := remote.originalFileName
    mediaKind := remote.mediaKind
    byteLen := remote.byteLen
    checksumSha1 := remote.checksumSha1
    contentSha256 := digestOf 'b'
    createdAtUnixMs := remote.createdAtUnixMs
    modifiedAtUnixMs := remote.modifiedAtUnixMs
    normalizedMetadata := remote.normalizedMetadata
    role }

/-- The identity of the pair. -/
def livePairId : String := migrationPairId platform liveImage.assetId liveVideo.assetId

/-- The two assets of the plan. -/
def liveAssets : List MigrationAsset :=
  [liveAsset platform liveImage
      (.livePhotoImage (livePairId platform) (liveOperationId platform liveVideo)),
    liveAsset platform liveVideo (.livePhotoVideo (livePairId platform))]

/-- The plan of the live photo for a configuration identity. -/
def livePlan (identity : String) : MigrationPlan :=
  { schemaVersion := migrationPlanSchemaVersion
    sourceServer := sampleServer '2'
    destinationServer := sampleServer '3'
    sourceFingerprintSha256 :=
      migrationFingerprint platform (sampleServer '2') (liveAssets platform) []
    configurationSha256 := identity
    assets := liveAssets platform
    albums := []
    summary := migrationSummary (liveAssets platform) [] }

variable {platform} (digests : ∀ bytes, isLowerSha256 (platform.sha256 bytes) = true)
  (different : liveOperationId platform liveImage ≠ liveOperationId platform liveVideo)
include digests

theorem liveAsset_isValid {remote : RemoteMigrationAsset} (role : UploadRole)
    (uuid : uuidV4 remote.assetId = true) (name : portableFileName remote.originalFileName = true)
    (length : remote.byteLen = 1) (checksum : lowerHex remote.checksumSha1 40 = true)
    (created : remote.createdAtUnixMs = 0) (modified : remote.modifiedAtUnixMs = 0)
    (metadata : remote.normalizedMetadata = none) :
    (liveAsset platform remote role).isValid platform = true := by
  have operation : lowerHex (liveOperationId platform remote) 64 = true := by
    rw [lowerHex_eq_isLowerSha256]
    exact digests _
  have content : lowerHex (digestOf 'b') 64 = true := by decide
  have epoch : validUnixMs 0 = true := by decide
  simp only [MigrationAsset.isValid, liveAsset, uuid, operation, name, length, checksum, content,
    created, modified, epoch, metadata, Option.any_none, Bool.not_false, Bool.and_true]
  decide

include different in
theorem liveAssets_validate :
    ∃ operations, validateAssetsOfMigration platform (liveAssets platform) = .ok operations := by
  have image : (liveAsset platform liveImage (.livePhotoImage (livePairId platform)
      (liveOperationId platform liveVideo))).isValid platform = true :=
    liveAsset_isValid digests _ (by decide) (by decide) rfl (by decide) rfl rfl rfl
  have video : (liveAsset platform liveVideo
      (.livePhotoVideo (livePairId platform))).isValid platform = true :=
    liveAsset_isValid digests _ (by decide) (by decide) rfl (by decide) rfl rfl rfl
  have ordered : decide ((liveAsset platform liveVideo
      (.livePhotoVideo (livePairId platform))).sourceAssetId ≤ (liveAsset platform liveImage
        (.livePhotoImage (livePairId platform) (liveOperationId platform liveVideo))).sourceAssetId) =
      false :=
    show decide (liveVideo.assetId ≤ liveImage.assetId) = false by decide
  rw [validateAssetsOfMigration, liveAssets]
  simp only [validateMigrationAssets, image, video, ordered, Option.any_none, Option.any_some,
    Bool.not_true, Bool.false_or, reject]
  simp [bind, Except.bind, pure, Except.pure, migrationDependencyValid, liveAsset, different]

include different in
theorem livePlan_validate (bytes : List UInt8) :
    (livePlan platform (platform.sha256 bytes)).validate platform = .ok () := by
  obtain ⟨operations, checked⟩ := liveAssets_validate digests different
  have fingerprint : lowerHex (migrationFingerprint platform (sampleServer '2')
      (liveAssets platform) []) 64 = true := by
    rw [lowerHex_eq_isLowerSha256]
    exact digests _
  have identity : lowerHex (platform.sha256 bytes) 64 = true := by
    rw [lowerHex_eq_isLowerSha256]
    exact digests bytes
  have source : serverValid (sampleServer '2') = true := by decide
  have destination : serverValid (sampleServer '3') = true := by decide
  have origins : ((sampleServer '2').originSha256 == (sampleServer '3').originSha256) = false := by
    decide
  simp only [MigrationPlan.validate, livePlan, source, destination, origins, fingerprint, identity,
    checked, validateAlbums, reject, migrationSummary]
  simp [bind, Except.bind, sampleServer]

include different in
theorem liveInventory_assembles :
    ∃ plan, assembleMigrationPlan platform liveInventory (sampleServer '2') (sampleServer '3')
      liveDigests .default = .ok plan := by
  obtain ⟨bytes, identity⟩ : ∃ bytes,
      MigrationPlanningConfig.default.identity platform = .ok (platform.sha256 bytes) :=
    ⟨_, rfl⟩
  have valid := livePlan_validate digests different bytes
  refine ⟨livePlan platform (platform.sha256 bytes), ?_⟩
  have ids : migrationOperationIds platform (sampleServer '2') liveDigests liveInventory.assets ∅ =
      .ok (Collections.fill RemoteMigrationAsset.assetId (liveOperationId platform)
        liveInventory.assets ∅) := rfl
  have roles : livePhotoRoles platform liveInventory.assets (Collections.fill
      RemoteMigrationAsset.assetId (liveOperationId platform) liveInventory.assets ∅) =
        .ok (((standaloneRoles liveInventory.assets).insert liveImage.assetId
          (.livePhotoImage (livePairId platform) (liveOperationId platform liveVideo))).insert
            liveVideo.assetId (.livePhotoVideo (livePairId platform))) := rfl
  have assets : liveInventory.assets.mapM (migrationAsset (Collections.fill
      RemoteMigrationAsset.assetId (liveOperationId platform) liveInventory.assets ∅) liveDigests
        (((standaloneRoles liveInventory.assets).insert liveImage.assetId
          (.livePhotoImage (livePairId platform) (liveOperationId platform liveVideo))).insert
            liveVideo.assetId (.livePhotoVideo (livePairId platform)))) =
      .ok (liveAssets platform) := rfl
  rw [assembleMigrationPlan, bind_eq_ok]
  refine ⟨(), rfl, ?_⟩
  rw [bind_eq_ok]
  refine ⟨_, ids, ?_⟩
  rw [reject_bind_eq_ok, bind_eq_ok]
  refine ⟨rfl, _, roles, ?_⟩
  simp only [bind_eq_ok]
  exact ⟨_, assets, [], rfl, _, identity, (), mapError_eq_ok.mpr valid, rfl⟩

end

/-- The live photo keeps its two halves. -/
theorem liveInventory_assembled :
    ∃ plan, assembleMigrationPlan .reference liveInventory (sampleServer '2') (sampleServer '3')
      liveDigests .default = .ok plan ∧ Assembled liveInventory plan := by
  have digests : ∀ bytes, isLowerSha256 (Platform.reference.sha256 bytes) = true :=
    isLowerSha256_sha256Hex
  obtain ⟨plan, returned⟩ := liveInventory_assembles digests (by decide +kernel)
  exact ⟨plan, returned, (assembleMigrationPlan_assembled digests returned).1⟩

end ImmichRs
