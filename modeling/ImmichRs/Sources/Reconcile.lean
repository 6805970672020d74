import ImmichRs.Sources.State
import ImmichRs.Collections.Maps

/-!
# Reconciliation of a folder

Unicode collisions, sidecars, live photos and duplicate names, and the normalized plan made of what
remains.
-/

namespace ImmichRs

open Collections
open Std (ExtTreeMap)

/-! ## Preparation -/

/-- Paths which several media files or sidecars share, in their order. -/
def collisions (state : ScanState) : List String :=
  let paths := state.media.map DiscoveredMedia.relativePath ++
    state.sidecars.map DiscoveredSidecar.relativePath
  sortDedup (paths.filter fun path => decide (1 < paths.count path))

/-- `remove_unicode_collisions`. -/
def removeUnicodeCollisions (state : ScanState) : ScanState :=
  { state with
    errors := state.errors ++ (collisions state).map fun path =>
      diagnostic "FS_UNICODE_COLLISION_V1" "native_paths_share_nfc_path" [path]
    media := state.media.filter fun media => !(collisions state).contains media.relativePath
    sidecars := state.sidecars.filter fun sidecar =>
      !(collisions state).contains sidecar.relativePath }

/-- `prepare`. -/
def ScanState.prepare (state : ScanState) : ScanState :=
  let kept := removeUnicodeCollisions state
  { kept with
    media := sortBy DiscoveredMedia.relativePath kept.media
    sidecars := sortBy DiscoveredSidecar.relativePath kept.sidecars }

/-! ## Sidecars -/

/-- Positions of the items which satisfy a predicate. -/
def indicesWhere {α : Type} (predicate : α → Bool) (items : List α) : List Nat :=
  (List.range items.length).filter fun index => (items[index]?).any predicate

/-- `attach_sidecar`. -/
def attachSidecar (sidecar : DiscoveredSidecar) (selectedRule : String)
    (media : DiscoveredMedia) : DiscoveredMedia :=
  { media with
    metadata := media.metadata ++
      [{ relativePath := sidecar.relativePath, kind := sidecar.kind, ruleId := selectedRule }]
    evidence := media.evidence ++
      [{ ruleId := selectedRule, outcome := "metadata_candidate_associated" }] }

/-- `str::strip_suffix`. -/
def stripSuffix (value suffix : String) : Option String :=
  if suffix.toList.isSuffixOf value.toList then
    some (String.ofList (value.toList.take (value.toList.length - suffix.toList.length)))
  else
    none

theorem stripSuffix_eq_some {value suffix rest : String} :
    stripSuffix value suffix = some rest ↔ value = rest ++ suffix := by
  rw [stripSuffix]
  constructor
  · intro stripped
    split at stripped
    · rename_i ends
      obtain ⟨before, same⟩ := List.isSuffixOf_iff_suffix.mp ends
      obtain rfl := Option.some.inj stripped
      apply String.toList_inj.mp
      rw [String.toList_append, String.toList_ofList, ← same]
      simp
    · cases stripped
  · rintro rfl
    rw [if_pos]
    · simp
    · rw [List.isSuffixOf_iff_suffix, String.toList_append]
      exact List.suffix_append _ _

/-- The media file which a JSON sidecar names in full. -/
def exactMatch (state : ScanState) (sidecar : DiscoveredSidecar) : Option Nat :=
  match sidecar.kind with
  | .json =>
      (stripSuffix sidecar.relativePath ".json").bind fun target =>
        state.media.findIdx? fun media => media.relativePath == target
  | .xmp => none

/-- Media files with the directory and stem of a sidecar; a single image is preferred. -/
def basenameMatches (state : ScanState) (sidecar : DiscoveredSidecar) : List Nat :=
  let sameName := fun media : DiscoveredMedia =>
    parent media.relativePath == parent sidecar.relativePath &&
      stem media.relativePath == stem sidecar.relativePath
  let images := indicesWhere (fun media => sameName media && media.kind == .image) state.media
  if images.length = 1 then images else indicesWhere sameName state.media

/-- The paths of media files by position. -/
def mediaPaths (state : ScanState) (indices : List Nat) : List String :=
  indices.filterMap fun index => (state.media[index]?).map DiscoveredMedia.relativePath

/-- One iteration of `reconcile_sidecars`. -/
def reconcileSidecar (state : ScanState) (sidecar : DiscoveredSidecar) : ScanState :=
  match exactMatch state sidecar with
  | some index =>
      { state with
        media := state.media.modify index (attachSidecar sidecar "META_SIDECAR_EXACT_NAME_V1") }
  | none =>
      match basenameMatches state sidecar with
      | [index] =>
          { state with
            media := state.media.modify index (attachSidecar sidecar "META_SIDECAR_BASENAME_V1") }
      | [] =>
          state.warn (diagnostic "META_ORPHAN_SIDECAR_V1" "sidecar_without_media"
            [sidecar.relativePath])
      | matching =>
          state.fail (diagnostic "META_AMBIGUOUS_SIDECAR_V1" "ambiguous_sidecar_match"
            (sidecar.relativePath ::
              mediaPaths state (matching.take (maxDiagnosticPaths - 1))))

/-- `reconcile_sidecars`. -/
def reconcileSidecars (state : ScanState) : ScanState :=
  state.sidecars.foldl reconcileSidecar state

/-! ## Live photos -/

/-- `u64::to_le_bytes`. -/
def u64LittleEndian (value : Nat) : List UInt8 :=
  (List.range 8).map fun position => UInt8.ofNat (value / 256 ^ position)

/-- `update_field`: the bytes of a field with their count before them. -/
def fieldBytes (field : String) : List UInt8 :=
  u64LittleEndian (byteLen field) ++ utf8Bytes field

section

variable (platform : SourcePlatform)

/-- `sha256_fields`. -/
def sha256Fields (fields : List String) : String :=
  platform.sha256 (fields.flatMap fieldBytes)

/-- The identity of a live photo. -/
def pairId (image video : String) : String :=
  sha256Fields platform ["live-photo-v1", image, video]

/-- Directory and stem. -/
def livePhotoKey (media : DiscoveredMedia) : String ×ₗ String :=
  toLex (parent media.relativePath, stem media.relativePath)

/-- Positions of the media files with one directory and stem, in the order of these. -/
def livePhotoGroups (media : List DiscoveredMedia) : List (List Nat) :=
  (sortDedup (media.map livePhotoKey)).map fun key =>
    indicesWhere (fun item => livePhotoKey item = key) media

/-- Make a media file a member of a live photo. -/
def DiscoveredMedia.asMember (pairId : String) (role : LivePhotoRole) (media : DiscoveredMedia) :
    DiscoveredMedia :=
  { media with
    livePhoto := some { pairId, role }
    evidence := media.evidence ++
      [{ ruleId := "PAIR_LIVE_PHOTO_BASENAME_V1", outcome := "live_photo_member" }] }

/-- A motion video. -/
def isMotionVideo (media : DiscoveredMedia) : Bool :=
  media.kind == .video && extension platform media.relativePath == some "mov"

/-- The images of one group. -/
def groupImages (media : List DiscoveredMedia) (indices : List Nat) : List Nat :=
  indices.filter fun index => (media[index]?).any fun item => item.kind == .image

/-- The motion videos of one group. -/
def groupVideos (media : List DiscoveredMedia) (indices : List Nat) : List Nat :=
  indices.filter fun index => (media[index]?).any (isMotionVideo platform)

/-- One group of `reconcile_live_photos`: one image and one motion video are a pair. -/
def pairGroup (media : List DiscoveredMedia) (indices : List Nat) : List DiscoveredMedia :=
  match groupImages media indices, groupVideos platform media indices with
  | [image], [video] =>
      match media[image]?, media[video]? with
      | some still, some motion =>
          let pair := pairId platform still.relativePath motion.relativePath
          (media.modify image (.asMember pair .image)).modify video (.asMember pair .video)
      | _, _ => media
  | _, _ => media

/-- `reconcile_live_photos`. -/
def reconcileLivePhotos (media : List DiscoveredMedia) : List DiscoveredMedia :=
  (livePhotoGroups media).foldl (pairGroup platform) media

/-! ## Duplicate names -/

/-- The paths of the media files with one key, in the order of the keys. -/
def pathsBy (key : DiscoveredMedia → String) (media : List DiscoveredMedia) :
    List (List String) :=
  (sortDedup (media.map key)).map fun value =>
    (media.filter fun item => key item = value).map DiscoveredMedia.relativePath

/-- `detect_case_collisions`. -/
def detectCaseCollisions (media : List DiscoveredMedia) : List PlanDiagnostic :=
  ((pathsBy (fun item => platform.lowercase item.relativePath) media).filter fun paths =>
    decide (1 < paths.length)).map fun paths =>
      diagnostic "FS_CASE_COLLISION_V1" "portable_case_collision" (paths.take maxDiagnosticPaths)

/-- The file name which duplicates are compared by. -/
def basenameKey (media : DiscoveredMedia) : String :=
  ((pathFileName media.relativePath).map platform.lowercase).getD ""

/-- `values.windows(2).any(|pair| pair[0] != pair[1])`. -/
def adjacentDiffer {α : Type} [DecidableEq α] : List α → Bool
  | first :: second :: rest => first != second || adjacentDiffer (second :: rest)
  | _ => false

/-- `detect_duplicate_basenames`. -/
def detectDuplicateBasenames (media : List DiscoveredMedia) : List PlanDiagnostic :=
  ((pathsBy (basenameKey platform) media).filter fun paths =>
    decide (1 < paths.length) && adjacentDiffer (paths.map parent)).map fun paths =>
      diagnostic "FS_DUPLICATE_BASENAME_V1" "duplicate_basename_across_directories"
        (paths.take maxDiagnosticPaths)

/-! ## Completion -/

/-- Sort the attached facts of a media file. -/
def DiscoveredMedia.sorted (media : DiscoveredMedia) : DiscoveredMedia :=
  { media with metadata := sortDedup media.metadata, evidence := sortDedup media.evidence }

/-- `complete`. -/
def ScanState.complete (state : ScanState) : ScanState :=
  let media := reconcileLivePhotos platform state.media
  { state with
    media := media.map DiscoveredMedia.sorted
    errors := sortDedup (state.errors ++ detectCaseCollisions platform media)
    warnings := sortDedup (state.warnings ++ detectDuplicateBasenames platform media) }

/-- `reconcile`. -/
def ScanState.reconcile (state : ScanState) : ScanState :=
  (reconcileSidecars state.prepare).complete platform

/-! ## The normalized plan -/

/-- The operation identifier of a media file. -/
def operationIdOf (media : DiscoveredMedia) : String :=
  sha256Fields platform
    ["normalized-plan-operation-v1", media.relativePath, media.contentSha256,
      toString media.byteLen.toNat]

/-- The asset of a media file. -/
def candidateAsset (media : DiscoveredMedia) : CandidateAsset :=
  { operationId := operationIdOf platform media
    relativePath := media.relativePath
    mediaKind := media.kind
    byteLen := media.byteLen
    contentSha256 := media.contentSha256
    metadata := media.metadata
    normalizedMetadata := media.normalizedMetadata
    livePhoto := media.livePhoto
    evidence := media.evidence }

/-- The fields of an asset in the fingerprint of its source. -/
def CandidateAsset.fingerprintFields (asset : CandidateAsset) : List String :=
  [asset.relativePath, asset.contentSha256, toString asset.byteLen.toNat] ++
    asset.metadata.flatMap fun metadata => [metadata.relativePath, metadata.ruleId]

/-- The fields of a diagnostic in the fingerprint of its source. -/
def PlanDiagnostic.fingerprintFields (diagnostic : PlanDiagnostic) : List String :=
  diagnostic.ruleId :: diagnostic.paths

/-- `source_fingerprint`. -/
def sourceFingerprint (assets : List CandidateAsset) (sidecars : List DiscoveredSidecar)
    (warnings errors : List PlanDiagnostic) : String :=
  platform.sha256 (utf8Bytes "normalized-plan-source-v1\x00" ++
    (assets.flatMap CandidateAsset.fingerprintFields ++
      sidecars.flatMap (fun sidecar =>
        [sidecar.relativePath, toString sidecar.byteLen.toNat, sidecar.contentSha256]) ++
      (warnings ++ errors).flatMap PlanDiagnostic.fingerprintFields).flatMap fieldBytes)

/-- `finalize_plan`. -/
def finalizePlan (schemaVersion : Nat) (sourceKind : SourceKind) (sourceLabel : String)
    (config : FolderScanConfig) (state : ScanState) : NormalizedPlan :=
  let assets := sortBy CandidateAsset.relativePath (state.media.map (candidateAsset platform))
  { schemaVersion
    source :=
      { kind := sourceKind
        label := sourceLabel
        fingerprintSha256 :=
          sourceFingerprint platform assets state.sidecars state.warnings state.errors
        caseSensitive := config.caseSensitive
        unicodeNormalization := .nfc }
    assets
    warnings := state.warnings
    errors := state.errors
    summary :=
      { assets := assets.length
        sidecars := (assets.map fun asset => asset.metadata.length).sum
        bytesRead := state.bytesRead } }

end

/-- The resolution of a media file. -/
def DiscoveredMedia.resolve (media : DiscoveredMedia) : ResolvedSourceFile :=
  { nativePath := media.nativePath
    archiveIndex := media.archiveIndex
    byteLen := media.byteLen
    contentSha256 := media.contentSha256
    contentSha1Base64 := media.contentSha1Base64
    createdAtUnixMs := media.createdAtUnixMs
    modifiedAtUnixMs := media.modifiedAtUnixMs }

/-- The resolution of a sidecar. -/
def DiscoveredSidecar.resolve (sidecar : DiscoveredSidecar) : ResolvedSourceFile :=
  { nativePath := sidecar.nativePath
    archiveIndex := sidecar.archiveIndex
    byteLen := sidecar.byteLen
    contentSha256 := sidecar.contentSha256
    contentSha1Base64 := sidecar.contentSha1Base64
    createdAtUnixMs := sidecar.createdAtUnixMs
    modifiedAtUnixMs := sidecar.modifiedAtUnixMs }

/-- `resolved_files`. -/
def resolvedFiles (state : ScanState) : ExtTreeMap String ResolvedSourceFile :=
  fill DiscoveredSidecar.relativePath DiscoveredSidecar.resolve state.sidecars
    (fill DiscoveredMedia.relativePath DiscoveredMedia.resolve state.media ∅)

/-- `finish_resolved`. -/
def finishResolved (platform : SourcePlatform) (plan : NormalizedPlan)
    (files : ExtTreeMap String ResolvedSourceFile) : Except ScanError ResolvedFolderPlan := do
  Except.mapError ScanError.invalidPlan (plan.validate platform.toPlatform)
  return { plan, files }

end ImmichRs
