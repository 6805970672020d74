import ImmichRs.Client.Archive
import ImmichRs.Executor.Config

/-!
# Assembly of archive manifests

`createArchiveManifest` turns read-only source facts into a manifest.  It returns the manifest of
its input exactly when that manifest is accepted, and it panics only where the validator does.
-/

namespace ImmichRs

open Collections

/-- Explicit visibility selection for one immutable archive inventory. -/
inductive ArchiveSelection
  | timeline | archive | hidden | all
  deriving DecidableEq, Repr

/-- Stable selection and resource limits bound into an archive manifest. -/
structure ArchivePlanningConfig where
  selection : ArchiveSelection
  includeTrashed : Bool
  pageSize : Nat
  maxAssets : Nat
  deriving DecidableEq, Repr

/-- `ArchivePlanningConfig::default`. -/
def ArchivePlanningConfig.default : ArchivePlanningConfig :=
  { selection := .timeline, includeTrashed := false, pageSize := 100, maxAssets := 100000 }

/-- `ArchivePlanningConfig::validate`. -/
def ArchivePlanningConfig.validate (config : ArchivePlanningConfig) : Except ExecutorError Unit :=
  reject (!(within 1 1000 config.pageSize && decide (0 < config.maxAssets))) .invalidConfiguration

/-- Serialization of a selection. -/
def ArchiveSelection.serialize : ArchiveSelection → String
  | .timeline => jsonString "timeline"
  | .archive => jsonString "archive"
  | .hidden => jsonString "hidden"
  | .all => jsonString "all"

/-- Serialization of the planning limits. -/
def ArchivePlanningConfig.serialize (config : ArchivePlanningConfig) : String :=
  jsonObject
    [("selection", config.selection.serialize),
      ("include_trashed", jsonBool config.includeTrashed),
      ("page_size", toString config.pageSize), ("max_assets", toString config.maxAssets)]

/-- The manifest entry of one source asset. -/
def archiveAsset (remote : RemoteArchiveAsset) : ArchiveAsset :=
  { assetId := remote.assetId
    originalFileName := remote.originalFileName
    targetPath := archiveTarget remote.assetId remote.originalFileName
    mediaKind := remote.mediaKind
    byteLen := remote.byteLen
    checksumSha1 := remote.checksumSha1 }

/-- `create_archive_manifest`. -/
def createArchiveManifest (platform : Platform) (remoteAssets : List RemoteArchiveAsset)
    (server : ServerCompatibility) (config : ArchivePlanningConfig) :
    Except (Stop ExecutorError) ArchiveManifest := do
  config.validate.mapError .failed
  reject (decide (config.maxAssets < remoteAssets.length) || server.version.major != 3 ||
    server.version.minor != 1) (.failed .invalidPlan)
  let assets := sortBy ArchiveAsset.targetPath (remoteAssets.map archiveAsset)
  match (assets.map ArchiveAsset.byteLen).foldlM checkedAdd 0 with
  | none => .error (.failed .invalidPlan)
  | some mediaBytes =>
      let manifest : ArchiveManifest :=
        { schemaVersion := archiveManifestSchemaVersion
          server
          configurationSha256 := compactSha256 platform config.serialize
          assets
          summary := { assets := assets.length, mediaBytes } }
      manifest.validate.mapError (Stop.map fun _ => .invalidPlan)
      return manifest

theorem mapError_eq_panicked {ε ε' α : Type} {result : Except (Stop ε) α} {convert : ε → ε'} :
    result.mapError (Stop.map convert) = .error .panicked ↔ result = .error .panicked := by
  rcases result with (_ | _) | _ <;> simp [Except.mapError, Stop.map]

/-- Only a name which cuts a character makes the assembly panic. -/
theorem exists_cutsCharacter_of_createArchiveManifest {platform : Platform}
    {remoteAssets : List RemoteArchiveAsset} {server : ServerCompatibility}
    {config : ArchivePlanningConfig}
    (stopped : createArchiveManifest platform remoteAssets server config = .error .panicked) :
    ∃ remote ∈ remoteAssets, CutsCharacter remote.originalFileName := by
  have configured : config.validate.mapError (Stop.failed (ε := ExecutorError)) ≠
      .error .panicked := by
    cases config.validate <;> simp [Except.mapError]
  rw [createArchiveManifest] at stopped
  simp only [bind_eq_panicked, reject_ne_panicked, configured, false_or] at stopped
  obtain ⟨_, _, _, _, stopped⟩ := stopped
  split at stopped
  · cases stopped
  · rw [bind_eq_panicked, mapError_eq_panicked] at stopped
    cases stopped with
    | inl rejected =>
        obtain ⟨asset, member, cuts⟩ := ArchiveManifest.exists_cutsCharacter rejected
        obtain ⟨remote, present, rfl⟩ := List.mem_map.mp ((mem_sortBy _).mp member)
        exact ⟨remote, present, cuts⟩
    | inr returned =>
        obtain ⟨_, _, impossible⟩ := returned
        cases impossible

/-- The manifest which an assembly builds. -/
def assembledManifest (platform : Platform) (remoteAssets : List RemoteArchiveAsset)
    (server : ServerCompatibility) (config : ArchivePlanningConfig) (mediaBytes : UInt64) :
    ArchiveManifest :=
  { schemaVersion := archiveManifestSchemaVersion
    server
    configurationSha256 := compactSha256 platform config.serialize
    assets := sortBy ArchiveAsset.targetPath (remoteAssets.map archiveAsset)
    summary := { assets := remoteAssets.length, mediaBytes } }

/-- The assembly returns exactly the accepted manifests within the limit. -/
theorem createArchiveManifest_eq_ok {platform : Platform} {remoteAssets : List RemoteArchiveAsset}
    {server : ServerCompatibility} {config : ArchivePlanningConfig} {manifest : ArchiveManifest} :
    createArchiveManifest platform remoteAssets server config = .ok manifest ↔
      config.validate = .ok () ∧ remoteAssets.length ≤ config.maxAssets ∧
        ∃ mediaBytes, manifest = assembledManifest platform remoteAssets server config mediaBytes ∧
          manifest.Accepted := by
  have length : (sortBy ArchiveAsset.targetPath (remoteAssets.map archiveAsset)).length =
      remoteAssets.length := by
    rw [(perm_sortBy _ _).length_eq, List.length_map]
  rw [createArchiveManifest, bind_eq_ok]
  simp only [mapError_eq_ok, reject_bind_eq_ok, Bool.or_eq_false_iff, decide_eq_false_iff_not,
    not_lt, bne_eq_false_iff_eq, length]
  constructor
  · rintro ⟨_, valid, ⟨⟨small, _⟩, _⟩, returned⟩
    split at returned
    · cases returned
    · rename_i mediaBytes summed
      rw [bind_eq_ok] at returned
      obtain ⟨_, validated, same⟩ := returned
      obtain rfl := Except.ok.inj same
      exact ⟨valid, small, mediaBytes, rfl,
        ArchiveManifest.validate_eq_ok.mp (mapError_eq_ok.mp validated)⟩
  · rintro ⟨valid, small, mediaBytes, rfl, accepted⟩
    have summed : ((sortBy ArchiveAsset.targetPath (remoteAssets.map archiveAsset)).map
        ArchiveAsset.byteLen).foldlM checkedAdd 0 = some mediaBytes := by
      rw [foldlM_checkedAdd, UInt64.toNat_zero, Nat.zero_add]
      exact ⟨accepted.bytes ▸ mediaBytes.toNat_lt, accepted.bytes⟩
    refine ⟨(), valid, ⟨⟨small, accepted.version.1⟩, accepted.version.2⟩, ?_⟩
    rw [summed]
    dsimp only
    rw [bind_eq_ok]
    exact ⟨(), mapError_eq_ok.mpr (ArchiveManifest.validate_eq_ok.mpr accepted), rfl⟩

/-- The name check, the validator and the assembly are total and correct on a set of names exactly
when no stem of four bytes in it ends with a character wider than one byte. -/
theorem archive_total_iff (platform : Platform) (names : Set String) :
    ((∀ name ∈ names, ∃ safe, safeComponent name = some safe ∧ (safe = true ↔ SafeName name)) ∧
      (∀ manifest : ArchiveManifest,
        (∀ asset ∈ manifest.assets, asset.originalFileName ∈ names) →
          manifest.validate ≠ .error .panicked) ∧
      ∀ (remoteAssets : List RemoteArchiveAsset) (server : ServerCompatibility)
        (config : ArchivePlanningConfig),
        (∀ remote ∈ remoteAssets, remote.originalFileName ∈ names) →
          createArchiveManifest platform remoteAssets server config ≠ .error .panicked) ↔
      ∀ name ∈ names, ¬ CutsCharacter name := by
  constructor
  · rintro ⟨decided, _, _⟩ name member cuts
    obtain ⟨safe, checked, _⟩ := decided name member
    rw [safeComponent_eq_none.mpr cuts] at checked
    cases checked
  · intro whole
    refine ⟨fun name member => ?_, fun manifest named stopped => ?_,
      fun remoteAssets server config named stopped => ?_⟩
    · cases checked : safeComponent name with
      | none => exact absurd (safeComponent_eq_none.mp checked) (whole name member)
      | some safe => exact ⟨safe, rfl, safeComponent_eq_some checked⟩
    · obtain ⟨asset, member, cuts⟩ := ArchiveManifest.exists_cutsCharacter stopped
      exact whole _ (named asset member) cuts
    · obtain ⟨remote, member, cuts⟩ := exists_cutsCharacter_of_createArchiveManifest stopped
      exact whole _ (named remote member) cuts

/-- A source asset of one version 4 identifier. -/
def sampleRemoteAsset (digit : Char) (originalFileName : String) : RemoteArchiveAsset :=
  { assetId := String.ofList (List.replicate 8 digit) ++ "-1111-4111-8111-111111111111"
    originalFileName
    mediaKind := .image
    byteLen := 3
    checksumSha1 := "a9993e364706816aba3e25717850c26c9cd0d89d" }

/-- The server of the samples. -/
def sampleArchiveServer : ServerCompatibility :=
  { version := { major := 3, minor := 1, patch := 0 }, identitySha256 := digestOf 'b' }

/-- The manifest of some source assets, in the order in which they are given. -/
def sampleArchiveManifest (remoteAssets : List RemoteArchiveAsset) : ArchiveManifest :=
  { schemaVersion := archiveManifestSchemaVersion
    server := sampleArchiveServer
    configurationSha256 := digestOf 'a'
    assets := remoteAssets.map archiveAsset
    summary :=
      { assets := remoteAssets.length
        mediaBytes := (remoteAssets.map RemoteArchiveAsset.byteLen).sum } }

/-- A stem which is one character of four bytes makes the check, the validator and the assembly
panic. -/
theorem sample_cutsCharacter :
    safeComponent "😀.jpg" = none ∧
      (sampleArchiveManifest [sampleRemoteAsset '1' "😀.jpg"]).validate = .error .panicked ∧
      createArchiveManifest .reference [sampleRemoteAsset '1' "😀.jpg"] sampleArchiveServer
        .default = .error .panicked := by
  decide +kernel

end ImmichRs
