import ImmichRs.Sources.Takeout

/-!
# Apple Photos

Folder albums and the source fingerprint of an Apple Photos export, over a reconciled plan.
-/

namespace ImmichRs

open Collections
open Std (ExtTreeMap)

/-- `str::eq_ignore_ascii_case`. -/
def eqIgnoreAsciiCase (left right : String) : Bool :=
  left.toList.map Char.toLower == right.toList.map Char.toLower

/-- A path component which an Apple export adds on its own. -/
def isExportNoise (component : String) : Bool :=
  eqIgnoreAsciiCase component "@eaDir" || eqIgnoreAsciiCase component ".Spotlight-V100" ||
    eqIgnoreAsciiCase component ".photostructure" ||
    eqIgnoreAsciiCase component "Recently Deleted" || eqIgnoreAsciiCase component ".DS_Store" ||
    eqIgnoreAsciiCase component "Thumbs.db" || startsWith component "._"

/-- `export_noise_path`: the path up to its first component of noise. -/
def exportNoisePath (path : String) : Option String :=
  let components := splitOn path '/'
  (components.findIdx? isExportNoise).map fun index =>
    "/".intercalate (components.take (index + 1))

/-- The album which the folder of a path stands for. -/
def parentAlbum (mode : AlbumMode) (joiner path : String) : Option String :=
  match rsplitOnce path '/' with
  | none => none
  | some (parent, _) =>
      match mode with
      | .none => none
      | .folder => some (filename parent)
      | .path => some (joiner.intercalate (splitOn parent '/'))

/-- `album_for`. -/
def albumFor (config : ApplePhotosScanConfig) (path : String) : Option String :=
  parentAlbum config.albumMode config.albumPathJoiner path

/-- Push a piece of evidence, then sort and deduplicate. -/
def CandidateAsset.withEvidence (asset : CandidateAsset) (rule outcome : String) :
    CandidateAsset :=
  { asset with evidence := sortDedup (asset.evidence ++ [{ ruleId := rule, outcome }]) }

/-- One iteration of `finish_plan`. -/
def selectAlbum (config : ApplePhotosScanConfig) (asset : CandidateAsset) : CandidateAsset :=
  match albumFor config asset.relativePath with
  | none => asset
  | some album =>
      CandidateAsset.withEvidence
        { asset with normalizedMetadata := some (addAlbum asset.normalizedMetadata album) }
        "META_APPLE_FOLDER_ALBUM_V1" "folder_album_selected"

/-- The fields of an asset in the fingerprint of an Apple export. -/
def CandidateAsset.appleFields (asset : CandidateAsset) : List String :=
  [asset.relativePath, asset.contentSha256] ++
    (asset.metadata.flatMap fun sidecar => [sidecar.relativePath, sidecar.ruleId]) ++
    (asset.normalizedMetadata.elim [] NormalizedMetadata.albums)

section

variable (platform : SourcePlatform)

/-- `refresh_fingerprint` of an Apple export. -/
def NormalizedPlan.refreshApple (plan : NormalizedPlan) : NormalizedPlan :=
  let fields := plan.assets.flatMap CandidateAsset.appleFields ++
    (plan.warnings ++ plan.errors).flatMap PlanDiagnostic.fingerprintFields
  { plan with
    source :=
      { plan.source with
        fingerprintSha256 := platform.sha256
          (utf8Bytes "apple-photos-source-v1\x00" ++ fields.flatMap fieldBytes) } }

/-- The plan of `finish_plan` before its validation. -/
def NormalizedPlan.withAppleAlbums (config : ApplePhotosScanConfig) (plan : NormalizedPlan) :
    NormalizedPlan :=
  { plan with assets := plan.assets.map (selectAlbum config) }.refreshApple platform

/-- `finish_plan`. -/
def finishPlan (config : ApplePhotosScanConfig) (plan : NormalizedPlan) :
    Except ScanError NormalizedPlan := do
  let finished := plan.withAppleAlbums platform config
  Except.mapError ScanError.invalidPlan (finished.validate platform.toPlatform)
  return finished

end

end ImmichRs
