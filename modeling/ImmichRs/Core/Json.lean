import ImmichRs.Core.Upload

/-!
# Compact JSON

The text which `serde_json::to_vec` produces for the values whose digests bind plans: rendered
members in declaration order, without blanks.
-/

namespace ImmichRs

/-- One hexadecimal digit in lower case. -/
def hexDigit (value : Nat) : Char :=
  Char.ofNat (if value < 10 then '0'.toNat + value else 'a'.toNat + (value - 10))

/-- The escape of one character inside a JSON string. -/
def jsonEscape (character : Char) : List Char :=
  if character = '"' then ['\\', '"']
  else if character = '\\' then ['\\', '\\']
  else if character = '\n' then ['\\', 'n']
  else if character = '\r' then ['\\', 'r']
  else if character = '\t' then ['\\', 't']
  else if character.toNat = 8 then ['\\', 'b']
  else if character.toNat = 12 then ['\\', 'f']
  else if character.toNat < 32 then
    ['\\', 'u', '0', '0', hexDigit (character.toNat / 16), hexDigit (character.toNat % 16)]
  else [character]

/-- A JSON string. -/
def jsonString (value : String) : String :=
  "\"" ++ String.ofList (value.toList.flatMap jsonEscape) ++ "\""

/-- A JSON array of rendered items. -/
def jsonArray (items : List String) : String :=
  "[" ++ ",".intercalate items ++ "]"

/-- A JSON object of rendered members. -/
def jsonObject (members : List (String × String)) : String :=
  "\x7b" ++ ",".intercalate (members.map fun member => jsonString member.1 ++ ":" ++ member.2) ++
    "\x7d"

/-- A JSON truth value. -/
def jsonBool (value : Bool) : String := if value then "true" else "false"

/-- A rendered item, or `null`. -/
def jsonOption {α : Type} (render : α → String) (value : Option α) : String :=
  value.elim "null" render

/-- The serialized name of an adapter. -/
def SourceKind.serialize : SourceKind → String
  | .folder => jsonString "folder"
  | .googleTakeout => jsonString "google_takeout"
  | .applePhotos => jsonString "apple_photos"
  | .picasa => jsonString "picasa"
  | .immich => jsonString "immich"

/-- Serialization of a source descriptor. -/
def SourceDescriptor.serialize (source : SourceDescriptor) : String :=
  jsonObject
    [("kind", source.kind.serialize), ("label", jsonString source.label),
      ("fingerprint_sha256", jsonString source.fingerprintSha256),
      ("case_sensitive", jsonBool source.caseSensitive),
      ("unicode_normalization", jsonString "nfc")]

/-- Serialization of a media family. -/
def MediaKind.serialize : MediaKind → String
  | .image => jsonString "image"
  | .video => jsonString "video"

/-- Serialization of a sidecar family. -/
def MetadataKind.serialize : MetadataKind → String
  | .json => jsonString "json"
  | .xmp => jsonString "xmp"

/-- Serialization of a sidecar association. -/
def MetadataCandidate.serialize (metadata : MetadataCandidate) : String :=
  jsonObject
    [("relative_path", jsonString metadata.relativePath), ("kind", metadata.kind.serialize),
      ("rule_id", jsonString metadata.ruleId)]

/-- Serialization of normalized metadata. -/
def NormalizedMetadata.serialize (metadata : NormalizedMetadata) : String :=
  jsonObject
    [("description", jsonOption jsonString metadata.description),
      ("taken_at_utc", jsonOption jsonString metadata.takenAtUtc),
      ("location", jsonOption (fun location : GeoCoordinates =>
        jsonObject [("latitude", jsonString location.latitude),
          ("longitude", jsonString location.longitude)]) metadata.location),
      ("albums", jsonArray (metadata.albums.map jsonString))]

/-- Serialization of live-photo membership. -/
def LivePhotoMember.serialize (member : LivePhotoMember) : String :=
  jsonObject
    [("pair_id", jsonString member.pairId),
      ("role", jsonString (match member.role with | .image => "image" | .video => "video"))]

/-- Serialization of a candidate asset; absent normalized metadata is skipped. -/
def CandidateAsset.serialize (asset : CandidateAsset) : String :=
  jsonObject (
    [("operation_id", jsonString asset.operationId),
      ("relative_path", jsonString asset.relativePath), ("media_kind", asset.mediaKind.serialize),
      ("byte_len", toString asset.byteLen.toNat),
      ("content_sha256", jsonString asset.contentSha256),
      ("metadata", jsonArray (asset.metadata.map MetadataCandidate.serialize))] ++
    (asset.normalizedMetadata.map fun metadata =>
      ("normalized_metadata", metadata.serialize)).toList ++
    [("live_photo", jsonOption LivePhotoMember.serialize asset.livePhoto),
      ("evidence", jsonArray (asset.evidence.map fun evidence =>
        jsonObject [("rule_id", jsonString evidence.ruleId),
          ("outcome", jsonString evidence.outcome)]))])

/-- Serialization of a diagnostic. -/
def PlanDiagnostic.serialize (diagnostic : PlanDiagnostic) : String :=
  jsonObject
    [("rule_id", jsonString diagnostic.ruleId), ("code", jsonString diagnostic.code),
      ("paths", jsonArray (diagnostic.paths.map jsonString))]

/-- Serialization of a normalized plan. -/
def NormalizedPlan.serialize (plan : NormalizedPlan) : String :=
  jsonObject
    [("schema_version", toString plan.schemaVersion), ("source", plan.source.serialize),
      ("assets", jsonArray (plan.assets.map CandidateAsset.serialize)),
      ("warnings", jsonArray (plan.warnings.map PlanDiagnostic.serialize)),
      ("errors", jsonArray (plan.errors.map PlanDiagnostic.serialize)),
      ("summary", jsonObject
        [("assets", toString plan.summary.assets), ("sidecars", toString plan.summary.sidecars),
          ("bytes_read", toString plan.summary.bytesRead)])]

/-- Serialization of an execution role, tagged by its kind. -/
def UploadRole.serialize : UploadRole → String
  | .standalone => jsonObject [("kind", jsonString "standalone")]
  | .livePhotoVideo pairId =>
      jsonObject [("kind", jsonString "live_photo_video"), ("pair_id", jsonString pairId)]
  | .livePhotoImage pairId videoOperationId =>
      jsonObject
        [("kind", jsonString "live_photo_image"), ("pair_id", jsonString pairId),
          ("video_operation_id", jsonString videoOperationId)]

/-- Serialization of server facts. -/
def ServerCompatibility.serialize (server : ServerCompatibility) : String :=
  jsonObject
    [("version", jsonObject
        [("major", toString server.version.major), ("minor", toString server.version.minor),
          ("patch", toString server.version.patch)]),
      ("identity_sha256", jsonString server.identitySha256)]

/-- Serialization of an upload operation; absent normalized metadata is skipped. -/
def UploadOperation.serialize (operation : UploadOperation) : String :=
  jsonObject (
    [("operation_id", jsonString operation.operationId),
      ("relative_path", jsonString operation.relativePath),
      ("media_kind", operation.mediaKind.serialize),
      ("byte_len", toString operation.byteLen.toNat),
      ("content_sha256", jsonString operation.contentSha256),
      ("created_at_unix_ms", toString operation.createdAtUnixMs),
      ("modified_at_unix_ms", toString operation.modifiedAtUnixMs),
      ("xmp_sidecar", jsonOption (fun sidecar : UploadSidecar =>
        jsonObject
          [("relative_path", jsonString sidecar.relativePath),
            ("byte_len", toString sidecar.byteLen.toNat),
            ("content_sha256", jsonString sidecar.contentSha256)]) operation.xmpSidecar)] ++
    (operation.normalizedMetadata.map fun metadata =>
      ("normalized_metadata", metadata.serialize)).toList ++
    [("role", operation.role.serialize)])

/-- Serialization of the counters of an upload plan; zero import counters are skipped. -/
def UploadPlanSummary.serialize (summary : UploadPlanSummary) : String :=
  jsonObject (
    [("operations", toString summary.operations),
      ("media_bytes", toString summary.mediaBytes.toNat),
      ("xmp_sidecars", toString summary.xmpSidecars),
      ("live_photo_pairs", toString summary.livePhotoPairs)] ++
    ([("metadata_updates", summary.metadataUpdates), ("album_creates", summary.albumCreates),
      ("album_memberships", summary.albumMemberships),
      ("max_mutations", summary.maxMutations)].filter fun counter => counter.2 != 0).map
        fun counter => (counter.1, toString counter.2))

/-- Serialization of an upload plan. -/
def UploadPlan.serialize (plan : UploadPlan) : String :=
  jsonObject
    [("schema_version", toString plan.schemaVersion),
      ("normalized_plan_sha256", jsonString plan.normalizedPlanSha256),
      ("source", plan.source.serialize),
      ("configuration_sha256", jsonString plan.configurationSha256),
      ("server", plan.server.serialize),
      ("operations", jsonArray (plan.operations.map UploadOperation.serialize)),
      ("summary", plan.summary.serialize)]

/-- `compact_sha256` of a rendered value. -/
def compactSha256 (platform : Platform) (json : String) : String :=
  platform.sha256 (utf8Bytes json)

end ImmichRs
