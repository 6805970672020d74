import ImmichRs.Core.Json
import ImmichRs.Encoding.Json

/-!
# Texts of scanned assets

The JSON values behind the rendered assets and diagnostics of a normalized plan.  Their texts
determine them, so a digest of the texts binds what the values hold.
-/

namespace ImmichRs

open Encoding

/-! ## Escapes -/

/-- The number of a hexadecimal digit in lower case. -/
def hexDigitValue (digit : Char) : Nat :=
  if isAsciiDigit digit then digit.toNat - '0'.toNat else digit.toNat - 'a'.toNat + 10

/-- The character behind an escape, with what follows it. -/
def unescape : List Char → Option (Char × List Char)
  | '\\' :: '"' :: rest => some ('"', rest)
  | '\\' :: '\\' :: rest => some ('\\', rest)
  | '\\' :: 'n' :: rest => some ('\n', rest)
  | '\\' :: 'r' :: rest => some ('\r', rest)
  | '\\' :: 't' :: rest => some ('\t', rest)
  | '\\' :: 'b' :: rest => some (Char.ofNat 8, rest)
  | '\\' :: 'f' :: rest => some (Char.ofNat 12, rest)
  | '\\' :: 'u' :: '0' :: '0' :: high :: low :: rest =>
      some (Char.ofNat (hexDigitValue high * 16 + hexDigitValue low), rest)
  | character :: rest => some (character, rest)
  | [] => none

theorem unescape_jsonEscape (character : Char) (rest : List Char) :
    unescape (jsonEscape character ++ rest) = some (character, rest) := by
  have digits : ∀ value < 16, hexDigitValue (hexDigit value) = value := by decide
  rw [jsonEscape]
  split_ifs with quotation backslash newline carriage tab backspace feed control
  · rw [quotation]; rfl
  · rw [backslash]; rfl
  · rw [newline]; rfl
  · rw [carriage]; rfl
  · rw [tab]; rfl
  · rw [← Char.ofNat_toNat character, backspace]; rfl
  · rw [← Char.ofNat_toNat character, feed]; rfl
  · have high := digits (character.toNat / 16) (by omega)
    have low := digits (character.toNat % 16) (by omega)
    have number : character.toNat / 16 * 16 + character.toNat % 16 = character.toNat := by omega
    simp only [List.cons_append, List.nil_append, unescape, high, low, number, Char.ofNat_toNat]
  · rw [List.singleton_append, unescape.eq_def]
    split <;> simp_all

theorem jsonEscape_escapes : Escapes jsonEscape := by
  constructor
  · intro first second left right _ _ _ _ same
    have read := congrArg unescape same
    rw [unescape_jsonEscape, unescape_jsonEscape] at read
    exact Prod.mk.inj (Option.some.inj read)
  · intro character rest
    rw [jsonEscape]
    split_ifs with quotation <;> simp [quotation]

/-! ## Texts -/

/-- The text of a value. -/
def jsonText (value : Json) : String := String.ofList (value.render jsonEscape)

theorem jsonText_injective : Function.Injective jsonText := fun _ _ same =>
  Json.render_injective jsonEscape_escapes (String.ofList_injective same)

theorem jsonString_eq (value : String) : jsonString value = jsonText (.string value) := by
  apply String.toList_inj.mp
  simp [jsonString, jsonText, Json.render, quote]

theorem toString_eq (value : Nat) : toString value = jsonText (.number value) := by
  rw [Nat.toString_eq_ofList_toDigits]
  rfl

theorem jsonOption_eq {α : Type} (view : α → Json) (value : Option α) :
    jsonOption (fun item => jsonText (view item)) value = jsonText (value.elim .null view) := by
  cases value <;> rfl

theorem toList_intercalate_comma (first : String) (rest : List String) :
    (",".intercalate (first :: rest)).toList =
      first.toList ++ rest.flatMap fun item => ',' :: item.toList := by
  induction rest generalizing first with
  | nil => simp
  | cons second rest induction =>
      rw [String.intercalate_cons_cons, String.toList_append, String.toList_append, induction]
      simp

theorem jsonArray_eq (values : List Json) :
    jsonArray (values.map jsonText) = jsonText (.array values) := by
  have items : ∀ rest : List Json, (rest.flatMap fun value => ',' :: (jsonText value).toList) =
      Json.renderItems jsonEscape rest := by
    intro rest
    induction rest with
    | nil => rfl
    | cons value rest induction =>
        simp [Json.renderItems, ← induction, jsonText]
  apply String.toList_inj.mp
  cases values with
  | nil => simp [jsonArray, jsonText, Json.render]
  | cons first rest =>
      simp only [jsonArray, String.toList_append, List.map_cons, toList_intercalate_comma,
        List.flatMap_map, items]
      simp [jsonText, Json.render]

theorem jsonObject_eq (members : List (String × Json)) :
    jsonObject (members.map fun member => (member.1, jsonText member.2)) =
      jsonText (.object members) := by
  have items : ∀ rest : List (String × Json), (rest.flatMap fun member =>
      ',' :: (jsonString member.1 ++ ":" ++ jsonText member.2).toList) =
        Json.renderMembers jsonEscape rest := by
    intro rest
    induction rest with
    | nil => rfl
    | cons member rest induction =>
        rw [List.flatMap_cons, induction]
        simp [Json.renderMembers, jsonText, jsonString, quote]
  apply String.toList_inj.mp
  cases members with
  | nil => simp [jsonObject, jsonText, Json.render]
  | cons first rest =>
      have joined := toList_intercalate_comma (jsonString first.1 ++ ":" ++ jsonText first.2)
        (rest.map fun member => jsonString member.1 ++ ":" ++ jsonText member.2)
      rw [List.flatMap_map, items] at joined
      rw [jsonObject, List.map_map, List.map_cons, String.toList_append, String.toList_append]
      rw [show ((fun field : String × String => jsonString field.1 ++ ":" ++ field.2) ∘
        fun member : String × Json => (member.1, jsonText member.2)) =
          fun member => jsonString member.1 ++ ":" ++ jsonText member.2 from rfl, joined]
      simp [jsonText, Json.render, jsonString, quote]

/-! ## Values -/

/-- The value of a sidecar association. -/
def MetadataCandidate.json (metadata : MetadataCandidate) : Json :=
  .object
    [("relative_path", .string metadata.relativePath),
      ("kind", .string (match metadata.kind with | .json => "json" | .xmp => "xmp")),
      ("rule_id", .string metadata.ruleId)]

/-- The value of a location. -/
def GeoCoordinates.json (location : GeoCoordinates) : Json :=
  .object [("latitude", .string location.latitude), ("longitude", .string location.longitude)]

/-- The value of normalized metadata. -/
def NormalizedMetadata.json (metadata : NormalizedMetadata) : Json :=
  .object
    [("description", metadata.description.elim .null .string),
      ("taken_at_utc", metadata.takenAtUtc.elim .null .string),
      ("location", metadata.location.elim .null GeoCoordinates.json),
      ("albums", .array (metadata.albums.map .string))]

/-- The value of live-photo membership. -/
def LivePhotoMember.json (member : LivePhotoMember) : Json :=
  .object
    [("pair_id", .string member.pairId),
      ("role", .string (match member.role with | .image => "image" | .video => "video"))]

/-- The value of a piece of evidence. -/
def RuleEvidence.json (evidence : RuleEvidence) : Json :=
  .object [("rule_id", .string evidence.ruleId), ("outcome", .string evidence.outcome)]

/-- The value of a candidate asset. -/
def CandidateAsset.json (asset : CandidateAsset) : Json :=
  .object (
    [("operation_id", .string asset.operationId), ("relative_path", .string asset.relativePath),
      ("media_kind", .string (match asset.mediaKind with | .image => "image" | .video => "video")),
      ("byte_len", .number asset.byteLen.toNat), ("content_sha256", .string asset.contentSha256),
      ("metadata", .array (asset.metadata.map MetadataCandidate.json))] ++
    (asset.normalizedMetadata.map fun metadata => ("normalized_metadata", metadata.json)).toList ++
    [("live_photo", asset.livePhoto.elim .null LivePhotoMember.json),
      ("evidence", .array (asset.evidence.map RuleEvidence.json))])

/-- The value of a diagnostic. -/
def PlanDiagnostic.json (diagnostic : PlanDiagnostic) : Json :=
  .object
    [("rule_id", .string diagnostic.ruleId), ("code", .string diagnostic.code),
      ("paths", .array (diagnostic.paths.map .string))]

/-- Rendered items are the text of an array. -/
theorem jsonArray_map {α : Type} {render : α → String} {view : α → Json}
    (rendered : ∀ item, render item = jsonText (view item)) (items : List α) :
    jsonArray (items.map render) = jsonText (.array (items.map view)) := by
  rw [← jsonArray_eq, List.map_map]
  exact congrArg jsonArray (List.map_congr_left fun item _ => rendered item)

theorem MetadataCandidate.serialize_eq (metadata : MetadataCandidate) :
    metadata.serialize = jsonText metadata.json := by
  rw [json, ← jsonObject_eq]
  cases kind : metadata.kind <;>
    simp [serialize, MetadataKind.serialize, kind, jsonString_eq]

theorem NormalizedMetadata.serialize_eq (metadata : NormalizedMetadata) :
    metadata.serialize = jsonText metadata.json := by
  rw [json, ← jsonObject_eq]
  have texts : jsonOption jsonString = fun value : Option String =>
      jsonText (value.elim .null .string) := by
    funext value
    rw [← jsonOption_eq]
    exact congrArg (jsonOption · value) (funext jsonString_eq)
  have location : (fun location : GeoCoordinates => jsonObject
      [("latitude", jsonString location.latitude), ("longitude", jsonString location.longitude)]) =
        fun location => jsonText location.json := by
    funext location
    rw [GeoCoordinates.json, ← jsonObject_eq]
    simp [jsonString_eq]
  rw [serialize, texts, location, jsonOption_eq, jsonArray_map jsonString_eq]
  rfl

theorem LivePhotoMember.serialize_eq (member : LivePhotoMember) :
    member.serialize = jsonText member.json := by
  rw [json, ← jsonObject_eq]
  cases role : member.role <;> simp [serialize, role, jsonString_eq]

theorem PlanDiagnostic.serialize_eq (diagnostic : PlanDiagnostic) :
    diagnostic.serialize = jsonText diagnostic.json := by
  rw [json, ← jsonObject_eq]
  simp [serialize, jsonString_eq, ← jsonArray_map jsonString_eq]

/-- An asset is rendered as its value. -/
theorem CandidateAsset.serialize_eq (asset : CandidateAsset) :
    asset.serialize = jsonText asset.json := by
  have evidence : (fun evidence : RuleEvidence => jsonObject
      [("rule_id", jsonString evidence.ruleId), ("outcome", jsonString evidence.outcome)]) =
        fun evidence => jsonText evidence.json := by
    funext evidence
    rw [RuleEvidence.json, ← jsonObject_eq]
    simp [jsonString_eq]
  have livePhoto : jsonOption LivePhotoMember.serialize = fun value =>
      jsonText (value.elim .null LivePhotoMember.json) := by
    funext value
    rw [← jsonOption_eq]
    exact congrArg (jsonOption · value) (funext LivePhotoMember.serialize_eq)
  have outcomes : jsonArray (asset.evidence.map fun evidence => jsonText evidence.json) =
      jsonText (.array (asset.evidence.map RuleEvidence.json)) :=
    jsonArray_map (fun _ => rfl) _
  rw [json, ← jsonObject_eq, serialize, livePhoto, evidence, outcomes, toString_eq,
    jsonArray_map MetadataCandidate.serialize_eq]
  cases asset.mediaKind <;> cases asset.normalizedMetadata <;>
    simp [MediaKind.serialize, jsonString_eq, NormalizedMetadata.serialize_eq]

/-- Rendered assets and diagnostics are read back. -/
theorem json_of_texts {firstAssets secondAssets : List CandidateAsset}
    {firstWarnings secondWarnings firstErrors secondErrors : List PlanDiagnostic}
    (same : jsonArray
        [jsonArray (firstAssets.map CandidateAsset.serialize),
          jsonArray (firstWarnings.map PlanDiagnostic.serialize),
          jsonArray (firstErrors.map PlanDiagnostic.serialize)] =
      jsonArray
        [jsonArray (secondAssets.map CandidateAsset.serialize),
          jsonArray (secondWarnings.map PlanDiagnostic.serialize),
          jsonArray (secondErrors.map PlanDiagnostic.serialize)]) :
    firstAssets.map CandidateAsset.json = secondAssets.map CandidateAsset.json := by
  have whole : ∀ (assets : List CandidateAsset) (warnings errors : List PlanDiagnostic),
      jsonArray
          [jsonArray (assets.map CandidateAsset.serialize),
            jsonArray (warnings.map PlanDiagnostic.serialize),
            jsonArray (errors.map PlanDiagnostic.serialize)] =
        jsonText (.array
          [.array (assets.map CandidateAsset.json), .array (warnings.map PlanDiagnostic.json),
            .array (errors.map PlanDiagnostic.json)]) := by
    intro assets warnings errors
    rw [← jsonArray_eq, jsonArray_map CandidateAsset.serialize_eq,
      jsonArray_map PlanDiagnostic.serialize_eq, jsonArray_map PlanDiagnostic.serialize_eq]
    rfl
  rw [whole, whole] at same
  have arrays := jsonText_injective same
  simp only [Json.array.injEq, List.cons.injEq] at arrays
  exact arrays.1

end ImmichRs
