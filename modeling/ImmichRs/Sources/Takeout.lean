import ImmichRs.Sources.Reconcile

/-!
# Reconciliation of a Takeout

Takeout documents, their association with media files and albums, and the collapse of paths with
one content.
-/

namespace ImmichRs

open Collections
open Std (ExtTreeMap)

/-! ## Documents -/

/-- `MAX_JSON_BYTES`. -/
def maxJsonBytes : Nat := 256 * 1024

/-- `validate_text`, on the fields of a Takeout document. -/
def validateText (value : String) (maxBytes : Nat) (allowLayout : Bool) : Except ParseError Unit :=
  reject (value.isEmpty || decide (maxBytes < byteLen value) ||
    anyChar value (fun character => isControl character && !(allowLayout && isLayout character)) ||
    (!allowLayout && (containsChar value '/' || containsChar value '\\'))) .invalid

/-- The number which decimal digits write. -/
def decimalNumber (value : String) : Nat :=
  value.toList.foldl (fun number digit => number * 10 + (digit.toNat - '0'.toNat)) 0

/-- An optional value, where its absence is an error. -/
def orInvalid {α : Type} (value : Option α) : Except ParseError α :=
  match value with
  | some found => .ok found
  | none => .error .invalid

section

variable (platform : SourcePlatform)

/-- `normalize_timestamp`. -/
def normalizeTimestamp (value : String) : Except ParseError String := do
  reject (value.isEmpty || !value.toList.all isAsciiDigit) .invalid
  reject (decide (2 ^ 63 ≤ decimalNumber value)) .invalid
  let instant ← orInvalid (platform.fromUnixTimestamp (decimalNumber value))
  orInvalid (platform.formatRfc3339 instant)

/-- `canonical_decimal`. -/
def canonicalDecimal (value : platform.F64) : String :=
  if platform.isZero value then "0" else platform.displayF64 value

/-- `normalize_location`. -/
def normalizeLocation (value : RawGeo platform.F64) :
    Except ParseError (Option GeoCoordinates) := do
  let latitude ← orInvalid value.latitude
  let longitude ← orInvalid value.longitude
  reject (!platform.isFinite latitude || !platform.isFinite longitude ||
    !platform.withinRange (-90) 90 latitude || !platform.withinRange (-180) 180 longitude) .invalid
  if platform.isZero latitude && platform.isZero longitude then
    return none
  else
    return some { latitude := canonicalDecimal platform latitude
                  longitude := canonicalDecimal platform longitude }

/-- The description of a document; an empty one is dropped. -/
def normalizeDescription (value : Option String) : Except ParseError (Option String) :=
  match value with
  | none => .ok none
  | some text =>
      if text.isEmpty then
        .ok none
      else do
        validateText text (16 * 1024) true
        return some text

/-- The title of a document, which only an album may leave empty. -/
def validateTitle (title : String) (allowEmptyTitle : Bool) : Except ParseError Unit :=
  if !allowEmptyTitle || !title.isEmpty then validateText title 4096 false else .ok ()

/-- `parse_bytes`. -/
def parseBytes (bytes : List UInt8) (allowEmptyTitle : Bool) :
    Except ParseError TakeoutDocument := do
  let raw ← orInvalid (platform.decodeDocument bytes)
  validateTitle raw.title allowEmptyTitle
  let description ← normalizeDescription raw.description
  let takenAtUtc ← (raw.photoTakenTime.or raw.creationTime).mapM (normalizeTimestamp platform)
  let location ← (raw.geoDataExif.or raw.geoData).mapM (normalizeLocation platform)
  return { title := raw.title
           metadata := { description, takenAtUtc, location := location.join, albums := [] } }

/-- `parse_document`, where a document which was not read yet is read from its native path. -/
def parseDocument (contents : String → Option (List UInt8)) (sidecar : DiscoveredSidecar)
    (allowEmptyTitle : Bool) : Except ParseError TakeoutDocument :=
  match sidecar.takeoutParseError, sidecar.takeoutDocument with
  | some error, _ => .error error
  | none, some document => .ok document
  | none, none => do
      reject (sidecar.byteLen == 0) .invalid
      reject (decide (maxJsonBytes < sidecar.byteLen.toNat)) .oversized
      let bytes ← orInvalid (contents sidecar.nativePath)
      reject (decide (maxJsonBytes < bytes.length)) .oversized
      reject (decide (bytes.length ≠ sidecar.byteLen.toNat) ||
        platform.sha256 bytes != sidecar.contentSha256) .sourceChanged
      parseBytes platform bytes allowEmptyTitle

end

/-- `record_parse_error`. -/
def recordParseError (state : ScanState) (sidecar : DiscoveredSidecar) (error : ParseError) :
    ScanState :=
  state.fail <| match error with
    | .invalid => diagnostic "META_GOOGLE_TAKEOUT_JSON_INVALID_V1" "invalid_takeout_json"
        [sidecar.relativePath]
    | .oversized => diagnostic "META_GOOGLE_TAKEOUT_JSON_OVERSIZED_V1"
        "takeout_json_size_limit_exceeded" [sidecar.relativePath]
    | .sourceChanged => diagnostic "FS_SOURCE_CHANGED_V1" "takeout_json_changed_during_scan"
        [sidecar.relativePath]

/-! ## Candidates -/

/-- `str::starts_with`. -/
def startsWith (value start : String) : Bool := start.toList.isPrefixOf value.toList

/-- `is_album_document`. -/
def isAlbumDocument (path : String) : Bool :=
  filename path == "metadata.json" &&
    !(["Archive", "Trash", "Bin"].contains (filename (parent path)) ||
      startsWith (filename (parent path)) "Photos from ")

/-- The marker which Takeout puts before the index of a sidecar, possibly cut short. -/
def supplementalMarker : String := "supplemental-metadata"

/-- `indexed_media_name`. -/
def indexedMediaName (sidecarName : String) : Option String := do
  let (head, index) ← (← stripSuffix sidecarName ").json") |> (rsplitOnce · '(')
  if index.isEmpty || !index.toList.all isAsciiDigit then none
  let mediaName := match rsplitOnce head '.' with
    | some (mediaName, marker) =>
        if !marker.isEmpty && startsWith supplementalMarker marker then mediaName else head
    | none => head
  let (stem, extension) ← rsplitOnce mediaName '.'
  if stem.isEmpty || extension.isEmpty then none
  return stem ++ "(" ++ index ++ ")." ++ extension

/-- Media files of a sidecar's directory whose name satisfies a predicate. -/
def candidatesNamed (state : ScanState) (sidecar : String) (named : String → Bool) : List Nat :=
  indicesWhere (fun media => parent media.relativePath == parent sidecar &&
    named (filename media.relativePath)) state.media

/-- `candidates_for_indexed_sidecar_name`. -/
def candidatesForIndexedSidecarName (state : ScanState) (sidecar : String) : List Nat :=
  match indexedMediaName (filename sidecar) with
  | none => []
  | some target => candidatesNamed state sidecar (· == target)

/-- `candidates_for_title`. -/
def candidatesForTitle (state : ScanState) (sidecar title : String) : List Nat :=
  candidatesNamed state sidecar (· == title)

/-- `candidates_for_sidecar_name`. -/
def candidatesForSidecarName (state : ScanState) (sidecar : String) : List Nat :=
  match (stripSuffix (filename sidecar) ".supplemental-metadata.json").or
      (stripSuffix (filename sidecar) ".json") with
  | none => []
  | some base =>
      if base.isEmpty then
        []
      else
        match candidatesNamed state sidecar (· == base) with
        | [] => candidatesNamed state sidecar (startsWith · base)
        | exact => exact

/-- The candidates of a document with the rule which found them. -/
def candidatesFor (state : ScanState) (sidecar title : String) : List Nat × String :=
  let indexed := candidatesForIndexedSidecarName state sidecar
  let exact := candidatesForTitle state sidecar title
  if !indexed.isEmpty then
    (indexed, "META_GOOGLE_TAKEOUT_SUPPLEMENTAL_V1")
  else if exact.isEmpty then
    (candidatesForSidecarName state sidecar, "META_GOOGLE_TAKEOUT_SUPPLEMENTAL_V1")
  else
    (exact, "META_GOOGLE_TAKEOUT_TITLE_V1")

/-! ## Association -/

/-- A sidecar which describes a media file. -/
structure TakeoutMatch where
  sidecar : Nat
  rule : String
  deriving DecidableEq

/-- The state of the loop over the sidecars. -/
structure TakeoutAssociation where
  state : ScanState
  /-- Media files with their documents, in the order in which they were found. -/
  found : List (Nat × TakeoutMatch)
  /-- Titles of album directories with their documents. -/
  albums : ExtTreeMap String (String × Nat)

/-- `record_ambiguous`. -/
def recordAmbiguous (state : ScanState) (sidecar : String) (candidates : List Nat) : ScanState :=
  state.fail (diagnostic "META_GOOGLE_TAKEOUT_AMBIGUOUS_V1" "ambiguous_takeout_metadata"
    (sidecar :: mediaPaths state (candidates.take (maxDiagnosticPaths - 1))))

/-- A document without a title has the name of its directory. -/
def titledDocument (path : String) (document : TakeoutDocument) : TakeoutDocument :=
  if document.title.isEmpty then { document with title := filename (parent path) } else document

/-- `state.sidecars[sidecar_index].takeout_document = Some(..)`. -/
def storeDocument (state : ScanState) (index : Nat) (document : TakeoutDocument) : ScanState :=
  { state with
    sidecars := state.sidecars.modify index fun stored =>
      { stored with takeoutDocument := some document } }

/-- A document without candidates describes an album, or nothing. -/
def associateOrphan (association : TakeoutAssociation) (path : String) (index : Nat)
    (title : String) : TakeoutAssociation :=
  if isAlbumDocument path then
    { association with albums := association.albums.insert (parent path) (title, index) }
  else
    { association with
      state := association.state.warn (diagnostic "META_ORPHAN_SIDECAR_V1"
        "takeout_metadata_without_media" [path]) }

/-- Where a document belongs, by its candidates. -/
def associateCandidates (association : TakeoutAssociation) (path : String) (index : Nat)
    (title rule : String) : List Nat → TakeoutAssociation
  | [media] =>
      { association with found := association.found ++ [(media, { sidecar := index, rule })] }
  | [] => associateOrphan association path index title
  | first :: second :: rest =>
      { association with
        state := recordAmbiguous association.state path (first :: second :: rest) }

/-- Where a parsed document belongs. -/
def associateDocument (association : TakeoutAssociation) (path : String) (index : Nat)
    (document : TakeoutDocument) : TakeoutAssociation :=
  let stored := { association with state := storeDocument association.state index document }
  let candidates := candidatesFor stored.state path document.title
  associateCandidates stored path index document.title candidates.2 candidates.1

/-- One iteration of the loop over the sidecars. -/
def associateSidecar (platform : SourcePlatform) (contents : String → Option (List UInt8))
    (association : TakeoutAssociation) (entry : DiscoveredSidecar × Nat) : TakeoutAssociation :=
  let sidecar := entry.1
  if sidecar.kind != .json then
    { association with
      state := association.state.warn (diagnostic "META_GOOGLE_TAKEOUT_UNSUPPORTED_V1"
        "unsupported_takeout_metadata_family" [sidecar.relativePath]) }
  else
    match parseDocument platform contents sidecar (isAlbumDocument sidecar.relativePath) with
    | .error error =>
        { association with state := recordParseError association.state sidecar error }
    | .ok document =>
        associateDocument association sidecar.relativePath entry.2
          (titledDocument sidecar.relativePath document)

/-- The documents of a media file. -/
def selectedDocuments (state : ScanState) (selected : List TakeoutMatch) : List TakeoutDocument :=
  selected.filterMap fun item => (state.sidecars[item.sidecar]?).bind (·.takeoutDocument)

/-- Attach a sidecar by its position. -/
def attachMatch (state : ScanState) (item : TakeoutMatch) (media : DiscoveredMedia) :
    DiscoveredMedia :=
  match state.sidecars[item.sidecar]? with
  | some sidecar => attachSidecar sidecar item.rule media
  | none => media

/-- The paths of a media file and of its documents. -/
def selectedPaths (state : ScanState) (index : Nat) (selected : List TakeoutMatch) :
    List String :=
  mediaPaths state [index] ++ selected.filterMap fun item =>
    (state.sidecars[item.sidecar]?).map DiscoveredSidecar.relativePath

/-- The metadata of a media file's first document. -/
def describe (documents : List TakeoutDocument) (media : DiscoveredMedia) : DiscoveredMedia :=
  match documents.head? with
  | some document => { media with normalizedMetadata := some document.metadata }
  | none => media

/-- The documents of one media file, in `attach_asset_documents`. -/
def attachAssetDocument (found : List (Nat × TakeoutMatch)) (state : ScanState) (index : Nat) :
    ScanState :=
  let selected := (found.filter fun entry => entry.1 = index).map Prod.snd
  let documents := selectedDocuments state selected
  if adjacentDiffer documents then
    state.fail (diagnostic "META_GOOGLE_TAKEOUT_CONFLICT_V1" "conflicting_takeout_asset_metadata"
      (selectedPaths state index selected))
  else
    { state with
      media := state.media.modify index fun media =>
        selected.foldl (fun media item => attachMatch state item media)
          (describe documents media) }

/-- `attach_asset_documents`. -/
def attachAssetDocuments (state : ScanState) (found : List (Nat × TakeoutMatch)) : ScanState :=
  (sortDedup (found.map Prod.fst)).foldl (attachAssetDocument found) state

/-- Add an album to the metadata of a media file. -/
def addAlbum (metadata : Option NormalizedMetadata) (title : String) : NormalizedMetadata :=
  let metadata := metadata.getD .empty
  { metadata with albums := sortDedup (metadata.albums ++ [title]) }

/-- The album of a media file's directory. -/
def attachAlbum (state : ScanState) (albums : ExtTreeMap String (String × Nat))
    (media : DiscoveredMedia) : DiscoveredMedia :=
  match albums[parent media.relativePath]? with
  | none => media
  | some (title, index) =>
      attachMatch state { sidecar := index, rule := "META_GOOGLE_TAKEOUT_ALBUM_V1" }
        { media with normalizedMetadata := some (addAlbum media.normalizedMetadata title) }

/-- `attach_albums`. -/
def attachAlbums (state : ScanState) (albums : ExtTreeMap String (String × Nat)) : ScanState :=
  { state with media := state.media.map (attachAlbum state albums) }

/-! ## Content aliases -/

/-- `canonical_rank`: a directory of one year comes first. -/
def canonicalRank (path : String) : Nat :=
  match stripPrefix (filename (parent path)) "Photos from " with
  | some year => if byteLen year == 4 && year.toList.all isAsciiDigit then 0 else 1
  | none => 1
where
  /-- `str::strip_prefix`. -/
  stripPrefix (value start : String) : Option String :=
    if startsWith value start then
      some (String.ofList (value.toList.drop start.toList.length))
    else
      none

/-- `merge_value`: the merged value, and whether the values conflict. -/
def mergeValue {α : Type} [DecidableEq α] (target incoming : Option α) : Option α × Bool :=
  match target, incoming with
  | none, value => (value, false)
  | some left, some right => (some left, left != right)
  | some left, none => (some left, false)

/-- The error of a conflict in `merge_value`. -/
def mergeError (conflicted : Bool) (path code : String) : List PlanDiagnostic :=
  if conflicted then [diagnostic "META_GOOGLE_TAKEOUT_CONFLICT_V1" code [path]] else []

/-- `merge_normalized`: the merged metadata, whether it conflicts, and its errors. -/
def mergeNormalized (left right : NormalizedMetadata) (path : String) :
    NormalizedMetadata × Bool × List PlanDiagnostic :=
  let description := mergeValue left.description right.description
  let takenAtUtc := mergeValue left.takenAtUtc right.takenAtUtc
  let location := mergeValue left.location right.location
  ({ description := description.1
     takenAtUtc := takenAtUtc.1
     location := location.1
     albums := sortDedup (left.albums ++ right.albums) },
    description.2 || takenAtUtc.2 || location.2,
    mergeError description.2 path "conflicting_takeout_description" ++
      mergeError takenAtUtc.2 path "conflicting_takeout_timestamp" ++
      mergeError location.2 path "conflicting_takeout_location")

/-- The state of the loop over the aliases of one content. -/
structure AliasMerge where
  canonical : DiscoveredMedia
  metadataConflicted : Bool
  errors : List PlanDiagnostic

/-- `merge_alias`. -/
def mergeAlias (merge : AliasMerge) (aliased : DiscoveredMedia) : AliasMerge :=
  let canonical :=
    { merge.canonical with
      metadata := merge.canonical.metadata ++ aliased.metadata
      evidence := merge.canonical.evidence ++ aliased.evidence }
  if merge.metadataConflicted then
    { merge with canonical := { canonical with normalizedMetadata := none } }
  else
    match canonical.normalizedMetadata, aliased.normalizedMetadata with
    | none, value => { merge with canonical := { canonical with normalizedMetadata := value } }
    | some left, some right =>
        let merged := mergeNormalized left right canonical.relativePath
        { canonical :=
            { canonical with normalizedMetadata := if merged.2.1 then none else some merged.1 }
          metadataConflicted := merged.2.1
          errors := merge.errors ++ merged.2.2 }
    | some _, none => { merge with canonical }

/-- The order of aliases. -/
def aliasKey (media : DiscoveredMedia) : Nat ×ₗ String :=
  toLex (canonicalRank media.relativePath, media.relativePath)

/-- One content: its media file, with the diagnostics of its aliases. -/
def collapseAliases (aliases : List DiscoveredMedia) :
    Option (DiscoveredMedia × List PlanDiagnostic × List PlanDiagnostic) :=
  match sortBy aliasKey aliases with
  | [] => none
  | [canonical] => some (canonical, [], [])
  | canonical :: others =>
      let merged := others.foldl mergeAlias
        { canonical, metadataConflicted := false, errors := [] }
      some
        ({ merged.canonical with
            evidence := merged.canonical.evidence ++
              [{ ruleId := "META_GOOGLE_TAKEOUT_CONTENT_ALIAS_V1"
                 outcome := "content_identical_paths_collapsed" }] },
          [diagnostic "META_GOOGLE_TAKEOUT_CONTENT_ALIAS_V1" "content_identical_takeout_aliases"
            ((canonical :: others).map DiscoveredMedia.relativePath)],
          merged.errors)

/-- The content of a media file. -/
def contentKey (media : DiscoveredMedia) : Nat ×ₗ String :=
  toLex (media.byteLen.toNat, media.contentSha256)

/-- `collapse_content_aliases`. -/
def collapseContentAliases (state : ScanState) : ScanState :=
  let groups := (sortDedup (state.media.map contentKey)).map fun key =>
    state.media.filter fun media => contentKey media = key
  let collapsed := groups.filterMap collapseAliases
  { state with
    media := collapsed.map fun group => group.1
    warnings := state.warnings ++ collapsed.flatMap fun group => group.2.1
    errors := state.errors ++ collapsed.flatMap fun group => group.2.2 }

/-- Warnings for media files without a document of their own. -/
def warnUnmatched (state : ScanState) : ScanState :=
  { state with
    warnings := state.warnings ++
      (state.media.filter fun media => !media.metadata.any fun candidate =>
        candidate.ruleId == "META_GOOGLE_TAKEOUT_TITLE_V1" ||
          candidate.ruleId == "META_GOOGLE_TAKEOUT_SUPPLEMENTAL_V1").map fun media =>
        diagnostic "META_GOOGLE_TAKEOUT_UNMATCHED_MEDIA_V1" "takeout_media_without_json"
          [media.relativePath] }

/-- `takeout_reconcile::reconcile` up to its completion. -/
def takeoutState (platform : SourcePlatform) (contents : String → Option (List UInt8))
    (state : ScanState) : ScanState :=
  let prepared := state.prepare
  let association := prepared.sidecars.zipIdx.foldl (associateSidecar platform contents)
    { state := prepared, found := [], albums := ∅ }
  warnUnmatched (collapseContentAliases (attachAlbums
    (attachAssetDocuments association.state association.found) association.albums))

/-- `takeout_reconcile::reconcile`. -/
def ScanState.reconcileTakeout (platform : SourcePlatform)
    (contents : String → Option (List UInt8)) (state : ScanState) : ScanState :=
  (takeoutState platform contents state).complete platform

end ImmichRs
