import ImmichRs.Sources.Albums

/-!
# Locations of a Takeout

A document has two blocks of coordinates, of which the one from the image is preferred even where it
is the pair of zeros which stands for no location.  The location of an asset is what its documents
say, so it is what they should say exactly when no pair behind such a block is left to nobody else.
-/

namespace ImmichRs

open Collections
open Std (ExtTreeMap)

section

variable (platform : SourcePlatform)

/-! ## Coordinate pairs -/

/-- The coordinates of a block, unless they are the zeros which stand for no location. -/
def coordinatesOf (block : RawGeo platform.F64) : Option (platform.F64 × platform.F64) :=
  match block.latitude, block.longitude with
  | some latitude, some longitude =>
      if platform.isZero latitude && platform.isZero longitude then none
      else some (latitude, longitude)
  | _, _ => none

/-- The canonical text of a pair. -/
def placeOf (pair : platform.F64 × platform.F64) : GeoCoordinates :=
  { latitude := canonicalDecimal platform pair.1
    longitude := canonicalDecimal platform pair.2 }

/-- The place of the preferred block, which is the only one that is read. -/
def shownPlace (raw : RawDocument platform.F64) : Option GeoCoordinates :=
  ((raw.geoDataExif.or raw.geoData).bind (coordinatesOf platform)).map (placeOf platform)

/-- The place of the first block which has one. -/
def carriedPlace (raw : RawDocument platform.F64) : Option GeoCoordinates :=
  ((raw.geoDataExif.bind (coordinatesOf platform)).or (raw.geoData.bind (coordinatesOf platform))).map
    (placeOf platform)

/-- A place which stands behind a block without one. -/
def hiddenPlace (raw : RawDocument platform.F64) : Option GeoCoordinates :=
  match raw.geoDataExif with
  | none => none
  | some block =>
      if (coordinatesOf platform block).isSome then none
      else (raw.geoData.bind (coordinatesOf platform)).map (placeOf platform)

variable {platform}

/-- A document carries what it shows or what it hides. -/
theorem carriedPlace_eq_some_iff {raw : RawDocument platform.F64} {place : GeoCoordinates} :
    carriedPlace platform raw = some place ↔
      shownPlace platform raw = some place ∨ hiddenPlace platform raw = some place := by
  rw [carriedPlace, shownPlace, hiddenPlace]
  cases raw.geoDataExif with
  | none => simp
  | some block =>
      cases found : coordinatesOf platform block with
      | none => simp [found]
      | some pair => simp [found]

theorem shownPlace_of_hiddenPlace {raw : RawDocument platform.F64} {place : GeoCoordinates}
    (hidden : hiddenPlace platform raw = some place) : shownPlace platform raw = none := by
  rw [hiddenPlace] at hidden
  rw [shownPlace]
  cases block : raw.geoDataExif with
  | none =>
      rw [block] at hidden
      cases hidden
  | some preferred =>
      rw [block] at hidden
      cases found : coordinatesOf platform preferred with
      | none => simp [found]
      | some pair => simp [found] at hidden

theorem normalizeLocation_eq_ok {block : RawGeo platform.F64} {place : Option GeoCoordinates}
    (normalized : normalizeLocation platform block = .ok place) :
    place = (coordinatesOf platform block).map (placeOf platform) := by
  simp only [normalizeLocation, bind_eq_ok] at normalized
  obtain ⟨latitude, latitudeRead, longitude, longitudeRead, _, _, chosen⟩ := normalized
  have known : block.latitude = some latitude ∧ block.longitude = some longitude :=
    ⟨orInvalid_eq_ok.mp latitudeRead, orInvalid_eq_ok.mp longitudeRead⟩
  rw [coordinatesOf, known.1, known.2]
  dsimp only
  split at chosen
  · rename_i zeros
    rw [if_pos zeros]
    exact (Except.ok.inj chosen).symm
  · rename_i other
    rw [if_neg other]
    exact (Except.ok.inj chosen).symm

/-- A parsed document has the place of its preferred block. -/
theorem parseBytes_location {bytes : List UInt8} {allowEmptyTitle : Bool}
    {document : TakeoutDocument}
    (parsed : parseBytes platform bytes allowEmptyTitle = .ok document) :
    ∃ raw, platform.decodeDocument bytes = some raw ∧
      document.metadata.location = shownPlace platform raw := by
  simp only [parseBytes, bind_eq_ok] at parsed
  obtain ⟨raw, decoded, _, _, _, _, _, _, location, located, returned⟩ := parsed
  obtain rfl := Except.ok.inj returned
  refine ⟨raw, orInvalid_eq_ok.mp decoded, ?_⟩
  rw [shownPlace]
  cases preferred : raw.geoDataExif.or raw.geoData with
  | none =>
      rw [preferred] at located
      cases located
      rfl
  | some block =>
      rw [preferred] at located
      obtain ⟨place, normalized, returned⟩ := (bind_eq_ok _ _ _).mp located
      cases returned
      exact normalizeLocation_eq_ok normalized

/-! ## Documents without conflicts -/

theorem eq_of_adjacentDiffer_eq_false {α : Type} [DecidableEq α] {items : List α}
    (agree : adjacentDiffer items = false) :
    ∀ first ∈ items, ∀ second ∈ items, first = second := by
  have heads : ∀ (rest : List α) (first : α), adjacentDiffer (first :: rest) = false →
      ∀ item ∈ rest, item = first := by
    intro rest
    induction rest with
    | nil => simp
    | cons second rest induction =>
        intro first agree item member
        rw [adjacentDiffer, Bool.or_eq_false_iff, bne_eq_false_iff_eq] at agree
        obtain ⟨rfl, agree⟩ := agree
        rcases List.mem_cons.mp member with rfl | member
        · rfl
        · exact induction first agree item member
  intro first firstMember second secondMember
  cases items with
  | nil => cases firstMember
  | cons head rest =>
      have same : ∀ item ∈ head :: rest, item = head := by
        intro item member
        rcases List.mem_cons.mp member with rfl | member
        · rfl
        · exact heads rest head agree item member
      rw [same first firstMember, same second secondMember]

variable {contents : String → Option (List UInt8)} {state : ScanState}

/-- Differing documents of one media file are an error. -/
theorem errors_of_adjacentDiffer {found : List (Nat × TakeoutMatch)} {index : Nat}
    (differ : adjacentDiffer (selectedDocuments state (selectedOf found index)) = true) :
    (attachAssetDocuments state found).errors ≠ [] := by
  have known : index ∈ found.map Prod.fst := by
    by_contra unknown
    have none : selectedOf found index = [] := by
      rw [selectedOf, List.map_eq_nil_iff, List.filter_eq_nil_iff]
      intro entry member
      rw [decide_eq_true_eq]
      rintro rfl
      exact unknown (List.mem_map_of_mem member)
    rw [none] at differ
    cases differ
  have loop : ∀ (indices : List Nat) (start : ScanState), index ∈ indices →
      start.sidecars = state.sidecars →
      (indices.foldl (attachAssetDocument found) start).errors ≠ [] := by
    intro indices
    induction indices with
    | nil => exact fun _ member => absurd member List.not_mem_nil
    | cons next rest induction =>
        intro start member sidecars
        have kept := (attachAssetDocument_media found start next).2.trans sidecars
        rw [List.foldl_cons]
        rcases List.mem_cons.mp member with rfl | member
        · have documents : selectedDocuments start = selectedDocuments state := by
            funext selected
            rw [selectedDocuments, selectedDocuments, sidecars]
          have reported : (attachAssetDocument found start index).errors ≠ [] := by
            rw [selectedOf] at differ
            rw [attachAssetDocument, documents, if_pos differ]
            simp [ScanState.fail]
          have grows : (attachAssetDocument found start index).errors ⊆
              (rest.foldl (attachAssetDocument found) (attachAssetDocument found start index)).errors :=
            errors_foldl_attachAssetDocument found rest
          exact fun empty => reported (List.subset_nil.mp (empty ▸ grows))
        · exact induction _ member kept
  exact loop _ state (mem_sortDedup.mpr known) rfl

/-- The location of a media file. -/
def DiscoveredMedia.location (media : DiscoveredMedia) : Option GeoCoordinates :=
  media.normalizedMetadata.bind NormalizedMetadata.location

theorem DiscoveredMedia.location_eq_some_iff {media : DiscoveredMedia} {place : GeoCoordinates} :
    media.location = some place ↔
      ∃ metadata ∈ media.normalizedMetadata, metadata.location = some place :=
  Option.bind_eq_some_iff

variable (platform contents) in
/-- The document of a sidecar is attached to a media file. -/
def Describes (prepared : ScanState) (sidecar : DiscoveredSidecar) (media : DiscoveredMedia) :
    Prop :=
  sidecar ∈ prepared.sidecars ∧ ∃ position, prepared.media[position]? = some media ∧
    (matchOf platform contents prepared sidecar).map Prod.fst = some position

/-- The location of a described media file is what one of its documents says. -/
theorem location_takeoutMedia
    (calm : (takeoutDescribed platform contents state).errors = []) {position : Nat}
    {media : DiscoveredMedia} (undescribed : media.normalizedMetadata = none)
    {place : GeoCoordinates} :
    (takeoutMedia platform contents state position media).location = some place ↔
      ∃ document ∈ documentsFor platform contents state position,
        document.metadata.location = some place := by
  have agree : adjacentDiffer (documentsFor platform contents state position) = false := by
    by_contra differ
    rw [Bool.not_eq_false, ← selectedDocuments_associate] at differ
    exact errors_of_adjacentDiffer differ calm
  have album : ∀ (title : Option String) (metadata : Option NormalizedMetadata),
      (withAlbum title metadata).bind NormalizedMetadata.location =
        metadata.bind NormalizedMetadata.location := by
    intro title metadata
    cases title with
    | none => rfl
    | some title =>
        cases metadata with
        | none => rfl
        | some metadata => rfl
  rw [DiscoveredMedia.location, normalizedMetadata_takeoutMedia platform contents state position
    undescribed, album, metadataFor, agree, if_neg Bool.false_ne_true]
  have same := eq_of_adjacentDiffer_eq_false agree
  cases documents : documentsFor platform contents state position with
  | nil => simp
  | cons first rest =>
      rw [documents] at same
      constructor
      · intro located
        exact ⟨first, List.mem_cons_self, located⟩
      · rintro ⟨document, member, located⟩
        rw [same document member first List.mem_cons_self] at located
        exact located

/-- The metadata of a collapsed content locates it where one of its aliases does. -/
theorem location_collapsed {aliases : List DiscoveredMedia}
    {group : DiscoveredMedia × List PlanDiagnostic × List PlanDiagnostic}
    (collapsed : collapseAliases aliases = some group) (calm : group.2.2 = [])
    {place : GeoCoordinates} :
    group.1.location = some place ↔ ∃ aliased ∈ aliases, aliased.location = some place := by
  simp only [DiscoveredMedia.location_eq_some_iff]
  constructor
  · rintro ⟨metadata, found, located⟩
    obtain ⟨conflicted, merged⟩ := collapseAliases_merged collapsed
    cases conflicted with
    | true =>
        rw [(merged.conflict rfl).1] at found
        cases found
    | false =>
        obtain ⟨part, listed, located⟩ := ((merged.united rfl metadata found).location place).mp located
        obtain ⟨aliased, member, given⟩ := mem_metadataParts.mp listed
        exact ⟨aliased, (perm_sortBy aliasKey aliases).mem_iff.mp member, part, given, located⟩
  · rintro ⟨aliased, member, part, given, located⟩
    rcases (collapseAliases_collapsed collapsed).described with ⟨merges, _⟩ |
      ⟨_, _, error, reported, _⟩
    · obtain ⟨merged, found, keeps⟩ := merges.keeps aliased member part given
      exact ⟨merged, found, keeps.location place located⟩
    · rw [calm] at reported
      cases reported

/-- Without errors, the location of a collapsed media file is what a document says which is attached
to one of its copies. -/
theorem location_collapseContentAliases
    (undescribed : ∀ media ∈ state.media, media.normalizedMetadata = none)
    (calm : (collapseContentAliases (takeoutDescribed platform contents state)).errors = [])
    {item : DiscoveredMedia}
    (member : item ∈ (collapseContentAliases (takeoutDescribed platform contents state)).media)
    {place : GeoCoordinates} :
    item.location = some place ↔ ∃ copy sidecar, contentKey copy = contentKey item ∧
      Describes platform contents state sidecar copy ∧
        ∃ document, documentOf platform contents sidecar = some document ∧
          document.metadata.location = some place := by
  obtain ⟨media, errors⟩ := collapseContentAliases_eq (takeoutDescribed platform contents state)
  rw [errors] at calm
  obtain ⟨described, silent⟩ := List.append_eq_nil_iff.mp calm
  rw [media] at member
  obtain ⟨group, listed, rfl⟩ := List.mem_map.mp member
  obtain ⟨key, _, collapsed⟩ := List.mem_filterMap.mp listed
  have content := (collapseAliases_collapsed collapsed).contentKey_eq
  rw [location_collapsed collapsed (List.flatMap_eq_nil_iff.mp silent group listed), content]
  constructor
  · rintro ⟨aliased, inside, located⟩
    obtain ⟨known, same⟩ := mem_aliasesOf.mp inside
    obtain ⟨position, copy, found, rfl⟩ := mem_takeoutDescribed.mp known
    rw [location_takeoutMedia described (undescribed copy (List.mem_of_getElem? found))] at located
    obtain ⟨document, selected, located⟩ := located
    obtain ⟨sidecar, present, chosen⟩ := List.mem_filterMap.mp selected
    obtain ⟨matched, read⟩ := Option.ite_none_right_eq_some.mp chosen
    refine ⟨copy, sidecar, ?_, ⟨present, position, found, matched⟩, document, read, located⟩
    rw [← same]
    exact (contentKey_eq_of_bare (bare_takeoutMedia platform contents state position copy)).symm
  · rintro ⟨copy, sidecar, same, ⟨present, position, found, matched⟩, document, read, located⟩
    refine ⟨takeoutMedia platform contents state position copy, mem_aliasesOf.mpr ⟨?_, ?_⟩, ?_⟩
    · exact mem_takeoutDescribed.mpr ⟨position, copy, found, rfl⟩
    · rw [← same]
      exact contentKey_eq_of_bare (bare_takeoutMedia platform contents state position copy)
    · rw [location_takeoutMedia described (undescribed copy (List.mem_of_getElem? found))]
      exact ⟨document, List.mem_filterMap.mpr ⟨sidecar, present, by rw [if_pos matched, read]⟩,
        located⟩

/-! ## Raw documents -/

variable (platform contents) in
/-- The bytes which the documents of a scan are read from, before or during its reconciliation. -/
structure ScanState.ReadFrom (state : ScanState) (bytesOf : DiscoveredSidecar → List UInt8) :
    Prop where
  stored : ∀ sidecar ∈ state.sidecars, ∀ document, sidecar.takeoutDocument = some document →
    ∃ allowEmptyTitle, parseBytes platform (bytesOf sidecar) allowEmptyTitle = .ok document
  read : ∀ sidecar ∈ state.sidecars, sidecar.takeoutDocument = none → ∀ bytes,
    contents sidecar.nativePath = some bytes → bytesOf sidecar = bytes

/-- The documents of every scan are read from some bytes. -/
theorem ScanState.Fresh.exists_readFrom (fresh : state.Fresh platform) :
    ∃ bytesOf, state.ReadFrom platform contents bytesOf := by
  have each : ∀ sidecar : DiscoveredSidecar, ∃ bytes, sidecar ∈ state.sidecars →
      (∀ document, sidecar.takeoutDocument = some document →
        ∃ allowEmptyTitle, parseBytes platform bytes allowEmptyTitle = .ok document) ∧
      (sidecar.takeoutDocument = none → ∀ found, contents sidecar.nativePath = some found →
        bytes = found) := by
    intro sidecar
    by_cases member : sidecar ∈ state.sidecars
    · cases stored : sidecar.takeoutDocument with
      | none =>
          refine ⟨(contents sidecar.nativePath).getD [], fun _ => ⟨?_, ?_⟩⟩
          · intro document present
            cases present
          · intro _ found present
            rw [present]
            rfl
      | some document =>
          obtain ⟨bytes, parsed⟩ := (fresh.sidecars sidecar member).document document stored
          refine ⟨bytes, fun _ => ⟨?_, ?_⟩⟩
          · intro other same
            cases same
            exact ⟨_, parsed⟩
          · intro absent
            cases absent
    · exact ⟨[], fun present => absurd present member⟩
  choose bytesOf holds using each
  exact ⟨bytesOf, fun sidecar member => (holds sidecar member).1,
    fun sidecar member => (holds sidecar member).2⟩

/-- An attached document says what the preferred block of its raw document shows. -/
theorem ScanState.ReadFrom.location_documentOf {bytesOf : DiscoveredSidecar → List UInt8}
    (reads : state.ReadFrom platform contents bytesOf) {sidecar : DiscoveredSidecar}
    (member : sidecar ∈ state.sidecars) {document : TakeoutDocument}
    (read : documentOf platform contents sidecar = some document) :
    ∃ raw, platform.decodeDocument (bytesOf sidecar) = some raw ∧
      document.metadata.location = shownPlace platform raw := by
  rw [documentOf] at read
  split at read
  · cases read
  · split at read
    · cases read
    · rename_i parsed accepted
      obtain rfl := Option.some.inj read
      rw [titledDocument_metadata]
      rw [parseDocument.eq_def] at accepted
      split at accepted
      · cases accepted
      · rename_i stored
        obtain rfl := Except.ok.inj accepted
        obtain ⟨allowEmptyTitle, bytes⟩ := reads.stored sidecar member _ stored
        exact parseBytes_location bytes
      · rename_i absent
        simp only [bind_eq_ok] at accepted
        obtain ⟨_, _, _, _, bytes, found, _, _, _, _, accepted⟩ := accepted
        rw [reads.read sidecar member absent bytes (orInvalid_eq_ok.mp found)]
        exact parseBytes_location accepted

/-! ## Assets -/

/-- The location of an asset. -/
def CandidateAsset.location (asset : CandidateAsset) : Option GeoCoordinates :=
  asset.normalizedMetadata.bind NormalizedMetadata.location

/-- The content of an asset. -/
def CandidateAsset.contentKey (asset : CandidateAsset) : Nat ×ₗ String :=
  toLex (asset.byteLen.toNat, asset.contentSha256)

section

variable (platform contents) (state : ScanState) (bytesOf : DiscoveredSidecar → List UInt8)

/-- A document which is attached to a file of some content gives a place. -/
def Locates (placeIn : RawDocument platform.F64 → Option GeoCoordinates)
    (content : Nat ×ₗ String) (place : GeoCoordinates) : Prop :=
  ∃ copy sidecar, contentKey copy = content ∧
    Describes platform contents state.prepare sidecar copy ∧
      ∃ raw, platform.decodeDocument (bytesOf sidecar) = some raw ∧ placeIn raw = some place

/-- Assets have exactly the places which the documents of their copies carry. -/
def LocationsKept (plan : NormalizedPlan) : Prop :=
  ∀ asset ∈ plan.assets, ∀ place, asset.location = some place ↔
    Locates platform contents state bytesOf (carriedPlace platform) asset.contentKey place

/-- A place behind a block of zeros is also shown by a document of the same content. -/
def NothingHidden : Prop :=
  ∀ content place,
    Locates platform contents state bytesOf (hiddenPlace platform) content place →
      Locates platform contents state bytesOf (shownPlace platform) content place

end

/-- A media file of a reconciliation without errors has the places which are shown. -/
theorem location_reconcileTakeout {bytesOf : DiscoveredSidecar → List UInt8}
    (undescribed : ∀ media ∈ state.media, media.normalizedMetadata = none)
    (reads : state.ReadFrom platform contents bytesOf)
    (calm : (state.reconcileTakeout platform contents).errors = []) {item : DiscoveredMedia}
    (member : item ∈ (state.reconcileTakeout platform contents).media) {place : GeoCoordinates} :
    item.location = some place ↔
      Locates platform contents state bytesOf (shownPlace platform) (contentKey item) place := by
  obtain ⟨apart, collapsed⟩ := calm_of_reconcileTakeout calm
  obtain ⟨media, sidecars⟩ := perm_prepare apart
  have seen : (contentKey item, item.normalizedMetadata) ∈
      (takeoutState platform contents state).media.map
        fun item => (contentKey item, item.normalizedMetadata) := by
    rw [← metadata_complete platform]
    exact List.mem_map.mpr ⟨item, member, rfl⟩
  obtain ⟨inner, inside, same⟩ := List.mem_map.mp seen
  obtain ⟨content, metadata⟩ := Prod.mk.inj same
  have located : item.location = inner.location := by
    rw [DiscoveredMedia.location, DiscoveredMedia.location, metadata]
  have prepared : ∀ media ∈ state.prepare.media, media.normalizedMetadata = none :=
    fun file listed => undescribed file (media.mem_iff.mp listed)
  rw [located, ← content,
    location_collapseContentAliases prepared collapsed inside]
  constructor
  · rintro ⟨copy, sidecar, key, describes, document, read, placed⟩
    obtain ⟨raw, decoded, shown⟩ :=
      reads.location_documentOf (sidecars.mem_iff.mp describes.1) read
    exact ⟨copy, sidecar, key, describes, raw, decoded, shown ▸ placed⟩
  · rintro ⟨copy, sidecar, key, describes, raw, decoded, shown⟩
    obtain ⟨listed, position, original, matched⟩ := describes
    obtain ⟨found, selected, _⟩ := Option.map_eq_some_iff.mp matched
    obtain ⟨document, read⟩ := exists_documentOf_of_matchOf selected
    obtain ⟨other, same, placed⟩ :=
      reads.location_documentOf (sidecars.mem_iff.mp listed) read
    cases decoded.symm.trans same
    exact ⟨copy, sidecar, key, ⟨listed, position, original, matched⟩, document, read,
      placed.trans shown⟩

/-- **Locations.** In a Takeout which reconciles without errors the assets have exactly the places
which their documents carry unless a place is hidden behind a block of zeros. -/
theorem locationsKept_iff {bytesOf : DiscoveredSidecar → List UInt8} {config : TakeoutScanConfig}
    {label : String} (undescribed : ∀ media ∈ state.media, media.normalizedMetadata = none)
    (reads : state.ReadFrom platform contents bytesOf)
    (calm : ((Adapter.takeout config).normalized platform contents label state).errors = []) :
    LocationsKept platform contents state bytesOf
        ((Adapter.takeout config).normalized platform contents label state) ↔
      NothingHidden platform contents state bytesOf := by
  have listed : ∀ asset, asset ∈ ((Adapter.takeout config).normalized platform contents label
      state).assets ↔ ∃ item ∈ (state.reconcileTakeout platform contents).media,
        candidateAsset platform item = asset := by
    intro asset
    rw [Adapter.normalized, finalizePlan]
    dsimp only
    rw [mem_sortBy, List.mem_map]
    rfl
  have quiet : (state.reconcileTakeout platform contents).errors = [] := calm
  have shown : ∀ item ∈ (state.reconcileTakeout platform contents).media, ∀ place,
      item.location = some place ↔
        Locates platform contents state bytesOf (shownPlace platform) (contentKey item) place :=
    fun item member place => location_reconcileTakeout undescribed reads quiet member
  have carried : ∀ content place,
      Locates platform contents state bytesOf (carriedPlace platform) content place ↔
        Locates platform contents state bytesOf (shownPlace platform) content place ∨
          Locates platform contents state bytesOf (hiddenPlace platform) content place := by
    intro content place
    simp only [Locates, carriedPlace_eq_some_iff, and_or_left, exists_or]
  constructor
  · intro kept content place hidden
    have carries := hidden
    obtain ⟨copy, _, rfl, ⟨_, position, found, _⟩, _⟩ := hidden
    have original := (perm_prepare (calm_of_reconcileTakeout quiet).1).1.mem_iff.mp
      (List.mem_of_getElem? found)
    obtain ⟨item, inside, same⟩ := exists_reconcileTakeout quiet original
    have content : (candidateAsset platform item).contentKey = contentKey copy := same
    have located := kept _ ((listed _).mpr ⟨item, inside, rfl⟩) place
    rw [content] at located
    rw [← same]
    apply (shown item inside place).mp
    exact located.mpr ((carried _ _).mpr (Or.inr carries))
  · intro nothing asset member place
    obtain ⟨item, inside, rfl⟩ := (listed asset).mp member
    exact (shown item inside place).trans
      ⟨fun here => (carried _ _).mpr (Or.inl here),
        fun here => ((carried _ _).mp here).elim id (nothing _ _)⟩

end

/-! ## A sample document -/

/-- A platform with integral coordinates on which all bytes are one document. -/
def SourcePlatform.decoding (raw : RawDocument Int) : SourcePlatform :=
  { SourcePlatform.reference with
    toPlatform := .reference
    decodeDocument := fun _ => some raw }

/-- A document of a photograph with two blocks. -/
def geotag (exif other : Int × Int) : RawDocument Int :=
  { title := "a.jpg"
    description := none
    photoTakenTime := none
    creationTime := none
    geoDataExif := some { latitude := some exif.1, longitude := some exif.2 }
    geoData := some { latitude := some other.1, longitude := some other.2 } }

/-- A photograph with its document, which an archive left parsed. -/
def geotagged (location : Option GeoCoordinates) : ScanState :=
  { ScanState.new with
    media := [{ photograph "Beach/a.jpg" with contentSha256 := digestOf 'a' }]
    sidecars :=
      [{ nativePath := "takeout.zip"
         archiveIndex := some 1
         relativePath := "Beach/a.jpg.json"
         kind := .json
         byteLen := 3
         contentSha256 := digestOf 'b'
         contentSha1Base64 := ""
         createdAtUnixMs := none
         modifiedAtUnixMs := none
         takeoutDocument := some { title := "a.jpg", metadata := { NormalizedMetadata.empty with
           location } }
         takeoutParseError := none }] }

theorem geotagged_undescribed (location : Option GeoCoordinates) :
    ∀ media ∈ (geotagged location).media, media.normalizedMetadata = none := by
  intro media member
  rw [List.mem_singleton.mp member]
  rfl

theorem geotagged_readFrom {raw : RawDocument Int} {location : Option GeoCoordinates}
    (parsed : parseBytes (.decoding raw) [] false =
      .ok { title := "a.jpg", metadata := { NormalizedMetadata.empty with location } }) :
    (geotagged location).ReadFrom (.decoding raw) (fun _ => none) fun _ => [] := by
  constructor
  · intro sidecar member document stored
    rw [List.mem_singleton.mp member] at stored
    cases stored
    exact ⟨false, parsed⟩
  · intro sidecar _ _ bytes found
    cases found

/-- A document whose preferred block has a place. -/
theorem geotagged_kept :
    LocationsKept (.decoding (geotag (3, 4) (1, 2))) (fun _ => none)
      (geotagged (some { latitude := "3", longitude := "4" })) (fun _ => [])
      ((Adapter.takeout .default).normalized (.decoding (geotag (3, 4) (1, 2))) (fun _ => none)
        "takeout" (geotagged (some { latitude := "3", longitude := "4" }))) := by
  apply (locationsKept_iff (geotagged_undescribed _) (geotagged_readFrom (by decide +kernel))
    (by decide +kernel)).mpr
  rintro content place ⟨_, _, _, _, raw, decoded, hidden⟩
  cases decoded
  cases hidden

/-- A block of zeros hides the place of the other block. -/
theorem geotagged_lost :
    ((Adapter.takeout .default).normalized (.decoding (geotag (0, 0) (1, 2))) (fun _ => none)
        "takeout" (geotagged none)).errors = [] ∧
      (geotagged none).ReadFrom (.decoding (geotag (0, 0) (1, 2))) (fun _ => none) (fun _ => []) ∧
      ¬ LocationsKept (.decoding (geotag (0, 0) (1, 2))) (fun _ => none) (geotagged none)
        (fun _ => []) ((Adapter.takeout .default).normalized (.decoding (geotag (0, 0) (1, 2)))
          (fun _ => none) "takeout" (geotagged none)) := by
  refine ⟨by decide +kernel, geotagged_readFrom (by decide +kernel), ?_⟩
  intro kept
  have unlocated : ∃ asset ∈ ((Adapter.takeout .default).normalized
      (.decoding (geotag (0, 0) (1, 2))) (fun _ => none) "takeout" (geotagged none)).assets,
        asset.location = none ∧ asset.contentKey = toLex (3, digestOf 'a') := by
    decide +kernel
  obtain ⟨asset, listed, absent, content⟩ := unlocated
  have carries : Locates (.decoding (geotag (0, 0) (1, 2))) (fun _ => none) (geotagged none)
      (fun _ => []) (carriedPlace (.decoding (geotag (0, 0) (1, 2)))) asset.contentKey
      { latitude := "1", longitude := "2" } := by
    rw [content]
    refine ⟨_, _, rfl, ⟨List.mem_singleton_self _, 0, rfl, ?_⟩, _, rfl, ?_⟩
    · decide +kernel
    · decide +kernel
  have located := (kept asset listed _).mpr carries
  rw [absent] at located
  cases located

end ImmichRs
