import ImmichRs.Sources.Association
import ImmichRs.Sources.Collapse
import ImmichRs.Sources.Lawful
import ImmichRs.Sources.LivePhotos

/-!
# Album documents of a Takeout

A document called `metadata.json` describes the album of its directory, unless one media file of the
directory is found for it first: by its title, or by a name which starts with `metadata`.  The title
reaches every asset of the directory exactly when an album document of that title which no file takes
lies in a directory of each of them.
-/

namespace ImmichRs

open Collections
open Std (ExtTreeMap)

/-! ## Candidates of an album document -/

/-- A media file of the directory for which the document of its album may be taken. -/
def TakesDocument (directory title : String) (media : DiscoveredMedia) : Prop :=
  parent media.relativePath = directory ∧
    (filename media.relativePath = title ∨
      startsWith (filename media.relativePath) "metadata" = true)

instance (directory title : String) (media : DiscoveredMedia) :
    Decidable (TakesDocument directory title media) :=
  inferInstanceAs (Decidable (_ ∧ _))

/-- No media file is taken for the one which the album document of a directory describes. -/
def Unclaimed (state : ScanState) (directory title : String) : Prop :=
  ∀ media ∈ state.media, ¬ TakesDocument directory title media

instance (state : ScanState) (directory title : String) :
    Decidable (Unclaimed state directory title) :=
  inferInstanceAs (Decidable (∀ media ∈ state.media, ¬ TakesDocument directory title media))

theorem indicesWhere_eq_nil_iff {α : Type} {predicate : α → Bool} {items : List α} :
    indicesWhere predicate items = [] ↔ ∀ item ∈ items, predicate item = false := by
  rw [List.eq_nil_iff_forall_not_mem]
  constructor
  · intro none item member
    obtain ⟨index, found⟩ := List.mem_iff_getElem?.mp member
    rw [← Bool.not_eq_true]
    intro holds
    exact none index (mem_indicesWhere.mpr ⟨item, found, holds⟩)
  · intro none index member
    obtain ⟨item, found, holds⟩ := mem_indicesWhere.mp member
    rw [none item (List.mem_of_getElem? found)] at holds
    cases holds

theorem candidatesNamed_eq_nil_iff {state : ScanState} {sidecar : String}
    {named : String → Bool} :
    candidatesNamed state sidecar named = [] ↔ ∀ media ∈ state.media,
      parent media.relativePath = parent sidecar → named (filename media.relativePath) = false := by
  rw [candidatesNamed, indicesWhere_eq_nil_iff]
  simp only [Bool.and_eq_false_imp, beq_iff_eq]

theorem startsWith_self (value : String) : startsWith value value = true :=
  List.isPrefixOf_iff_prefix.mpr (List.prefix_refl _)

theorem isAlbumDocument_filename {path : String} (album : isAlbumDocument path = true) :
    filename path = "metadata.json" := by
  rw [isAlbumDocument, Bool.and_eq_true] at album
  exact eq_of_beq album.1

/-- An album document is found for a media file by its title and by the start of its name. -/
theorem candidatesFor_album {path : String} (album : isAlbumDocument path = true)
    (state : ScanState) (title : String) :
    (candidatesFor state path title).1 = [] ↔ Unclaimed state (parent path) title := by
  have name := isAlbumDocument_filename album
  have unindexed : candidatesForIndexedSidecarName state path = [] := by
    have none : indexedMediaName "metadata.json" = none := by decide +kernel
    rw [candidatesForIndexedSidecarName, name, none]
  have base : (stripSuffix "metadata.json" ".supplemental-metadata.json").or
      (stripSuffix "metadata.json" ".json") = some "metadata" := by decide +kernel
  have sidecarNamed : candidatesForSidecarName state path = [] ↔
      candidatesNamed state path (startsWith · "metadata") = [] := by
    rw [candidatesForSidecarName, name, base]
    dsimp only
    rw [if_neg (by decide +kernel)]
    constructor
    · intro empty
      split at empty
      · exact empty
      · rename_i exact' different
        exact absurd empty different
    · intro empty
      have plain : candidatesNamed state path (· == "metadata") = [] := by
        rw [candidatesNamed_eq_nil_iff] at empty ⊢
        intro media member here
        have other := empty media member here
        rw [beq_eq_false_iff_ne]
        intro same
        rw [same, startsWith_self] at other
        cases other
      rw [plain]
      exact empty
  have split : (candidatesFor state path title).1 = [] ↔
      candidatesForTitle state path title = [] ∧ candidatesForSidecarName state path = [] := by
    rw [candidatesFor, unindexed]
    cases titled : candidatesForTitle state path title with
    | nil => simp
    | cons first rest => simp
  rw [split, sidecarNamed, candidatesForTitle, candidatesNamed_eq_nil_iff,
    candidatesNamed_eq_nil_iff, Unclaimed]
  constructor
  · rintro ⟨titled, started⟩ media member ⟨here, same | begins⟩
    · have other := titled media member here
      rw [same, beq_self_eq_true] at other
      cases other
    · have other := started media member here
      rw [begins] at other
      cases other
  · intro free
    constructor
    · intro media member here
      rw [beq_eq_false_iff_ne]
      exact fun same => free media member ⟨here, .inl same⟩
    · intro media member here
      rw [← Bool.not_eq_true]
      exact fun begins => free media member ⟨here, .inr begins⟩

/-! ## Documents of albums -/

section

variable (platform : SourcePlatform) (contents : String → Option (List UInt8))

/-- A document for the album of a directory, with its title. -/
def Announces (state : ScanState) (directory title : String) : Prop :=
  ∃ sidecar ∈ state.sidecars, isAlbumDocument sidecar.relativePath = true ∧
    parent sidecar.relativePath = directory ∧
      ∃ document, documentOf platform contents sidecar = some document ∧ document.title = title

/-- A scan state before its reconciliation: no metadata is attached yet, and paths are relative. -/
structure ScanState.Undescribed (state : ScanState) : Prop where
  media : ∀ media ∈ state.media, media.normalizedMetadata = none
  documents : ∀ sidecar ∈ state.sidecars, ∀ document ∈ sidecar.takeoutDocument,
    document.metadata.albums = []
  relative : ∀ sidecar ∈ state.sidecars, sidecar.relativePath.toList.head? ≠ some '/'

variable {platform contents} {state : ScanState}

theorem parseBytes_albums {bytes : List UInt8} {allowEmptyTitle : Bool}
    {document : TakeoutDocument}
    (parsed : parseBytes platform bytes allowEmptyTitle = .ok document) :
    document.metadata.albums = [] := by
  simp only [parseBytes, bind_eq_ok] at parsed
  obtain ⟨_, _, _, _, _, _, _, _, _, _, returned⟩ := parsed
  obtain rfl := Except.ok.inj returned
  rfl

theorem ScanState.Fresh.undescribed (fresh : state.Fresh platform)
    (relative : ∀ sidecar ∈ state.sidecars, sidecar.relativePath.toList.head? ≠ some '/') :
    state.Undescribed where
  media media member := (fresh.media media member).normalizedMetadata
  documents sidecar member document found := by
    obtain ⟨bytes, parsed⟩ := (fresh.sidecars sidecar member).document document found
    exact parseBytes_albums parsed
  relative := relative

theorem titledDocument_metadata (path : String) (document : TakeoutDocument) :
    (titledDocument path document).metadata = document.metadata := by
  rw [titledDocument]
  split <;> rfl

theorem ScanState.Undescribed.albums_documentOf (undescribed : state.Undescribed)
    {sidecar : DiscoveredSidecar} (member : sidecar ∈ state.sidecars) {document : TakeoutDocument}
    (read : documentOf platform contents sidecar = some document) :
    document.metadata.albums = [] := by
  rw [documentOf] at read
  split at read
  · cases read
  · split at read
    · cases read
    · rename_i parsed accepted
      obtain rfl := Option.some.inj read
      rw [titledDocument_metadata]
      rcases parseDocument_ok accepted with stored | ⟨bytes, parsed⟩
      · exact undescribed.documents sidecar member _ stored
      · exact parseBytes_albums parsed

/-- The documents of a media file bring no albums. -/
theorem ScanState.Undescribed.albums_metadataFor (undescribed : state.Undescribed) {index : Nat}
    {metadata : NormalizedMetadata}
    (described : metadataFor platform contents state index = some metadata) :
    metadata.albums = [] := by
  rw [metadataFor] at described
  split at described
  · cases described
  · obtain ⟨document, first, rfl⟩ := Option.map_eq_some_iff.mp described
    obtain ⟨sidecar, member, selected⟩ :=
      List.mem_filterMap.mp (List.mem_of_mem_head? (Option.mem_def.mpr first))
    split at selected
    · exact undescribed.albums_documentOf member selected
    · cases selected

/-- A sidecar describes an album where its document is one and no media file takes it. -/
theorem albumOfSidecar_eq_some_iff {sidecar : DiscoveredSidecar} {directory title : String} :
    albumOfSidecar platform contents state sidecar = some (directory, title) ↔
      isAlbumDocument sidecar.relativePath = true ∧ parent sidecar.relativePath = directory ∧
        (∃ document, documentOf platform contents sidecar = some document ∧
          document.title = title) ∧ Unclaimed state directory title := by
  rw [albumOfSidecar, Option.bind_eq_some_iff]
  constructor
  · rintro ⟨document, read, selected⟩
    split at selected
    · rename_i empty
      split at selected
      · rename_i album
        cases selected
        exact ⟨album, rfl, ⟨document, read, rfl⟩, (candidatesFor_album album _ _).mp empty⟩
      · cases selected
    · cases selected
  · rintro ⟨album, rfl, ⟨document, read, rfl⟩, unclaimed⟩
    refine ⟨document, read, ?_⟩
    rw [(candidatesFor_album album _ _).mpr unclaimed]
    exact if_pos album

/-- The titles of the album documents which no media file takes are recorded. -/
theorem albumTitle_eq_some_iff (undescribed : state.Undescribed)
    (distinct : (state.sidecars.map DiscoveredSidecar.relativePath).Nodup)
    {directory title : String} :
    albumTitle platform contents state directory = some title ↔
      Announces platform contents state directory title ∧ Unclaimed state directory title := by
  have listed : ∀ {title}, title ∈ state.sidecars.filterMap (fun sidecar =>
      (albumOfSidecar platform contents state sidecar).bind fun album =>
        if album.1 = directory then some album.2 else none) ↔
      ∃ sidecar ∈ state.sidecars,
        albumOfSidecar platform contents state sidecar = some (directory, title) := by
    intro title
    rw [List.mem_filterMap]
    constructor
    · rintro ⟨sidecar, member, selected⟩
      obtain ⟨⟨other, found⟩, album, same⟩ := Option.bind_eq_some_iff.mp selected
      obtain ⟨here, chosen⟩ := Option.ite_none_right_eq_some.mp same
      cases here
      cases chosen
      exact ⟨sidecar, member, album⟩
    · rintro ⟨sidecar, member, album⟩
      refine ⟨sidecar, member, ?_⟩
      rw [album]
      exact if_pos rfl
  have recorded : ∀ {title}, (∃ sidecar ∈ state.sidecars,
      albumOfSidecar platform contents state sidecar = some (directory, title)) ↔
      Announces platform contents state directory title ∧ Unclaimed state directory title := by
    intro title
    simp only [albumOfSidecar_eq_some_iff, Announces]
    constructor
    · rintro ⟨sidecar, member, album, here, read, unclaimed⟩
      exact ⟨⟨sidecar, member, album, here, read⟩, unclaimed⟩
    · rintro ⟨⟨sidecar, member, album, here, read⟩, unclaimed⟩
      exact ⟨sidecar, member, album, here, read, unclaimed⟩
  have only : ∀ {first second}, Announces platform contents state directory first →
      Announces platform contents state directory second → first = second := by
    rintro _ _ ⟨left, leftMember, leftAlbum, leftHere, document, read, rfl⟩
      ⟨right, rightMember, rightAlbum, rightHere, other, otherRead, rfl⟩
    have path : left.relativePath = right.relativePath := by
      apply eq_of_parent_filename (undescribed.relative left leftMember)
        (undescribed.relative right rightMember) (leftHere.trans rightHere.symm)
      rw [isAlbumDocument_filename leftAlbum, isAlbumDocument_filename rightAlbum]
    cases List.inj_on_of_nodup_map distinct leftMember rightMember path
    cases read.symm.trans otherRead
    rfl
  rw [albumTitle]
  constructor
  · intro last
    exact recorded.mp (listed.mp (List.mem_of_mem_getLast? (Option.mem_def.mpr last)))
  · intro announced
    have member := listed.mpr (recorded.mpr announced)
    cases last : (state.sidecars.filterMap fun sidecar =>
        (albumOfSidecar platform contents state sidecar).bind fun album =>
          if album.1 = directory then some album.2 else none).getLast? with
    | none =>
        rw [List.getLast?_eq_none_iff.mp last] at member
        cases member
    | some found =>
        have other := recorded.mp (listed.mp (List.mem_of_mem_getLast? (Option.mem_def.mpr last)))
        exact congrArg some (only other.1 announced.1)

/-! ## Albums of assets -/

/-- The recorded titles are the albums of a described media file. -/
theorem mem_albums_takeoutMedia (undescribed : state.Undescribed) {position : Nat}
    {media : DiscoveredMedia} (member : media ∈ state.media) {album : String} :
    album ∈ (takeoutMedia platform contents state position media).albums ↔
      albumTitle platform contents state (parent media.relativePath) = some album := by
  rw [DiscoveredMedia.albums, normalizedMetadata_takeoutMedia platform contents state position
    (undescribed.media media member)]
  have own : ∀ metadata, metadataFor platform contents state position = some metadata →
      metadata.albums = [] := fun _ described => undescribed.albums_metadataFor described
  cases albumTitle platform contents state (parent media.relativePath) with
  | none =>
      rw [withAlbum]
      cases described : metadataFor platform contents state position with
      | none => simp
      | some metadata => simp [own metadata described]
  | some title =>
      have bare : ((metadataFor platform contents state position).getD .empty).albums = [] := by
        cases described : metadataFor platform contents state position with
        | none => rfl
        | some metadata => exact own metadata described
      simp only [withAlbum, addAlbum, bare, Option.map_some, Option.getD_some, List.nil_append,
        mem_sortDedup, List.mem_singleton, Option.some.injEq]
      exact eq_comm

/-- A described media file comes from one of the scan. -/
theorem mem_takeoutDescribed {item : DiscoveredMedia} :
    item ∈ (takeoutDescribed platform contents state).media ↔
      ∃ position media, state.media[position]? = some media ∧
        item = takeoutMedia platform contents state position media := by
  constructor
  · intro member
    obtain ⟨position, found⟩ := List.mem_iff_getElem?.mp member
    rw [getElem?_takeoutDescribed] at found
    obtain ⟨media, listed, same⟩ := Option.map_eq_some_iff.mp found
    exact ⟨position, media, listed, same.symm⟩
  · rintro ⟨position, media, listed, rfl⟩
    apply List.mem_of_getElem? (i := position)
    rw [getElem?_takeoutDescribed, listed]
    rfl

/-! ## Errors -/

theorem errors_associateSidecar (association : TakeoutAssociation)
    (entry : DiscoveredSidecar × Nat) :
    association.state.errors ⊆ (associateSidecar platform contents association entry).state.errors := by
  have parsed : ∀ document, association.state.errors ⊆
      (associateDocument association entry.1.relativePath entry.2 document).state.errors := by
    intro document
    rw [associateDocument]
    dsimp only
    obtain ⟨media, rule⟩ := candidatesFor (storeDocument association.state entry.2 document)
      entry.1.relativePath document.title
    rcases media with _ | ⟨first, _ | ⟨second, rest⟩⟩
    · rw [associateCandidates, associateOrphan]
      split
      · exact List.Subset.refl _
      · exact List.Subset.refl _
    · exact List.Subset.refl _
    · exact List.subset_append_left _ _
  rw [associateSidecar]
  split
  · exact List.Subset.refl _
  · split
    · exact List.subset_append_left _ _
    · exact parsed _

theorem errors_associate : state.errors ⊆ (associate platform contents state).state.errors := by
  have loop : ∀ (entries : List (DiscoveredSidecar × Nat)) (association : TakeoutAssociation),
      association.state.errors ⊆
        (entries.foldl (associateSidecar platform contents) association).state.errors := by
    intro entries
    induction entries with
    | nil => exact fun _ => List.Subset.refl _
    | cons entry rest induction =>
        exact fun association =>
          List.Subset.trans (errors_associateSidecar association entry) (induction _)
  exact loop state.sidecars.zipIdx { state, found := [], albums := ∅ }

theorem errors_foldl_attachAssetDocument (found : List (Nat × TakeoutMatch))
    (indices : List Nat) :
    state.errors ⊆ (indices.foldl (attachAssetDocument found) state).errors := by
  induction indices generalizing state with
  | nil => exact List.Subset.refl _
  | cons index rest induction =>
      have step : state.errors ⊆ (attachAssetDocument found state index).errors := by
        rw [attachAssetDocument]
        split
        · exact List.subset_append_left _ _
        · exact List.Subset.refl _
      exact List.Subset.trans step induction

theorem errors_attachAssetDocuments (found : List (Nat × TakeoutMatch)) :
    state.errors ⊆ (attachAssetDocuments state found).errors :=
  errors_foldl_attachAssetDocument found _

theorem errors_takeoutDescribed :
    state.errors ⊆ (takeoutDescribed platform contents state).errors :=
  List.Subset.trans errors_associate (errors_attachAssetDocuments _)

/-- A reconciliation without errors met no collision and no conflict. -/
theorem calm_of_reconcileTakeout
    (calm : (state.reconcileTakeout platform contents).errors = []) :
    collisions state = [] ∧
      (collapseContentAliases (takeoutDescribed platform contents state.prepare)).errors = [] := by
  have matched : (takeoutState platform contents state).errors = [] := by
    apply List.eq_nil_iff_forall_not_mem.mpr
    intro error member
    have reported : error ∈ (state.reconcileTakeout platform contents).errors :=
      mem_sortDedup.mpr (List.mem_append_left _ member)
    rw [calm] at reported
    cases reported
  rw [takeoutState_eq] at matched
  have collapsed : (collapseContentAliases
      (takeoutDescribed platform contents state.prepare)).errors = [] := matched
  have prepared : state.prepare.errors = [] := by
    apply List.eq_nil_iff_forall_not_mem.mpr
    intro error member
    have described := @errors_takeoutDescribed platform contents _ _ member
    rw [(collapseContentAliases_eq _).2] at collapsed
    rw [(List.append_eq_nil_iff.mp collapsed).1] at described
    cases described
  exact ⟨List.map_eq_nil_iff.mp (List.append_eq_nil_iff.mp prepared).2, collapsed⟩

theorem perm_prepare (apart : collisions state = []) :
    state.prepare.media.Perm state.media ∧ state.prepare.sidecars.Perm state.sidecars := by
  have media : (removeUnicodeCollisions state).media = state.media := by
    rw [removeUnicodeCollisions, apart]
    exact List.filter_eq_self.mpr fun _ _ => rfl
  have sidecars : (removeUnicodeCollisions state).sidecars = state.sidecars := by
    rw [removeUnicodeCollisions, apart]
    exact List.filter_eq_self.mpr fun _ _ => rfl
  exact ⟨(perm_sortBy _ _).trans (.of_eq media), (perm_sortBy _ _).trans (.of_eq sidecars)⟩

theorem contentKey_eq_of_file {first second : DiscoveredMedia} (same : first.file = second.file) :
    contentKey first = contentKey second := by
  have lengths := congrArg DiscoveredMedia.byteLen same
  have digests := congrArg DiscoveredMedia.contentSha256 same
  exact congrArg₂ (fun length digest => toLex (UInt64.toNat length, digest)) lengths digests

/-- Completion keeps contents and metadata. -/
theorem metadata_complete (platform : SourcePlatform) (state : ScanState) :
    (state.complete platform).media.map
        (fun item => (contentKey item, item.normalizedMetadata)) =
      state.media.map fun item => (contentKey item, item.normalizedMetadata) := by
  rw [ScanState.complete, reconcileLivePhotos_eq_map]
  dsimp only
  rw [List.map_map, List.map_map]
  apply List.map_congr_left
  intro media _
  have content : contentKey (memberOf platform state.media media) = contentKey media :=
    contentKey_eq_of_file (keepsFile_memberOf platform state.media media)
  have metadata : (memberOf platform state.media media).normalizedMetadata =
      media.normalizedMetadata := by
    rw [memberOf]
    split
    · rfl
    · rw [DiscoveredMedia.inPair]
      split
      · rfl
      · split <;> rfl
  exact congrArg₂ Prod.mk content metadata

/-- Completion keeps contents and albums. -/
theorem contents_complete (platform : SourcePlatform) (state : ScanState) :
    (state.complete platform).media.map (fun item => (contentKey item, item.albums)) =
      state.media.map fun item => (contentKey item, item.albums) := by
  have albums := congrArg (List.map fun seen : (Nat ×ₗ String) × Option NormalizedMetadata =>
    (seen.1, (seen.2.map NormalizedMetadata.albums).getD [])) (metadata_complete platform state)
  rw [List.map_map, List.map_map] at albums
  exact albums

/-- The collapse of described media files without errors unites the recorded titles. -/
theorem mem_albums_collapsed (undescribed : state.Undescribed)
    (distinct : (state.sidecars.map DiscoveredSidecar.relativePath).Nodup)
    (calm : (collapseContentAliases (takeoutDescribed platform contents state)).errors = [])
    {item : DiscoveredMedia}
    (member : item ∈ (collapseContentAliases (takeoutDescribed platform contents state)).media)
    {title : String} :
    title ∈ item.albums ↔ ∃ copy ∈ state.media, contentKey copy = contentKey item ∧
      Announces platform contents state (parent copy.relativePath) title ∧
        Unclaimed state (parent copy.relativePath) title := by
  obtain ⟨media, errors⟩ := collapseContentAliases_eq (takeoutDescribed platform contents state)
  rw [media] at member
  obtain ⟨group, listed, rfl⟩ := List.mem_map.mp member
  have collapsed := mem_collapsedGroups listed
  have merges : MergesAll (aliasesOf (takeoutDescribed platform contents state).media
      (contentKey group.1)) group.1 := by
    rcases collapsed.described with ⟨merges, _⟩ | ⟨_, _, error, reported, _⟩
    · exact merges
    · rw [errors] at calm
      have silent := List.flatMap_eq_nil_iff.mp (List.append_eq_nil_iff.mp calm).2 group listed
      rw [silent] at reported
      cases reported
  rw [merges.albums]
  constructor
  · rintro ⟨aliased, inside, present⟩
    obtain ⟨known, same⟩ := mem_aliasesOf.mp inside
    obtain ⟨position, copy, found, rfl⟩ := mem_takeoutDescribed.mp known
    have original := List.mem_of_getElem? found
    rw [mem_albums_takeoutMedia undescribed original, albumTitle_eq_some_iff undescribed distinct]
      at present
    refine ⟨copy, original, ?_, present⟩
    rw [← same]
    exact (contentKey_eq_of_bare (bare_takeoutMedia platform contents state position copy)).symm
  · rintro ⟨copy, original, same, announced⟩
    obtain ⟨position, found⟩ := List.mem_iff_getElem?.mp original
    refine ⟨takeoutMedia platform contents state position copy, mem_aliasesOf.mpr ⟨?_, ?_⟩, ?_⟩
    · exact mem_takeoutDescribed.mpr ⟨position, copy, found, rfl⟩
    · rw [← same]
      exact contentKey_eq_of_bare (bare_takeoutMedia platform contents state position copy)
    · rw [mem_albums_takeoutMedia undescribed original,
        albumTitle_eq_some_iff undescribed distinct]
      exact announced

variable (platform contents state)

/-- The title of every album document is an album of all assets which have a copy in its
directory. -/
def AlbumsContribute : Prop :=
  ∀ directory title, Announces platform contents state directory title →
    ∀ media ∈ state.media, parent media.relativePath = directory →
      ∀ asset ∈ (state.reconcileTakeout platform contents).media,
        contentKey asset = contentKey media → title ∈ asset.albums

/-- Every media file in the directory of an album document has a copy, itself or another, in a
directory with an album document of the same title for which no media file is found. -/
def AlbumsReach : Prop :=
  ∀ directory title, Announces platform contents state directory title →
    ∀ media ∈ state.media, parent media.relativePath = directory →
      ∃ copy ∈ state.media, contentKey copy = contentKey media ∧
        Announces platform contents state (parent copy.relativePath) title ∧
          Unclaimed state (parent copy.relativePath) title

variable {platform contents state}

theorem ScanState.Undescribed.of_perm {other : ScanState} (undescribed : state.Undescribed)
    (media : other.media.Perm state.media) (sidecars : other.sidecars.Perm state.sidecars) :
    other.Undescribed where
  media item member := undescribed.media item (media.mem_iff.mp member)
  documents sidecar member := undescribed.documents sidecar (sidecars.mem_iff.mp member)
  relative sidecar member := undescribed.relative sidecar (sidecars.mem_iff.mp member)

/-- The albums of a reconciled asset are the titles which reach one of its copies. -/
theorem mem_albums_reconcileTakeout (undescribed : state.Undescribed)
    (calm : (state.reconcileTakeout platform contents).errors = []) {asset : DiscoveredMedia}
    (member : asset ∈ (state.reconcileTakeout platform contents).media) {title : String} :
    title ∈ asset.albums ↔ ∃ copy ∈ state.media, contentKey copy = contentKey asset ∧
      Announces platform contents state (parent copy.relativePath) title ∧
        Unclaimed state (parent copy.relativePath) title := by
  obtain ⟨apart, collapsed⟩ := calm_of_reconcileTakeout calm
  obtain ⟨media, sidecars⟩ := perm_prepare apart
  have distinct : (state.prepare.sidecars.map DiscoveredSidecar.relativePath).Nodup :=
    ((perm_sortBy _ _).map _).nodup_iff.mpr (nodup_kept_sidecars state)
  have seen : (contentKey asset, asset.albums) ∈
      (takeoutState platform contents state).media.map fun item => (contentKey item, item.albums) := by
    rw [← contents_complete platform]
    exact List.mem_map.mpr ⟨asset, member, rfl⟩
  obtain ⟨item, inside, same⟩ := List.mem_map.mp seen
  obtain ⟨content, albums⟩ := Prod.mk.inj same
  have recorded := @mem_albums_collapsed platform contents _ (undescribed.of_perm media sidecars)
    distinct collapsed item inside title
  rw [albums, content] at recorded
  simpa only [Announces, Unclaimed, media.mem_iff, sidecars.mem_iff] using recorded

theorem exists_reconcileTakeout
    (calm : (state.reconcileTakeout platform contents).errors = []) {media : DiscoveredMedia}
    (member : media ∈ state.media) :
    ∃ asset ∈ (state.reconcileTakeout platform contents).media,
      contentKey asset = contentKey media := by
  obtain ⟨apart, _⟩ := calm_of_reconcileTakeout calm
  have prepared := (perm_prepare apart).1.mem_iff.mpr member
  obtain ⟨position, found⟩ := List.mem_iff_getElem?.mp prepared
  have described := (@mem_takeoutDescribed platform contents _ _).mpr
    ⟨position, media, found, rfl⟩
  have key : contentKey media ∈ (takeoutState platform contents state).media.map contentKey := by
    rw [takeoutState_eq, warnUnmatched, (collapseContentAliases_eq _).1, List.map_map]
    refine (contentKeys_collapsedGroups _).symm ▸ mem_sortDedup.mpr ?_
    refine List.mem_map.mpr ⟨_, described, ?_⟩
    exact contentKey_eq_of_bare (bare_takeoutMedia platform contents _ position media)
  obtain ⟨item, inside, same⟩ := List.mem_map.mp key
  have seen : (contentKey item, item.albums) ∈ (state.reconcileTakeout platform contents).media.map
      fun item => (contentKey item, item.albums) := by
    rw [ScanState.reconcileTakeout, contents_complete]
    exact List.mem_map.mpr ⟨item, inside, rfl⟩
  obtain ⟨asset, listed, equal⟩ := List.mem_map.mp seen
  exact ⟨asset, listed, (Prod.mk.inj equal).1.trans same⟩

/-- **Album documents.** In a Takeout which reconciles without errors the title of every album
document is an album of all assets of its directory exactly when it reaches each of them. -/
theorem albumsContribute_iff (undescribed : state.Undescribed)
    (calm : (state.reconcileTakeout platform contents).errors = []) :
    AlbumsContribute platform contents state ↔ AlbumsReach platform contents state := by
  constructor
  · intro contribute directory title announced media member here
    obtain ⟨asset, listed, same⟩ := exists_reconcileTakeout calm member
    have present := contribute directory title announced media member here asset listed same
    rw [← same]
    exact (mem_albums_reconcileTakeout undescribed calm listed).mp present
  · intro reach directory title announced media member here asset listed same
    apply (mem_albums_reconcileTakeout undescribed calm listed).mpr
    rw [same]
    exact reach directory title announced media member here

end

/-! ## A sample album -/

/-- A directory with one photograph and the document of its album. -/
def beachAlbum (name : String) : ScanState :=
  { ScanState.new with
    media := [{ photograph ("Beach/" ++ name) with contentSha256 := digestOf 'a' }]
    sidecars :=
      [{ nativePath := "/photos/Beach/metadata.json"
         archiveIndex := none
         relativePath := "Beach/metadata.json"
         kind := .json
         byteLen := 3
         contentSha256 := digestOf 'b'
         contentSha1Base64 := ""
         createdAtUnixMs := none
         modifiedAtUnixMs := none
         takeoutDocument := some { title := "Summer", metadata := .empty }
         takeoutParseError := none }] }

theorem beachAlbum_undescribed (name : String) : (beachAlbum name).Undescribed := by
  constructor
  · intro media member
    rw [List.mem_singleton.mp member]
    rfl
  · intro sidecar member document found
    rw [List.mem_singleton.mp member] at found
    cases found
    rfl
  · intro sidecar member
    rw [List.mem_singleton.mp member]
    decide +kernel

/-- The only album document of the sample. -/
theorem beachAlbum_announces {name directory title : String} :
    Announces .reference (fun _ => none) (beachAlbum name) directory title ↔
      directory = "Beach" ∧ title = "Summer" := by
  constructor
  · rintro ⟨sidecar, member, _, here, document, read, rfl⟩
    obtain rfl := List.mem_singleton.mp member
    have parsed : documentOf .reference (fun _ => none) _ = some document := read
    cases parsed
    refine ⟨here.symm.trans ?_, rfl⟩
    decide +kernel
  · rintro ⟨rfl, rfl⟩
    refine ⟨_, List.mem_singleton_self _, by decide +kernel, by decide +kernel, _, rfl, rfl⟩

/-- A photograph whose name starts with `metadata` takes the document of its album. -/
theorem beachAlbum_lost :
    ((beachAlbum "metadata.jpg").reconcileTakeout .reference (fun _ => none)).errors = [] ∧
      ¬ AlbumsContribute .reference (fun _ => none) (beachAlbum "metadata.jpg") := by
  have reconciled : ((beachAlbum "metadata.jpg").reconcileTakeout .reference
      (fun _ => none)).errors = [] ∧
        ∃ asset ∈ ((beachAlbum "metadata.jpg").reconcileTakeout .reference (fun _ => none)).media,
          ∃ media ∈ (beachAlbum "metadata.jpg").media, parent media.relativePath = "Beach" ∧
            contentKey asset = contentKey media ∧ "Summer" ∉ asset.albums := by
    decide +kernel
  obtain ⟨calm, asset, listed, media, member, here, same, missing⟩ := reconciled
  refine ⟨calm, fun contribute => missing ?_⟩
  exact contribute "Beach" "Summer" (beachAlbum_announces.mpr ⟨rfl, rfl⟩) media member here asset
    listed same

/-- Another photograph does not. -/
theorem beachAlbum_contributes :
    AlbumsContribute .reference (fun _ => none) (beachAlbum "a.jpg") := by
  refine (albumsContribute_iff (beachAlbum_undescribed _) (by decide +kernel)).mpr ?_
  intro directory title announced media member here
  obtain ⟨rfl, rfl⟩ := beachAlbum_announces.mp announced
  refine ⟨media, member, rfl, ?_, ?_⟩
  · rw [here]
    exact announced
  · rw [here]
    decide +kernel

end ImmichRs
