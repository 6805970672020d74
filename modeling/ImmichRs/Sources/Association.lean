import ImmichRs.Sources.Matching

/-!
# What the documents of a Takeout say

The loops over the sidecars and the media files of a Takeout in closed form: the document of each
sidecar, the documents of each media file and the album of each directory.
-/

namespace ImmichRs

open Collections
open Std (ExtTreeMap)

section

variable (platform : SourcePlatform) (contents : String → Option (List UInt8))

/-! ## Sidecars -/

/-- The document of a sidecar, with its title. -/
def documentOf (sidecar : DiscoveredSidecar) : Option TakeoutDocument :=
  if sidecar.kind != .json then
    none
  else
    match parseDocument platform contents sidecar (isAlbumDocument sidecar.relativePath) with
    | .error _ => none
    | .ok document => some (titledDocument sidecar.relativePath document)

/-- The media file which a sidecar describes, with the rule that found it. -/
def matchOf (state : ScanState) (sidecar : DiscoveredSidecar) : Option (Nat × String) :=
  (documentOf platform contents sidecar).bind fun document =>
    match candidatesFor state sidecar.relativePath document.title with
    | ([media], rule) => some (media, rule)
    | _ => none

/-- The directory and title of a sidecar which describes an album. -/
def albumOfSidecar (state : ScanState) (sidecar : DiscoveredSidecar) : Option (String × String) :=
  (documentOf platform contents sidecar).bind fun document =>
    match (candidatesFor state sidecar.relativePath document.title).1 with
    | [] =>
        if isAlbumDocument sidecar.relativePath then
          some (parent sidecar.relativePath, document.title)
        else
          none
    | _ => none

/-- A sidecar with its document. -/
def DiscoveredSidecar.withDocument (sidecar : DiscoveredSidecar) : DiscoveredSidecar :=
  match documentOf platform contents sidecar with
  | some document => { sidecar with takeoutDocument := some document }
  | none => sidecar

/-- A sidecar's match as the loop records it. -/
def matchEntry (state : ScanState) (entry : DiscoveredSidecar × Nat) : Option (Nat × TakeoutMatch) :=
  (matchOf platform contents state entry.1).map fun found =>
    (found.1, { sidecar := entry.2, rule := found.2 })

/-- A sidecar's album as the loop records it. -/
def albumEntry (state : ScanState) (entry : DiscoveredSidecar × Nat) :
    Option (String × (String × Nat)) :=
  (albumOfSidecar platform contents state entry.1).map fun found =>
    (found.1, (found.2, entry.2))

end

section

variable {platform : SourcePlatform} {contents : String → Option (List UInt8)}
  {first second : ScanState} {association : TakeoutAssociation}

theorem matchEntry_congr (same : first.media = second.media) :
    matchEntry platform contents first = matchEntry platform contents second := by
  funext entry
  have candidates := candidatesFor_congr same
  rw [matchEntry, matchEntry, matchOf, matchOf]
  simp only [candidates]

theorem albumEntry_congr (same : first.media = second.media) :
    albumEntry platform contents first = albumEntry platform contents second := by
  funext entry
  have candidates := candidatesFor_congr same
  rw [albumEntry, albumEntry, albumOfSidecar, albumOfSidecar]
  simp only [candidates]

/-- What one iteration over the sidecars adds. -/
structure Associates (platform : SourcePlatform) (contents : String → Option (List UInt8))
    (entry : DiscoveredSidecar × Nat) (before after : TakeoutAssociation) : Prop where
  media : after.state.media = before.state.media
  found : after.found = before.found ++ (matchEntry platform contents before.state entry).toList
  albums : after.albums = (albumEntry platform contents before.state entry).elim before.albums
    fun album => before.albums.insert album.1 album.2
  sidecars : after.state.sidecars = (documentOf platform contents entry.1).elim
    before.state.sidecars fun document => before.state.sidecars.modify entry.2 fun stored =>
      { stored with takeoutDocument := some document }

theorem associateDocument_associates {sidecar : DiscoveredSidecar} {index : Nat}
    {document : TakeoutDocument} (read : documentOf platform contents sidecar = some document) :
    Associates platform contents (sidecar, index) association
      (associateDocument association sidecar.relativePath index document) := by
  have candidates : candidatesFor (storeDocument association.state index document)
      sidecar.relativePath document.title =
        candidatesFor association.state sidecar.relativePath document.title :=
    candidatesFor_congr rfl _ _
  rw [associateDocument]
  dsimp only
  rw [candidates]
  obtain ⟨⟨media, rule⟩, shape⟩ : ∃ found,
      candidatesFor association.state sidecar.relativePath document.title = found := ⟨_, rfl⟩
  rw [shape]
  rcases media with _ | ⟨index, _ | ⟨next, rest⟩⟩
  · rw [associateCandidates, associateOrphan]
    split
    · rename_i album
      constructor <;> simp [matchEntry, matchOf, albumEntry, albumOfSidecar, read, shape, album,
        storeDocument]
    · rename_i orphan
      constructor <;> simp [matchEntry, matchOf, albumEntry, albumOfSidecar, read, shape, orphan,
        storeDocument, ScanState.warn]
  · rw [associateCandidates]
    constructor <;> simp [matchEntry, matchOf, albumEntry, albumOfSidecar, read, shape,
      storeDocument]
  · rw [associateCandidates]
    constructor <;> simp [matchEntry, matchOf, albumEntry, albumOfSidecar, read, shape,
      storeDocument, recordAmbiguous, ScanState.fail]

theorem associateSidecar_associates (entry : DiscoveredSidecar × Nat) :
    Associates platform contents entry association
      (associateSidecar platform contents association entry) := by
  obtain ⟨sidecar, index⟩ := entry
  rw [associateSidecar]
  dsimp only
  split
  · rename_i other
    constructor <;> simp [matchEntry, matchOf, albumEntry, albumOfSidecar, documentOf, other,
      ScanState.warn]
  · rename_i json
    split
    · rename_i error refused
      constructor <;> simp [matchEntry, matchOf, albumEntry, albumOfSidecar, documentOf, json,
        refused, recordParseError, ScanState.fail]
    · rename_i document parsed
      apply associateDocument_associates
      simp [documentOf, json, parsed]

/-! ## The loop over the sidecars -/

theorem foldl_associateSidecar (entries : List (DiscoveredSidecar × Nat)) :
    (entries.foldl (associateSidecar platform contents) association).state.media =
        association.state.media ∧
      (entries.foldl (associateSidecar platform contents) association).found =
        association.found ++
          entries.filterMap (matchEntry platform contents association.state) ∧
      (entries.foldl (associateSidecar platform contents) association).albums =
        fill Prod.fst Prod.snd
          (entries.filterMap (albumEntry platform contents association.state))
          association.albums := by
  induction entries generalizing association with
  | nil => exact ⟨rfl, (List.append_nil _).symm, rfl⟩
  | cons entry rest induction =>
      have step : Associates platform contents entry association
          (associateSidecar platform contents association entry) :=
        associateSidecar_associates entry
      obtain ⟨media, found, albums⟩ :=
        @induction (associateSidecar platform contents association entry)
      rw [List.foldl_cons]
      refine ⟨media.trans step.media, ?_, ?_⟩
      · rw [found, step.found, matchEntry_congr step.media, List.filterMap_cons,
          List.append_assoc]
        cases matchEntry platform contents association.state entry <;> rfl
      · rw [albums, step.albums, albumEntry_congr step.media, List.filterMap_cons]
        cases albumEntry platform contents association.state entry <;> rfl

theorem modify_append_length {α : Type} (left right : List α) (item : α) (change : α → α) :
    (left ++ item :: right).modify left.length change = left ++ change item :: right := by
  induction left with
  | nil => rfl
  | cons other rest induction => exact congrArg (other :: ·) induction

theorem sidecars_foldl_associateSidecar (done rest : List DiscoveredSidecar)
    (sidecars : association.state.sidecars =
      done.map (·.withDocument platform contents) ++ rest) :
    ((rest.zipIdx done.length).foldl (associateSidecar platform contents)
      association).state.sidecars = (done ++ rest).map (·.withDocument platform contents) := by
  induction rest generalizing association done with
  | nil => simpa using sidecars
  | cons sidecar rest induction =>
      have step : Associates platform contents (sidecar, done.length) association
          (associateSidecar platform contents association (sidecar, done.length)) :=
        associateSidecar_associates _
      have stored : (associateSidecar platform contents association
          (sidecar, done.length)).state.sidecars =
            (done ++ [sidecar]).map (·.withDocument platform contents) ++ rest := by
        rw [step.sidecars, sidecars, List.map_append, List.append_assoc]
        cases read : documentOf platform contents sidecar with
        | none =>
            have kept : sidecar.withDocument platform contents = sidecar := by
              simp only [DiscoveredSidecar.withDocument, read]
            rw [List.map_singleton, kept]
            rfl
        | some document =>
            have changed : sidecar.withDocument platform contents =
                { sidecar with takeoutDocument := some document } := by
              simp only [DiscoveredSidecar.withDocument, read]
            have position := modify_append_length (done.map (·.withDocument platform contents))
              rest sidecar fun stored => { stored with takeoutDocument := some document }
            rw [List.length_map] at position
            rw [List.map_singleton, changed]
            exact position
      have next := induction (done ++ [sidecar]) stored
      rw [List.length_append, List.length_singleton, List.append_assoc,
        List.singleton_append] at next
      exact next

/-! ## Media files -/

/-- The matches of one media file. -/
def selectedOf (found : List (Nat × TakeoutMatch)) (index : Nat) : List TakeoutMatch :=
  (found.filter fun entry => entry.1 = index).map Prod.snd

/-- What the documents of a media file make of it. -/
def attachedTo (state : ScanState) (found : List (Nat × TakeoutMatch)) (index : Nat)
    (media : DiscoveredMedia) : DiscoveredMedia :=
  if adjacentDiffer (selectedDocuments state (selectedOf found index)) then
    media
  else
    (selectedOf found index).foldl (fun media item => attachMatch state item media)
      (describe (selectedDocuments state (selectedOf found index)) media)

theorem attachedTo_of_unmatched {state : ScanState} {found : List (Nat × TakeoutMatch)}
    {index : Nat} (unmatched : index ∉ found.map Prod.fst) :
    attachedTo state found index = id := by
  have none : selectedOf found index = [] := by
    rw [selectedOf, List.map_eq_nil_iff, List.filter_eq_nil_iff]
    intro entry member
    rw [decide_eq_true_eq]
    rintro rfl
    exact unmatched (List.mem_map_of_mem member)
  funext media
  rw [attachedTo, none]
  rfl

theorem attachAssetDocument_media (found : List (Nat × TakeoutMatch)) (state : ScanState)
    (index : Nat) :
    (attachAssetDocument found state index).media =
        state.media.modify index (attachedTo state found index) ∧
      (attachAssetDocument found state index).sidecars = state.sidecars := by
  have attached : attachedTo state found index = fun media =>
      if adjacentDiffer (selectedDocuments state (selectedOf found index)) then
        media
      else
        (selectedOf found index).foldl (fun media item => attachMatch state item media)
          (describe (selectedDocuments state (selectedOf found index)) media) := rfl
  rw [attachAssetDocument, attached, selectedOf]
  split
  · refine ⟨?_, rfl⟩
    apply List.ext_getElem?
    intro position
    rw [List.getElem?_modify]
    simp [ScanState.fail]
  · exact ⟨rfl, rfl⟩

theorem attachedTo_congr (same : first.sidecars = second.sidecars) :
    attachedTo first = attachedTo second := by
  funext found index media
  have documents : selectedDocuments first = selectedDocuments second := by
    funext selected
    rw [selectedDocuments, selectedDocuments, same]
  rw [attachedTo, attachedTo, documents, attachMatch_congr same]

theorem foldl_attachAssetDocument {found : List (Nat × TakeoutMatch)} {state : ScanState}
    {indices : List Nat} (distinct : indices.Nodup) (position : Nat) :
    (indices.foldl (attachAssetDocument found) state).sidecars = state.sidecars ∧
      (indices.foldl (attachAssetDocument found) state).media[position]? =
        (state.media[position]?).map
          (if position ∈ indices then attachedTo state found position else id) := by
  induction indices generalizing state with
  | nil => simp
  | cons index rest induction =>
      obtain ⟨fresh, distinct⟩ := List.nodup_cons.mp distinct
      obtain ⟨media, sidecars⟩ := attachAssetDocument_media found state index
      obtain ⟨kept, later⟩ := @induction (attachAssetDocument found state index) distinct
      rw [List.foldl_cons]
      refine ⟨kept.trans sidecars, ?_⟩
      rw [later, media, List.getElem?_modify, attachedTo_congr sidecars]
      by_cases here : position = index
      · subst here
        simp [fresh]
      · have elsewhere : index ≠ position := fun same => here same.symm
        simp [here, elsewhere]

/-- Each media file is described by its own documents alone. -/
theorem getElem?_attachAssetDocuments (state : ScanState) (found : List (Nat × TakeoutMatch))
    (position : Nat) :
    (attachAssetDocuments state found).media[position]? =
      (state.media[position]?).map (attachedTo state found position) := by
  have distinct : (sortDedup (found.map Prod.fst)).Nodup :=
    (pairwise_sortDedup _).imp fun less => ne_of_lt less
  rw [attachAssetDocuments, (foldl_attachAssetDocument distinct position).2]
  split
  · rfl
  · rename_i unmatched
    rw [mem_sortDedup] at unmatched
    rw [attachedTo_of_unmatched unmatched]

theorem sidecars_attachAssetDocuments (state : ScanState) (found : List (Nat × TakeoutMatch)) :
    (attachAssetDocuments state found).sidecars = state.sidecars := by
  have distinct : (sortDedup (found.map Prod.fst)).Nodup :=
    (pairwise_sortDedup _).imp fun less => ne_of_lt less
  exact (foldl_attachAssetDocument distinct 0).1

/-! ## Closed form -/

theorem exists_documentOf_of_matchOf {state : ScanState} {sidecar : DiscoveredSidecar}
    {found : Nat × String} (matched : matchOf platform contents state sidecar = some found) :
    ∃ document, documentOf platform contents sidecar = some document := by
  obtain ⟨document, read, _⟩ := Option.bind_eq_some_iff.mp matched
  exact ⟨document, read⟩

theorem takeoutDocument_withDocument {sidecar : DiscoveredSidecar} {document : TakeoutDocument}
    (read : documentOf platform contents sidecar = some document) :
    (sidecar.withDocument platform contents).takeoutDocument = some document := by
  simp only [DiscoveredSidecar.withDocument, read]

/-- A list is visited with its positions as without them. -/
theorem filterMap_zipIdx_fst {α β : Type} (items : List α) (select : α → Option β) :
    items.zipIdx.filterMap (fun entry => select entry.1) = items.filterMap select := by
  have positions : items.zipIdx.filterMap (select ∘ Prod.fst) =
      (items.zipIdx.map Prod.fst).filterMap select := List.filterMap_map.symm
  rw [List.zipIdx_map_fst] at positions
  exact positions

end

section

variable (platform : SourcePlatform) (contents : String → Option (List UInt8))

/-- The documents of a media file. -/
def documentsFor (state : ScanState) (index : Nat) : List TakeoutDocument :=
  state.sidecars.filterMap fun sidecar =>
    if (matchOf platform contents state sidecar).map Prod.fst = some index then
      documentOf platform contents sidecar
    else
      none

/-- The metadata of a media file, unless its documents differ. -/
def metadataFor (state : ScanState) (index : Nat) : Option NormalizedMetadata :=
  if adjacentDiffer (documentsFor platform contents state index) then
    none
  else
    (documentsFor platform contents state index).head?.map TakeoutDocument.metadata

/-- The title of a directory's album. -/
def albumTitle (state : ScanState) (directory : String) : Option String :=
  (state.sidecars.filterMap fun sidecar =>
    (albumOfSidecar platform contents state sidecar).bind fun album =>
      if album.1 = directory then some album.2 else none).getLast?

/-- Metadata with the album of a directory. -/
def withAlbum (title : Option String) (metadata : Option NormalizedMetadata) :
    Option NormalizedMetadata :=
  match title with
  | none => metadata
  | some title => some (addAlbum metadata title)

/-- The loop over the sidecars of a prepared scan. -/
def associate (prepared : ScanState) : TakeoutAssociation :=
  prepared.sidecars.zipIdx.foldl (associateSidecar platform contents)
    { state := prepared, found := [], albums := ∅ }

/-- A prepared scan with the documents and albums of its media files. -/
def takeoutDescribed (prepared : ScanState) : ScanState :=
  attachAlbums (attachAssetDocuments (associate platform contents prepared).state
    (associate platform contents prepared).found) (associate platform contents prepared).albums

theorem takeoutState_eq (state : ScanState) :
    takeoutState platform contents state =
      warnUnmatched (collapseContentAliases (takeoutDescribed platform contents state.prepare)) :=
  rfl

theorem sidecars_associate (prepared : ScanState) :
    (associate platform contents prepared).state.sidecars =
      prepared.sidecars.map (·.withDocument platform contents) :=
  sidecars_foldl_associateSidecar [] prepared.sidecars rfl

theorem media_associate (prepared : ScanState) :
    (associate platform contents prepared).state.media = prepared.media :=
  (foldl_associateSidecar prepared.sidecars.zipIdx).1

/-- The documents which the loop selects for a media file. -/
theorem selectedDocuments_associate (prepared : ScanState) (index : Nat) :
    selectedDocuments (associate platform contents prepared).state
        (selectedOf (associate platform contents prepared).found index) =
      documentsFor platform contents prepared index := by
  have found : (associate platform contents prepared).found =
      prepared.sidecars.zipIdx.filterMap (matchEntry platform contents prepared) :=
    (foldl_associateSidecar prepared.sidecars.zipIdx).2.1
  rw [selectedDocuments, selectedOf, found, sidecars_associate, List.filterMap_map,
    List.filterMap_filter, List.filterMap_filterMap, documentsFor,
    ← filterMap_zipIdx_fst prepared.sidecars]
  apply List.filterMap_congr
  rintro ⟨sidecar, position⟩ member
  have listed : prepared.sidecars[position]? = some sidecar :=
    List.mem_zipIdx_iff_getElem?.mp member
  rw [matchEntry]
  cases matched : matchOf platform contents prepared sidecar with
  | none => rfl
  | some entry =>
      obtain ⟨document, read⟩ := exists_documentOf_of_matchOf matched
      simp [listed, takeoutDocument_withDocument read, read]

/-- The title which the loop records for a directory. -/
theorem albums_associate (prepared : ScanState) (directory : String) :
    ((associate platform contents prepared).albums[directory]?).map Prod.fst =
      albumTitle platform contents prepared directory := by
  have albums : (associate platform contents prepared).albums =
      fill Prod.fst Prod.snd
        (prepared.sidecars.zipIdx.filterMap (albumEntry platform contents prepared)) ∅ :=
    (foldl_associateSidecar prepared.sidecars.zipIdx).2.2
  rw [albums, getElem?_fill_last, albumTitle,
    ← filterMap_zipIdx_fst prepared.sidecars]
  rw [ExtTreeMap.getElem?_empty, Option.or_none, Option.map_map, ← List.getLast?_map]
  congr 1
  rw [← List.filterMap_eq_map, List.filterMap_filter, List.filterMap_filterMap]
  apply List.filterMap_congr
  rintro ⟨sidecar, position⟩ _
  rw [albumEntry]
  cases albumOfSidecar platform contents prepared sidecar with
  | none => rfl
  | some album => simp

theorem normalizedMetadata_attachMatch (state : ScanState) (item : TakeoutMatch)
    (media : DiscoveredMedia) :
    (attachMatch state item media).normalizedMetadata = media.normalizedMetadata := by
  rw [attachMatch]
  split <;> rfl

theorem normalizedMetadata_attachMatches (state : ScanState) (items : List TakeoutMatch)
    (media : DiscoveredMedia) :
    (items.foldl (fun media item => attachMatch state item media) media).normalizedMetadata =
      media.normalizedMetadata := by
  induction items generalizing media with
  | nil => rfl
  | cons item rest induction => rw [List.foldl_cons, induction, normalizedMetadata_attachMatch]

theorem normalizedMetadata_attachedTo (prepared : ScanState) (position : Nat)
    {media : DiscoveredMedia} (undescribed : media.normalizedMetadata = none) :
    (attachedTo (associate platform contents prepared).state
        (associate platform contents prepared).found position media).normalizedMetadata =
      metadataFor platform contents prepared position := by
  rw [attachedTo, selectedDocuments_associate, metadataFor]
  split
  · exact undescribed
  · rw [normalizedMetadata_attachMatches, describe]
    cases (documentsFor platform contents prepared position).head? with
    | none => exact undescribed
    | some document => rfl

theorem normalizedMetadata_attachAlbum (state : ScanState)
    (albums : ExtTreeMap String (String × Nat)) (media : DiscoveredMedia) :
    (attachAlbum state albums media).normalizedMetadata =
      withAlbum ((albums[parent media.relativePath]?).map Prod.fst) media.normalizedMetadata := by
  rw [attachAlbum]
  cases albums[parent media.relativePath]? with
  | none => rfl
  | some entry =>
      obtain ⟨title, index⟩ := entry
      exact normalizedMetadata_attachMatch state _ _

theorem bare_attachAlbum (state : ScanState) (albums : ExtTreeMap String (String × Nat))
    (media : DiscoveredMedia) : (attachAlbum state albums media).bare = media.bare := by
  rw [attachAlbum]
  split
  · rfl
  · exact bare_attachMatch state _ _

theorem bare_attachedTo (state : ScanState) (found : List (Nat × TakeoutMatch)) (index : Nat)
    (media : DiscoveredMedia) : (attachedTo state found index media).bare = media.bare := by
  rw [attachedTo]
  split
  · rfl
  · rw [bare_attachMatches, bare_describe]

/-- What the documents of its own and of its directory make of a media file. -/
def takeoutMedia (prepared : ScanState) (position : Nat) (media : DiscoveredMedia) :
    DiscoveredMedia :=
  attachAlbum (attachAssetDocuments (associate platform contents prepared).state
      (associate platform contents prepared).found) (associate platform contents prepared).albums
    (attachedTo (associate platform contents prepared).state
      (associate platform contents prepared).found position media)

theorem getElem?_takeoutDescribed (prepared : ScanState) (position : Nat) :
    (takeoutDescribed platform contents prepared).media[position]? =
      (prepared.media[position]?).map (takeoutMedia platform contents prepared position) := by
  rw [takeoutDescribed, attachAlbums, List.getElem?_map, getElem?_attachAssetDocuments,
    media_associate, Option.map_map]
  rfl

theorem bare_takeoutMedia (prepared : ScanState) (position : Nat) (media : DiscoveredMedia) :
    (takeoutMedia platform contents prepared position media).bare = media.bare := by
  rw [takeoutMedia, bare_attachAlbum, bare_attachedTo]

/-- A media file without metadata of its own is described by its documents and its directory. -/
theorem normalizedMetadata_takeoutMedia (prepared : ScanState) (position : Nat)
    {media : DiscoveredMedia} (undescribed : media.normalizedMetadata = none) :
    (takeoutMedia platform contents prepared position media).normalizedMetadata =
      withAlbum (albumTitle platform contents prepared (parent media.relativePath))
        (metadataFor platform contents prepared position) := by
  have path : (attachedTo (associate platform contents prepared).state
      (associate platform contents prepared).found position media).relativePath =
        media.relativePath := relativePath_eq_of_bare (bare_attachedTo _ _ _ _)
  rw [takeoutMedia, normalizedMetadata_attachAlbum, path, albums_associate,
    normalizedMetadata_attachedTo platform contents prepared position undescribed]

end

end ImmichRs
