import ImmichRs.Sources.Adapters
import ImmichRs.Sources.OrderIndependence

/-!
# What matching attaches

Every loop between preparation and completion changes media files one at a time.  A property of
media files which each kind of change keeps therefore holds after matching.
-/

namespace ImmichRs

open Collections
open Std (ExtTreeMap)

/-! ## Changes at one position -/

section

variable {α β : Type} {items : List α} {change : α → α}

theorem forall_mem_modify {property : α → Prop} (holds : ∀ item ∈ items, property item)
    (keeps : ∀ item ∈ items, property item → property (change item)) (index : Nat) :
    ∀ item ∈ items.modify index change, property item := by
  intro item member
  obtain ⟨position, found⟩ := List.mem_iff_getElem?.mp member
  rw [List.getElem?_modify] at found
  cases original : items[position]? with
  | none =>
      rw [original] at found
      cases found
  | some before =>
      have listed := List.mem_of_getElem? original
      have held := holds before listed
      rw [original] at found
      obtain rfl := Option.some.inj found
      split
      · exact keeps before listed held
      · exact held

theorem map_modify {view : α → β} (same : ∀ item, view (change item) = view item) (index : Nat) :
    (items.modify index change).map view = items.map view := by
  apply List.ext_getElem?
  intro position
  rw [List.getElem?_map, List.getElem?_map, List.getElem?_modify]
  cases items[position]? with
  | none => rfl
  | some item =>
      refine congrArg some ?_
      split
      · exact same item
      · rfl

end

/-! ## Folders -/

@[simp] theorem bare_attachSidecar (sidecar : DiscoveredSidecar) (rule : String)
    (media : DiscoveredMedia) : (attachSidecar sidecar rule media).bare = media.bare := rfl

/-- The rules which sidecars are attached by. -/
def sidecarRules : List String :=
  ["META_SIDECAR_EXACT_NAME_V1", "META_SIDECAR_BASENAME_V1", "META_GOOGLE_TAKEOUT_TITLE_V1",
    "META_GOOGLE_TAKEOUT_SUPPLEMENTAL_V1", "META_GOOGLE_TAKEOUT_ALBUM_V1"]

/-- A property which attaching a sidecar at an admitted path keeps. -/
def KeptByAttaching (admitted : String → Prop) (property : DiscoveredMedia → Prop) : Prop :=
  ∀ sidecar rule media, admitted sidecar.relativePath → rule ∈ sidecarRules → property media →
    property (attachSidecar sidecar rule media)

theorem reconcileSidecar_forall {admitted : String → Prop} {property : DiscoveredMedia → Prop}
    (attach : KeptByAttaching admitted property) {state : ScanState} {sidecar : DiscoveredSidecar}
    (admits : admitted sidecar.relativePath) (holds : ∀ media ∈ state.media, property media) :
    ∀ media ∈ (reconcileSidecar state sidecar).media, property media := by
  rw [reconcileSidecar]
  split
  · exact forall_mem_modify holds (fun media _ => attach sidecar _ media admits (by decide)) _
  · split
    · exact forall_mem_modify holds (fun media _ => attach sidecar _ media admits (by decide)) _
    · exact holds
    · exact holds

/-- Matching the sidecars of a folder keeps what attaching one keeps. -/
theorem reconcileSidecars_forall {admitted : String → Prop} {property : DiscoveredMedia → Prop}
    (attach : KeptByAttaching admitted property) {state : ScanState}
    (admits : ∀ sidecar ∈ state.sidecars, admitted sidecar.relativePath)
    (holds : ∀ media ∈ state.media, property media) :
    ∀ media ∈ (reconcileSidecars state).media, property media := by
  rw [reconcileSidecars]
  generalize state.sidecars = sidecars at admits
  induction sidecars generalizing state with
  | nil => exact holds
  | cons sidecar rest induction =>
      obtain ⟨head, tail⟩ := List.forall_mem_cons.mp admits
      exact induction (reconcileSidecar_forall attach head holds) tail

theorem bare_reconcileSidecar (state : ScanState) (sidecar : DiscoveredSidecar) :
    (reconcileSidecar state sidecar).media.map DiscoveredMedia.bare =
      state.media.map DiscoveredMedia.bare := by
  rw [reconcileSidecar]
  split
  · exact map_modify (fun media => bare_attachSidecar sidecar _ media) _
  · split
    · exact map_modify (fun media => bare_attachSidecar sidecar _ media) _
    · rfl
    · rfl

theorem bare_reconcileSidecars (state : ScanState) :
    (reconcileSidecars state).media.map DiscoveredMedia.bare =
      state.media.map DiscoveredMedia.bare := by
  rw [reconcileSidecars]
  generalize state.sidecars = sidecars
  induction sidecars generalizing state with
  | nil => rfl
  | cons sidecar rest induction =>
      rw [List.foldl_cons, induction, bare_reconcileSidecar]

/-! ## Documents of a Takeout -/

/-- What is known of the sidecars, documents, titles and rules which the loop over the sidecars
collects. -/
structure TakeoutAssociation.Holds (admitted : String → Prop) (document : TakeoutDocument → Prop)
    (title : String → Prop) (media : List DiscoveredMedia) (association : TakeoutAssociation) :
    Prop where
  media_eq : association.state.media = media
  admits : ∀ sidecar ∈ association.state.sidecars, admitted sidecar.relativePath
  documents : ∀ sidecar ∈ association.state.sidecars, ∀ stored,
    sidecar.takeoutDocument = some stored → document stored
  titles : ∀ (directory : String) (entry : String × Nat),
    association.albums[directory]? = some entry → title entry.1
  rules : ∀ entry ∈ association.found, entry.2.rule ∈ sidecarRules

section

variable {admitted : String → Prop} {document : TakeoutDocument → Prop} {title : String → Prop}
  {media : List DiscoveredMedia} {association : TakeoutAssociation}

theorem candidatesFor_rule (state : ScanState) (sidecar title : String) :
    (candidatesFor state sidecar title).2 ∈ sidecarRules := by
  simp only [candidatesFor]
  split
  · simp [sidecarRules]
  · split <;> simp [sidecarRules]

theorem TakeoutAssociation.Holds.associateOrphan (holds : association.Holds admitted document title media)
    {path : String} (index : Nat) {name : String} (named : isAlbumDocument path = true → title name) :
    (associateOrphan association path index name).Holds admitted document title media := by
  rw [ImmichRs.associateOrphan]
  split
  · rename_i album
    refine { holds with titles := fun directory entry found => ?_ }
    rw [ExtTreeMap.getElem?_insert] at found
    split at found
    · obtain rfl := Option.some.inj found
      exact named album
    · exact holds.titles directory entry found
  · exact { holds with media_eq := holds.media_eq }

theorem TakeoutAssociation.Holds.associateCandidates
    (holds : association.Holds admitted document title media) {path : String} (index : Nat) {name : String}
    (named : isAlbumDocument path = true → title name) {rule : String}
    (ruled : rule ∈ sidecarRules) (candidates : List Nat) :
    (associateCandidates association path index name rule candidates).Holds admitted document
      title media := by
  rcases candidates with _ | ⟨first, _ | ⟨second, rest⟩⟩
  · exact holds.associateOrphan index named
  · refine { holds with rules := fun entry member => ?_ }
    rcases List.mem_append.mp member with member | member
    · exact holds.rules entry member
    · obtain rfl := List.mem_singleton.mp member
      exact ruled
  · exact { holds with media_eq := holds.media_eq }

theorem TakeoutAssociation.Holds.associateDocument
    (holds : association.Holds admitted document title media) {path : String} (index : Nat)
    {stored : TakeoutDocument} (known : document stored)
    (named : isAlbumDocument path = true → title stored.title) :
    (associateDocument association path index stored).Holds admitted document title media := by
  rw [ImmichRs.associateDocument]
  apply TakeoutAssociation.Holds.associateCandidates _ _ named (candidatesFor_rule _ _ _)
  refine { holds with admits := ?_, documents := ?_ }
  · apply forall_mem_modify holds.admits
    intro sidecar _ admits
    exact admits
  · apply forall_mem_modify holds.documents
    intro sidecar _ _ other found
    obtain rfl := Option.some.inj found
    exact known

theorem TakeoutAssociation.Holds.associateSidecar
    (holds : association.Holds admitted document title media) {platform : SourcePlatform}
    {contents : String → Option (List UInt8)} {entry : DiscoveredSidecar × Nat}
    (parsed : ∀ found, parseDocument platform contents entry.1
        (isAlbumDocument entry.1.relativePath) = .ok found →
      document (titledDocument entry.1.relativePath found) ∧
        (isAlbumDocument entry.1.relativePath = true →
          title (titledDocument entry.1.relativePath found).title)) :
    (associateSidecar platform contents association entry).Holds admitted document title media := by
  rw [ImmichRs.associateSidecar]
  split
  · exact { holds with media_eq := holds.media_eq }
  · split
    · exact { holds with media_eq := holds.media_eq }
    · rename_i found returned
      exact holds.associateDocument entry.2 (parsed found returned).1 (parsed found returned).2

theorem TakeoutAssociation.Holds.foldl (holds : association.Holds admitted document title media)
    (platform : SourcePlatform) (contents : String → Option (List UInt8))
    (entries : List (DiscoveredSidecar × Nat))
    (parsed : ∀ entry ∈ entries, ∀ found, parseDocument platform contents entry.1
        (isAlbumDocument entry.1.relativePath) = .ok found →
      document (titledDocument entry.1.relativePath found) ∧
        (isAlbumDocument entry.1.relativePath = true →
          title (titledDocument entry.1.relativePath found).title)) :
    (entries.foldl (ImmichRs.associateSidecar platform contents) association).Holds admitted document
      title media := by
  induction entries generalizing association with
  | nil => exact holds
  | cons entry rest induction =>
      obtain ⟨head, tail⟩ := List.forall_mem_cons.mp parsed
      exact induction (holds.associateSidecar head) tail

end

/-- What each change of a Takeout keeps, given what is known of its documents and titles. -/
structure KeptByTakeout (admitted : String → Prop) (document : TakeoutDocument → Prop)
    (title : String → Prop) (property : DiscoveredMedia → Prop) : Prop where
  attach : KeptByAttaching admitted property
  describe : ∀ stored media, document stored → property media →
    property { media with normalizedMetadata := some stored.metadata }
  album : ∀ name media, title name → property media →
    property { media with normalizedMetadata := some (addAlbum media.normalizedMetadata name) }
  merge : ∀ merge aliased, property merge.canonical → property aliased →
    property (mergeAlias merge aliased).canonical
  collapse : ∀ media, property media →
    property { media with
      evidence := media.evidence ++
        [{ ruleId := "META_GOOGLE_TAKEOUT_CONTENT_ALIAS_V1"
           outcome := "content_identical_paths_collapsed" }] }

section

variable {admitted : String → Prop} {document : TakeoutDocument → Prop} {title : String → Prop}
  {property : DiscoveredMedia → Prop}

theorem KeptByTakeout.attachMatch (kept : KeptByTakeout admitted document title property)
    {state : ScanState} (admits : ∀ sidecar ∈ state.sidecars, admitted sidecar.relativePath)
    {item : TakeoutMatch} (ruled : item.rule ∈ sidecarRules) {media : DiscoveredMedia}
    (holds : property media) : property (attachMatch state item media) := by
  rw [ImmichRs.attachMatch]
  split
  · rename_i sidecar found
    exact kept.attach _ _ _ (admits sidecar (List.mem_of_getElem? found)) ruled holds
  · exact holds

theorem KeptByTakeout.attachMatches (kept : KeptByTakeout admitted document title property)
    {state : ScanState} (admits : ∀ sidecar ∈ state.sidecars, admitted sidecar.relativePath)
    {items : List TakeoutMatch} (ruled : ∀ item ∈ items, item.rule ∈ sidecarRules)
    {media : DiscoveredMedia}
    (holds : property media) :
    property (items.foldl (fun media item => ImmichRs.attachMatch state item media) media) := by
  induction items generalizing media with
  | nil => exact holds
  | cons item rest induction =>
      obtain ⟨head, tail⟩ := List.forall_mem_cons.mp ruled
      exact induction tail (kept.attachMatch admits head holds)

/-- The media files, the sidecars and the documents while documents are attached. -/
structure AttachesTo (admitted : String → Prop) (document : TakeoutDocument → Prop)
    (property : DiscoveredMedia → Prop) (state : ScanState) : Prop where
  media : ∀ media ∈ state.media, property media
  admits : ∀ sidecar ∈ state.sidecars, admitted sidecar.relativePath
  documents : ∀ sidecar ∈ state.sidecars, ∀ stored,
    sidecar.takeoutDocument = some stored → document stored

theorem AttachesTo.selectedDocuments {state : ScanState}
    (holds : AttachesTo admitted document property state) {selected : List TakeoutMatch}
    {stored : TakeoutDocument} (member : stored ∈ selectedDocuments state selected) :
    document stored := by
  obtain ⟨item, _, found⟩ := List.mem_filterMap.mp member
  obtain ⟨sidecar, atIndex, stored⟩ := Option.bind_eq_some_iff.mp found
  exact holds.documents sidecar (List.mem_of_getElem? atIndex) _ stored

theorem KeptByTakeout.describeFirst (kept : KeptByTakeout admitted document title property)
    {documents : List TakeoutDocument} (known : ∀ stored ∈ documents, document stored)
    {media : DiscoveredMedia} (holds : property media) :
    property (ImmichRs.describe documents media) := by
  rw [ImmichRs.describe]
  split
  · rename_i stored first
    exact kept.describe stored media (known stored (List.mem_of_mem_head? first)) holds
  · exact holds

theorem KeptByTakeout.attachAssetDocument (kept : KeptByTakeout admitted document title property)
    {found : List (Nat × TakeoutMatch)} (ruled : ∀ entry ∈ found, entry.2.rule ∈ sidecarRules)
    {state : ScanState} (holds : AttachesTo admitted document property state) (index : Nat) :
    AttachesTo admitted document property (attachAssetDocument found state index) := by
  rw [ImmichRs.attachAssetDocument]
  split
  · exact { holds with media := holds.media }
  · refine { holds with media := ?_ }
    apply forall_mem_modify holds.media
    intro media _ held
    apply kept.attachMatches holds.admits
    · intro item member
      obtain ⟨entry, listed, rfl⟩ := List.mem_map.mp member
      exact ruled entry (List.mem_filter.mp listed).1
    · exact kept.describeFirst (fun stored => holds.selectedDocuments) held

theorem KeptByTakeout.attachAssetDocuments (kept : KeptByTakeout admitted document title property)
    {found : List (Nat × TakeoutMatch)} (ruled : ∀ entry ∈ found, entry.2.rule ∈ sidecarRules)
    {state : ScanState} (holds : AttachesTo admitted document property state) :
    AttachesTo admitted document property (attachAssetDocuments state found) := by
  rw [ImmichRs.attachAssetDocuments]
  generalize sortDedup (found.map Prod.fst) = indices
  induction indices generalizing state with
  | nil => exact holds
  | cons index rest induction => exact induction (kept.attachAssetDocument ruled holds index)

theorem KeptByTakeout.attachAlbums (kept : KeptByTakeout admitted document title property)
    {albums : ExtTreeMap String (String × Nat)}
    (titles : ∀ (directory : String) (entry : String × Nat),
      albums[directory]? = some entry → title entry.1)
    {state : ScanState} (admits : ∀ sidecar ∈ state.sidecars, admitted sidecar.relativePath)
    (holds : ∀ media ∈ state.media, property media) :
    ∀ media ∈ (attachAlbums state albums).media, property media := by
  intro media member
  obtain ⟨original, listed, rfl⟩ := List.mem_map.mp member
  rw [attachAlbum]
  split
  · exact holds original listed
  · rename_i name index found
    exact kept.attachMatch admits (by simp [sidecarRules])
      (kept.album name original (titles _ _ found) (holds original listed))

theorem KeptByTakeout.collapseAliases (kept : KeptByTakeout admitted document title property)
    {aliases : List DiscoveredMedia} (holds : ∀ media ∈ aliases, property media)
    {group : DiscoveredMedia × List PlanDiagnostic × List PlanDiagnostic}
    (collapsed : collapseAliases aliases = some group) : property group.1 := by
  have sorted : ∀ media ∈ sortBy aliasKey aliases, property media :=
    fun media member => holds media ((mem_sortBy aliasKey).mp member)
  rw [ImmichRs.collapseAliases] at collapsed
  split at collapsed
  · cases collapsed
  · rename_i canonical shape
    obtain rfl := Option.some.inj collapsed
    rw [shape] at sorted
    exact sorted canonical List.mem_cons_self
  · rename_i canonical others _ shape
    obtain rfl := Option.some.inj collapsed
    rw [shape] at sorted
    obtain ⟨first, rest⟩ := List.forall_mem_cons.mp sorted
    apply kept.collapse
    have merged : ∀ (remaining : List DiscoveredMedia) (merge : AliasMerge),
        (∀ media ∈ remaining, property media) → property merge.canonical →
          property (remaining.foldl mergeAlias merge).canonical := by
      intro remaining
      induction remaining with
      | nil => exact fun _ _ held => held
      | cons aliased remaining induction =>
          intro merge listed held
          obtain ⟨head, tail⟩ := List.forall_mem_cons.mp listed
          exact induction _ tail (kept.merge merge aliased held head)
    exact merged others _ rest first

theorem KeptByTakeout.collapseContentAliases (kept : KeptByTakeout admitted document title property)
    {state : ScanState} (holds : ∀ media ∈ state.media, property media) :
    ∀ media ∈ (collapseContentAliases state).media, property media := by
  intro media member
  obtain ⟨group, listed, rfl⟩ := List.mem_map.mp member
  obtain ⟨aliases, grouped, collapsed⟩ := List.mem_filterMap.mp listed
  obtain ⟨key, _, rfl⟩ := List.mem_map.mp grouped
  apply kept.collapseAliases _ collapsed
  intro aliased aliasedMember
  exact holds aliased (List.mem_filter.mp aliasedMember).1

/-- Matching the sidecars of a Takeout keeps what each of its changes keeps. -/
theorem KeptByTakeout.takeoutState (kept : KeptByTakeout admitted document title property)
    {platform : SourcePlatform} {contents : String → Option (List UInt8)} {state : ScanState}
    (admits : ∀ sidecar ∈ state.prepare.sidecars, admitted sidecar.relativePath)
    (stored : ∀ sidecar ∈ state.prepare.sidecars, ∀ found,
      sidecar.takeoutDocument = some found → document found)
    (parsed : ∀ sidecar ∈ state.prepare.sidecars, ∀ found,
      parseDocument platform contents sidecar (isAlbumDocument sidecar.relativePath) = .ok found →
        document (titledDocument sidecar.relativePath found) ∧
          (isAlbumDocument sidecar.relativePath = true →
            title (titledDocument sidecar.relativePath found).title))
    (holds : ∀ media ∈ state.prepare.media, property media) :
    ∀ media ∈ (takeoutState platform contents state).media, property media := by
  have start : TakeoutAssociation.Holds admitted document title state.prepare.media
      { state := state.prepare, found := [], albums := ∅ } :=
    { media_eq := rfl
      admits
      documents := stored
      titles := fun directory entry found => by simp at found
      rules := fun entry member => by cases member }
  have loop := start.foldl platform contents state.prepare.sidecars.zipIdx fun entry member =>
    parsed entry.1 (List.fst_mem_of_mem_zipIdx member)
  have ready : AttachesTo admitted document property _ :=
    { media := by rw [loop.media_eq]; exact holds
      admits := loop.admits
      documents := loop.documents }
  have attached := kept.attachAssetDocuments loop.rules ready
  rw [ImmichRs.takeoutState]
  apply kept.collapseContentAliases
  exact kept.attachAlbums loop.titles attached.admits attached.media

end

/-! ## Files -/

theorem bare_attachMatch (state : ScanState) (item : TakeoutMatch) (media : DiscoveredMedia) :
    (attachMatch state item media).bare = media.bare := by
  rw [attachMatch]
  split <;> rfl

theorem bare_attachMatches (state : ScanState) (items : List TakeoutMatch)
    (media : DiscoveredMedia) :
    (items.foldl (fun media item => attachMatch state item media) media).bare = media.bare := by
  induction items generalizing media with
  | nil => rfl
  | cons item rest induction => rw [List.foldl_cons, induction, bare_attachMatch]

theorem bare_describe (documents : List TakeoutDocument) (media : DiscoveredMedia) :
    (describe documents media).bare = media.bare := by
  rw [describe]
  split <;> rfl

theorem bare_attachAssetDocument (found : List (Nat × TakeoutMatch)) (state : ScanState)
    (index : Nat) :
    (attachAssetDocument found state index).media.map DiscoveredMedia.bare =
      state.media.map DiscoveredMedia.bare := by
  rw [attachAssetDocument]
  split
  · rfl
  · apply map_modify
    intro media
    rw [bare_attachMatches, bare_describe]

theorem bare_attachAssetDocuments (state : ScanState) (found : List (Nat × TakeoutMatch)) :
    (attachAssetDocuments state found).media.map DiscoveredMedia.bare =
      state.media.map DiscoveredMedia.bare := by
  rw [attachAssetDocuments]
  generalize sortDedup (found.map Prod.fst) = indices
  induction indices generalizing state with
  | nil => rfl
  | cons index rest induction => rw [List.foldl_cons, induction, bare_attachAssetDocument]

theorem bare_attachAlbums (state : ScanState) (albums : ExtTreeMap String (String × Nat)) :
    (attachAlbums state albums).media.map DiscoveredMedia.bare =
      state.media.map DiscoveredMedia.bare := by
  rw [attachAlbums, List.map_map]
  apply List.map_congr_left
  intro media _
  rw [Function.comp_apply, attachAlbum]
  split
  · rfl
  · exact bare_attachMatch state _ _

theorem bare_mergeAlias (merge : AliasMerge) (aliased : DiscoveredMedia) :
    (mergeAlias merge aliased).canonical.bare = merge.canonical.bare := by
  rw [mergeAlias]
  dsimp only
  split
  · rfl
  · split <;> rfl

/-- Every change of a Takeout keeps the files. -/
theorem keptByTakeout_bare (originals : List DiscoveredMedia) :
    KeptByTakeout (fun _ => True) (fun _ => True) (fun _ => True) fun media =>
      media.bare ∈ originals :=
  { attach := fun _ _ _ _ _ holds => holds
    describe := fun _ _ _ holds => holds
    album := fun _ _ _ holds => holds
    merge := fun merge aliased holds _ => by rw [bare_mergeAlias]; exact holds
    collapse := fun _ holds => holds }

theorem relativePath_eq_of_bare {first second : DiscoveredMedia}
    (same : first.bare = second.bare) : first.relativePath = second.relativePath := by
  have paths := congrArg DiscoveredMedia.relativePath same
  exact paths

theorem contentKey_eq_of_bare {first second : DiscoveredMedia} (same : first.bare = second.bare) :
    contentKey first = contentKey second := by
  have keys := congrArg contentKey same
  exact keys

theorem nodup_relativePath_of_bare {first second : List DiscoveredMedia}
    (same : first.map DiscoveredMedia.bare = second.map DiscoveredMedia.bare)
    (distinct : (second.map DiscoveredMedia.relativePath).Nodup) :
    (first.map DiscoveredMedia.relativePath).Nodup := by
  have paths := congrArg (List.map DiscoveredMedia.relativePath) same
  rw [List.map_map, List.map_map] at paths
  have bare : DiscoveredMedia.relativePath ∘ DiscoveredMedia.bare =
      DiscoveredMedia.relativePath := rfl
  rw [bare] at paths
  rw [paths]
  exact distinct

/-- What is left of one content is one of its files. -/
theorem bare_collapseAliases {aliases : List DiscoveredMedia}
    {group : DiscoveredMedia × List PlanDiagnostic × List PlanDiagnostic}
    (collapsed : collapseAliases aliases = some group) :
    ∃ media ∈ aliases, group.1.bare = media.bare := by
  have kept := (keptByTakeout_bare (aliases.map DiscoveredMedia.bare)).collapseAliases
    (fun media member => List.mem_map_of_mem member) collapsed
  obtain ⟨media, member, same⟩ := List.mem_map.mp kept
  exact ⟨media, member, same.symm⟩

/-- Files of different contents have different paths. -/
theorem nodup_collapseContentAliases {state : ScanState}
    (distinct : (state.media.map DiscoveredMedia.relativePath).Nodup) :
    ((collapseContentAliases state).media.map DiscoveredMedia.relativePath).Nodup := by
  rw [collapseContentAliases, List.map_map, List.Nodup, List.pairwise_map,
    List.pairwise_filterMap, List.pairwise_map]
  apply (pairwise_sortDedup (state.media.map contentKey)).imp
  intro firstKey secondKey less first firstCollapsed second secondCollapsed samePath
  obtain ⟨firstMedia, firstMember, firstBare⟩ := bare_collapseAliases firstCollapsed
  obtain ⟨secondMedia, secondMember, secondBare⟩ := bare_collapseAliases secondCollapsed
  obtain ⟨firstListed, firstContent⟩ := List.mem_filter.mp firstMember
  obtain ⟨secondListed, secondContent⟩ := List.mem_filter.mp secondMember
  have path : firstMedia.relativePath = secondMedia.relativePath := by
    rw [← relativePath_eq_of_bare firstBare, ← relativePath_eq_of_bare secondBare]
    exact samePath
  have same := List.inj_on_of_nodup_map distinct firstListed secondListed path
  rw [decide_eq_true_eq] at firstContent secondContent
  rw [← firstContent, ← secondContent, same] at less
  exact lt_irrefl _ less

theorem nodup_prepare_media (state : ScanState) :
    (state.prepare.media.map DiscoveredMedia.relativePath).Nodup :=
  ((perm_sortBy DiscoveredMedia.relativePath _).map _).nodup_iff.mpr (nodup_kept_media state)

theorem nodup_takeoutState (platform : SourcePlatform)
    (contents : String → Option (List UInt8)) (state : ScanState) :
    ((takeoutState platform contents state).media.map DiscoveredMedia.relativePath).Nodup := by
  have start : TakeoutAssociation.Holds (fun _ => True) (fun _ => True) (fun _ => True)
      state.prepare.media { state := state.prepare, found := [], albums := ∅ } :=
    { media_eq := rfl
      admits := fun _ _ => trivial
      documents := fun _ _ _ _ => trivial
      titles := fun _ _ _ => trivial
      rules := fun entry member => by cases member }
  have loop := start.foldl platform contents state.prepare.sidecars.zipIdx
    fun _ _ _ _ => ⟨trivial, fun _ => trivial⟩
  rw [takeoutState]
  apply nodup_collapseContentAliases
  apply nodup_relativePath_of_bare _ (nodup_prepare_media state)
  rw [bare_attachAlbums, bare_attachAssetDocuments, loop.media_eq]

/-- Matching keeps what each change keeps, whatever the documents and titles say. -/
theorem KeptByTakeout.matched {admitted : String → Prop} {property : DiscoveredMedia → Prop}
    (kept : KeptByTakeout admitted (fun _ => True) (fun _ => True) property)
    (platform : SourcePlatform) (contents : String → Option (List UInt8)) (adapter : Adapter)
    {state : ScanState} (admits : ∀ sidecar ∈ state.prepare.sidecars, admitted sidecar.relativePath)
    (holds : ∀ media ∈ state.prepare.media, property media) :
    ∀ media ∈ (adapter.matched platform contents state).media, property media := by
  have folder := reconcileSidecars_forall kept.attach admits holds
  cases adapter with
  | takeout config =>
      exact kept.takeoutState admits (fun _ _ _ _ => trivial)
        (fun _ _ _ _ => ⟨trivial, fun _ => trivial⟩) holds
  | folder _ => exact folder
  | applePhotos _ => exact folder
  | picasa _ _ => exact folder

namespace Adapter

variable (platform : SourcePlatform) (contents : String → Option (List UInt8))

/-- Matching keeps the files of a scan. -/
theorem bare_matched (adapter : Adapter) (state : ScanState) :
    ∀ media ∈ (adapter.matched platform contents state).media,
      ∃ original ∈ state.media, media.bare = original.bare := by
  have prepared : ∀ media ∈ state.prepare.media,
      media.bare ∈ state.media.map DiscoveredMedia.bare := by
    intro media member
    have kept := (mem_sortBy DiscoveredMedia.relativePath).mp member
    exact List.mem_map_of_mem (List.mem_filter.mp kept).1
  have kept := keptByTakeout_bare (state.media.map DiscoveredMedia.bare)
  have matched := kept.matched platform contents adapter (fun _ _ => trivial) prepared
  intro media member
  obtain ⟨original, listed, same⟩ := List.mem_map.mp (matched media member)
  exact ⟨original, listed, same.symm⟩

theorem nodup_matched (adapter : Adapter) (state : ScanState) :
    ((adapter.matched platform contents state).media.map DiscoveredMedia.relativePath).Nodup := by
  have folder : ((reconcileSidecars state.prepare).media.map
      DiscoveredMedia.relativePath).Nodup :=
    nodup_relativePath_of_bare (bare_reconcileSidecars state.prepare) (nodup_prepare_media state)
  cases adapter with
  | takeout config => exact nodup_takeoutState platform contents state
  | folder _ => exact folder
  | applePhotos _ => exact folder
  | picasa _ _ => exact folder

end Adapter

end ImmichRs
