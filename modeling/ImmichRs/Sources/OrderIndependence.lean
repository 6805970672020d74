import ImmichRs.Sources.Takeout

/-!
# Reconciliation forgets the order of discovery

The removal of colliding paths leaves one canonical order of media files and sidecars.  From then
on two scans differ at most in the order of their diagnostics, which completion sorts.
-/

namespace ImmichRs

open Collections
open Std (ExtTreeMap)

/-- Two scan states which differ at most in the order and number of equal diagnostics. -/
structure ScanState.Agrees (first second : ScanState) : Prop where
  media : first.media = second.media
  sidecars : first.sidecars = second.sidecars
  warnings : ∀ diagnostic, diagnostic ∈ first.warnings ↔ diagnostic ∈ second.warnings
  errors : ∀ diagnostic, diagnostic ∈ first.errors ↔ diagnostic ∈ second.errors
  bytesRead : first.bytesRead = second.bytesRead

/-- Two scan states of the same files and diagnostics, in any order. -/
structure ScanState.Permutes (first second : ScanState) : Prop where
  media : first.media.Perm second.media
  sidecars : first.sidecars.Perm second.sidecars
  warnings : ∀ diagnostic, diagnostic ∈ first.warnings ↔ diagnostic ∈ second.warnings
  errors : ∀ diagnostic, diagnostic ∈ first.errors ↔ diagnostic ∈ second.errors
  bytesRead : first.bytesRead = second.bytesRead

section

variable {first second : ScanState}

/-! ## Preparation -/

theorem mem_collisions {state : ScanState} {path : String} :
    path ∈ collisions state ↔ 1 < (state.media.map DiscoveredMedia.relativePath ++
      state.sidecars.map DiscoveredSidecar.relativePath).count path := by
  rw [collisions, mem_sortDedup, List.mem_filter, decide_eq_true_eq, and_iff_right_iff_imp]
  intro several
  exact List.count_pos_iff.mp (Nat.lt_of_succ_lt several)

/-- Items which share no key with another item have different keys. -/
theorem nodup_map_filter_count {α κ : Type} [DecidableEq κ] {items : List α} {key : α → κ}
    {keep : α → Bool}
    (single : ∀ item ∈ items, keep item = true → (items.map key).count (key item) ≤ 1) :
    ((items.filter keep).map key).Nodup := by
  rw [List.nodup_iff_count_le_one]
  intro value
  by_cases present : value ∈ (items.filter keep).map key
  · obtain ⟨item, member, rfl⟩ := List.mem_map.mp present
    obtain ⟨listed, kept⟩ := List.mem_filter.mp member
    have fewer := (List.filter_sublist (p := keep) (l := items)).map key |>.count_le (key item)
    exact fewer.trans (single item listed kept)
  · rw [List.count_eq_zero_of_not_mem present]
    exact Nat.zero_le 1

/-- The media files which remain have different paths. -/
theorem nodup_kept_media (state : ScanState) :
    ((removeUnicodeCollisions state).media.map DiscoveredMedia.relativePath).Nodup := by
  apply nodup_map_filter_count
  intro media _ kept
  have single : media.relativePath ∉ collisions state := by simpa using kept
  rw [mem_collisions, List.count_append] at single
  omega

/-- The sidecars which remain have different paths. -/
theorem nodup_kept_sidecars (state : ScanState) :
    ((removeUnicodeCollisions state).sidecars.map DiscoveredSidecar.relativePath).Nodup := by
  apply nodup_map_filter_count
  intro sidecar _ kept
  have single : sidecar.relativePath ∉ collisions state := by simpa using kept
  rw [mem_collisions, List.count_append] at single
  omega

theorem ScanState.Permutes.collisions (permutes : first.Permutes second) :
    collisions first = collisions second := by
  have paths := (permutes.media.map DiscoveredMedia.relativePath).append
    (permutes.sidecars.map DiscoveredSidecar.relativePath)
  apply (pairwise_sortDedup _).eq_of_mem_iff (pairwise_sortDedup _)
  intro path
  rw [← ImmichRs.collisions, ← ImmichRs.collisions, mem_collisions, mem_collisions,
    paths.count_eq path]

/-- Scans of the same files agree once they are prepared. -/
theorem ScanState.Permutes.prepare (permutes : first.Permutes second) :
    first.prepare.Agrees second.prepare := by
  have collided := permutes.collisions
  constructor
  · refine sortBy_congr ?_ (nodup_kept_media first)
    simp only [removeUnicodeCollisions, collided]
    exact permutes.media.filter _
  · refine sortBy_congr ?_ (nodup_kept_sidecars first)
    simp only [removeUnicodeCollisions, collided]
    exact permutes.sidecars.filter _
  · exact permutes.warnings
  · intro diagnostic
    simp only [ScanState.prepare, removeUnicodeCollisions, collided, List.mem_append,
      permutes.errors]
  · exact permutes.bytesRead

/-! ## The loops -/

theorem ScanState.Agrees.warn (agrees : first.Agrees second) (diagnostic : PlanDiagnostic) :
    (first.warn diagnostic).Agrees (second.warn diagnostic) :=
  { agrees with
    warnings := fun other => by simp only [ScanState.warn, List.mem_append, agrees.warnings] }

theorem ScanState.Agrees.fail (agrees : first.Agrees second) (diagnostic : PlanDiagnostic) :
    (first.fail diagnostic).Agrees (second.fail diagnostic) :=
  { agrees with
    errors := fun other => by simp only [ScanState.fail, List.mem_append, agrees.errors] }

theorem ScanState.Agrees.withMedia (agrees : first.Agrees second)
    {media media' : List DiscoveredMedia} (same : media = media') :
    { first with media }.Agrees { second with media := media' } :=
  { agrees with media := same }

theorem ScanState.Agrees.withSidecars (agrees : first.Agrees second) (index : Nat)
    (change : DiscoveredSidecar → DiscoveredSidecar) :
    { first with sidecars := first.sidecars.modify index change }.Agrees
      { second with sidecars := second.sidecars.modify index change } :=
  { agrees with sidecars := congrArg (·.modify index change) agrees.sidecars }

/-- A step which keeps agreement keeps it along a loop. -/
theorem ScanState.Agrees.foldl {α : Type} {step : ScanState → α → ScanState}
    (keeps : ∀ {first second : ScanState}, first.Agrees second → ∀ item,
      (step first item).Agrees (step second item))
    (agrees : first.Agrees second) (items : List α) :
    (items.foldl step first).Agrees (items.foldl step second) := by
  induction items generalizing first second with
  | nil => exact agrees
  | cons item rest induction => exact induction (keeps agrees item)

theorem ScanState.Agrees.mediaPaths (agrees : first.Agrees second) (indices : List Nat) :
    mediaPaths first indices = mediaPaths second indices := by
  simp only [ImmichRs.mediaPaths, agrees.media]

theorem ScanState.Agrees.reconcileSidecar (agrees : first.Agrees second)
    (sidecar : DiscoveredSidecar) :
    (reconcileSidecar first sidecar).Agrees (reconcileSidecar second sidecar) := by
  have exact : exactMatch first sidecar = exactMatch second sidecar := by
    simp only [exactMatch, agrees.media]
  have basename : basenameMatches first sidecar = basenameMatches second sidecar := by
    simp only [basenameMatches, agrees.media]
  rw [ImmichRs.reconcileSidecar, ImmichRs.reconcileSidecar, exact, basename]
  split
  · exact agrees.withMedia (by rw [agrees.media])
  · split
    · exact agrees.withMedia (by rw [agrees.media])
    · exact agrees.warn _
    · rw [agrees.mediaPaths]
      exact agrees.fail _

theorem ScanState.Agrees.reconcileSidecars (agrees : first.Agrees second) :
    (reconcileSidecars first).Agrees (reconcileSidecars second) := by
  rw [ImmichRs.reconcileSidecars, ImmichRs.reconcileSidecars, agrees.sidecars]
  exact ScanState.Agrees.foldl (fun agrees => agrees.reconcileSidecar) agrees _

/-- Completion sorts what is left of the order. -/
theorem ScanState.Agrees.finalizePlan (agrees : first.Agrees second) (platform : SourcePlatform)
    (schemaVersion : Nat) (sourceKind : SourceKind) (sourceLabel : String)
    (config : FolderScanConfig) :
    finalizePlan platform schemaVersion sourceKind sourceLabel config (first.complete platform) =
      finalizePlan platform schemaVersion sourceKind sourceLabel config
        (second.complete platform) := by
  have warnings : (first.complete platform).warnings = (second.complete platform).warnings := by
    apply sortDedup_congr
    intro diagnostic
    simp only [agrees.media, List.mem_append, agrees.warnings]
  have errors : (first.complete platform).errors = (second.complete platform).errors := by
    apply sortDedup_congr
    intro diagnostic
    simp only [agrees.media, List.mem_append, agrees.errors]
  have media : (first.complete platform).media = (second.complete platform).media := by
    simp only [ScanState.complete, agrees.media]
  have sidecars : (first.complete platform).sidecars = (second.complete platform).sidecars :=
    agrees.sidecars
  have bytesRead : (first.complete platform).bytesRead = (second.complete platform).bytesRead :=
    agrees.bytesRead
  simp only [ImmichRs.finalizePlan, warnings, errors, media, sidecars, bytesRead]

/-! ## Takeout -/

/-- Associations of two scans which agree. -/
structure TakeoutAssociation.Agrees (left right : TakeoutAssociation) : Prop where
  state : left.state.Agrees right.state
  found : left.found = right.found
  albums : left.albums = right.albums

theorem candidatesFor_congr (same : first.media = second.media) (sidecar title : String) :
    candidatesFor first sidecar title = candidatesFor second sidecar title := by
  have named : candidatesNamed first = candidatesNamed second := by
    funext sidecar named
    rw [candidatesNamed, candidatesNamed, same]
  rw [candidatesFor, candidatesFor, candidatesForIndexedSidecarName,
    candidatesForIndexedSidecarName, candidatesForTitle, candidatesForTitle,
    candidatesForSidecarName, candidatesForSidecarName, named]

section

variable {left right : TakeoutAssociation}

theorem TakeoutAssociation.Agrees.associateOrphan (agrees : left.Agrees right) (path : String)
    (index : Nat) (title : String) :
    (associateOrphan left path index title).Agrees (associateOrphan right path index title) := by
  rw [ImmichRs.associateOrphan, ImmichRs.associateOrphan]
  split
  · exact ⟨agrees.state, agrees.found, by rw [agrees.albums]⟩
  · exact ⟨agrees.state.warn _, agrees.found, agrees.albums⟩

theorem TakeoutAssociation.Agrees.associateCandidates (agrees : left.Agrees right) (path : String)
    (index : Nat) (title rule : String) (candidates : List Nat) :
    (associateCandidates left path index title rule candidates).Agrees
      (associateCandidates right path index title rule candidates) := by
  rcases candidates with _ | ⟨media, _ | ⟨next, rest⟩⟩
  · exact agrees.associateOrphan path index title
  · exact ⟨agrees.state, congrArg (· ++ [(media, _)]) agrees.found, agrees.albums⟩
  · refine ⟨?_, agrees.found, agrees.albums⟩
    simp only [ImmichRs.associateCandidates, recordAmbiguous, agrees.state.mediaPaths]
    exact agrees.state.fail _

theorem TakeoutAssociation.Agrees.associateDocument (agrees : left.Agrees right) (path : String)
    (index : Nat) (document : TakeoutDocument) :
    (associateDocument left path index document).Agrees
      (associateDocument right path index document) := by
  have stored : (storeDocument left.state index document).Agrees
      (storeDocument right.state index document) := agrees.state.withSidecars index _
  simp only [ImmichRs.associateDocument, candidatesFor_congr stored.media]
  apply TakeoutAssociation.Agrees.associateCandidates
  exact ⟨stored, agrees.found, agrees.albums⟩

theorem TakeoutAssociation.Agrees.associateSidecar (agrees : left.Agrees right)
    (platform : SourcePlatform) (contents : String → Option (List UInt8))
    (entry : DiscoveredSidecar × Nat) :
    (associateSidecar platform contents left entry).Agrees
      (associateSidecar platform contents right entry) := by
  rw [ImmichRs.associateSidecar, ImmichRs.associateSidecar]
  split
  · exact ⟨agrees.state.warn _, agrees.found, agrees.albums⟩
  · split
    · exact ⟨agrees.state.fail _, agrees.found, agrees.albums⟩
    · exact agrees.associateDocument _ _ _

theorem TakeoutAssociation.Agrees.foldl (agrees : left.Agrees right) (platform : SourcePlatform)
    (contents : String → Option (List UInt8)) (entries : List (DiscoveredSidecar × Nat)) :
    (entries.foldl (ImmichRs.associateSidecar platform contents) left).Agrees
      (entries.foldl (ImmichRs.associateSidecar platform contents) right) := by
  induction entries generalizing left right with
  | nil => exact agrees
  | cons entry rest induction => exact induction (agrees.associateSidecar platform contents entry)

end

theorem attachMatch_congr (same : first.sidecars = second.sidecars) :
    attachMatch first = attachMatch second := by
  funext item media
  rw [attachMatch, attachMatch, same]

theorem ScanState.Agrees.attachAssetDocument (agrees : first.Agrees second)
    (found : List (Nat × TakeoutMatch)) (index : Nat) :
    (attachAssetDocument found first index).Agrees (attachAssetDocument found second index) := by
  have documents : selectedDocuments first = selectedDocuments second := by
    funext selected
    rw [selectedDocuments, selectedDocuments, agrees.sidecars]
  have paths : selectedPaths first = selectedPaths second := by
    funext index selected
    rw [selectedPaths, selectedPaths, agrees.sidecars, agrees.mediaPaths]
  rw [ImmichRs.attachAssetDocument, ImmichRs.attachAssetDocument, documents, paths,
    attachMatch_congr agrees.sidecars]
  split
  · exact agrees.fail _
  · apply agrees.withMedia
    rw [agrees.media]

theorem ScanState.Agrees.attachAlbums (agrees : first.Agrees second)
    (albums : ExtTreeMap String (String × Nat)) :
    (attachAlbums first albums).Agrees (attachAlbums second albums) := by
  have album : attachAlbum first albums = attachAlbum second albums := by
    funext media
    rw [attachAlbum, attachAlbum, attachMatch_congr agrees.sidecars]
  exact agrees.withMedia (by rw [album, agrees.media])

theorem ScanState.Agrees.collapseContentAliases (agrees : first.Agrees second) :
    (collapseContentAliases first).Agrees (collapseContentAliases second) := by
  simp only [ImmichRs.collapseContentAliases, agrees.media]
  constructor
  · rfl
  · exact agrees.sidecars
  · intro diagnostic
    simp only [List.mem_append, agrees.warnings]
  · intro diagnostic
    simp only [List.mem_append, agrees.errors]
  · exact agrees.bytesRead

theorem ScanState.Agrees.warnUnmatched (agrees : first.Agrees second) :
    (warnUnmatched first).Agrees (warnUnmatched second) := by
  simp only [ImmichRs.warnUnmatched, agrees.media]
  refine { agrees with media := rfl, warnings := fun diagnostic => ?_ }
  simp only [List.mem_append, agrees.warnings]

theorem ScanState.Permutes.takeoutState (permutes : first.Permutes second)
    (platform : SourcePlatform) (contents : String → Option (List UInt8)) :
    (takeoutState platform contents first).Agrees (takeoutState platform contents second) := by
  have prepared := permutes.prepare
  have start : TakeoutAssociation.Agrees { state := first.prepare, found := [], albums := ∅ }
      { state := second.prepare, found := [], albums := ∅ } := ⟨prepared, rfl, rfl⟩
  have associated := start.foldl platform contents first.prepare.sidecars.zipIdx
  simp only [ImmichRs.takeoutState, ← prepared.sidecars, ← associated.found, ← associated.albums]
  apply ScanState.Agrees.warnUnmatched
  apply ScanState.Agrees.collapseContentAliases
  apply ScanState.Agrees.attachAlbums
  exact ScanState.Agrees.foldl (fun agrees => agrees.attachAssetDocument _) associated.state _

theorem ScanState.Permutes.of_perm {state : ScanState} {media : List DiscoveredMedia}
    {sidecars : List DiscoveredSidecar} {warnings errors : List PlanDiagnostic}
    (mediaPerm : media.Perm state.media) (sidecarPerm : sidecars.Perm state.sidecars)
    (warningPerm : warnings.Perm state.warnings) (errorPerm : errors.Perm state.errors) :
    { state with media, sidecars, warnings, errors }.Permutes state :=
  { media := mediaPerm
    sidecars := sidecarPerm
    warnings := fun _ => warningPerm.mem_iff
    errors := fun _ => errorPerm.mem_iff
    bytesRead := rfl }

end

/-! ## The plan -/

/-- A scan which meets its files and diagnostics in another order has the same plan, as a folder
and as a Takeout. -/
theorem finalizePlan_of_perm (platform : SourcePlatform)
    (contents : String → Option (List UInt8)) (schemaVersion : Nat) (sourceKind : SourceKind)
    (sourceLabel : String) (config : FolderScanConfig) (state : ScanState)
    (media : List DiscoveredMedia) (sidecars : List DiscoveredSidecar)
    (warnings errors : List PlanDiagnostic)
    (mediaPerm : media.Perm state.media) (sidecarPerm : sidecars.Perm state.sidecars)
    (warningPerm : warnings.Perm state.warnings) (errorPerm : errors.Perm state.errors) :
    finalizePlan platform schemaVersion sourceKind sourceLabel config
        (({ state with media, sidecars, warnings, errors } : ScanState).reconcile platform) =
      finalizePlan platform schemaVersion sourceKind sourceLabel config
        (state.reconcile platform) ∧
    finalizePlan platform schemaVersion sourceKind sourceLabel config
        (({ state with media, sidecars, warnings, errors } : ScanState).reconcileTakeout platform
          contents) =
      finalizePlan platform schemaVersion sourceKind sourceLabel config
        (state.reconcileTakeout platform contents) := by
  have permutes := ScanState.Permutes.of_perm mediaPerm sidecarPerm warningPerm errorPerm
  constructor
  · have prepared := permutes.prepare
    have reconciled := prepared.reconcileSidecars
    exact reconciled.finalizePlan platform schemaVersion sourceKind sourceLabel config
  · have reconciled := permutes.takeoutState platform contents
    exact reconciled.finalizePlan platform schemaVersion sourceKind sourceLabel config

/-- A photograph of the examples. -/
def photograph (relativePath : String) : DiscoveredMedia :=
  { nativePath := "/photos/" ++ relativePath
    archiveIndex := none
    relativePath
    kind := .image
    byteLen := 3
    contentSha256 := sha256Hex (utf8Bytes "abc")
    contentSha1Base64 := "qZk+NkcGgWq6PiVxeFDCbJzQ2J0="
    createdAtUnixMs := none
    modifiedAtUnixMs := some 0
    metadata := []
    normalizedMetadata := none
    livePhoto := none
    evidence := [] }

/-- Two photographs and a complaint about each. -/
def twoPhotographs : ScanState :=
  { media := [photograph "a/one.jpg", photograph "b/one.jpg"]
    sidecars := []
    warnings := []
    errors := [diagnostic "FS_UNREADABLE_FILE_V1" "unreadable_source_file" ["a/three.jpg"],
      diagnostic "FS_UNREADABLE_FILE_V1" "unreadable_source_file" ["b/three.jpg"]]
    entriesSeen := 4
    bytesRead := 6 }

theorem finalizePlan_twoPhotographs_swapped :
    finalizePlan .reference normalizedPlanSchemaVersion .folder "photos" .default
        (({ twoPhotographs with
            media := [photograph "b/one.jpg", photograph "a/one.jpg"]
            sidecars := []
            warnings := []
            errors := [diagnostic "FS_UNREADABLE_FILE_V1" "unreadable_source_file" ["b/three.jpg"],
              diagnostic "FS_UNREADABLE_FILE_V1" "unreadable_source_file" ["a/three.jpg"]] } :
          ScanState).reconcile .reference) =
      finalizePlan .reference normalizedPlanSchemaVersion .folder "photos" .default
        (twoPhotographs.reconcile .reference) :=
  (finalizePlan_of_perm .reference (fun _ => none) normalizedPlanSchemaVersion .folder "photos"
    .default twoPhotographs _ _ _ _ (.swap _ _ _) (.refl _) (.refl _) (.swap _ _ _)).1

end ImmichRs
