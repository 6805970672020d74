import ImmichRs.Sources.Association
import ImmichRs.Sources.Validity

/-!
# Scans of a source

The states which scans reconcile, and what is known of them before and after reconciliation: paths
have an extension and a bounded length, sidecars are attached by one of five rules, and diagnostics
name one of the other rules.
-/

namespace ImmichRs

open Collections

/-! ## Entry points -/

/-- The archives which an adapter reads, with their limits. -/
def Adapter.archives : Adapter → Option (ArchiveFlavor × ArchiveLimits)
  | .folder _ => none
  | .takeout config => some (.takeout, config.limits)
  | .applePhotos config => some (.apple, config.limits)
  | .picasa config _ => some (.picasa, config.asArchiveConfig.limits)

/-- The states which the scans of an adapter reconcile, under a valid configuration. -/
inductive Adapter.Scanned (platform : SourcePlatform) (adapter : Adapter) :
    SourceForm → ScanState → Prop
  | directory {root : Option (List (Option (NativeName × Node)))} {state : ScanState}
      (valid : adapter.validate = .ok ())
      (read : discover platform adapter.scan adapter.skipPath root = .ok state) :
      adapter.Scanned platform .directory state
  | archives {flavor : ArchiveFlavor} {limits : ArchiveLimits} {parts : List ArchivePart}
      {state : ScanState} (valid : adapter.validate = .ok ())
      (known : adapter.archives = some (flavor, limits))
      (read : readArchives platform flavor limits parts = .ok state) :
      adapter.Scanned platform .archives state

/-- An accepted configuration bounds the length of paths. -/
theorem Adapter.maxPathBytes_le {adapter : Adapter} (valid : adapter.validate = .ok ()) :
    adapter.scan.maxPathBytes ≤ 65536 := by
  have bounded : ∀ {config : FolderScanConfig}, config.validate = .ok () →
      config.maxPathBytes ≤ 65536 := by
    intro config accepted
    simp only [FolderScanConfig.validate, reject_bind_eq_ok, reject_eq_ok, within,
      Bool.not_eq_false', Bool.and_eq_true, decide_eq_true_eq] at accepted
    exact accepted.2.2.2
  cases adapter with
  | folder config => exact bounded valid
  | takeout config =>
      rw [Adapter.validate, TakeoutScanConfig.validate, bind_eq_ok] at valid
      obtain ⟨⟨⟩, accepted, _⟩ := valid
      exact bounded accepted
  | applePhotos config =>
      rw [Adapter.validate, ApplePhotosScanConfig.validate, bind_eq_ok] at valid
      obtain ⟨⟨⟩, accepted, _⟩ := valid
      exact bounded accepted
  | picasa config documents =>
      rw [Adapter.validate, PicasaScanConfig.validate, bind_eq_ok] at valid
      obtain ⟨⟨⟩, accepted, _⟩ := valid
      exact bounded accepted

section

variable {platform : SourcePlatform} {adapter : Adapter} {form : SourceForm} {state : ScanState}

/-- What every change keeps holds of every scan. -/
theorem KeptByScanning.scanned {holds : ScanState → Prop}
    (kept : ∀ limit ≤ 65536, KeptByScanning platform limit holds)
    (scanned : adapter.Scanned platform form state) : holds state := by
  cases scanned with
  | directory valid read => exact (kept _ (Adapter.maxPathBytes_le valid)).discover read
  | archives valid known read =>
      rename_i flavor limits parts
      have scan : limits.scan = adapter.scan := by
        cases adapter <;> cases known <;> rfl
      have bounded := Adapter.maxPathBytes_le valid
      rw [← scan] at bounded
      exact (kept _ bounded).readArchives read

theorem Adapter.Scanned.fresh (scanned : adapter.Scanned platform form state) :
    state.Fresh platform :=
  KeptByScanning.scanned (fun limit _ => ScanState.Fresh.keptByScanning limit) scanned

/-! ## Paths and rules -/

/-- Every diagnostic names one of the rules for diagnostics. -/
structure ScanState.Diagnosed (state : ScanState) : Prop where
  warnings : ∀ diagnostic ∈ state.warnings, diagnostic.ruleId ∈ diagnosticRules
  errors : ∀ diagnostic ∈ state.errors, diagnostic.ruleId ∈ diagnosticRules

theorem ScanState.Diagnosed.warn (diagnosed : state.Diagnosed) {rule : String}
    (known : rule ∈ diagnosticRules) (code : String) (paths : List String) :
    (state.warn (diagnostic rule code paths)).Diagnosed := by
  refine { diagnosed with warnings := fun other member => ?_ }
  rcases List.mem_append.mp member with member | member
  · exact diagnosed.warnings other member
  · obtain rfl := List.mem_singleton.mp member
    exact known

theorem ScanState.Diagnosed.fail (diagnosed : state.Diagnosed) {rule : String}
    (known : rule ∈ diagnosticRules) (code : String) (paths : List String) :
    (state.fail (diagnostic rule code paths)).Diagnosed := by
  refine { diagnosed with errors := fun other member => ?_ }
  rcases List.mem_append.mp member with member | member
  · exact diagnosed.errors other member
  · obtain rfl := List.mem_singleton.mp member
    exact known

theorem ScanState.Diagnosed.keptByScanning (limit : Nat) :
    KeptByScanning platform limit ScanState.Diagnosed :=
  { new := ⟨by simp [ScanState.new], by simp [ScanState.new]⟩
    count := fun _ _ diagnosed => ⟨diagnosed.warnings, diagnosed.errors⟩
    warn := fun known diagnosed => diagnosed.warn (mem_diagnosticRules_of_scanning known) _ _
    fail := fun known diagnosed => diagnosed.fail (mem_diagnosticRules_of_scanning known) _ _
    media := fun _ _ diagnosed => ⟨diagnosed.warnings, diagnosed.errors⟩
    sidecar := fun _ _ diagnosed => ⟨diagnosed.warnings, diagnosed.errors⟩
    retract := fun _ diagnosed => ⟨diagnosed.warnings, diagnosed.errors⟩ }

/-- A path of a file which a scan keeps. -/
structure SourcePath (platform : SourcePlatform) (path : String) : Prop where
  extension : ImmichRs.extension platform path ≠ none
  short : byteLen path ≤ 65536

theorem extension_of_mediaKind {path : String} {kind : MediaKind}
    (isMedia : mediaKind platform path = some kind) : extension platform path ≠ none := by
  intro missing
  rw [mediaKind, missing] at isMedia
  cases isMedia

theorem extension_of_metadataKind {path : String} {kind : MetadataKind}
    (isSidecar : metadataKind platform path = some kind) : extension platform path ≠ none := by
  intro missing
  rw [metadataKind, missing] at isSidecar
  cases isSidecar

/-- The files of a scan have source paths. -/
structure ScanState.Located (platform : SourcePlatform) (state : ScanState) : Prop where
  media : ∀ media ∈ state.media, SourcePath platform media.relativePath
  sidecars : ∀ sidecar ∈ state.sidecars, SourcePath platform sidecar.relativePath

theorem ScanState.Located.keptByScanning {limit : Nat} (bounded : limit ≤ 65536) :
    KeptByScanning platform limit (ScanState.Located platform) :=
  { new := ⟨by simp [ScanState.new], by simp [ScanState.new]⟩
    count := fun _ _ located => ⟨located.media, located.sidecars⟩
    warn := fun _ located => ⟨located.media, located.sidecars⟩
    fail := fun _ located => ⟨located.media, located.sidecars⟩
    media := fun added short located => ⟨fun other member =>
      (List.mem_append.mp member).elim (located.media other) fun last =>
        List.mem_singleton.mp last ▸
          ⟨extension_of_mediaKind added.kind_eq, short.trans bounded⟩, located.sidecars⟩
    sidecar := fun added short located => ⟨located.media, fun other member =>
      (List.mem_append.mp member).elim (located.sidecars other) fun last =>
        List.mem_singleton.mp last ▸
          ⟨extension_of_metadataKind added.kind_eq, short.trans bounded⟩⟩
    retract := fun _ located =>
      ⟨fun media member => located.media media (List.mem_filter.mp member).1,
        fun sidecar member => located.sidecars sidecar (List.mem_filter.mp member).1⟩ }

theorem Adapter.Scanned.diagnosed (scanned : adapter.Scanned platform form state) :
    state.Diagnosed :=
  KeptByScanning.scanned (fun limit _ => ScanState.Diagnosed.keptByScanning limit) scanned

theorem Adapter.Scanned.located (scanned : adapter.Scanned platform form state) :
    state.Located platform :=
  KeptByScanning.scanned (fun _ bounded => ScanState.Located.keptByScanning bounded) scanned

/-! ## After reconciliation -/

theorem ScanState.Diagnosed.prepare (diagnosed : state.Diagnosed) : state.prepare.Diagnosed := by
  refine ⟨diagnosed.warnings, fun other member => ?_⟩
  rcases List.mem_append.mp member with member | member
  · exact diagnosed.errors other member
  · obtain ⟨path, _, rfl⟩ := List.mem_map.mp member
    exact (by decide : "FS_UNICODE_COLLISION_V1" ∈ diagnosticRules)

theorem ScanState.Diagnosed.reconcileSidecar (diagnosed : state.Diagnosed)
    (sidecar : DiscoveredSidecar) : (reconcileSidecar state sidecar).Diagnosed := by
  rw [ImmichRs.reconcileSidecar]
  split
  · exact ⟨diagnosed.warnings, diagnosed.errors⟩
  · split
    · exact ⟨diagnosed.warnings, diagnosed.errors⟩
    · exact diagnosed.warn (by decide) _ _
    · exact diagnosed.fail (by decide) _ _

theorem ScanState.Diagnosed.foldl {α : Type} {step : ScanState → α → ScanState}
    (keeps : ∀ {state : ScanState} item, state.Diagnosed → (step state item).Diagnosed)
    (diagnosed : state.Diagnosed) (items : List α) : (items.foldl step state).Diagnosed := by
  induction items generalizing state with
  | nil => exact diagnosed
  | cons item rest induction => exact induction (keeps item diagnosed)

theorem recordParseError_diagnosed (diagnosed : state.Diagnosed) (sidecar : DiscoveredSidecar)
    (error : ParseError) : (recordParseError state sidecar error).Diagnosed := by
  cases error with
  | invalid => exact diagnosed.fail (by decide) _ _
  | oversized => exact diagnosed.fail (by decide) _ _
  | sourceChanged => exact diagnosed.fail (by decide) _ _

theorem associateSidecar_diagnosed {association : TakeoutAssociation}
    (diagnosed : association.state.Diagnosed) (contents : String → Option (List UInt8))
    (entry : DiscoveredSidecar × Nat) :
    (associateSidecar platform contents association entry).state.Diagnosed := by
  rw [associateSidecar]
  split
  · exact diagnosed.warn (by decide) _ _
  · split
    · exact recordParseError_diagnosed diagnosed _ _
    · rename_i document _
      have stored : (storeDocument association.state entry.2
          (titledDocument entry.1.relativePath document)).Diagnosed :=
        ⟨diagnosed.warnings, diagnosed.errors⟩
      rw [associateDocument]
      dsimp only
      obtain ⟨candidates, rule⟩ := candidatesFor (storeDocument association.state entry.2
        (titledDocument entry.1.relativePath document)) entry.1.relativePath
          (titledDocument entry.1.relativePath document).title
      rcases candidates with _ | ⟨first, _ | ⟨second, rest⟩⟩
      · rw [associateCandidates, associateOrphan]
        split
        · exact stored
        · exact stored.warn (by decide) _ _
      · exact stored
      · exact stored.fail (by decide) _ _

theorem associate_diagnosed (diagnosed : state.Diagnosed) (contents : String → Option (List UInt8)) :
    (associate platform contents state).state.Diagnosed := by
  have loop : ∀ (entries : List (DiscoveredSidecar × Nat)) (association : TakeoutAssociation),
      association.state.Diagnosed →
        (entries.foldl (associateSidecar platform contents) association).state.Diagnosed := by
    intro entries
    induction entries with
    | nil => exact fun _ held => held
    | cons entry rest induction =>
        exact fun association held => induction _ (associateSidecar_diagnosed held contents entry)
  exact loop _ _ diagnosed

theorem attachAssetDocument_diagnosed (found : List (Nat × TakeoutMatch)) (index : Nat)
    (diagnosed : state.Diagnosed) : (attachAssetDocument found state index).Diagnosed := by
  rw [attachAssetDocument]
  split
  · exact diagnosed.fail (by decide) _ _
  · exact ⟨diagnosed.warnings, diagnosed.errors⟩

theorem ruleId_of_mem_mergeError {conflicted : Bool} {path code : String}
    {diagnostic : PlanDiagnostic} (member : diagnostic ∈ mergeError conflicted path code) :
    diagnostic.ruleId = "META_GOOGLE_TAKEOUT_CONFLICT_V1" := by
  rw [mergeError] at member
  split at member
  · obtain rfl := List.mem_singleton.mp member
    rfl
  · cases member

theorem mergeAlias_errors {merge : AliasMerge} (aliased : DiscoveredMedia)
    (known : ∀ diagnostic ∈ merge.errors, diagnostic.ruleId ∈ diagnosticRules) :
    ∀ diagnostic ∈ (mergeAlias merge aliased).errors, diagnostic.ruleId ∈ diagnosticRules := by
  rw [mergeAlias]
  dsimp only
  split
  · exact known
  · split
    · exact known
    · intro diagnostic member
      rcases List.mem_append.mp member with member | member
      · exact known diagnostic member
      · have conflict : diagnostic.ruleId = "META_GOOGLE_TAKEOUT_CONFLICT_V1" := by
          rcases List.mem_append.mp member with member | member
          · rcases List.mem_append.mp member with member | member
            · exact ruleId_of_mem_mergeError member
            · exact ruleId_of_mem_mergeError member
          · exact ruleId_of_mem_mergeError member
        rw [conflict]
        decide
    · exact known

/-- The diagnostics of one content name their rules. -/
theorem collapseAliases_diagnostics {aliases : List DiscoveredMedia}
    {group : DiscoveredMedia × List PlanDiagnostic × List PlanDiagnostic}
    (collapsed : collapseAliases aliases = some group) :
    (∀ diagnostic ∈ group.2.1, diagnostic.ruleId ∈ diagnosticRules) ∧
      ∀ diagnostic ∈ group.2.2, diagnostic.ruleId ∈ diagnosticRules := by
  rw [collapseAliases] at collapsed
  split at collapsed
  · cases collapsed
  · obtain rfl := Option.some.inj collapsed
    exact ⟨by simp, by simp⟩
  · rename_i canonical others _ _
    obtain rfl := Option.some.inj collapsed
    constructor
    · intro diagnostic member
      obtain rfl := List.mem_singleton.mp member
      exact (by decide : "META_GOOGLE_TAKEOUT_CONTENT_ALIAS_V1" ∈ diagnosticRules)
    · have merged : ∀ (remaining : List DiscoveredMedia) (merge : AliasMerge),
          (∀ diagnostic ∈ merge.errors, diagnostic.ruleId ∈ diagnosticRules) →
            ∀ diagnostic ∈ (remaining.foldl mergeAlias merge).errors,
              diagnostic.ruleId ∈ diagnosticRules := by
        intro remaining
        induction remaining with
        | nil => exact fun _ known => known
        | cons aliased remaining induction =>
            exact fun merge known => induction _ (mergeAlias_errors aliased known)
      exact merged others _ (by simp)

theorem ScanState.Diagnosed.collapseContentAliases (diagnosed : state.Diagnosed) :
    (collapseContentAliases state).Diagnosed := by
  constructor
  · intro diagnostic member
    rcases List.mem_append.mp member with member | member
    · exact diagnosed.warnings diagnostic member
    · obtain ⟨group, listed, member⟩ := List.mem_flatMap.mp member
      obtain ⟨aliases, _, collapsed⟩ := List.mem_filterMap.mp listed
      exact (collapseAliases_diagnostics collapsed).1 diagnostic member
  · intro diagnostic member
    rcases List.mem_append.mp member with member | member
    · exact diagnosed.errors diagnostic member
    · obtain ⟨group, listed, member⟩ := List.mem_flatMap.mp member
      obtain ⟨aliases, _, collapsed⟩ := List.mem_filterMap.mp listed
      exact (collapseAliases_diagnostics collapsed).2 diagnostic member

theorem ScanState.Diagnosed.warnUnmatched (diagnosed : state.Diagnosed) :
    (warnUnmatched state).Diagnosed := by
  refine ⟨fun diagnostic member => ?_, diagnosed.errors⟩
  rcases List.mem_append.mp member with member | member
  · exact diagnosed.warnings diagnostic member
  · obtain ⟨media, _, rfl⟩ := List.mem_map.mp member
    exact (by decide : "META_GOOGLE_TAKEOUT_UNMATCHED_MEDIA_V1" ∈ diagnosticRules)

theorem ScanState.Diagnosed.complete (diagnosed : state.Diagnosed) :
    (state.complete platform).Diagnosed := by
  constructor
  · intro diagnostic member
    rcases List.mem_append.mp (mem_sortDedup.mp member) with member | member
    · exact diagnosed.warnings diagnostic member
    · obtain ⟨paths, _, rfl⟩ := List.mem_map.mp member
      exact (by decide : "FS_DUPLICATE_BASENAME_V1" ∈ diagnosticRules)
  · intro diagnostic member
    rcases List.mem_append.mp (mem_sortDedup.mp member) with member | member
    · exact diagnosed.errors diagnostic member
    · obtain ⟨paths, _, rfl⟩ := List.mem_map.mp member
      exact (by decide : "FS_CASE_COLLISION_V1" ∈ diagnosticRules)

/-- Reconciliation adds diagnostics of known rules only. -/
theorem ScanState.Diagnosed.reconcile (diagnosed : state.Diagnosed) (adapter : Adapter)
    (contents : String → Option (List UInt8)) :
    (adapter.reconcile platform contents state).Diagnosed := by
  have folder : (reconcileSidecars state.prepare).Diagnosed :=
    ScanState.Diagnosed.foldl (fun sidecar held => held.reconcileSidecar sidecar)
      diagnosed.prepare _
  have matched : (adapter.matched platform contents state).Diagnosed := by
    cases adapter with
    | takeout config =>
        have associated := @associate_diagnosed platform _ diagnosed.prepare contents
        have attached := ScanState.Diagnosed.foldl (fun index held =>
          attachAssetDocument_diagnosed (associate platform contents state.prepare).found index held)
            associated (sortDedup ((associate platform contents state.prepare).found.map Prod.fst))
        have described : (takeoutDescribed platform contents state.prepare).Diagnosed :=
          ⟨attached.warnings, attached.errors⟩
        exact described.collapseContentAliases.warnUnmatched
    | folder _ => exact folder
    | applePhotos _ => exact folder
    | picasa _ _ => exact folder
  rw [Adapter.reconcile_eq]
  exact matched.complete

end

/-! ## A sample folder -/

/-- A file of one byte. -/
def sampleFile (content : UInt8) : Node :=
  .file { streamed := some [content], changed := false, created := none, modified := none }

/-- A photograph with its sidecar, and other entries. -/
def sampleFolder (sidecar : UInt8) (others : List (Option (NativeName × Node))) :
    Option (List (Option (NativeName × Node))) :=
  some (some (.text "a.jpg", sampleFile 1) :: some (.text "a.jpg.json", sampleFile sidecar) ::
    others)

/-- The state which the scan of the sample folder leaves. -/
def sampleScan (sidecar : UInt8) (others : List (Option (NativeName × Node))) : ScanState :=
  (discover .reference .default (fun _ => none) (sampleFolder sidecar others)).toOption.getD .new

theorem ok_of_isSome {ε α : Type} {result : Except ε α} (returned : result.toOption.isSome = true)
    (default : α) : result = .ok (result.toOption.getD default) := by
  cases result with
  | error _ => cases returned
  | ok _ => rfl

theorem sampleScan_scanned {adapter : Adapter} (valid : adapter.validate = .ok ())
    (scan : adapter.scan = .default) (skip : adapter.skipPath = fun _ => none) (sidecar : UInt8)
    (others : List (Option (NativeName × Node)))
    (returned : (discover .reference .default (fun _ => none)
      (sampleFolder sidecar others)).toOption.isSome = true) :
    adapter.Scanned .reference .directory (sampleScan sidecar others) := by
  apply Adapter.Scanned.directory valid
  rw [scan, skip]
  exact ok_of_isSome returned .new

end ImmichRs
