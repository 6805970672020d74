import ImmichRs.Sources.Lawful

/-!
# Validity of scanned plans

Everything which an adapter attaches to a media file passes the plan validator, with one exception:
the names of albums which stand for folders are taken as they are.
-/

namespace ImmichRs

open Collections
open Std (ExtTreeMap)

section

variable {platform : SourcePlatform}

/-! ## Attached facts -/

/-- Every fact attached to a media file names its rule. -/
structure DiscoveredMedia.Ruled (media : DiscoveredMedia) : Prop where
  evidence : ∀ evidence ∈ media.evidence, evidence.ruleId.isEmpty = false
  sidecars : ∀ sidecar ∈ media.metadata, sidecar.ruleId.isEmpty = false

theorem DiscoveredMedia.Fresh.ruled {media : DiscoveredMedia} (fresh : media.Fresh platform) :
    media.Ruled := by
  constructor
  · rw [fresh.evidence]
    intro evidence member
    obtain rfl := List.mem_singleton.mp member
    rfl
  · rw [fresh.metadata]
    intro sidecar member
    cases member

theorem DiscoveredMedia.Ruled.addEvidence {media : DiscoveredMedia} (ruled : media.Ruled)
    {rule : String} (named : rule.isEmpty = false) (outcome : String) :
    { media with evidence := media.evidence ++ [RuleEvidence.mk rule outcome] }.Ruled := by
  refine { ruled with evidence := fun evidence member => ?_ }
  rcases List.mem_append.mp member with member | member
  · exact ruled.evidence evidence member
  · obtain rfl := List.mem_singleton.mp member
    exact named

theorem keptByAttaching_ruled : KeptByAttaching (fun _ => True) DiscoveredMedia.Ruled := by
  intro sidecar rule media _ known ruled
  have every : ∀ rule ∈ sidecarRules, rule.isEmpty = false := by decide
  have named := every rule known
  have evidenced := ruled.addEvidence named "metadata_candidate_associated"
  refine ⟨evidenced.evidence, fun candidate member => ?_⟩
  rcases List.mem_append.mp member with member | member
  · exact ruled.sidecars candidate member
  · obtain rfl := List.mem_singleton.mp member
    exact named

theorem mergeAlias_ruled {merge : AliasMerge} {aliased : DiscoveredMedia}
    (ruled : merge.canonical.Ruled) (other : aliased.Ruled) :
    (mergeAlias merge aliased).canonical.Ruled := by
  have evidence : ∀ evidence ∈ merge.canonical.evidence ++ aliased.evidence,
      evidence.ruleId.isEmpty = false := by
    intro evidence member
    exact (List.mem_append.mp member).elim (ruled.evidence evidence) (other.evidence evidence)
  have sidecars : ∀ sidecar ∈ merge.canonical.metadata ++ aliased.metadata,
      sidecar.ruleId.isEmpty = false := by
    intro sidecar member
    exact (List.mem_append.mp member).elim (ruled.sidecars sidecar) (other.sidecars sidecar)
  rw [mergeAlias]
  dsimp only
  split
  · exact ⟨evidence, sidecars⟩
  · split
    · exact ⟨evidence, sidecars⟩
    · exact ⟨evidence, sidecars⟩
    · exact ⟨evidence, sidecars⟩

theorem keptByTakeout_ruled :
    KeptByTakeout (fun _ => True) (fun _ => True) (fun _ => True) DiscoveredMedia.Ruled :=
  { attach := keptByAttaching_ruled
    describe := fun _ _ _ ruled => ⟨ruled.evidence, ruled.sidecars⟩
    album := fun _ _ _ ruled => ⟨ruled.evidence, ruled.sidecars⟩
    merge := fun _ _ ruled other => mergeAlias_ruled ruled other
    collapse := fun _ ruled => ruled.addEvidence rfl _ }

theorem memberOf_ruled (media : List DiscoveredMedia) {item : DiscoveredMedia}
    (ruled : item.Ruled) : (memberOf platform media item).Ruled := by
  have member := ruled.addEvidence (show "PAIR_LIVE_PHOTO_BASENAME_V1".isEmpty = false from rfl)
    "live_photo_member"
  rw [memberOf]
  split
  · exact ruled
  · rw [DiscoveredMedia.inPair]
    split
    · exact ⟨member.evidence, member.sidecars⟩
    · split
      · exact ⟨member.evidence, member.sidecars⟩
      · exact ruled

theorem sorted_ruled {media : DiscoveredMedia} (ruled : media.Ruled) : media.sorted.Ruled :=
  ⟨fun evidence member => ruled.evidence evidence (mem_sortDedup.mp member),
    fun sidecar member => ruled.sidecars sidecar (mem_sortDedup.mp member)⟩

/-- The prepared media files are as they were read. -/
theorem fresh_prepare {state : ScanState} (fresh : state.Fresh platform) :
    ∀ media ∈ state.prepare.media, media.Fresh platform := by
  intro media member
  have kept := (mem_sortBy DiscoveredMedia.relativePath).mp member
  exact fresh.media media (List.mem_filter.mp kept).1

/-- Matching names the rule of each fact which it attaches. -/
theorem Adapter.matched_ruled (adapter : Adapter) (contents : String → Option (List UInt8))
    {state : ScanState} (fresh : state.Fresh platform) :
    ∀ item ∈ (adapter.matched platform contents state).media, item.Ruled := by
  have prepared : ∀ media ∈ state.prepare.media, media.Ruled := fun media member =>
    (fresh_prepare fresh media member).ruled
  exact keptByTakeout_ruled.matched platform contents adapter (fun _ _ => trivial) prepared

/-! ## Reconciled media files -/

/-- A reconciled media file, from the file as it was matched. -/
def reconciled (platform : SourcePlatform) (matched : List DiscoveredMedia)
    (item : DiscoveredMedia) : DiscoveredMedia :=
  (memberOf platform matched item).sorted

theorem file_reconciled (matched : List DiscoveredMedia) (item : DiscoveredMedia) :
    (reconciled platform matched item).file = item.file :=
  keepsFile_memberOf platform matched item

/-- Pairing and sorting leave the metadata as it is. -/
theorem normalizedMetadata_reconciled (matched : List DiscoveredMedia) (item : DiscoveredMedia) :
    (reconciled platform matched item).normalizedMetadata = item.normalizedMetadata := by
  change (memberOf platform matched item).normalizedMetadata = item.normalizedMetadata
  rw [memberOf]
  split
  · rfl
  · rw [DiscoveredMedia.inPair]
    split
    · rfl
    · split <;> rfl

theorem metadata_memberOf (matched : List DiscoveredMedia) (item : DiscoveredMedia) :
    (memberOf platform matched item).metadata = item.metadata := by
  rw [memberOf]
  split
  · rfl
  · rw [DiscoveredMedia.inPair]
    split
    · rfl
    · split <;> rfl

theorem media_complete (state : ScanState) :
    (state.complete platform).media = state.media.map (reconciled platform state.media) := by
  rw [ScanState.complete]
  dsimp only
  rw [reconcileLivePhotos_eq_map, List.map_map]
  rfl

/-- The assets of a finalized plan are the matched media files, in some order. -/
theorem assets_normalized (contents : String → Option (List UInt8)) (adapter : Adapter)
    (label : String) (state : ScanState) :
    (adapter.normalized platform contents label state).assets =
      sortBy CandidateAsset.relativePath
        (((adapter.matched platform contents state).media.map
          (reconciled platform (adapter.matched platform contents state).media)).map
            (candidateAsset platform)) := by
  rw [Adapter.normalized, finalizePlan, Adapter.reconcile_eq, media_complete]

/-! ## Finished assets -/

/-- Every piece of evidence of an asset names its rule. -/
def EvidenceNamed (asset : CandidateAsset) : Prop :=
  ∀ evidence ∈ asset.evidence, evidence.ruleId.isEmpty = false

theorem EvidenceNamed.withEvidence {asset : CandidateAsset} (named : EvidenceNamed asset)
    {rule : String} (ruled : rule.isEmpty = false) (outcome : String) :
    EvidenceNamed (asset.withEvidence rule outcome) := by
  intro evidence member
  rcases List.mem_append.mp (mem_sortDedup.mp member) with member | member
  · exact named evidence member
  · obtain rfl := List.mem_singleton.mp member
    exact ruled

theorem EvidenceNamed.addFact {α : Type} (fact : Option α) {rule : String}
    (ruled : rule.isEmpty = false) (outcome : String)
    (add : NormalizedMetadata → α → NormalizedMetadata)
    {current : NormalizedMetadata × CandidateAsset} (named : EvidenceNamed current.2) :
    EvidenceNamed (ImmichRs.addFact fact rule outcome add current).2 := by
  rw [ImmichRs.addFact.eq_def]
  split
  · exact named
  · exact named.withEvidence ruled outcome

theorem EvidenceNamed.finishAsset {asset : CandidateAsset} (named : EvidenceNamed asset)
    (adapter : Adapter) : EvidenceNamed (adapter.finishAsset platform asset) := by
  cases adapter with
  | folder _ => exact named
  | takeout _ => exact named
  | applePhotos config =>
      rw [Adapter.finishAsset, selectAlbum]
      split
      · exact named
      · exact EvidenceNamed.withEvidence (fun evidence => named evidence) rfl _
  | picasa config documents =>
      have facts : EvidenceNamed (picasaFacts platform config
          documents.parsed[parent asset.relativePath]? asset).2 := by
        apply EvidenceNamed.addFact _ rfl
        apply EvidenceNamed.addFact _ rfl
        apply EvidenceNamed.addFact _ rfl
        apply EvidenceNamed.addFact _ rfl
        exact named
      rw [Adapter.finishAsset, CandidateAsset.applyMetadata]
      dsimp only
      split
      · exact facts
      · exact facts

/-! ## The plan -/

theorem diagnosticsSorted_of_pairwise {diagnostics : List PlanDiagnostic}
    (sorted : diagnostics.Pairwise (· < ·)) : diagnosticsSorted diagnostics = true := by
  induction diagnostics with
  | nil => rfl
  | cons first rest induction =>
      cases rest with
      | nil => rfl
      | cons second rest =>
          obtain ⟨below, tail⟩ := List.pairwise_cons.mp sorted
          rw [diagnosticsSorted, induction tail, Bool.and_true, decide_eq_true_eq]
          exact (below second List.mem_cons_self).le

theorem diagnosticsSorted_sortDedup (diagnostics : List PlanDiagnostic) :
    diagnosticsSorted (sortDedup diagnostics) = true :=
  diagnosticsSorted_of_pairwise (pairwise_sortDedup diagnostics)

/-- The digests which name the operations of some media files are different. -/
def OperationIdsDistinct (platform : SourcePlatform) (media : List DiscoveredMedia) : Prop :=
  ∀ first ∈ media, ∀ second ∈ media,
    operationIdOf platform first = operationIdOf platform second →
      first.relativePath = second.relativePath

theorem SourcePlatform.Lawful.byteLen (lawful : platform.Lawful) (bytes : List UInt8) :
    ImmichRs.byteLen (platform.sha256 bytes) = 64 := by
  have digest := lawful.digest bytes
  rw [isLowerSha256, Bool.and_eq_true, beq_iff_eq] at digest
  exact digest.1

theorem operationIdOf_eq_of_file {first second : DiscoveredMedia}
    (same : first.file = second.file) :
    operationIdOf platform first = operationIdOf platform second := by
  have ids := congrArg (operationIdOf platform) same
  exact ids

theorem file_eq_of_bare {first second : DiscoveredMedia} (same : first.bare = second.bare) :
    first.file = second.file := by
  rw [DiscoveredMedia.file, DiscoveredMedia.file, same]

/-- A scan as the adapters finish it: its files as they were read, under distinct names. -/
structure Scan (platform : SourcePlatform) (label : String) (state : ScanState) : Prop where
  fresh : state.Fresh platform
  label : validateSourceLabel label = .ok ()
  ids : OperationIdsDistinct platform state.media

section

variable {contents : String → Option (List UInt8)} {adapter : Adapter} {label : String}
  {state : ScanState}

/-- Each asset stands for one matched media file. -/
theorem mem_assets_normalized {asset : CandidateAsset} :
    asset ∈ (adapter.normalized platform contents label state).assets ↔
      ∃ item ∈ (adapter.matched platform contents state).media,
        candidateAsset platform (reconciled platform
          (adapter.matched platform contents state).media item) = asset := by
  rw [assets_normalized, mem_sortBy, List.map_map, List.mem_map]
  rfl

/-- The file of a matched media file was read by the scan. -/
theorem Scan.original (scan : Scan platform label state) {item : DiscoveredMedia}
    (member : item ∈ (adapter.matched platform contents state).media) :
    ∃ original ∈ state.media, original.Fresh platform ∧ item.bare = original.bare := by
  obtain ⟨original, listed, same⟩ :=
    adapter.bare_matched platform contents state item member
  exact ⟨original, listed, scan.fresh.media original listed, same⟩

theorem Scan.nodup_operationId (scan : Scan platform label state) :
    ((adapter.normalized platform contents label state).assets.map
      CandidateAsset.operationId).Nodup := by
  rw [assets_normalized]
  apply ((perm_sortBy CandidateAsset.relativePath _).map _).nodup_iff.mpr
  rw [List.map_map, List.map_map]
  apply List.Nodup.map_on _ (List.Nodup.of_map _ (adapter.nodup_matched platform contents state))
  intro first firstMember second secondMember same
  obtain ⟨firstOriginal, firstListed, _, firstBare⟩ := scan.original firstMember
  obtain ⟨secondOriginal, secondListed, _, secondBare⟩ := scan.original secondMember
  have ids : operationIdOf platform firstOriginal = operationIdOf platform secondOriginal := by
    rw [← operationIdOf_eq_of_file (file_eq_of_bare firstBare),
      ← operationIdOf_eq_of_file (file_eq_of_bare secondBare),
      ← operationIdOf_eq_of_file (file_reconciled _ first),
      ← operationIdOf_eq_of_file (file_reconciled _ second)]
    exact same
  have path := scan.ids firstOriginal firstListed secondOriginal secondListed ids
  rw [← relativePath_eq_of_bare firstBare, ← relativePath_eq_of_bare secondBare] at path
  exact List.inj_on_of_nodup_map (adapter.nodup_matched platform contents state) firstMember
    secondMember path

theorem pairwise_relativePath_normalized :
    ((adapter.normalized platform contents label state).assets.map
      CandidateAsset.relativePath).Pairwise (· < ·) := by
  rw [assets_normalized]
  apply pairwise_map_sortBy
  have paths : (((adapter.matched platform contents state).media.map
      (reconciled platform (adapter.matched platform contents state).media)).map
        (candidateAsset platform)).map CandidateAsset.relativePath =
      (adapter.matched platform contents state).media.map DiscoveredMedia.relativePath := by
    rw [List.map_map, List.map_map]
    apply List.map_congr_left
    intro item _
    exact (keepsFile_memberOf platform _).relativePath item
  rw [paths]
  exact adapter.nodup_matched platform contents state

theorem warnings_normalized :
    (adapter.normalized platform contents label state).warnings =
      ((adapter.matched platform contents state).complete platform).warnings := by
  rw [Adapter.normalized, finalizePlan, Adapter.reconcile_eq]

theorem errors_normalized :
    (adapter.normalized platform contents label state).errors =
      ((adapter.matched platform contents state).complete platform).errors := by
  rw [Adapter.normalized, finalizePlan, Adapter.reconcile_eq]

/-- A way to finish a plan: its assets change one by one, in metadata and evidence only. -/
structure FinishedBy (change : CandidateAsset → CandidateAsset) (plan finished : NormalizedPlan) :
    Prop where
  assets : finished.assets = plan.assets.map change
  bare : ∀ asset, (change asset).bare = asset.bare
  named : ∀ asset, EvidenceNamed asset → EvidenceNamed (change asset)
  kept : plan.schemaVersion = normalizedPlanSchemaVersion → ∀ asset, change asset = asset
  schema : finished.validateSchema = .ok ()
  schemaVersion : finished.schemaVersion = plan.schemaVersion
  warnings : finished.warnings = plan.warnings
  errors : diagnosticsSorted plan.errors = true → diagnosticsSorted finished.errors = true
  summary : finished.summary = plan.summary

theorem validateSchema_normalized (lawful : platform.Lawful) (scan : Scan platform label state) :
    (adapter.normalized platform contents label state).validateSchema = .ok () := by
  have named := scan.label
  simp only [validateSourceLabel, reject_eq_ok, Bool.or_eq_false_iff] at named
  have nonempty : label.isEmpty = false := named.1.1
  have digest := lawful.byteLen
  cases adapter <;>
    simp [NormalizedPlan.validateSchema, Adapter.normalized, finalizePlan, Adapter.schemaVersion,
      Adapter.sourceKind, sourceFingerprint, normalizedPlanSchemaVersion,
      normalizedPlanSchemaVersionV2, normalizedPlanSchemaVersionV3,
      normalizedPlanSchemaVersionV4, reject, nonempty, digest, bind, Except.bind]

/-- A plan with another fingerprint of one length keeps its schema. -/
theorem validateSchema_of_fingerprint {plan finished : NormalizedPlan}
    (accepted : plan.validateSchema = .ok ()) (version : finished.schemaVersion = plan.schemaVersion)
    (kind : finished.source.kind = plan.source.kind)
    (label : finished.source.label = plan.source.label)
    (fingerprint : byteLen finished.source.fingerprintSha256 = 64) :
    finished.validateSchema = .ok () := by
  simp only [NormalizedPlan.validateSchema, reject_bind_eq_ok, reject_eq_ok, version, kind, label,
    fingerprint, Bool.or_eq_false_iff] at accepted ⊢
  obtain ⟨versions, two, three, four, apple, picasa, server, nonempty, _⟩ := accepted
  exact ⟨versions, two, three, four, apple, picasa, server, nonempty, rfl⟩

theorem finishedBy_id (lawful : platform.Lawful) (scan : Scan platform label state) :
    FinishedBy id (adapter.normalized platform contents label state)
      (adapter.normalized platform contents label state) :=
  { assets := (List.map_id _).symm
    bare := fun _ => rfl
    named := fun _ named => named
    kept := fun _ _ => rfl
    schema := validateSchema_normalized lawful scan
    schemaVersion := rfl
    warnings := rfl
    errors := id
    summary := rfl }

theorem finishedBy_finish (lawful : platform.Lawful) (scan : Scan platform label state) :
    FinishedBy (adapter.finishAsset platform) (adapter.normalized platform contents label state)
      (adapter.finish platform (adapter.normalized platform contents label state)) := by
  have unfinished : FinishedBy id (adapter.normalized platform contents label state)
      (adapter.normalized platform contents label state) := finishedBy_id lawful scan
  cases adapter with
  | folder _ => exact unfinished
  | takeout _ => exact unfinished
  | applePhotos config =>
      exact
        { assets := rfl
          bare := fun asset => bare_selectAlbum config asset
          named := fun _ named => named.finishAsset (.applePhotos config)
          kept := fun first => by cases first
          schema := validateSchema_of_fingerprint unfinished.schema rfl rfl rfl (lawful.byteLen _)
          schemaVersion := rfl
          warnings := rfl
          errors := id
          summary := rfl }
  | picasa config documents =>
      exact
        { assets := rfl
          bare := fun asset => bare_applyMetadata platform config _ asset
          named := fun _ named => named.finishAsset (.picasa config documents)
          kept := fun first => by cases first
          schema := validateSchema_of_fingerprint unfinished.schema rfl rfl rfl (lawful.byteLen _)
          schemaVersion := rfl
          warnings := rfl
          errors := fun _ => diagnosticsSorted_sortDedup _
          summary := rfl }

/-- Only a Takeout has metadata before it is finished. -/
theorem normalizedMetadata_matched (other : ∀ config, adapter ≠ .takeout config)
    (fresh : state.Fresh platform) :
    ∀ item ∈ (adapter.matched platform contents state).media, item.normalizedMetadata = none := by
  have attach : KeptByAttaching (fun _ => True) fun item => item.normalizedMetadata = none :=
    fun _ _ _ _ _ bare => bare
  have bare : ∀ item ∈ (reconcileSidecars state.prepare).media, item.normalizedMetadata = none :=
    reconcileSidecars_forall attach (fun _ _ => trivial) fun media member =>
      (fresh_prepare fresh media member).normalizedMetadata
  cases adapter with
  | takeout config => exact absurd rfl (other config)
  | folder _ => exact bare
  | applePhotos _ => exact bare
  | picasa _ _ => exact bare

/-- A finished asset is valid exactly when its metadata is. -/
theorem finishedAsset_valid_iff (lawful : platform.Lawful) (scan : Scan platform label state)
    {change : CandidateAsset → CandidateAsset} {finished : NormalizedPlan}
    (finishes : FinishedBy change (adapter.normalized platform contents label state) finished)
    {asset : CandidateAsset}
    (member : asset ∈ (adapter.normalized platform contents label state).assets) :
    (change asset).Valid platform.toPlatform adapter.schemaVersion ↔
      ∀ metadata ∈ (change asset).normalizedMetadata,
        metadata.isValid platform.toPlatform = true := by
  obtain ⟨item, listed, rfl⟩ := mem_assets_normalized.mp member
  obtain ⟨original, _, fresh, same⟩ := scan.original listed
  have kept : (reconciled platform (adapter.matched platform contents state).media item).Ruled :=
    sorted_ruled (memberOf_ruled _ (adapter.matched_ruled contents scan.fresh item listed))
  have bare := finishes.bare (candidateAsset platform
    (reconciled platform (adapter.matched platform contents state).media item))
  have file : (reconciled platform (adapter.matched platform contents state).media item).file =
      original.file := (file_reconciled _ item).trans (file_eq_of_bare same)
  constructor
  · exact CandidateAsset.Valid.metadata
  · intro valid
    have path := congrArg CandidateAsset.relativePath bare
    have operationId := congrArg CandidateAsset.operationId bare
    have content := congrArg CandidateAsset.contentSha256 bare
    have sidecars := congrArg CandidateAsset.metadata bare
    obtain ⟨bytes, _, digest⟩ := fresh.content
    constructor
    · have named := congrArg DiscoveredMedia.relativePath file
      exact (congrArg String.isEmpty (path.trans named)).trans fresh.path
    · exact (congrArg byteLen operationId).trans (lawful.byteLen _)
    · have read := congrArg DiscoveredMedia.contentSha256 file
      have same := (content.trans read).trans digest
      exact (congrArg byteLen same).trans (lawful.byteLen bytes)
    · exact finishes.named _ kept.evidence
    · intro sidecar member
      have listed : sidecar ∈ (candidateAsset platform (reconciled platform
          (adapter.matched platform contents state).media item)).metadata := sidecars ▸ member
      exact kept.sidecars sidecar listed
    · intro first
      rw [finishes.kept first]
      cases adapter with
      | folder config =>
          exact (normalizedMetadata_reconciled _ item).trans
            (normalizedMetadata_matched (fun _ same => by cases same) scan.fresh item listed)
      | takeout _ => cases first
      | applePhotos _ => cases first
      | picasa _ _ => cases first
    · exact valid

/-- A finished plan is accepted exactly when the metadata of its assets is valid. -/
theorem accepted_finished_iff (lawful : platform.Lawful) (scan : Scan platform label state)
    {change : CandidateAsset → CandidateAsset} {finished : NormalizedPlan}
    (finishes : FinishedBy change (adapter.normalized platform contents label state) finished) :
    finished.Accepted platform.toPlatform ↔
      ∀ asset ∈ (adapter.normalized platform contents label state).assets,
        ∀ metadata ∈ (change asset).normalizedMetadata,
          metadata.isValid platform.toPlatform = true := by
  constructor
  · intro accepted asset member
    have listed : change asset ∈ finished.assets := by
      rw [finishes.assets]
      exact List.mem_map_of_mem member
    exact (accepted.valid _ listed).metadata
  · intro metadata
    have keys : ∀ {α : Type} (key : CandidateAsset → α),
        (∀ asset, key asset = key asset.bare) → finished.assets.map key =
          (adapter.normalized platform contents label state).assets.map key := by
      intro α key ofBare
      rw [finishes.assets, List.map_map]
      apply List.map_congr_left
      intro asset _
      rw [Function.comp_apply, ofBare, finishes.bare, ← ofBare]
    constructor
    · exact finishes.schema
    · intro asset member
      rw [finishes.assets] at member
      obtain ⟨original, listed, rfl⟩ := List.mem_map.mp member
      rw [finishes.schemaVersion]
      apply (finishedAsset_valid_iff lawful scan finishes listed).mpr
      exact metadata original listed
    · rw [keys CandidateAsset.relativePath fun _ => rfl]
      exact pairwise_relativePath_normalized
    · rw [keys CandidateAsset.operationId fun _ => rfl]
      exact scan.nodup_operationId
    · rw [finishes.summary, finishes.assets, List.length_map]
      rfl
    · rw [finishes.summary, keys (fun asset => asset.metadata.length) fun _ => rfl]
      rfl
    · rw [finishes.warnings, warnings_normalized]
      exact diagnosticsSorted_sortDedup _
    · apply finishes.errors
      rw [errors_normalized]
      exact diagnosticsSorted_sortDedup _

end

end

end ImmichRs
