import ImmichRs.Core.JsonText
import ImmichRs.Sources.Fingerprint
import ImmichRs.Sources.Touched

/-!
# Refreshed fingerprints

Apple Photos and Picasa replace the fingerprint of a finalized plan.  The new one says which sidecars
are attached to an asset, but nothing of what these hold.
-/

namespace ImmichRs

open Collections Encoding

/-! ## Resolved scans -/

/-- A scan of an adapter which returns a resolved plan. -/
def Adapter.Resolves (platform : SourcePlatform) (adapter : Adapter)
    (resolved : ResolvedFolderPlan) : Prop :=
  ∃ contents form label state, adapter.Scanned platform form state ∧
    adapter.resolve platform contents form label state = .ok resolved

/-- The adapters which refresh a fingerprint, under one configuration. -/
inductive Adapter.Alike : Adapter → Adapter → Prop
  | applePhotos (config : ApplePhotosScanConfig) : Alike (.applePhotos config) (.applePhotos config)
  | picasa (config : PicasaScanConfig) (first second : Documents) :
      Alike (.picasa config first) (.picasa config second)

/-- An asset and its attached sidecars, with their contents. -/
structure AssetContents where
  relativePath : String
  contentSha256 : String
  sidecars : List (String × Option String)
  deriving DecidableEq, Repr

/-- The assets of a resolved plan and their attached sidecars, with their contents. -/
def ResolvedFolderPlan.contents (resolved : ResolvedFolderPlan) : List AssetContents :=
  resolved.plan.assets.map fun asset =>
    { relativePath := asset.relativePath
      contentSha256 := asset.contentSha256
      sidecars := asset.metadata.map fun metadata =>
        (metadata.relativePath,
          (resolved.sourceFile metadata.relativePath).map ResolvedSourceFile.contentSha256) }

/-- The bytes of the refreshed fingerprint of an Apple export. -/
def NormalizedPlan.appleMessage (plan : NormalizedPlan) : List UInt8 :=
  utf8Bytes "apple-photos-source-v1\x00" ++
    (plan.assets.flatMap CandidateAsset.appleFields ++
      (plan.warnings ++ plan.errors).flatMap PlanDiagnostic.fingerprintFields).flatMap fieldBytes

/-- The bytes of the refreshed fingerprint of a Picasa source. -/
def NormalizedPlan.picasaMessage (plan : NormalizedPlan) : List UInt8 :=
  utf8Bytes "picasa-source-v1\x00" ++ utf8Bytes (jsonArray
    [jsonArray (plan.assets.map CandidateAsset.serialize),
      jsonArray (plan.warnings.map PlanDiagnostic.serialize),
      jsonArray (plan.errors.map PlanDiagnostic.serialize)])

/-- The bytes of a refreshed fingerprint; folders and Takeouts refresh none. -/
def Adapter.refreshedMessage (adapter : Adapter) (plan : NormalizedPlan) : List UInt8 :=
  match adapter with
  | .applePhotos _ => plan.appleMessage
  | .picasa _ _ => plan.picasaMessage
  | .folder _ | .takeout _ => []

section

variable {platform : SourcePlatform} {adapter other : Adapter}
  {resolved otherResolved : ResolvedFolderPlan}

theorem Adapter.Alike.symm (alike : adapter.Alike other) : other.Alike adapter := by
  cases alike with
  | applePhotos config => exact .applePhotos config
  | picasa config first second => exact .picasa config second first

/-- A refreshed fingerprint is the digest of its bytes. -/
theorem Adapter.Resolves.fingerprint (resolves : adapter.Resolves platform resolved)
    (alike : adapter.Alike other) :
    resolved.plan.source.fingerprintSha256 =
      platform.sha256 (adapter.refreshedMessage resolved.plan) := by
  obtain ⟨contents, form, label, state, _, returned⟩ := resolves
  rw [(adapter.resolve_ok returned).2.1]
  cases alike with
  | applePhotos config => rfl
  | picasa config documents _ => rfl

/-! ## Attachments -/

/-- What a refreshed fingerprint says of an asset: its path, its content and the paths of its
attached sidecars, with their rules. -/
abbrev AppleIdentity : Type := String × String × List (String × String)

/-- The attachments of an asset. -/
def CandidateAsset.attachments (asset : CandidateAsset) : AppleIdentity :=
  (asset.relativePath, asset.contentSha256,
    asset.metadata.map fun metadata => (metadata.relativePath, metadata.ruleId))

/-- The bytes of an asset of an Apple export, whose album follows from its path. -/
def appleBytes (config : ApplePhotosScanConfig) (identity : AppleIdentity) : List UInt8 :=
  fieldBytes identity.1 ++ (fieldBytes identity.2.1 ++
    (identity.2.2.flatMap pairBytes ++ (albumFor config identity.1).toList.flatMap fieldBytes))

/-- The form of the assets of a resolved Apple export. -/
structure AppleIdentity.Valid (platform : SourcePlatform) (config : ApplePhotosScanConfig)
    (identity : AppleIdentity) : Prop where
  path : SourcePath platform identity.1
  content : IsDigest identity.2.1
  sidecars : ∀ pair ∈ identity.2.2, SourcePath platform pair.1 ∧ IsSidecarRule pair.2
  album : ∀ album ∈ albumFor config identity.1, Short album

/-- A stream whose first field is the rule of an attached sidecar. -/
def StartsWithRule (stream : List UInt8) : Prop :=
  ∃ rule rest, IsSidecarRule rule ∧ stream = fieldBytes rule ++ rest

theorem pathFileName_sidecarRules :
    ∀ rule ∈ sidecarRules, (pathFileName rule).bind (rsplitOnce · '.') = none := by
  decide +kernel

theorem not_startsWithRule_of_opens {second : String → Prop} {stream : List UInt8}
    (opens : Opens platform second stream) : ¬ StartsWithRule stream := by
  obtain ⟨path, field, rest, located, _, _, rfl⟩ := opens
  rintro ⟨rule, tail, known, same⟩
  obtain rfl := (fieldBytes_splits located.isShort known.isShort trivial trivial same).1
  exact not_sourcePath_of_rsplitOnce (pathFileName_sidecarRules _ known) located

/-- An album may look like a path, but no rule follows it. -/
theorem appleBytes_splits (config : ApplePhotosScanConfig) :
    Splits (AppleIdentity.Valid platform config)
      (fun stream => ¬ Opens platform IsSidecarRule stream ∧ ¬ StartsWithRule stream)
      (appleBytes config) := by
  rintro ⟨path, content, pairs⟩ ⟨otherPath, otherContent, otherPairs⟩ left right valid otherValid
    leftEnds rightEnds same
  simp only [appleBytes, List.append_assoc] at same
  obtain ⟨paths, identities⟩ := fieldBytes_splits valid.path.isShort otherValid.path.isShort
    trivial trivial same
  dsimp only at paths
  subst paths
  obtain ⟨contents, attached⟩ := fieldBytes_splits valid.content.isShort
    otherValid.content.isShort trivial trivial identities
  dsimp only at contents
  subst contents
  have ends : ∀ {stream}, ¬ Opens platform IsSidecarRule stream ∧ ¬ StartsWithRule stream →
      ¬ Opens platform IsSidecarRule ((albumFor config path).toList.flatMap fieldBytes ++ stream) := by
    intro stream closed
    cases found : albumFor config path with
    | none => exact closed.1
    | some album =>
        rintro ⟨sidecar, rule, rest, located, _, known, opened⟩
        simp only [Option.toList_some, List.flatMap_cons, List.flatMap_nil, List.append_nil] at opened
        have following := (fieldBytes_splits (valid.album album found) located.isShort trivial
          trivial opened).2
        exact closed.2 ⟨rule, rest, known, following⟩
  obtain ⟨same, albums⟩ := pairs_splits valid.sidecars otherValid.sidecars
    ⟨trivial, ends leftEnds⟩ ⟨trivial, ends rightEnds⟩ attached
  dsimp only at same
  subst same
  exact ⟨rfl, List.append_cancel_left albums⟩

/-- The assets of an Apple export are read back. -/
theorem appleAssets_splits (config : ApplePhotosScanConfig) :
    Splits (fun assets : List AppleIdentity => ∀ asset ∈ assets, asset.Valid platform config)
      (fun stream => (¬ Opens platform IsSidecarRule stream ∧ ¬ StartsWithRule stream) ∧
        ¬ Opens platform IsDigest stream)
      (fun assets => assets.flatMap (appleBytes config)) := by
  apply (appleBytes_splits config).flatMap (Opens platform IsDigest)
  · rintro ⟨path, content, pairs⟩ stream valid
    refine ⟨path, content, pairs.flatMap pairBytes ++
      ((albumFor config path).toList.flatMap fieldBytes ++ stream), valid.path,
      valid.content.isShort, valid.content, ?_⟩
    simp only [appleBytes, List.append_assoc]
  · intro stream opens
    exact ⟨not_opens_two opens isDigest_not_isSidecarRule, not_startsWithRule_of_opens opens⟩

theorem not_startsWithRule_diagnosticBytes {diagnostics : List PlanDiagnostic}
    (known : ∀ diagnostic ∈ diagnostics, diagnostic.ruleId ∈ diagnosticRules) :
    ¬ StartsWithRule (diagnosticBytes diagnostics) := by
  rintro ⟨rule, rest, attached, same⟩
  cases diagnostics with
  | nil =>
      have lengths := congrArg List.length same
      simp only [diagnosticBytes, fieldBytes, List.flatMap_nil, List.length_nil,
        List.length_append, length_u64LittleEndian] at lengths
      omega
  | cons diagnostic others =>
      have named := known diagnostic List.mem_cons_self
      have every : ∀ rule ∈ diagnosticRules, byteLen rule < 100 ∧ rule ∉ sidecarRules := by decide
      have short : Short diagnostic.ruleId := (every _ named).1.trans (by norm_num)
      rw [diagnosticBytes, List.flatMap_cons, PlanDiagnostic.fingerprintFields, List.cons_append,
        List.flatMap_cons] at same
      obtain rfl := (fieldBytes_splits short attached.isShort trivial trivial same).1
      exact (every _ named).2 attached

/-- An asset before and after its album was added. -/
theorem appleFields_selectAlbum (config : ApplePhotosScanConfig) {asset : CandidateAsset}
    (bare : asset.normalizedMetadata = none) :
    (selectAlbum config asset).appleFields.flatMap fieldBytes =
      appleBytes config asset.attachments := by
  have albums : ((selectAlbum config asset).normalizedMetadata.elim [] NormalizedMetadata.albums) =
      (albumFor config asset.relativePath).toList := by
    rw [selectAlbum]
    split
    · rename_i missing
      rw [missing, bare]
      rfl
    · rename_i album found
      rw [found]
      simp [CandidateAsset.withEvidence, addAlbum, bare, NormalizedMetadata.empty,
        sortDedup_eq_dedup]
  have fields := bare_selectAlbum config asset
  have path := congrArg CandidateAsset.relativePath fields
  have content := congrArg CandidateAsset.contentSha256 fields
  have metadata := congrArg CandidateAsset.metadata fields
  dsimp only [CandidateAsset.bare] at path content metadata
  rw [CandidateAsset.appleFields, albums, path, content, metadata]
  simp [appleBytes, CandidateAsset.attachments, List.flatMap_assoc, List.flatMap_map, pairBytes]

theorem attachments_selectAlbum (config : ApplePhotosScanConfig) (asset : CandidateAsset) :
    (selectAlbum config asset).attachments = asset.attachments := by
  have fields := congrArg CandidateAsset.attachments (bare_selectAlbum config asset)
  exact fields

/-- A plan whose refreshed fingerprint can be read back. -/
structure NormalizedPlan.AppleForm (platform : SourcePlatform) (config : ApplePhotosScanConfig)
    (plan : NormalizedPlan) : Prop where
  assets : ∀ identity ∈ plan.assets.map CandidateAsset.attachments, identity.Valid platform config
  diagnostics : ∀ diagnostic ∈ plan.warnings ++ plan.errors, diagnostic.ruleId ∈ diagnosticRules
  message : plan.appleMessage = utf8Bytes "apple-photos-source-v1\x00" ++
    ((plan.assets.map CandidateAsset.attachments).flatMap (appleBytes config) ++
      diagnosticBytes (plan.warnings ++ plan.errors))

theorem Adapter.Resolves.appleForm (lawful : platform.Lawful) {config : ApplePhotosScanConfig}
    (resolves : (Adapter.applePhotos config).Resolves platform resolved) :
    resolved.plan.AppleForm platform config := by
  obtain ⟨contents, form, label, state, scanned, returned⟩ := resolves
  obtain ⟨accepted, plan, _⟩ := (Adapter.applePhotos config).resolve_ok returned
  have assets : resolved.plan.assets = ((Adapter.applePhotos config).normalized platform contents
      label state).assets.map (selectAlbum config) := by
    rw [plan]
    rfl
  have bare : ∀ asset ∈ ((Adapter.applePhotos config).normalized platform contents label
      state).assets, asset.normalizedMetadata = none := by
    intro asset member
    obtain ⟨item, listed, rfl⟩ := mem_assets_normalized.mp member
    exact (normalizedMetadata_reconciled _ item).trans
      (normalizedMetadata_matched (fun _ same => by cases same) scanned.fresh item listed)
  constructor
  · intro identity member
    rw [assets, List.map_map, List.mem_map] at member
    obtain ⟨asset, listed, rfl⟩ := member
    rw [Function.comp_apply, attachments_selectAlbum]
    have valid := scanned.assets_valid lawful contents label asset.identity
      (List.mem_map_of_mem listed)
    refine ⟨valid.path, valid.content, valid.sidecars, ?_⟩
    intro album found
    have finished := (NormalizedPlan.validate_ok_iff _ _).mp accepted
    have metadata := (finished.valid (selectAlbum config asset)
      (by rw [assets]; exact List.mem_map_of_mem listed)).metadata
    have selected : (selectAlbum config asset).normalizedMetadata =
        some (addAlbum none album) := by
      have path : albumFor config asset.relativePath = some album := found
      rw [selectAlbum, path, bare asset listed]
      rfl
    have usable := (isValid_iff.mp (metadata _ selected)).2.1 album
      (by simp [addAlbum, NormalizedMetadata.empty])
    rw [validAlbum] at usable
    simp only [Bool.and_eq_true, decide_eq_true_eq] at usable
    exact usable.1.1.2.trans_lt (by norm_num)
  · have diagnosed := @ScanState.Diagnosed.reconcile platform _ scanned.diagnosed
      (.applePhotos config) contents
    rw [plan]
    intro diagnostic member
    exact (List.mem_append.mp member).elim (diagnosed.warnings diagnostic)
      (diagnosed.errors diagnostic)
  · have fields : ∀ asset ∈ ((Adapter.applePhotos config).normalized platform contents label
        state).assets, (selectAlbum config asset).appleFields.flatMap fieldBytes =
          appleBytes config (selectAlbum config asset).attachments := by
      intro asset member
      rw [appleFields_selectAlbum config (bare asset member), attachments_selectAlbum]
    rw [NormalizedPlan.appleMessage, diagnosticBytes, List.flatMap_append, List.flatMap_assoc,
      assets, List.flatMap_map, List.map_map, List.flatMap_map]
    rw [List.flatMap_congr fields]
    rfl

/-- The path and the rule in the value of an attached sidecar. -/
def pairOfJson : Json → String × String
  | .object [(_, .string path), _, (_, .string rule)] => (path, rule)
  | _ => ("", "")

theorem attachments_of_json {first second : CandidateAsset} (same : first.json = second.json) :
    first.attachments = second.attachments := by
  rw [CandidateAsset.json, CandidateAsset.json, Json.object.injEq] at same
  have fields := congrArg (List.take 6) same
  simp only [List.cons_append, List.nil_append, List.take_succ_cons,
    List.take_zero, List.cons.injEq, Prod.mk.injEq, Json.string.injEq, Json.array.injEq,
    true_and, and_true] at fields
  obtain ⟨_, path, _, _, content, metadata⟩ := fields
  have pairs := congrArg (List.map pairOfJson) metadata
  rw [List.map_map, List.map_map] at pairs
  rw [CandidateAsset.attachments, CandidateAsset.attachments, path, content]
  exact congrArg (fun pairs => (second.relativePath, second.contentSha256, pairs)) pairs

/-- Scans with one refreshed fingerprint have the same assets, with the same attached sidecars. -/
theorem Adapter.Resolves.attachments_eq (lawful : platform.Lawful) (alike : adapter.Alike other)
    (resolves : adapter.Resolves platform resolved)
    (otherResolves : other.Resolves platform otherResolved)
    (collisionFree : CollisionFree platform.toPlatform
      {adapter.refreshedMessage resolved.plan, other.refreshedMessage otherResolved.plan})
    (same : resolved.plan.source.fingerprintSha256 =
      otherResolved.plan.source.fingerprintSha256) :
    resolved.plan.assets.map CandidateAsset.attachments =
      otherResolved.plan.assets.map CandidateAsset.attachments := by
  rw [resolves.fingerprint alike, otherResolves.fingerprint alike.symm] at same
  have messages := collisionFree (Set.mem_insert _ _) (Set.mem_insert_of_mem _ rfl) same
  cases alike with
  | applePhotos config =>
      have form := resolves.appleForm lawful
      have otherForm := otherResolves.appleForm lawful
      have closed : ∀ {plan : NormalizedPlan}, plan.AppleForm platform config →
          (¬ Opens platform IsSidecarRule (diagnosticBytes (plan.warnings ++ plan.errors)) ∧
            ¬ StartsWithRule (diagnosticBytes (plan.warnings ++ plan.errors))) ∧
          ¬ Opens platform IsDigest (diagnosticBytes (plan.warnings ++ plan.errors)) := by
        intro plan form
        exact ⟨⟨not_opens_diagnosticBytes form.diagnostics,
          not_startsWithRule_diagnosticBytes form.diagnostics⟩,
          not_opens_diagnosticBytes form.diagnostics⟩
      dsimp only [Adapter.refreshedMessage] at messages
      rw [form.message, otherForm.message, List.append_right_inj] at messages
      exact (appleAssets_splits config form.assets otherForm.assets (closed form)
        (closed otherForm) messages).1
  | picasa config first second =>
      dsimp only [Adapter.refreshedMessage, NormalizedPlan.picasaMessage] at messages
      rw [List.append_right_inj] at messages
      have values := json_of_texts (utf8Bytes_injective messages)
      have lists : ∀ {left right : List CandidateAsset},
          left.map CandidateAsset.json = right.map CandidateAsset.json →
            left.map CandidateAsset.attachments = right.map CandidateAsset.attachments := by
        intro left right same
        rw [← List.forall₂_eq_eq_eq, List.forall₂_map_left_iff, List.forall₂_map_right_iff] at same ⊢
        exact same.imp fun _ _ equal => attachments_of_json equal
      exact lists values

theorem contents_of_bare (bare : ∀ asset ∈ resolved.plan.assets, asset.metadata = [])
    (same : resolved.plan.assets.map CandidateAsset.attachments =
      otherResolved.plan.assets.map CandidateAsset.attachments) :
    resolved.contents = otherResolved.contents := by
  have view : ∀ {resolved : ResolvedFolderPlan},
      (∀ asset ∈ resolved.plan.assets, asset.metadata = []) → resolved.contents =
        (resolved.plan.assets.map CandidateAsset.attachments).map fun identity =>
          { relativePath := identity.1, contentSha256 := identity.2.1, sidecars := [] } := by
    intro resolved bare
    rw [ResolvedFolderPlan.contents, List.map_map]
    apply List.map_congr_left
    intro asset member
    rw [bare asset member]
    rfl
  have otherBare : ∀ asset ∈ otherResolved.plan.assets, asset.metadata = [] := by
    intro asset member
    have listed : asset.attachments ∈ resolved.plan.assets.map CandidateAsset.attachments := by
      rw [same]
      exact List.mem_map_of_mem member
    obtain ⟨original, originalMember, equal⟩ := List.mem_map.mp listed
    simp only [CandidateAsset.attachments, bare original originalMember, List.map_nil,
      Prod.mk.injEq] at equal
    exact List.map_eq_nil_iff.mp equal.2.2.symm
  rw [view bare, view otherBare, same]

/-! ## Changed sidecars -/

theorem Adapter.Alike.not_takeout (alike : adapter.Alike other) (config : TakeoutScanConfig) :
    adapter ≠ .takeout config := by
  rintro rfl
  cases alike

theorem NormalizedPlan.Accepted.of_fingerprint {plan finished : NormalizedPlan}
    (accepted : plan.Accepted platform.toPlatform) (assets : finished.assets = plan.assets)
    (warnings : finished.warnings = plan.warnings) (errors : finished.errors = plan.errors)
    (version : finished.schemaVersion = plan.schemaVersion)
    (kind : finished.source.kind = plan.source.kind)
    (label : finished.source.label = plan.source.label)
    (fingerprint : byteLen finished.source.fingerprintSha256 = 64)
    (counted : finished.summary.assets = plan.summary.assets ∧
      finished.summary.sidecars = plan.summary.sidecars) : finished.Accepted platform.toPlatform :=
  { schema := validateSchema_of_fingerprint accepted.schema version kind label fingerprint
    valid := by
      rw [assets, version]
      exact accepted.valid
    sorted := by
      rw [assets]
      exact accepted.sorted
    unique := by
      rw [assets]
      exact accepted.unique
    assets := by
      rw [counted.1, assets]
      exact accepted.assets
    sidecars := by
      rw [counted.2, assets]
      exact accepted.sidecars
    warnings := by
      rw [warnings]
      exact accepted.warnings
    errors := by
      rw [errors]
      exact accepted.errors }

section

variable {path label : String} {bytes : List UInt8} {form : SourceForm}
  {state following : ScanState} {contents : String → Option (List UInt8)}

/-- Plans of scans which differ in the identities of some sidecars. -/
structure NormalizedPlan.Equal (plan other : NormalizedPlan) : Prop where
  assets : other.assets = plan.assets
  warnings : other.warnings = plan.warnings
  errors : other.errors = plan.errors
  schemaVersion : other.schemaVersion = plan.schemaVersion
  kind : other.source.kind = plan.source.kind
  label : other.source.label = plan.source.label
  summary : other.summary.assets = plan.summary.assets ∧
    other.summary.sidecars = plan.summary.sidecars

theorem normalized_touched (alike : adapter.Alike other)
    (touched : ScanState.Touched platform path bytes state following) :
    (adapter.normalized platform contents label state).Equal
      (adapter.normalized platform contents label following) := by
  have reconciled := touched.reconcile alike.not_takeout contents
  constructor
  · simp only [Adapter.normalized, finalizePlan, reconciled.media]
  · exact reconciled.warnings
  · exact reconciled.errors
  · exact Eq.refl adapter.schemaVersion
  · exact Eq.refl adapter.sourceKind
  · exact Eq.refl label
  · simp only [Adapter.normalized, finalizePlan, reconciled.media, and_self]

theorem NormalizedPlan.Equal.accepted {plan other : NormalizedPlan} (equal : plan.Equal other)
    (fingerprint : byteLen other.source.fingerprintSha256 = 64)
    (accepted : plan.validate platform.toPlatform = .ok ()) :
    other.validate platform.toPlatform = .ok () := by
  rw [NormalizedPlan.validate_ok_iff] at accepted ⊢
  exact accepted.of_fingerprint equal.assets equal.warnings equal.errors equal.schemaVersion
    equal.kind equal.label fingerprint equal.summary

theorem NormalizedPlan.Equal.apple {plan other : NormalizedPlan} (equal : plan.Equal other)
    (config : ApplePhotosScanConfig) :
    (plan.withAppleAlbums platform config).Equal (other.withAppleAlbums platform config) :=
  { equal with
    assets := congrArg (List.map (selectAlbum config)) equal.assets }

theorem NormalizedPlan.Equal.picasa {plan other : NormalizedPlan} (equal : plan.Equal other)
    (config : PicasaScanConfig) (documents : Documents) :
    (plan.withPicasa platform config documents).Equal
      (other.withPicasa platform config documents) :=
  { equal with
    assets := by
      rw [NormalizedPlan.withPicasa, NormalizedPlan.withPicasa]
      exact congrArg (List.map _) equal.assets
    errors := congrArg (fun errors => sortDedup (errors ++ documents.errors)) equal.errors }

theorem NormalizedPlan.Equal.message {plan other : NormalizedPlan} (equal : plan.Equal other)
    (adapter : Adapter) : adapter.refreshedMessage other = adapter.refreshedMessage plan := by
  cases adapter with
  | folder _ => rfl
  | takeout _ => rfl
  | applePhotos _ =>
      simp only [Adapter.refreshedMessage, NormalizedPlan.appleMessage, equal.assets,
        equal.warnings, equal.errors]
  | picasa _ _ =>
      simp only [Adapter.refreshedMessage, NormalizedPlan.picasaMessage, equal.assets,
        equal.warnings, equal.errors]

/-- A scan of changed sidecars is resolved too, with the same plan but for its summary. -/
theorem Adapter.resolve_touched (lawful : platform.Lawful) (alike : adapter.Alike other)
    (touched : ScanState.Touched platform path bytes state following)
    (returned : adapter.resolve platform contents form label state = .ok resolved) :
    ∃ otherResolved, adapter.resolve platform contents form label following = .ok otherResolved ∧
      resolved.plan.Equal otherResolved.plan ∧
      otherResolved.files = resolvedFiles (adapter.reconcile platform contents following) := by
  have equal : (adapter.normalized platform contents label state).Equal
      (adapter.normalized platform contents label following) := normalized_touched alike touched
  have folder : byteLen
      (adapter.normalized platform contents label following).source.fingerprintSha256 = 64 :=
    lawful.byteLen _
  have plan := (adapter.resolve_ok returned).2.1
  rw [plan]
  cases alike with
  | applePhotos config =>
      have finished := @NormalizedPlan.Equal.apple platform _ _ equal config
      have fingerprint : byteLen (((Adapter.applePhotos config).normalized platform contents label
          following).withAppleAlbums platform config).source.fingerprintSha256 = 64 :=
        lawful.byteLen _
      refine ⟨⟨_, _⟩, ?_, finished, rfl⟩
      cases form with
      | directory =>
          simp only [Adapter.resolve, bind_eq_ok, finishResolved_eq_ok, finishPlan_eq_ok] at returned ⊢
          obtain ⟨_, ⟨accepted, rfl⟩, _, ⟨valid, rfl⟩, _⟩ := returned
          exact ⟨_, ⟨equal.accepted folder accepted, rfl⟩, _,
            ⟨finished.accepted fingerprint valid, rfl⟩, rfl⟩
      | archives =>
          simp only [Adapter.resolve, bind_eq_ok, finishPlan_eq_ok, finishResolved_eq_ok] at returned ⊢
          obtain ⟨_, ⟨valid, rfl⟩, _, _⟩ := returned
          have accepted := finished.accepted fingerprint valid
          exact ⟨_, ⟨accepted, rfl⟩, accepted, rfl⟩
  | picasa config documents _ =>
      have finished := @NormalizedPlan.Equal.picasa platform _ _ equal config documents
      have fingerprint : byteLen (((Adapter.picasa config documents).normalized platform contents
          label following).withPicasa platform config documents).source.fingerprintSha256 = 64 :=
        lawful.byteLen _
      refine ⟨⟨_, _⟩, ?_, finished, rfl⟩
      simp only [Adapter.resolve, bind_eq_ok, finishResolved_eq_ok, finishPicasa_eq_ok] at returned ⊢
      obtain ⟨_, ⟨accepted, rfl⟩, valid, _⟩ := returned
      exact ⟨_, ⟨equal.accepted folder accepted, rfl⟩, finished.accepted fingerprint valid, rfl⟩

theorem resolvedFiles_touched {first second : ScanState}
    (touched : ScanState.Touched platform path bytes first second)
    (kept : path ∈ first.sidecars.map DiscoveredSidecar.relativePath) :
    ((resolvedFiles second)[path]?).map ResolvedSourceFile.contentSha256 =
      some (platform.sha256 bytes) := by
  rw [resolvedFiles, getElem?_fill_last]
  cases last : (second.sidecars.filter fun sidecar => sidecar.relativePath = path).getLast? with
  | none =>
      rw [← touched.sidecarPaths, List.mem_map] at kept
      obtain ⟨sidecar, member, located⟩ := kept
      have filtered : sidecar ∈ second.sidecars.filter fun sidecar => sidecar.relativePath = path :=
        List.mem_filter.mpr ⟨member, by simpa using located⟩
      rw [List.getLast?_eq_none_iff.mp last] at filtered
      cases filtered
  | some sidecar =>
      obtain ⟨member, located⟩ := List.mem_filter.mp (List.mem_of_getLast? last)
      rw [touched.sidecars, List.mem_map] at member
      obtain ⟨original, _, rfl⟩ := member
      have same : original.relativePath = path := by
        rw [← relativePath_touch platform path bytes original]
        simpa using located
      rw [Option.map_some, Option.some_or, Option.map_some, DiscoveredSidecar.touch, if_pos same]
      rfl

/-- Attached sidecars are sidecars of the scan, under paths which no collision removed. -/
theorem Adapter.attached_prepared (adapter : Adapter) (fresh : state.Fresh platform)
    {asset : CandidateAsset}
    (member : asset ∈ (adapter.finish platform
      (adapter.normalized platform contents label state)).assets) :
    ∀ candidate ∈ asset.metadata,
      candidate.relativePath ∈ state.prepare.sidecars.map DiscoveredSidecar.relativePath := by
  intro candidate attached
  rw [Adapter.assets_finish, List.mem_map] at member
  obtain ⟨unfinished, listed, rfl⟩ := member
  have metadata := congrArg CandidateAsset.metadata (adapter.bare_finishAsset platform unfinished)
  dsimp only [CandidateAsset.bare] at metadata
  rw [metadata] at attached
  obtain ⟨item, matched, rfl⟩ := mem_assets_normalized.mp listed
  have sorted := mem_sortDedup.mp attached
  rw [metadata_memberOf] at sorted
  exact (adapter.metadata_matched fresh contents (fun _ sidecar => List.mem_map_of_mem sidecar) item
    matched candidate sorted).1

theorem mediaKind_of_metadataKind {kind : MetadataKind}
    (isSidecar : metadataKind platform path = some kind) : mediaKind platform path = none := by
  rw [metadataKind] at isSidecar
  rw [mediaKind]
  cases found : extension platform path with
  | none => rfl
  | some suffix =>
      rw [found] at isSidecar
      dsimp only at isSidecar ⊢
      split_ifs at isSidecar with json xmp
      · rw [json]
        decide
      · rw [xmp]
        decide

/-- A resolved scan whose refreshed fingerprint binds its contents. -/
def ResolvedFolderPlan.Bound (platform : SourcePlatform) (adapter : Adapter)
    (resolved : ResolvedFolderPlan) : Prop :=
  ∀ other otherResolved, adapter.Alike other → other.Resolves platform otherResolved →
    CollisionFree platform.toPlatform
      {adapter.refreshedMessage resolved.plan, other.refreshedMessage otherResolved.plan} →
    resolved.plan.source.fingerprintSha256 = otherResolved.plan.source.fingerprintSha256 →
      resolved.contents = otherResolved.contents

/-- A refreshed fingerprint binds the contents of a scan exactly when no sidecar is attached to an
asset. -/
theorem Adapter.refreshedFingerprint_binds_iff (lawful : platform.Lawful)
    (varied : platform.sha256 [] ≠ platform.sha256 [0]) (alike : adapter.Alike adapter)
    (resolves : adapter.Resolves platform resolved) :
    resolved.Bound platform adapter ↔ ∀ asset ∈ resolved.plan.assets, asset.metadata = [] := by
  constructor
  · intro bound asset member
    by_contra attached
    obtain ⟨candidate, rest, listed⟩ := List.exists_cons_of_ne_nil attached
    have first : candidate ∈ asset.metadata := listed ▸ List.mem_cons_self
    obtain ⟨contents, form, label, state, scanned, returned⟩ := id resolves
    have plan := (adapter.resolve_ok returned).2.1
    have prepared : candidate.relativePath ∈
        state.prepare.sidecars.map DiscoveredSidecar.relativePath :=
      adapter.attached_prepared scanned.fresh (plan ▸ member) candidate first
    obtain ⟨sidecar, kept, located⟩ := List.mem_map.mp prepared
    have original := (List.mem_filter.mp ((mem_sortBy DiscoveredSidecar.relativePath).mp kept)).1
    have isSidecar : mediaKind platform candidate.relativePath = none := by
      rw [← located]
      exact mediaKind_of_metadataKind (scanned.fresh.sidecars sidecar original).kind_eq
    -- One of two contents differs from the present one.
    obtain ⟨bytes, small, different⟩ : ∃ bytes : List UInt8, bytes.length ≤ 1 ∧
        (resolved.sourceFile candidate.relativePath).map ResolvedSourceFile.contentSha256 ≠
          some (platform.sha256 bytes) := by
      by_cases empty : (resolved.sourceFile candidate.relativePath).map
          ResolvedSourceFile.contentSha256 = some (platform.sha256 [])
      · refine ⟨[0], le_rfl, ?_⟩
        rw [empty]
        exact fun same => varied (Option.some.inj same)
      · exact ⟨[], Nat.zero_le 1, empty⟩
    obtain ⟨following, followed, touched⟩ : ∃ following,
        adapter.Scanned platform form following ∧
          ScanState.Touched platform candidate.relativePath bytes state following :=
      scanned.touch alike.not_takeout isSidecar small ⟨sidecar, original, located⟩
    obtain ⟨otherResolved, otherReturned, equal, files⟩ :=
      Adapter.resolve_touched lawful alike touched returned
    have otherResolves : adapter.Resolves platform otherResolved :=
      ⟨contents, form, label, following, followed, otherReturned⟩
    have message := equal.message adapter
    have same := bound adapter otherResolved alike otherResolves
      (by
        rw [message, Set.pair_eq_singleton]
        exact Set.injOn_singleton _ _)
      (by rw [resolves.fingerprint alike, otherResolves.fingerprint alike, message])
    rw [ResolvedFolderPlan.contents, ResolvedFolderPlan.contents, equal.assets,
      List.map_inj_left] at same
    have sidecars := congrArg AssetContents.sidecars (same asset member)
    rw [List.map_inj_left] at sidecars
    have contentsEqual := congrArg Prod.snd (sidecars candidate first)
    dsimp only at contentsEqual
    apply different
    rw [contentsEqual, ResolvedFolderPlan.sourceFile, files]
    apply resolvedFiles_touched (touched.reconcile alike.not_takeout contents)
    have identities := congrArg (List.map Prod.fst)
      (@sidecars_reconcile platform contents adapter state)
    rw [List.map_map, List.map_map] at identities
    have paths : (adapter.reconcile platform contents state).sidecars.map
        DiscoveredSidecar.relativePath =
          state.prepare.sidecars.map DiscoveredSidecar.relativePath := identities
    rw [paths]
    exact prepared
  · intro bare other otherResolved alike otherResolves collisionFree same
    exact contents_of_bare bare
      (resolves.attachments_eq lawful alike otherResolves collisionFree same)

end

end

/-! ## The sample folder -/

/-- The resolved Picasa scan of the sample folder with one sidecar. -/
def samplePicasa (sidecar : UInt8) : Except ScanError ResolvedFolderPlan :=
  (Adapter.picasa .default .empty).resolve .reference (fun _ => none) .directory "photos"
    (sampleScan sidecar [])

theorem samplePicasa_resolves {sidecar : UInt8} {resolved : ResolvedFolderPlan}
    (read : (discover .reference .default (fun _ => none)
      (sampleFolder sidecar [])).toOption.isSome = true)
    (returned : samplePicasa sidecar = .ok resolved) :
    (Adapter.picasa .default .empty).Resolves .reference resolved :=
  ⟨_, _, _, _, sampleScan_scanned rfl rfl rfl sidecar [] read, returned⟩

theorem eq_ok_of_toOption {ε α : Type} {result : Except ε α} {value : α}
    (returned : result.toOption = some value) : result = .ok value := by
  cases result with
  | error _ => cases returned
  | ok found => exact congrArg Except.ok (Option.some.inj returned)

/-- Both sidecars give one refreshed fingerprint. -/
theorem samplePicasa_same : ∃ first second, samplePicasa 2 = .ok first ∧ samplePicasa 3 = .ok second ∧
    first.plan.picasaMessage = second.plan.picasaMessage ∧ first.contents ≠ second.contents := by
  have checked : ((samplePicasa 2).toOption.any fun first =>
      (samplePicasa 3).toOption.any fun second =>
        decide (first.plan.picasaMessage = second.plan.picasaMessage ∧
          first.contents ≠ second.contents)) = true := by
    decide +kernel
  rw [Option.any_eq_true] at checked
  obtain ⟨first, firstReturned, checked⟩ := checked
  rw [Option.any_eq_true] at checked
  obtain ⟨second, secondReturned, checked⟩ := checked
  rw [decide_eq_true_eq] at checked
  exact ⟨first, second, eq_ok_of_toOption firstReturned, eq_ok_of_toOption secondReturned, checked⟩

/-- A sidecar may change under one refreshed fingerprint. -/
theorem samplePicasa_unbound :
    ∃ first second, (Adapter.picasa .default .empty).Resolves .reference first ∧
      (Adapter.picasa .default .empty).Resolves .reference second ∧
      CollisionFree SourcePlatform.reference.toPlatform
        {(Adapter.picasa .default .empty).refreshedMessage first.plan,
          (Adapter.picasa .default .empty).refreshedMessage second.plan} ∧
      first.plan.source.fingerprintSha256 = second.plan.source.fingerprintSha256 ∧
      first.contents ≠ second.contents := by
  obtain ⟨first, second, firstReturned, secondReturned, message, contents⟩ := samplePicasa_same
  have firstResolves := samplePicasa_resolves (by decide +kernel) firstReturned
  have secondResolves := samplePicasa_resolves (by decide +kernel) secondReturned
  have alike := Adapter.Alike.picasa .default .empty .empty
  refine ⟨first, second, firstResolves, secondResolves, ?_, ?_, contents⟩
  · simp only [Adapter.refreshedMessage, message, Set.pair_eq_singleton]
    exact Set.injOn_singleton _ _
  · rw [firstResolves.fingerprint alike, secondResolves.fingerprint alike]
    simp only [Adapter.refreshedMessage, message]

/-- The sidecar of the sample folder is attached, so its fingerprint binds nothing of it. -/
theorem samplePicasa_bound_iff :
    ∃ resolved, samplePicasa 2 = .ok resolved ∧
      (resolved.Bound .reference (.picasa .default .empty) ↔
        ∀ asset ∈ resolved.plan.assets, asset.metadata = []) := by
  obtain ⟨resolved, _, returned, _⟩ := samplePicasa_same
  refine ⟨resolved, returned, ?_⟩
  apply Adapter.refreshedFingerprint_binds_iff SourcePlatform.reference_lawful
  · decide +kernel
  · exact .picasa .default .empty .empty
  · exact samplePicasa_resolves (by decide +kernel) returned

end ImmichRs
