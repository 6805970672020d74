import ImmichRs.Sources.LivePhotos
import ImmichRs.Sources.Picasa

/-!
# Source adapters

From the state of a scan to its resolved plan, for each of the four sources.
-/

namespace ImmichRs

open Collections
open Std (ExtTreeMap)

/-- An asset without its normalized metadata and evidence. -/
def CandidateAsset.bare (asset : CandidateAsset) : CandidateAsset :=
  { asset with normalizedMetadata := none, evidence := [] }

theorem bare_addFact {α : Type} (fact : Option α) (rule outcome : String)
    (add : NormalizedMetadata → α → NormalizedMetadata)
    (current : NormalizedMetadata × CandidateAsset) :
    (addFact fact rule outcome add current).2.bare = current.2.bare := by
  rw [addFact.eq_def]
  split <;> rfl

theorem bare_applyMetadata (platform : SourcePlatform) (config : PicasaScanConfig)
    (document : Option PicasaDocument) (asset : CandidateAsset) :
    (asset.applyMetadata platform config document).bare = asset.bare := by
  have facts : (picasaFacts platform config document asset).2.bare = asset.bare := by
    simp only [picasaFacts, bare_addFact]
    rfl
  rw [CandidateAsset.applyMetadata]
  split
  · exact facts
  · exact facts

theorem bare_selectAlbum (config : ApplePhotosScanConfig) (asset : CandidateAsset) :
    (selectAlbum config asset).bare = asset.bare := by
  rw [selectAlbum]
  split <;> rfl

/-- A source adapter with its limits; Picasa also adds the documents of its directories. -/
inductive Adapter
  | folder (config : FolderScanConfig)
  | takeout (config : TakeoutScanConfig)
  | applePhotos (config : ApplePhotosScanConfig)
  | picasa (config : PicasaScanConfig) (documents : Documents)

/-- Whether a scan reads one directory or a set of ZIP files. -/
inductive SourceForm
  | directory | archives
  deriving DecidableEq, Repr

namespace Adapter

/-- The schema of an adapter's plans. -/
def schemaVersion : Adapter → Nat
  | folder _ => normalizedPlanSchemaVersion
  | takeout _ => normalizedPlanSchemaVersionV2
  | applePhotos _ => normalizedPlanSchemaVersionV3
  | picasa _ _ => normalizedPlanSchemaVersionV4

/-- The kind of an adapter's source. -/
def sourceKind : Adapter → SourceKind
  | folder _ => .folder
  | takeout _ => .googleTakeout
  | applePhotos _ => .applePhotos
  | picasa _ _ => .picasa

/-- The limits of the folder scan inside an adapter. -/
def scan : Adapter → FolderScanConfig
  | folder config => config
  | takeout config => config.scan
  | applePhotos config => config.scan
  | picasa config _ => config.scan

/-- The validation of an adapter's configuration. -/
def validate : Adapter → Except ScanError Unit
  | folder config => config.validate
  | takeout config => config.validate
  | applePhotos config => config.validate
  | picasa config _ => config.validate

section

variable (platform : SourcePlatform) (contents : String → Option (List UInt8))

/-- A scan with its sidecars matched, before completion. -/
def matched (adapter : Adapter) (state : ScanState) : ScanState :=
  match adapter with
  | takeout _ => takeoutState platform contents state
  | _ => reconcileSidecars state.prepare

/-- `reconcile_state`. -/
def reconcile (adapter : Adapter) (state : ScanState) : ScanState :=
  match adapter with
  | takeout _ => state.reconcileTakeout platform contents
  | _ => state.reconcile platform

theorem reconcile_eq (adapter : Adapter) (state : ScanState) :
    adapter.reconcile platform contents state =
      (adapter.matched platform contents state).complete platform := by
  cases adapter <;> rfl

/-- The plan of `finalize_plan`. -/
def normalized (adapter : Adapter) (label : String) (state : ScanState) : NormalizedPlan :=
  finalizePlan platform adapter.schemaVersion adapter.sourceKind label adapter.scan
    (adapter.reconcile platform contents state)

/-- What an adapter adds to a finalized plan. -/
def finish (adapter : Adapter) (plan : NormalizedPlan) : NormalizedPlan :=
  match adapter with
  | applePhotos config => plan.withAppleAlbums platform config
  | picasa config documents => plan.withPicasa platform config documents
  | _ => plan

/-- What an adapter adds to an asset of a finalized plan. -/
def finishAsset (adapter : Adapter) (asset : CandidateAsset) : CandidateAsset :=
  match adapter with
  | applePhotos config => selectAlbum config asset
  | picasa config documents =>
      asset.applyMetadata platform config documents.parsed[parent asset.relativePath]?
  | _ => asset

theorem assets_finish (adapter : Adapter) (plan : NormalizedPlan) :
    (adapter.finish platform plan).assets = plan.assets.map (adapter.finishAsset platform) := by
  cases adapter with
  | folder _ => exact (List.map_id plan.assets).symm
  | takeout _ => exact (List.map_id plan.assets).symm
  | applePhotos _ => rfl
  | picasa _ _ => rfl

/-- Finishing changes metadata and evidence only. -/
theorem bare_finishAsset (adapter : Adapter) (asset : CandidateAsset) :
    (adapter.finishAsset platform asset).bare = asset.bare := by
  cases adapter with
  | folder _ => rfl
  | takeout _ => rfl
  | applePhotos config => exact bare_selectAlbum config asset
  | picasa config documents => exact bare_applyMetadata platform config _ asset

/-- The end of a scan, from its state on.  An Apple directory is validated before its albums are
added, Apple archives only afterwards. -/
def resolve (adapter : Adapter) (form : SourceForm) (label : String) (state : ScanState) :
    Except ScanError ResolvedFolderPlan :=
  let files := resolvedFiles (adapter.reconcile platform contents state)
  let plan := adapter.normalized platform contents label state
  match adapter, form with
  | applePhotos config, .directory => do
      let resolved ← finishResolved platform plan files
      let plan ← finishPlan platform config resolved.plan
      return { resolved with plan }
  | applePhotos config, .archives => do
      let plan ← finishPlan platform config plan
      finishResolved platform plan files
  | picasa config documents, _ => do
      let resolved ← finishResolved platform plan files
      finishPicasa platform config documents resolved
  | _, _ => finishResolved platform plan files

end

end Adapter

theorem finishResolved_eq_ok {platform : SourcePlatform} {plan : NormalizedPlan}
    {files : ExtTreeMap String ResolvedSourceFile} {resolved : ResolvedFolderPlan} :
    finishResolved platform plan files = .ok resolved ↔
      plan.validate platform.toPlatform = .ok () ∧ resolved = { plan, files } := by
  rw [finishResolved, bind_eq_ok]
  simp only [mapError_eq_ok, pure, Except.pure, Except.ok.injEq]
  constructor
  · rintro ⟨⟨⟩, valid, rfl⟩
    exact ⟨valid, rfl⟩
  · rintro ⟨valid, rfl⟩
    exact ⟨(), valid, rfl⟩

theorem finishPlan_eq_ok {platform : SourcePlatform} {config : ApplePhotosScanConfig}
    {plan finished : NormalizedPlan} :
    finishPlan platform config plan = .ok finished ↔
      (plan.withAppleAlbums platform config).validate platform.toPlatform = .ok () ∧
        finished = plan.withAppleAlbums platform config := by
  rw [finishPlan, bind_eq_ok]
  simp only [mapError_eq_ok, pure, Except.pure, Except.ok.injEq]
  constructor
  · rintro ⟨⟨⟩, valid, rfl⟩
    exact ⟨valid, rfl⟩
  · rintro ⟨valid, rfl⟩
    exact ⟨(), valid, rfl⟩

theorem finishPicasa_eq_ok {platform : SourcePlatform} {config : PicasaScanConfig}
    {documents : Documents} {resolved finished : ResolvedFolderPlan} :
    finishPicasa platform config documents resolved = .ok finished ↔
      (resolved.plan.withPicasa platform config documents).validate platform.toPlatform =
        .ok () ∧
      finished = { resolved with plan := resolved.plan.withPicasa platform config documents } := by
  rw [finishPicasa, bind_eq_ok]
  simp only [mapError_eq_ok, pure, Except.pure, Except.ok.injEq]
  constructor
  · rintro ⟨⟨⟩, valid, rfl⟩
    exact ⟨valid, rfl⟩
  · rintro ⟨valid, rfl⟩
    exact ⟨(), valid, rfl⟩

/-- A resolved scan is the validated plan of its adapter, with the files of the reconciled state. -/
theorem Adapter.resolve_ok {platform : SourcePlatform} {contents : String → Option (List UInt8)}
    {adapter : Adapter} {form : SourceForm} {label : String} {state : ScanState}
    {resolved : ResolvedFolderPlan}
    (returned : adapter.resolve platform contents form label state = .ok resolved) :
    resolved.plan.validate platform.toPlatform = .ok () ∧
      resolved.plan = adapter.finish platform (adapter.normalized platform contents label state) ∧
      resolved.files = resolvedFiles (adapter.reconcile platform contents state) := by
  cases adapter with
  | folder config =>
      obtain ⟨valid, rfl⟩ := finishResolved_eq_ok.mp returned
      exact ⟨valid, rfl, rfl⟩
  | takeout config =>
      obtain ⟨valid, rfl⟩ := finishResolved_eq_ok.mp returned
      exact ⟨valid, rfl, rfl⟩
  | applePhotos config =>
      cases form with
      | directory =>
          simp only [Adapter.resolve, bind_eq_ok, finishResolved_eq_ok, finishPlan_eq_ok] at returned
          obtain ⟨_, ⟨_, rfl⟩, _, ⟨valid, rfl⟩, returned⟩ := returned
          obtain rfl := Except.ok.inj returned
          exact ⟨valid, rfl, rfl⟩
      | archives =>
          simp only [Adapter.resolve, bind_eq_ok, finishPlan_eq_ok, finishResolved_eq_ok] at returned
          obtain ⟨_, ⟨valid, rfl⟩, _, rfl⟩ := returned
          exact ⟨valid, rfl, rfl⟩
  | picasa config documents =>
      simp only [Adapter.resolve, bind_eq_ok, finishResolved_eq_ok, finishPicasa_eq_ok] at returned
      obtain ⟨_, ⟨_, rfl⟩, valid, rfl⟩ := returned
      exact ⟨valid, rfl, rfl⟩

end ImmichRs
