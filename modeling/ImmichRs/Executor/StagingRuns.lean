import ImmichRs.Executor.ImportStaging
import ImmichRs.Executor.MigrationStaging

/-!
# Runs of both stagings

The staging root is created empty, and an operation is dropped before the next is prepared.  So every
preparation finds none of its own files there, and it leaves none.
-/

namespace ImmichRs

open Files Interaction StagingProgram Std

/-- The directory which `open` creates. -/
def freshRoot : Contents String := fun _ => none

/-- A succession of imported operations which are entries of archives leaves nothing behind. -/
theorem importsInTurn_leave_nothing {platform : SourcePlatform} {staging : ImportStaging}
    {resolved : ResolvedFolderPlan} {operations : List UploadOperation}
    (backed : ∀ operation ∈ operations, ∃ media,
      resolved.sourceFile operation.relativePath = some media ∧ media.archiveIndex.isSome) :
    Program.Ends stagingEnvironment (fun _ _ _ => True)
      (inTurn (staging.prepare platform resolved) PreparedImportAsset.drop operations) freshRoot
      (fun _ after => after = freshRoot) fun _ after => after = freshRoot := by
  apply ends_inTurn
  case planned => exact UploadOperation.plannedBytes
  case staged =>
    exact fun operation asset files => ∃ media,
      ImportStaging.Staged platform resolved operation media asset files
  case each =>
    intro operation member
    obtain ⟨media, held, indexed⟩ := backed operation member
    apply (ImportStaging.prepares held indexed fun _ _ => rfl).mono (fun _ _ _ => id) _ fun _ _ => id
    exact fun asset after ends => ⟨⟨media, ends.1⟩, ends.2⟩

/-- A succession of migrated assets leaves nothing behind. -/
theorem migrationsInTurn_leave_nothing {platform : Platform} {staging : MigrationStaging}
    {assets : List MigrationAsset} :
    Program.Ends stagingEnvironment (fun _ _ _ => True)
      (inTurn (staging.prepare platform) PreparedMigrationAsset.drop assets) freshRoot
      (fun _ after => after = freshRoot) fun _ after => after = freshRoot := by
  apply ends_inTurn
  exact fun asset _ => MigrationStaging.prepares fun _ _ => rfl

/-- Whatever the readings, the downloads and the failures are, a preparation never writes more than
planned, its asset is exactly the planned one, and nothing of a failed or dropped one is left. -/
theorem stagings_exact (platform : SourcePlatform) :
    (∀ (staging : ImportStaging) (resolved : ResolvedFolderPlan) (operation : UploadOperation)
      (media : ResolvedSourceFile) (root : Contents String),
      resolved.sourceFile operation.relativePath = some media → media.archiveIndex.isSome →
        (∀ name ∈ stagedNames operation.operationId, root name = none) →
          Stages operation.plannedBytes (staging.prepare platform resolved operation)
            PreparedImportAsset.drop
            (ImportStaging.Staged platform resolved operation media) root) ∧
      ∀ (staging : MigrationStaging) (asset : MigrationAsset) (root : Contents String),
        (∀ name ∈ stagedNames asset.operationId, root name = none) →
          Stages asset.plannedBytes (staging.prepare platform.toPlatform asset)
            PreparedMigrationAsset.drop
            (MigrationStaging.Staged platform.toPlatform asset) root :=
  ⟨fun _ _ _ _ _ held backed free => ImportStaging.prepares held backed free,
    fun _ _ _ free => MigrationStaging.prepares free⟩

/-! ### A photo with its sidecar -/

/-- An entry of an archive. -/
def sampleArchived (index : Nat) (digit : Char) : ResolvedSourceFile :=
  { nativePath := "/takeout.zip", archiveIndex := some index, byteLen := 1
    contentSha256 := digestOf digit, contentSha1Base64 := Sha1.base64 [], createdAtUnixMs := none
    modifiedAtUnixMs := none }

/-- A resolved plan whose two files are entries of one archive. -/
def sampleResolved : ResolvedFolderPlan :=
  { plan :=
      { schemaVersion := normalizedPlanSchemaVersion
        source :=
          { kind := .googleTakeout, label := "takeout", fingerprintSha256 := digestOf '0'
            caseSensitive := true, unicodeNormalization := .nfc }
        assets := [], warnings := [], errors := []
        summary := { assets := 0, sidecars := 0, bytesRead := 0 } }
    files := (∅ : ExtTreeMap String ResolvedSourceFile).insert "a.jpg" (sampleArchived 0 'a')
      |>.insert "a.xmp" (sampleArchived 1 'b') }

/-- A photo with its sidecar. -/
def sampleImported : UploadOperation :=
  { sampleOperation 'a' "a.jpg" .image .standalone none with
    xmpSidecar := some { relativePath := "a.xmp", byteLen := 1, contentSha256 := digestOf 'b' } }

/-- A migrated photo. -/
def sampleMigrated : MigrationAsset :=
  { sourceAssetId := "00000000-0000-4000-8000-000000000001", operationId := digestOf 'c'
    originalFileName := "c.jpg", mediaKind := .image, byteLen := 1
    checksumSha1 := String.ofList (List.replicate 40 'c'), contentSha256 := digestOf 'c'
    createdAtUnixMs := 0, modifiedAtUnixMs := 0, normalizedMetadata := none, role := .standalone }

theorem sampleStagings_exact :
    Stages sampleImported.plannedBytes
        (ImportStaging.prepare SourcePlatform.reference ⟨4096, 1024, 10, 64⟩ sampleResolved
          sampleImported)
        PreparedImportAsset.drop
        (ImportStaging.Staged SourcePlatform.reference sampleResolved sampleImported
          (sampleArchived 0 'a')) freshRoot ∧
      Stages sampleMigrated.plannedBytes
        (MigrationStaging.prepare SourcePlatform.reference.toPlatform ⟨1024⟩ sampleMigrated)
        PreparedMigrationAsset.drop
        (MigrationStaging.Staged SourcePlatform.reference.toPlatform sampleMigrated) freshRoot := by
  obtain ⟨imported, migrated⟩ := stagings_exact SourcePlatform.reference
  have held : sampleResolved.sourceFile sampleImported.relativePath = some (sampleArchived 0 'a') := by
    rw [ResolvedFolderPlan.sourceFile, sampleResolved, ExtTreeMap.getElem?_insert]
    rw [if_neg (by decide), sampleImported, sampleOperation, ExtTreeMap.getElem?_insert_self]
  exact ⟨imported _ _ _ _ _ held rfl fun _ _ => rfl, migrated _ _ _ fun _ _ => rfl⟩

end ImmichRs
