import ImmichRs.Executor.Staging

/-!
# Staging of imported assets

An entry of an archive is read once more, under a temporary name, and renamed when its length and
both digests are the resolved ones.  The media comes first and its XMP sidecar second, so a sidecar
which fails takes the media with it.
-/

namespace ImmichRs

open Files Interaction Interaction.Program StagingProgram

/-- The staging directory of an import, with the limits of its archives. -/
structure ImportStaging where
  bufferBytes : Nat
  maxEntryBytes : Nat
  maxCompressionRatio : Nat
  compressionRatioGraceBytes : Nat
  deriving DecidableEq, Repr

/-- Where an asset is uploaded from: a file of the source, or one of the staging directory. -/
inductive AssetPath
  | native (path : String)
  | staged (name : String)
  deriving DecidableEq, Repr

/-- An asset which is ready to be uploaded. -/
structure PreparedImportAsset where
  mediaPath : AssetPath
  fileName : String
  sha1Base64 : String
  xmp : Option (AssetPath × UInt64)
  stagedPaths : List String
  deriving DecidableEq, Repr

/-- `Drop for PreparedImportAsset`. -/
def PreparedImportAsset.drop (asset : PreparedImportAsset) : StagingProgram Unit :=
  asset.stagedPaths.forM cleanUp

/-- `resolved_source`. -/
def resolvedSource (resolved : ResolvedFolderPlan) (portablePath : String) (byteLen : UInt64)
    (contentSha256 : String) : Except ExecutorError ResolvedSourceFile := do
  match resolved.sourceFile portablePath with
  | none => .error .invariant
  | some source =>
      reject (source.byteLen != byteLen || source.contentSha256 != contentSha256) .sourceChanged
      return source

namespace ImportStaging

/-- `portable_file_name`. -/
def portableFileName (path : String) : Except ExecutorError String :=
  match pathFileName path with
  | some value =>
      if value.isEmpty || containsChar value '/' || containsChar value '\\' then .error .invalidPlan
      else .ok value
  | none => .error .invalidPlan

section

variable (platform : SourcePlatform)

/-- `portable_entry_path`. -/
def portableEntryPath (entry : ZipEntry) : Except ExecutorError String := do
  reject (containsChar entry.name '\\' || containsChar entry.name '\x00' ||
    (splitOn entry.name '/').any fun component => component == "." || component == "..")
    .sourceChanged
  match platform.enclosedName entry.name with
  | none => .error .sourceChanged
  | some components => return "/".intercalate (components.map platform.nfc)

/-- `validate_entry`. -/
def validateEntry (staging : ImportStaging) (entry : ZipEntry) (expectedPath : String)
    (expectedLen : UInt64) : Except ExecutorError Unit := do
  let path ← portableEntryPath platform entry
  reject (!(path == expectedPath && !entry.encrypted && !entry.isSymlink && entry.isFile &&
    entry.compression != .other && entry.size == expectedLen.toNat &&
    decide (entry.size ≤ staging.maxEntryBytes) &&
    (decide (entry.size ≤ staging.compressionRatioGraceBytes) ||
      (decide (0 < entry.compressedSize) &&
        decide (entry.size / entry.compressedSize ≤ staging.maxCompressionRatio)))))
    .sourceChanged

end

/-- The loop of `stage_entry_inner`: what was given to both digests, and the count of its bytes. -/
def copyEntry (temporary : String) (byteLen : UInt64) :
    List Reading → List UInt8 → Nat → StagingProgram (List UInt8 × Nat)
  | [], hashed, observed => pure (hashed, observed)
  | .cancelled :: _, _, _ => throw .cancelled
  | .failed :: _, _, _ => throw .sourceChanged
  | .filled [] :: _, hashed, observed => pure (hashed, observed)
  | .filled (first :: bytes) :: rest, hashed, observed => do
      let observed := saturatingAddU64 observed (first :: bytes).length
      ofResult (reject (decide (byteLen.toNat < observed)) .sourceChanged)
      file (.write temporary (first :: bytes)) .destination
      copyEntry temporary byteLen rest (hashed ++ first :: bytes) observed

section

variable (platform : SourcePlatform)

/-- `stage_entry_inner`. -/
def stageEntryInner (staging : ImportStaging) (source : ResolvedSourceFile)
    (portablePath : String) (index : Nat) (temporary final : String) : StagingProgram Unit := do
  StagingProgram.checkCancelled
  StagingProgram.source (.realFile source.nativePath)
  StagingProgram.source (.openFile source.nativePath)
  let before ← metadata source.nativePath
  StagingProgram.source (.openArchive source.nativePath)
  let (entry, readings) ← openEntry source.nativePath index staging.bufferBytes
  ofResult (staging.validateEntry platform entry portablePath source.byteLen)
  file (.create temporary) .destination
  let (hashed, observed) ← copyEntry temporary source.byteLen readings [] 0
  let after ← metadata source.nativePath
  ofResult (reject (before != after || observed != source.byteLen.toNat ||
    platform.sha256 hashed != source.contentSha256 ||
    platform.sha1Base64 hashed != source.contentSha1Base64) .sourceChanged)
  file (.sync temporary) .destination
  file (.rename temporary final) .destination

/-- `stage_entry`. -/
def stageEntry (staging : ImportStaging) (source : ResolvedSourceFile)
    (portablePath operationId suffix : String) : StagingProgram String := do
  match source.archiveIndex with
  | none => throw .invariant
  | some index =>
      let final := stagedName operationId suffix
      let temporary := stagedName operationId (suffix ++ ".tmp")
      tryCatch (staging.stageEntryInner platform source portablePath index temporary final)
        fun error => do
          cleanUp temporary
          cleanUp final
          throw error
      return final

/-- The sidecar of an operation, staged after its media. -/
def stageSidecar (staging : ImportStaging) (operationId media : String)
    (sidecar : Option ResolvedSourceFile) (expected : Option UploadSidecar) :
    StagingProgram (Option (AssetPath × UInt64)) :=
  match sidecar, expected with
  | some source, some expected =>
      tryCatch
        (do
          let path ← staging.stageEntry platform source expected.relativePath operationId "xmp"
          return some (.staged path, source.byteLen))
        fun error => do
          cleanUp media
          throw error
  | none, none => return none
  | _, _ => throw .invariant

/-- The source of the sidecar which an operation names. -/
def resolvedSidecar (resolved : ResolvedFolderPlan) (operation : UploadOperation) :
    Except ExecutorError (Option ResolvedSourceFile) :=
  match operation.xmpSidecar with
  | none => .ok none
  | some expected => do
      let source ← resolvedSource resolved expected.relativePath expected.byteLen
        expected.contentSha256
      return some source

/-- `ImportStaging::prepare`. -/
def prepare (staging : ImportStaging) (resolved : ResolvedFolderPlan)
    (operation : UploadOperation) : StagingProgram PreparedImportAsset := do
  StagingProgram.checkCancelled
  let media ← ofResult (resolvedSource resolved operation.relativePath operation.byteLen
    operation.contentSha256)
  let sidecar ← ofResult (resolvedSidecar resolved operation)
  let archiveBacked := media.archiveIndex.isSome
  ofResult (reject (sidecar.any fun source => source.archiveIndex.isSome != archiveBacked)
    .invariant)
  let stagedBytes := saturatingAddU64 media.byteLen.toNat
    (sidecar.elim 0 fun source => source.byteLen.toNat)
  ofResult (reject (archiveBacked &&
    decide (min (staging.maxEntryBytes * 2) maxU64 < stagedBytes)) .invalidConfiguration)
  let fileName ← ofResult (portableFileName operation.relativePath)
  if archiveBacked then
    let mediaPath ← staging.stageEntry platform media operation.relativePath operation.operationId
      "media"
    let xmp ← staging.stageSidecar platform operation.operationId mediaPath sidecar
      operation.xmpSidecar
    let xmpPaths := xmp.toList.filterMap fun entry =>
      match entry.1 with
      | .staged path => some path
      | .native _ => none
    return { mediaPath := .staged mediaPath, fileName, sha1Base64 := media.contentSha1Base64, xmp
             stagedPaths := mediaPath :: xmpPaths }
  else
    return { mediaPath := .native media.nativePath, fileName
             sha1Base64 := media.contentSha1Base64
             xmp := sidecar.map fun source => (.native source.nativePath, source.byteLen)
             stagedPaths := [] }

end

end ImportStaging

/-! ## Names -/

/-- How many bytes an operation may write under each name. -/
def UploadOperation.plannedBytes (operation : UploadOperation) (name : String) : Nat :=
  if name = stagedName operation.operationId "media.tmp" then operation.byteLen.toNat
  else if name = stagedName operation.operationId "xmp.tmp" then
    operation.xmpSidecar.elim 0 fun sidecar => sidecar.byteLen.toNat
  else 0

theorem UploadOperation.plannedBytes_media (operation : UploadOperation) :
    operation.plannedBytes (stagedName operation.operationId ("media" ++ ".tmp")) =
      operation.byteLen.toNat := by
  have name : "media" ++ ".tmp" = "media.tmp" := by decide
  rw [name, plannedBytes, if_pos rfl]

theorem UploadOperation.plannedBytes_xmp {operation : UploadOperation} {sidecar : UploadSidecar}
    (named : operation.xmpSidecar = some sidecar) :
    operation.plannedBytes (stagedName operation.operationId ("xmp" ++ ".tmp")) =
      sidecar.byteLen.toNat := by
  have name : "xmp" ++ ".tmp" = "xmp.tmp" := by decide
  rw [name, plannedBytes, if_neg (stagedName_ne (by decide)), if_pos rfl, named]
  rfl

/-! ## Single entries -/

/-- A file has the planned length and both planned digests. -/
def StagedAs (platform : SourcePlatform) (content : List UInt8) (byteLen : UInt64)
    (sha256 sha1Base64 : String) : Prop :=
  content.length = byteLen.toNat ∧ platform.sha256 content = sha256 ∧
    platform.sha1Base64 content = sha1Base64

namespace ImportStaging

section

variable {platform : SourcePlatform} {staging : ImportStaging} {planned : String → Nat}
  {files : Contents String} {failed : ExecutorError → Contents String → Prop}

/-- Reading an entry writes what it hashes, and no more than the expected length. -/
theorem ends_copyEntry {temporary : String} {byteLen : UInt64} {readings : List Reading}
    {hashed : List UInt8} {observed : Nat} {ok : List UInt8 × Nat → Contents String → Prop}
    (planned_eq : planned temporary = byteLen.toNat) (present : files temporary = some hashed)
    (counted : observed = hashed.length) (small : hashed.length ≤ maxSigned)
    (slices : ∀ bytes, Reading.filled bytes ∈ readings → bytes.length ≤ maxSigned)
    (going : ∀ result, ok (result, result.length)
      (Function.update files temporary (some result)))
    (stopped : ∀ error content, failed error (Function.update files temporary content)) :
    Ends planned (copyEntry temporary byteLen readings hashed observed) files ok failed := by
  subst counted
  have returned : ok (hashed, hashed.length) files := by
    have unchanged := going hashed
    rwa [← present, Function.update_eq_self] at unchanged
  have stays : ∀ error, failed error files := by
    intro error
    have unchanged := stopped error (files temporary)
    rwa [Function.update_eq_self] at unchanged
  induction readings generalizing files hashed with
  | nil => exact returned
  | cons reading rest induction =>
      cases reading with
      | cancelled => exact stays _
      | failed => exact stays _
      | filled slice =>
      cases slice with
      | nil => exact returned
      | cons first bytes =>
          have slice := slices (first :: bytes) List.mem_cons_self
          have exact_ : saturatingAddU64 hashed.length (first :: bytes).length =
              (hashed ++ first :: bytes).length := by
            rw [List.length_append, saturatingAddU64]
            simp only [maxSigned, maxU64] at small slice ⊢
            omega
          rw [copyEntry, exact_]
          apply ends_bind
          apply ends_ofResult
          case refused => exact fun error _ => stays error
          case returned =>
            intro _ accepted
            rw [reject_eq_ok, decide_eq_false_iff_not, Nat.not_lt] at accepted
            apply ends_bind
            apply ends_write present (planned_eq ▸ accepted)
            case stopped => exact stopped _
            case going =>
              intro room
              have present := Function.update_self temporary
                (some (hashed ++ first :: bytes)) files
              apply induction present room
              case slices =>
                exact fun other member => slices other (List.mem_cons_of_mem _ member)
              case going =>
                intro result
                rw [Function.update_idem]
                exact going result
              case stopped =>
                intro error content
                rw [Function.update_idem]
                exact stopped error content
              case returned =>
                exact going _
              case stays =>
                exact fun error => stopped error _

/-- What is left of an entry which was staged under its final name. -/
theorem ends_stageEntryInner {source : ResolvedSourceFile} {portablePath : String} {index : Nat}
    {temporary final : String} {ok : Unit → Contents String → Prop}
    (planned_eq : planned temporary = source.byteLen.toNat)
    (going : ∀ content, StagedAs platform content source.byteLen source.contentSha256
        source.contentSha1Base64 →
      ok () (Function.update (Function.update files temporary none) final (some content)))
    (stopped : ∀ error after, Contents.AgreeOff [temporary, final] after files →
      failed error after) :
    Ends planned (staging.stageEntryInner platform source portablePath index temporary final) files
      ok failed := by
  have untouched := Contents.AgreeOff.refl [temporary, final] files
  have partly : ∀ content, Contents.AgreeOff [temporary, final]
      (Function.update files temporary content) files :=
    fun content => untouched.update List.mem_cons_self
  apply ends_bind
  apply ends_checkCancelled _ (stopped _ _ untouched)
  apply ends_bind
  apply ends_source _ (stopped _ _ untouched)
  apply ends_bind
  apply ends_source _ (stopped _ _ untouched)
  apply ends_bind
  apply ends_metadata _ (stopped _ _ untouched)
  intro before
  apply ends_bind
  apply ends_source _ (stopped _ _ untouched)
  apply ends_bind
  apply ends_openEntry _ (stopped _ _ untouched)
  intro entry readings slices
  apply ends_bind
  apply ends_ofResult _ fun error _ => stopped error _ untouched
  intro _ _
  apply ends_bind
  apply ends_create _ fun content => stopped _ _ (partly content)
  intro _
  apply ends_bind
  apply ends_copyEntry planned_eq (Function.update_self _ _ _) rfl (Nat.zero_le _)
  case slices =>
    exact fun bytes member => (slices bytes member).trans (Nat.min_le_right _ _)
  case stopped =>
    intro error content
    rw [Function.update_idem]
    exact stopped error _ (partly content)
  case going =>
    intro hashed
    rw [Function.update_idem]
    apply ends_bind
    apply ends_metadata _ (stopped _ _ (partly _))
    intro after
    apply ends_bind
    apply ends_ofResult _ fun error _ => stopped error _ (partly _)
    intro _ accepted
    rw [reject_eq_ok] at accepted
    simp only [Bool.or_eq_false_iff, bne_eq_false_iff_eq] at accepted
    obtain ⟨⟨⟨_, length⟩, sha256⟩, sha1⟩ := accepted
    apply ends_bind
    apply ends_sync _ (stopped _ _ (partly _))
    refine ends_rename ?_ (stopped _ _ (partly _)) ?_
    · have moved := going hashed ⟨length, sha256, sha1⟩
      rwa [Contents.rename, Function.update_self, Function.update_idem]
    · exact stopped _ _ ((partly _).rename List.mem_cons_self (by simp))

/-- A staged entry, or the files as they were. -/
theorem ends_stageEntry {source : ResolvedSourceFile} {index : Nat}
    {portablePath operationId suffix : String} {ok : String → Contents String → Prop}
    (backed : source.archiveIndex = some index)
    (planned_eq : planned (stagedName operationId (suffix ++ ".tmp")) = source.byteLen.toNat)
    (finalFree : files (stagedName operationId suffix) = none)
    (temporaryFree : files (stagedName operationId (suffix ++ ".tmp")) = none)
    (going : ∀ content, StagedAs platform content source.byteLen source.contentSha256
        source.contentSha1Base64 →
      ok (stagedName operationId suffix)
        (Function.update files (stagedName operationId suffix) (some content)))
    (stopped : ∀ error, failed error files) :
    Ends planned (staging.stageEntry platform source portablePath operationId suffix) files ok
      failed := by
  rw [stageEntry, backed]
  apply ends_bind
  apply ends_tryCatch
  apply ends_stageEntryInner planned_eq
  case going =>
    intro content staged
    have kept := going content staged
    rwa [← temporaryFree, Function.update_eq_self]
  case stopped =>
    intro error after agree
    apply ends_bind
    apply ends_cleanUp
    apply ends_bind
    apply ends_cleanUp
    apply ends_throw
    rw [agree.removed temporaryFree finalFree]
    exact stopped error

/-- A sidecar staged beside its media, or neither of them. -/
theorem ends_stageSidecar {source : ResolvedSourceFile} {expected : UploadSidecar}
    {operationId : String} {content : List UInt8}
    {ok : Option (AssetPath × UInt64) → Contents String → Prop} (backed : source.archiveIndex.isSome)
    (planned_eq : planned (stagedName operationId ("xmp" ++ ".tmp")) = source.byteLen.toNat)
    (mediaFree : files (stagedName operationId "media") = none)
    (xmpFree : files (stagedName operationId "xmp") = none)
    (temporaryFree : files (stagedName operationId ("xmp" ++ ".tmp")) = none)
    (going : ∀ sidecar, StagedAs platform sidecar source.byteLen source.contentSha256
        source.contentSha1Base64 →
      ok (some (.staged (stagedName operationId "xmp"), source.byteLen))
        (Function.update (Function.update files (stagedName operationId "media") (some content))
          (stagedName operationId "xmp") (some sidecar)))
    (stopped : ∀ error, failed error files) :
    Ends planned (staging.stageSidecar platform operationId (stagedName operationId "media")
      (some source) (some expected))
      (Function.update files (stagedName operationId "media") (some content)) ok failed := by
  obtain ⟨index, indexed⟩ := Option.isSome_iff_exists.mp backed
  rw [stageSidecar]
  apply ends_tryCatch
  apply ends_bind
  apply ends_stageEntry indexed planned_eq
  case finalFree => rwa [Function.update_of_ne (stagedName_ne (by decide))]
  case temporaryFree => rwa [Function.update_of_ne (stagedName_ne (by decide))]
  case going => exact fun sidecar staged => going sidecar staged
  case stopped =>
    intro error
    apply ends_bind
    apply ends_cleanUp
    apply ends_throw
    rw [Function.update_idem, ← mediaFree, Function.update_eq_self]
    exact stopped error

end

end ImportStaging

/-! ## Operations -/

theorem resolvedSource_eq_ok {resolved : ResolvedFolderPlan} {portablePath : String}
    {byteLen : UInt64} {contentSha256 : String} {source : ResolvedSourceFile} :
    resolvedSource resolved portablePath byteLen contentSha256 = .ok source ↔
      resolved.sourceFile portablePath = some source ∧ source.byteLen = byteLen ∧
        source.contentSha256 = contentSha256 := by
  unfold resolvedSource
  cases held : resolved.sourceFile portablePath with
  | none => simp
  | some found =>
      simp only [reject_bind_eq_ok, Bool.or_eq_false_iff, bne_eq_false_iff_eq,
        Option.some.injEq]
      constructor
      · rintro ⟨⟨length, digest⟩, made⟩
        obtain rfl := Except.ok.inj made
        exact ⟨rfl, length, digest⟩
      · rintro ⟨rfl, length, digest⟩
        exact ⟨⟨length, digest⟩, rfl⟩

/-- What a prepared asset of an archive is: its media and its sidecar are staged as planned. -/
structure ImportStaging.Staged (platform : SourcePlatform) (resolved : ResolvedFolderPlan)
    (operation : UploadOperation) (media : ResolvedSourceFile) (asset : PreparedImportAsset)
    (files : Contents String) : Prop where
  mediaPath : asset.mediaPath = .staged (stagedName operation.operationId "media")
  sha1Base64 : asset.sha1Base64 = media.contentSha1Base64
  media : ∃ content, files (stagedName operation.operationId "media") = some content ∧
    StagedAs platform content operation.byteLen operation.contentSha256 media.contentSha1Base64
  xmp : ∀ expected, operation.xmpSidecar = some expected → ∃ source content,
    resolved.sourceFile expected.relativePath = some source ∧
      asset.xmp = some (.staged (stagedName operation.operationId "xmp"), expected.byteLen) ∧
      files (stagedName operation.operationId "xmp") = some content ∧
      StagedAs platform content expected.byteLen expected.contentSha256 source.contentSha1Base64

namespace ImportStaging

section

variable {platform : SourcePlatform} {staging : ImportStaging} {resolved : ResolvedFolderPlan}
  {operation : UploadOperation} {media : ResolvedSourceFile} {root : Contents String}

/-- Preparing an asset of an archive stages it as planned. -/
theorem prepares (held : resolved.sourceFile operation.relativePath = some media)
    (backed : media.archiveIndex.isSome)
    (free : ∀ name ∈ stagedNames operation.operationId, root name = none) :
    Stages operation.plannedBytes (staging.prepare platform resolved operation)
      PreparedImportAsset.drop (Staged platform resolved operation media) root := by
  obtain ⟨index, indexed⟩ := Option.isSome_iff_exists.mp backed
  simp only [stagedNames, List.forall_mem_map, List.forall_mem_cons] at free
  obtain ⟨mediaFree, mediaTemporaryFree, xmpFree, xmpTemporaryFree, _⟩ := free
  have apart : stagedName operation.operationId "xmp" ≠ stagedName operation.operationId "media" :=
    stagedName_ne (by decide)
  apply ends_bind
  refine ends_checkCancelled ?_ rfl
  apply ends_bind
  refine ends_ofResult (fun found same => ?_) fun _ _ => rfl
  obtain ⟨listed, length, digest⟩ := resolvedSource_eq_ok.mp same
  obtain rfl := Option.some.inj (listed.symm.trans held)
  apply ends_bind
  refine ends_ofResult (fun sidecar sidecarFound => ?_) fun _ _ => rfl
  apply ends_bind
  refine ends_ofResult (fun _ uniform => ?_) fun _ _ => rfl
  apply ends_bind
  refine ends_ofResult (fun _ _ => ?_) fun _ _ => rfl
  apply ends_bind
  refine ends_ofResult (fun fileName _ => ?_) fun _ _ => rfl
  rw [if_pos backed]
  apply ends_bind
  refine ends_stageEntry indexed ?_ mediaFree mediaTemporaryFree ?_ fun _ => rfl
  · rw [operation.plannedBytes_media, length]
  · intro content staged
    rw [length, digest] at staged
    apply ends_bind
    cases named : operation.xmpSidecar with
    | none =>
        have missing : sidecar = none := by
          rw [resolvedSidecar, named] at sidecarFound
          exact (Except.ok.inj sidecarFound).symm
        rw [missing, stageSidecar]
        apply ends_pure
        apply ends_pure
        refine ⟨⟨rfl, rfl, ⟨content, Function.update_self _ _ _, staged⟩, ?_⟩, ?_⟩
        · intro expected other
          rw [named] at other
          cases other
        · apply ends_bind
          apply ends_cleanUp
          apply ends_pure
          rw [Function.update_idem, ← mediaFree, Function.update_eq_self]
    | some expected =>
        rw [resolvedSidecar, named, bind_eq_ok] at sidecarFound
        obtain ⟨source, resolvedAs, made⟩ := sidecarFound
        obtain rfl := Except.ok.inj made
        obtain ⟨sidecarHeld, sidecarLength, sidecarDigest⟩ := resolvedSource_eq_ok.mp resolvedAs
        rw [reject_eq_ok, Option.any_some, bne_eq_false_iff_eq] at uniform
        apply ends_stageSidecar (uniform.trans backed) _ mediaFree xmpFree xmpTemporaryFree
        case stopped => exact fun _ => rfl
        case going =>
          intro sidecar sidecarStaged
          rw [sidecarLength, sidecarDigest] at sidecarStaged
          apply ends_pure
          refine ⟨⟨rfl, rfl, ⟨content, ?_, staged⟩, ?_⟩, ?_⟩
          · rw [Function.update_of_ne apart.symm, Function.update_self]
          · intro other same
            rw [named] at same
            obtain rfl := Option.some.inj same
            rw [sidecarLength]
            exact ⟨source, sidecar, sidecarHeld, rfl, Function.update_self _ _ _, sidecarStaged⟩
          · apply ends_bind
            apply ends_cleanUp
            apply ends_bind
            apply ends_cleanUp
            apply ends_pure
            apply Contents.AgreeOff.removed _ mediaFree xmpFree
            exact ((Contents.AgreeOff.refl _ root).update List.mem_cons_self).update (by simp)
        rw [operation.plannedBytes_xmp named, sidecarLength]

end

end ImportStaging

end ImmichRs
