import ImmichRs.Executor.Operation

/-!
# Local checks of planned effects

The client repeats, in its own words, rules which the plan validator has already applied.  An
accepted plan passes them all except where the two sets of rules differ: slashes in album names,
and file names which are empty or hold a backslash.
-/

namespace ImmichRs

/-- A source prepared for an operation: its file name is the last path component, its sidecar has
the planned length and its digest the length of a SHA-1 in base 64. -/
structure PreparedFor (operation : UploadOperation) (source : VerifiedAsset) : Prop where
  fileName : source.fileName = filename operation.relativePath
  sha1 : byteLen source.sha1Base64 = 28
  xmp : source.xmp.map Prod.snd = operation.xmpSidecar.map UploadSidecar.byteLen

/-- Every effect of an operation passes the checks which precede its request. -/
structure PassesLocalChecks (platform : Platform) (operation : UploadOperation) : Prop where
  albums : ∀ name ∈ operation.albums, validateAlbumName name = .ok ()
  metadata : ∀ metadata ∈ operation.normalizedMetadata, hasAssignment metadata = true →
    ∃ request, metadataRequest platform metadata = .ok request
  upload : ∀ source, PreparedFor operation source → ∀ livePhotoVideoId : Option String,
    (∀ id ∈ livePhotoVideoId, id.isEmpty = false ∧ byteLen id ≤ 4096) →
      validateUploadRequest (uploadRequest operation source livePhotoVideoId) = .ok ()

/-- The client accepts a plan's album name exactly when it has no slash. -/
theorem validateAlbumName_ok_iff {name : String} (valid : validAlbum name = true) :
    validateAlbumName name = .ok () ↔ containsChar name '/' = false := by
  simp only [validAlbum, Bool.and_eq_true, Bool.not_eq_true', decide_eq_true_eq] at valid
  obtain ⟨⟨⟨nonempty, short⟩, backslash⟩, control⟩ := valid
  simp [validateAlbumName, nonempty, short, backslash, control]

theorem containsChar_layout (character : Char) :
    containsChar "\n\r\t" character = isLayout character := by
  simp only [containsChar, isLayout, show "\n\r\t".toList = ['\n', '\r', '\t'] by decide,
    List.contains_cons, List.contains_nil, Bool.or_false, Bool.or_assoc]

theorem metadataTextRejected_of_isValid {platform : Platform} {metadata : NormalizedMetadata}
    (valid : metadata.isValid platform = true) :
    metadataTextRejected platform metadata = false := by
  simp only [NormalizedMetadata.isValid, Bool.and_eq_true, Option.all_eq_true] at valid
  obtain ⟨⟨⟨⟨description, timestamp⟩, _⟩, _⟩, _⟩ := valid
  simp only [metadataTextRejected, Bool.or_eq_false_iff, Option.any_eq_false, containsChar_layout]
  refine ⟨fun value member => ?_, fun value member => ?_⟩
  · have text := description value member
    simp only [validText, Bool.and_eq_true, Bool.not_eq_true', Bool.true_and, decide_eq_true_eq]
      at text
    obtain ⟨⟨⟨nonempty, short⟩, control⟩, _⟩ := text
    exact ⟨⟨nonempty, by simpa using short⟩, control⟩
  · simp [timestamp value member]

theorem requestCoordinates_of_isValid {platform : Platform} {location : GeoCoordinates}
    (valid : location.isValid platform = true) :
    ∃ latitude longitude,
      requestCoordinates platform (some location) = .ok (some latitude, some longitude) := by
  simp only [GeoCoordinates.isValid, Bool.and_eq_true, decimalInRange] at valid
  cases latitude : platform.parseF64 location.latitude with
  | none => simp [latitude] at valid
  | some first =>
      cases longitude : platform.parseF64 location.longitude with
      | none => simp [longitude] at valid
      | some second =>
          simp only [latitude, longitude, Bool.and_eq_true] at valid
          obtain ⟨⟨⟨finite, range⟩, _⟩, ⟨finite', range'⟩, _⟩ := valid
          exact ⟨first, second, by
            simp [requestCoordinates, latitude, longitude, finite, finite', range, range']⟩

/-- Every valid metadata block with an assignment makes a request. -/
theorem metadataRequest_of_isValid {platform : Platform} {metadata : NormalizedMetadata}
    (valid : metadata.isValid platform = true) (assigned : hasAssignment metadata = true) :
    ∃ request, metadataRequest platform metadata = .ok request := by
  have text := metadataTextRejected_of_isValid valid
  cases location : metadata.location with
  | none =>
      simp only [hasAssignment, location, Option.isSome_none, Bool.or_false] at assigned
      have present : (metadata.takenAtUtc.isSome || metadata.description.isSome) = true := by
        rwa [Bool.or_comm]
      simp [metadataRequest, text, location, requestCoordinates, reject, protocolCheck, present,
        bind, Except.bind, pure, Except.pure]
  | some coordinates =>
      have valid : coordinates.isValid platform = true := by
        simp only [NormalizedMetadata.isValid, Bool.and_eq_true, Option.all_eq_true] at valid
        exact valid.1.1.2 coordinates location
      obtain ⟨latitude, longitude, sent⟩ := requestCoordinates_of_isValid valid
      simp [metadataRequest, text, location, sent, reject, protocolCheck, bind, Except.bind, pure,
        Except.pure]

theorem isEmpty_of_byteLen {value : String} {length : Nat} (measured : byteLen value = length + 1) :
    value.isEmpty = false := by
  rw [Bool.eq_false_iff, ne_eq, String.isEmpty_iff]
  rintro rfl
  simp [byteLen] at measured

/-- The checks of an upload request, given a prepared source and a usable video id. -/
theorem validateUploadRequest_ok_iff {platform : Platform} {operation : UploadOperation}
    (valid : operation.Valid platform) {source : VerifiedAsset}
    (prepared : PreparedFor operation source) {livePhotoVideoId : Option String}
    (usable : ∀ id ∈ livePhotoVideoId, id.isEmpty = false ∧ byteLen id ≤ 4096) :
    validateUploadRequest (uploadRequest operation source livePhotoVideoId) = .ok () ↔
      (filename operation.relativePath).isEmpty = false ∧
        containsChar (filename operation.relativePath) '\\' = false := by
  have operationId : operation.operationId.isEmpty = false := by
    have length := valid.operationId
    simp only [isSha256, Bool.and_eq_true, beq_iff_eq] at length
    exact isEmpty_of_byteLen length.1
  have slash : containsChar (filename operation.relativePath) '/' = false := by
    simpa [containsChar] using slash_not_mem_filename operation.relativePath
  have sha1 : source.sha1Base64.isEmpty = false := isEmpty_of_byteLen prepared.sha1
  have media : 0 < operation.byteLen := UInt64.pos_iff_ne_zero.mpr valid.length
  have sidecar : (source.xmp.all fun sidecar => decide (0 < sidecar.2)) = true := by
    rw [Option.all_eq_true]
    intro sidecar member
    have planned := prepared.xmp
    rw [Option.mem_def.mp member, Option.map_some] at planned
    obtain ⟨expected, found, length⟩ := Option.map_eq_some_iff.mp planned.symm
    have positive := (valid.sidecar expected found).2.1
    rw [length] at positive
    exact decide_eq_true (UInt64.pos_iff_ne_zero.mpr positive)
  have video : (livePhotoVideoId.all fun id =>
      !id.isEmpty && decide (byteLen id ≤ 4096)) = true := by
    simpa [Option.all_eq_true] using usable
  simp [validateUploadRequest, uploadRequest, operationId, prepared.fileName, slash, media, sha1,
    prepared.sha1, video, sidecar]

/-- A source which the executor could prepare for an operation. -/
def preparedSource (operation : UploadOperation) : VerifiedAsset :=
  { mediaPath := operation.relativePath
    fileName := filename operation.relativePath
    sha1Base64 := "2jmj7l5rSw0yVb/vlWAYkK/YBwk="
    xmp := operation.xmpSidecar.map fun sidecar => (sidecar.relativePath, sidecar.byteLen) }

theorem preparedFor_preparedSource (operation : UploadOperation) :
    PreparedFor operation (preparedSource operation) where
  fileName := rfl
  sha1 := show byteLen "2jmj7l5rSw0yVb/vlWAYkK/YBwk=" = 28 by decide
  xmp := by
    rw [preparedSource, Option.map_map]
    rfl

/-- A Picasa plan whose only album is a joined folder path. -/
def joinedAlbumPlan : UploadPlan :=
  samplePlan .picasa
    [sampleOperation 'a' "Trips/Rome/a.jpg" .image .standalone
      (some { NormalizedMetadata.empty with albums := ["Trips / Rome"] })]

theorem joinedAlbumPlan_validate :
    joinedAlbumPlan.validate .reference = .ok () := by
  refine samplePlan_validate _ _ _ ?_ (by simp) (by simp) (by simp) ?_
  · rw [List.forall_mem_singleton]
    refine sampleOperation_valid _ _ _ _ ?_
    rintro _ ⟨⟩
    decide
  · simp [sampleOperation]

/-- A Picasa plan whose only album is a plain title. -/
def plainAlbumPlan : UploadPlan :=
  samplePlan .picasa
    [sampleOperation 'a' "Trips/Rome/a.jpg" .image .standalone
      (some { NormalizedMetadata.empty with albums := ["Rome"] })]

end ImmichRs
