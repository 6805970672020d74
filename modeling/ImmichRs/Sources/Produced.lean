import ImmichRs.Sources.Archive

/-!
# What scans produce

Every media file and sidecar which discovery or an archive leaves in the scan state is as it was
read, under a path of bounded length: nothing is attached to it yet.  Both walks change the state in
seven ways only, so what these keep holds of every scan.
-/

namespace ImmichRs

open Collections
open Std (ExtTreeMap)

/-- A media file as it was read. -/
structure DiscoveredMedia.Fresh (platform : SourcePlatform) (media : DiscoveredMedia) : Prop where
  path : media.relativePath.isEmpty = false
  kind_eq : mediaKind platform media.relativePath = some media.kind
  content : ∃ bytes, media.byteLen = lengthOf bytes ∧ media.contentSha256 = platform.sha256 bytes
  metadata : media.metadata = []
  normalizedMetadata : media.normalizedMetadata = none
  livePhoto : media.livePhoto = none
  evidence : media.evidence = [regularMediaEvidence]

/-- A sidecar as it was read. -/
structure DiscoveredSidecar.Fresh (platform : SourcePlatform) (sidecar : DiscoveredSidecar) :
    Prop where
  path : sidecar.relativePath.isEmpty = false
  kind_eq : metadataKind platform sidecar.relativePath = some sidecar.kind
  content : ∃ bytes,
    sidecar.byteLen = lengthOf bytes ∧ sidecar.contentSha256 = platform.sha256 bytes
  document : ∀ document, sidecar.takeoutDocument = some document → ∃ bytes,
    parseBytes platform bytes (isAlbumDocument sidecar.relativePath) = .ok document

/-- A scan state whose files are as they were read. -/
structure ScanState.Fresh (platform : SourcePlatform) (state : ScanState) : Prop where
  media : ∀ media ∈ state.media, media.Fresh platform
  sidecars : ∀ sidecar ∈ state.sidecars, sidecar.Fresh platform

/-- The rules which diagnostics name. -/
def diagnosticRules : List String :=
  ["FS_UNREADABLE_FILE_V1", "FS_SOURCE_CHANGED_V1", "FS_PATH_LIMIT_EXCEEDED_V1",
    "FS_NON_UNICODE_PATH_V1", "FS_SYMLINK_SKIPPED_V1", "FS_SPECIAL_FILE_SKIPPED_V1",
    "FS_UNICODE_COLLISION_V1", "FS_CASE_COLLISION_V1", "FS_DUPLICATE_BASENAME_V1",
    "APPLE_EXPORT_NOISE_SKIPPED_V1", "ARCHIVE_TAKEOUT_DUPLICATE_IDENTICAL_V1",
    "ARCHIVE_APPLE_DUPLICATE_IDENTICAL_V1", "ARCHIVE_PICASA_DUPLICATE_IDENTICAL_V1",
    "ARCHIVE_TAKEOUT_PATH_CONFLICT_V1", "ARCHIVE_APPLE_PATH_CONFLICT_V1",
    "ARCHIVE_PICASA_PATH_CONFLICT_V1", "META_ORPHAN_SIDECAR_V1", "META_AMBIGUOUS_SIDECAR_V1",
    "META_GOOGLE_TAKEOUT_JSON_INVALID_V1", "META_GOOGLE_TAKEOUT_JSON_OVERSIZED_V1",
    "META_GOOGLE_TAKEOUT_AMBIGUOUS_V1", "META_GOOGLE_TAKEOUT_UNSUPPORTED_V1",
    "META_GOOGLE_TAKEOUT_CONFLICT_V1", "META_GOOGLE_TAKEOUT_CONTENT_ALIAS_V1",
    "META_GOOGLE_TAKEOUT_UNMATCHED_MEDIA_V1", "META_PICASA_INI_INVALID_V1"]

/-- The rules of the diagnostics which scanning adds; reconciliation adds those of the others. -/
def scanningRules : List String :=
  ["FS_UNREADABLE_FILE_V1", "FS_SOURCE_CHANGED_V1", "FS_PATH_LIMIT_EXCEEDED_V1",
    "FS_NON_UNICODE_PATH_V1", "FS_SYMLINK_SKIPPED_V1", "FS_SPECIAL_FILE_SKIPPED_V1",
    "APPLE_EXPORT_NOISE_SKIPPED_V1", "ARCHIVE_TAKEOUT_DUPLICATE_IDENTICAL_V1",
    "ARCHIVE_APPLE_DUPLICATE_IDENTICAL_V1", "ARCHIVE_PICASA_DUPLICATE_IDENTICAL_V1",
    "ARCHIVE_TAKEOUT_PATH_CONFLICT_V1", "ARCHIVE_APPLE_PATH_CONFLICT_V1",
    "ARCHIVE_PICASA_PATH_CONFLICT_V1"]

theorem mem_diagnosticRules_of_scanning {rule : String} (known : rule ∈ scanningRules) :
    rule ∈ diagnosticRules := by
  have every : ∀ rule ∈ scanningRules, rule ∈ diagnosticRules := by decide
  exact every rule known

/-- What every change of a scan keeps; its paths have at most `limit` bytes. -/
structure KeptByScanning (platform : SourcePlatform) (limit : Nat) (holds : ScanState → Prop) :
    Prop where
  new : holds .new
  count : ∀ {state} entriesSeen bytesRead, holds state → holds { state with entriesSeen, bytesRead }
  warn : ∀ {state rule code paths}, rule ∈ scanningRules → holds state →
    holds (state.warn (diagnostic rule code paths))
  fail : ∀ {state rule code paths}, rule ∈ scanningRules → holds state →
    holds (state.fail (diagnostic rule code paths))
  media : ∀ {state} {media : DiscoveredMedia}, media.Fresh platform →
    byteLen media.relativePath ≤ limit → holds state →
      holds { state with media := state.media ++ [media] }
  sidecar : ∀ {state} {sidecar : DiscoveredSidecar}, sidecar.Fresh platform →
    byteLen sidecar.relativePath ≤ limit → holds state →
      holds { state with sidecars := state.sidecars ++ [sidecar] }
  retract : ∀ {state} path, holds state → holds (state.retract path)

section

variable {platform : SourcePlatform} {limit : Nat} {holds : ScanState → Prop} {state : ScanState}

/-! ## Directories -/

namespace KeptByScanning

theorem streamedFile (kept : KeptByScanning platform limit holds) (held : holds state)
    (path : String) (file : RegularFile) (bytes : List UInt8) :
    holds (streamedFile state path file bytes) := by
  have counted := kept.count state.entriesSeen
    (min (state.bytesRead + bytes.length) (2 ^ 64 - 1)) held
  rw [ImmichRs.streamedFile]
  split
  · exact kept.fail (by decide) counted
  · exact counted

theorem processRegularFile (kept : KeptByScanning platform limit holds) (held : holds state)
    (native : String) {path : String} (named : path.isEmpty = false) (short : byteLen path ≤ limit)
    (file : RegularFile) : holds (processRegularFile platform native path file state) := by
  rw [ImmichRs.processRegularFile]
  split
  · exact held
  · exact kept.fail (by decide) held
  · rename_i kind bytes isMedia _
    apply kept.media _ short (kept.streamedFile held path file bytes)
    exact
      { path := named
        kind_eq := isMedia
        content := ⟨bytes, rfl, rfl⟩
        metadata := rfl
        normalizedMetadata := rfl
        livePhoto := rfl
        evidence := rfl }
  · rename_i kind bytes _ isSidecar _
    apply kept.sidecar _ short (kept.streamedFile held path file bytes)
    exact
      { path := named
        kind_eq := isSidecar
        content := ⟨bytes, rfl, rfl⟩
        document := fun document found => by cases found }

end KeptByScanning

theorem portablePath_ok {directory : String} {name : NativeName} {maxBytes : Nat} {path : String}
    (portable : portablePath platform directory name maxBytes = .ok path) :
    path.isEmpty = false ∧ byteLen path ≤ maxBytes := by
  rw [portablePath.eq_def] at portable
  split at portable
  · cases portable
  · dsimp only at portable
    split at portable
    · cases portable
    · rename_i nonempty
      split at portable
      · cases portable
      · rename_i short
        obtain rfl := Except.ok.inj portable
        exact ⟨by simpa using nonempty, by simpa using short⟩

namespace KeptByScanning

theorem processEntry {config : FolderScanConfig}
    (kept : KeptByScanning platform config.maxPathBytes holds) (held : holds state)
    (skipPath : String → Option String) (directory : PendingDirectory) (entry : ListedEntry)
    (directories : List PendingDirectory) :
    holds (processEntry platform config skipPath directory entry directories state).2 := by
  rw [ImmichRs.processEntry]
  split
  · exact kept.fail (by decide) held
  · rename_i error _ _
    cases error with
    | outsideRoot => exact kept.fail (by decide) held
    | nonUnicode => exact kept.fail (by decide) held
    | tooLong => exact kept.fail (by decide) held
  · rename_i path _ portable _
    split
    · exact kept.warn (by decide) held
    · obtain ⟨named, short⟩ := portablePath_ok portable
      rw [processNode.eq_def]
      split
      · exact held
      · exact kept.warn (by decide) held
      · exact kept.processRegularFile held _ named short _
      · exact kept.warn (by decide) held
      · exact held

theorem directoryEntries {final : ScanState} {config : FolderScanConfig}
    {directory : PendingDirectory} {entries : List ListedEntry}
    (kept : KeptByScanning platform limit holds) (held : holds state)
    (listed : directoryEntries platform config directory state = .ok (entries, final)) :
    holds final := by
  rw [ImmichRs.directoryEntries.eq_def] at listed
  split at listed
  · obtain ⟨_, rfl⟩ := Prod.mk.inj (Except.ok.inj listed)
    exact kept.fail (by decide) held
  · rename_i listing _
    rw [bind_eq_ok] at listed
    obtain ⟨read, looped, returned⟩ := listed
    obtain ⟨_, rfl⟩ := Prod.mk.inj (Except.ok.inj returned)
    apply foldlM_invariant (fun current : List ListedEntry × ScanState => holds current.2) _ held
      looped
    intro current entry next held stepped
    rw [readEntry.eq_def, reject_bind_eq_ok] at stepped
    obtain ⟨_, stepped⟩ := stepped
    split at stepped
    · obtain rfl := Except.ok.inj stepped
      exact held
    · obtain rfl := Except.ok.inj stepped
      exact kept.fail (by decide) held

theorem discoverLoop {final : ScanState} {config : FolderScanConfig}
    {skipPath : String → Option String} {pops : Nat} {directories : List PendingDirectory}
    (kept : KeptByScanning platform config.maxPathBytes holds) (held : holds state)
    (returned : discoverLoop platform config skipPath pops directories state = .ok final) :
    holds final := by
  induction pops generalizing directories state with
  | zero =>
      cases directories with
      | nil =>
          obtain rfl := Except.ok.inj returned
          exact held
      | cons directory rest => cases returned
  | succ pops induction =>
      cases directories with
      | nil =>
          obtain rfl := Except.ok.inj returned
          exact held
      | cons directory rest =>
          rw [ImmichRs.discoverLoop, bind_eq_ok] at returned
          obtain ⟨⟨entries, listed⟩, read, returned⟩ := returned
          rw [bind_eq_ok] at returned
          obtain ⟨⟨pushed, walked⟩, looped, returned⟩ := returned
          apply induction _ returned
          apply foldlM_invariant (fun current : List PendingDirectory × ScanState =>
            holds current.2) _ (kept.directoryEntries held read) looped
          intro current entry next held stepped
          rw [discoverEntry, reject_bind_eq_ok] at stepped
          obtain rfl := Except.ok.inj stepped.2
          exact kept.processEntry (kept.count (current.2.entriesSeen + 1) current.2.bytesRead held)
            skipPath directory entry current.1

/-- What every change keeps holds after discovery. -/
theorem discover {config : FolderScanConfig} {skipPath : String → Option String}
    {root : Option (List (Option (NativeName × Node)))}
    (kept : KeptByScanning platform config.maxPathBytes holds)
    (returned : discover platform config skipPath root = .ok state) : holds state :=
  kept.discoverLoop kept.new returned

end KeptByScanning

/-! ## Archives -/

/-- A copy which was read from an entry of its kind. -/
structure ReadEntry.Read (platform : SourcePlatform) (limit : Nat) (entry : ReadEntry) : Prop where
  path : entry.path.isEmpty = false
  short : ImmichRs.byteLen entry.path ≤ limit
  kind_eq : entryKind platform entry.path = some entry.identity.kind
  byteLen : entry.identity.byteLen = lengthOf entry.bytes
  content : entry.identity.contentSha256 = platform.sha256 entry.bytes

theorem mediaKind_of_entryKind {path : String} {kind : MediaKind}
    (isMedia : entryKind platform path = some (.media kind)) :
    mediaKind platform path = some kind := by
  rw [entryKind] at isMedia
  split at isMedia <;> simp_all

theorem metadataKind_of_entryKind {path : String} {kind : MetadataKind}
    (isSidecar : entryKind platform path = some (.sidecar kind)) :
    mediaKind platform path = none ∧ metadataKind platform path = some kind := by
  rw [entryKind] at isSidecar
  split at isSidecar <;> simp_all

theorem entryDocument_parsed {flavor : ArchiveFlavor} {entry : ReadEntry} {kind : MetadataKind}
    {document : TakeoutDocument}
    (parsed : (entryDocument platform flavor entry kind).1 = some document) :
    parseBytes platform entry.bytes (isAlbumDocument entry.path) = .ok document := by
  rw [entryDocument] at parsed
  split at parsed
  · cases parsed
  · split at parsed
    · cases parsed
    · split at parsed
      · rename_i found returned
        obtain rfl := Option.some.inj parsed
        exact returned
      · cases parsed

theorem KeptByScanning.keep (kept : KeptByScanning platform limit holds) (held : holds state)
    (flavor : ArchiveFlavor) {entry : ReadEntry} (read : entry.Read platform limit) :
    holds (state.keep platform flavor entry) := by
  rw [ScanState.keep]
  split
  · rename_i kind isMedia
    apply kept.media _ read.short held
    have found := read.kind_eq
    rw [isMedia] at found
    exact
      { path := read.path
        kind_eq := mediaKind_of_entryKind found
        content := ⟨entry.bytes, read.byteLen, read.content⟩
        metadata := rfl
        normalizedMetadata := rfl
        livePhoto := rfl
        evidence := rfl }
  · rename_i kind isSidecar
    apply kept.sidecar _ read.short held
    have found := read.kind_eq
    rw [isSidecar] at found
    exact
      { path := read.path
        kind_eq := (metadataKind_of_entryKind found).2
        content := ⟨entry.bytes, read.byteLen, read.content⟩
        document := fun document stored => ⟨entry.bytes, entryDocument_parsed stored⟩ }

theorem KeptByScanning.mergeEntry (kept : KeptByScanning platform limit holds)
    {flavor : ArchiveFlavor} {scan : ArchiveScan} {entry : ReadEntry} (held : holds scan.state)
    (read : entry.Read platform limit) :
    holds (mergeEntry platform flavor scan entry).state := by
  rw [ImmichRs.mergeEntry]
  split
  · split
    · cases flavor with
      | takeout => exact kept.warn (by decide) held
      | apple => exact kept.warn (by decide) held
      | picasa => exact kept.warn (by decide) held
    · have retracted := kept.retract entry.path held
      cases flavor with
      | takeout => exact kept.fail (by decide) retracted
      | apple => exact kept.fail (by decide) retracted
      | picasa => exact kept.fail (by decide) retracted
  · exact kept.keep held flavor read

/-- The copy of a finding is what its entry held. -/
def EntryFinding.Read (platform : SourcePlatform) (limit : Nat) (finding : EntryFinding) : Prop :=
  ∀ archive index path identity bytes, finding.copy = some (path, identity, bytes) →
    (ReadEntry.mk archive index path identity bytes).Read platform limit

theorem portableEntryPath_ok {entry : ZipEntry} {maxPathBytes : Nat} {path : String}
    (portable : portableEntryPath platform entry maxPathBytes = .ok path) :
    path.isEmpty = false ∧ byteLen path ≤ maxPathBytes := by
  rw [portableEntryPath, reject_bind_eq_ok] at portable
  obtain ⟨_, portable⟩ := portable
  split at portable
  · cases portable
  · dsimp only at portable
    rw [reject_bind_eq_ok] at portable
    obtain ⟨admitted, returned⟩ := portable
    obtain rfl := Except.ok.inj returned
    simpa using admitted

theorem findEntry_read {flavor : ArchiveFlavor} {limits : ArchiveLimits} {entry : ZipEntry}
    {finding : EntryFinding} (found : findEntry platform flavor limits entry = .ok finding) :
    finding.Read platform limits.scan.maxPathBytes := by
  have apple : findAppleEntry platform flavor limits entry = .ok finding →
      finding.Read platform limits.scan.maxPathBytes := by
    intro found
    rw [findAppleEntry, bind_eq_ok] at found
    obtain ⟨path, portable, found⟩ := found
    split at found
    · obtain rfl := Except.ok.inj found
      exact fun _ _ _ _ _ copy => by cases copy
    · split at found
      · obtain rfl := Except.ok.inj found
        exact fun _ _ _ _ _ copy => by cases copy
      · split at found
        · obtain rfl := Except.ok.inj found
          exact fun _ _ _ _ _ copy => by cases copy
        · rename_i kind isKind
          simp only [appleCopy, bind_eq_ok] at found
          obtain ⟨_, _, bytes, _, returned⟩ := found
          obtain rfl := Except.ok.inj returned
          intro _ _ _ _ _ copy
          obtain ⟨rfl, rfl, rfl⟩ := Option.some.inj copy
          obtain ⟨named, short⟩ := portableEntryPath_ok portable
          exact ⟨named, short, isKind, rfl, rfl⟩
  cases flavor with
  | apple => exact apple found
  | picasa => exact apple found
  | takeout =>
      rw [findEntry, findTakeoutEntry, bind_eq_ok] at found
      obtain ⟨path, portable, found⟩ := found
      split at found
      · obtain rfl := Except.ok.inj found
        exact fun _ _ _ _ _ copy => by cases copy
      · simp only [takeoutCopy, bind_eq_ok] at found
        obtain ⟨_, _, found⟩ := found
        split at found
        · obtain rfl := Except.ok.inj found
          exact fun _ _ _ _ _ copy => by cases copy
        · rename_i kind isKind
          rw [bind_eq_ok] at found
          obtain ⟨bytes, _, returned⟩ := found
          obtain rfl := Except.ok.inj returned
          intro _ _ _ _ _ copy
          obtain ⟨rfl, rfl, rfl⟩ := Option.some.inj copy
          obtain ⟨named, short⟩ := portableEntryPath_ok portable
          exact ⟨named, short, isKind, rfl, rfl⟩

theorem KeptByScanning.applyFinding (kept : KeptByScanning platform limit holds)
    {flavor : ArchiveFlavor} {scan : ArchiveScan} {finding : EntryFinding}
    (held : holds scan.state) (read : finding.Read platform limit) (archive : String)
    (index : Nat) : holds (applyFinding platform flavor archive index scan finding).state := by
  obtain ⟨layout, noise, copy⟩ := finding
  have skipped : ∀ path, holds (scan.state.warn (diagnostic "APPLE_EXPORT_NOISE_SKIPPED_V1"
      "known_apple_export_noise" [path])) := fun path =>
    kept.warn (by decide) held
  rw [ImmichRs.applyFinding.eq_def]
  dsimp only
  split
  · rename_i path identity bytes
    apply kept.mergeEntry _ (read archive index path identity bytes rfl)
    split
    · exact kept.count scan.state.entriesSeen _ (skipped _)
    · exact kept.count scan.state.entriesSeen _ held
  · split
    · exact skipped _
    · exact held

/-- What every change keeps holds after the archives were read. -/
theorem KeptByScanning.readArchives {flavor : ArchiveFlavor} {limits : ArchiveLimits}
    {parts : List ArchivePart} (kept : KeptByScanning platform limits.scan.maxPathBytes holds)
    (returned : readArchives platform flavor limits parts = .ok state) : holds state := by
  rw [ImmichRs.readArchives, bind_eq_ok] at returned
  obtain ⟨_, _, returned⟩ := returned
  rw [bind_eq_ok] at returned
  obtain ⟨scanned, looped, returned⟩ := returned
  rw [reject_bind_eq_ok] at returned
  obtain rfl := Except.ok.inj returned.2
  apply foldlM_invariant (fun scan : ArchiveScan => holds scan.state) _ kept.new looped
  intro scan part next held stepped
  rw [scanArchive.eq_def] at stepped
  split at stepped
  · cases stepped
  · cases stepped
  · rename_i entries _
    rw [reject_bind_eq_ok, bind_eq_ok] at stepped
    obtain ⟨_, read, inner, stepped⟩ := stepped
    rw [reject_bind_eq_ok] at stepped
    obtain rfl := Except.ok.inj stepped.2
    apply foldlM_invariant (fun scan : ArchiveScan => holds scan.state) _ held inner
    intro scan entry next held stepped
    rw [scanEntry.eq_def] at stepped
    split at stepped
    · cases stepped
    · rw [bind_eq_ok] at stepped
      obtain ⟨finding, found, returned⟩ := stepped
      obtain rfl := Except.ok.inj returned
      exact kept.applyFinding (kept.count (scan.state.entriesSeen + 1) scan.state.bytesRead held)
        (findEntry_read found) part.path entry.2

/-! ## Files as they were read -/

theorem ScanState.Fresh.keptByScanning (limit : Nat) :
    KeptByScanning platform limit (ScanState.Fresh platform) :=
  { new := ⟨by simp [ScanState.new], by simp [ScanState.new]⟩
    count := fun _ _ fresh => ⟨fresh.media, fresh.sidecars⟩
    warn := fun _ fresh => ⟨fresh.media, fresh.sidecars⟩
    fail := fun _ fresh => ⟨fresh.media, fresh.sidecars⟩
    media := fun added _ fresh => ⟨fun other member =>
      (List.mem_append.mp member).elim (fresh.media other) fun last =>
        List.mem_singleton.mp last ▸ added, fresh.sidecars⟩
    sidecar := fun added _ fresh => ⟨fresh.media, fun other member =>
      (List.mem_append.mp member).elim (fresh.sidecars other) fun last =>
        List.mem_singleton.mp last ▸ added⟩
    retract := fun _ fresh => ⟨fun media member => fresh.media media (List.mem_filter.mp member).1,
      fun sidecar member => fresh.sidecars sidecar (List.mem_filter.mp member).1⟩ }

end

end ImmichRs
