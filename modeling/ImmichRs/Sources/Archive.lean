import ImmichRs.Sources.Discovery

/-!
# Archives

Sets of ZIP files as one source: the checks of their entries, and the merge of entries which share
a portable path.
-/

namespace ImmichRs

open Collections
open Std (ExtTreeMap)

/-! ## ZIP files -/

/-- How an entry is compressed. -/
inductive CompressionMethod
  | stored | deflated | other
  deriving DecidableEq, Repr

/-- The time stamp of an entry. -/
structure ZipDateTime where
  year : Nat
  month : Nat
  day : Nat
  hour : Nat
  minute : Nat
  second : Nat
  deriving DecidableEq, Repr

/-- An entry of a ZIP file. -/
structure ZipEntry where
  name : String
  isDir : Bool
  isSymlink : Bool
  encrypted : Bool
  compression : CompressionMethod
  size : Nat
  compressedSize : Nat
  lastModified : Option ZipDateTime
  /-- The bytes which reading gives, unless they cannot be read or verified. -/
  content : Option (List UInt8)

/-- `ZipFile::is_file`. -/
def ZipEntry.isFile (entry : ZipEntry) : Bool := !entry.isDir && !entry.isSymlink

/-- What opening an input gives. -/
inductive ArchiveContent
  /-- The file cannot be opened. -/
  | closed
  /-- The directory of the archive is malformed. -/
  | malformed
  /-- The entries; one which cannot be opened is absent. -/
  | readable (entries : List (Option ZipEntry))

/-- One input of an archive scan. -/
structure ArchivePart where
  path : String
  /-- Its metadata can be read. -/
  present : Bool
  /-- A regular file which is no symbolic link. -/
  isRegular : Bool
  content : ArchiveContent
  /-- Its metadata changed while it was read. -/
  changed : Bool

section

variable (platform : SourcePlatform)

/-- `validate_inputs` of one input. -/
def validateInput (part : ArchivePart) : Except ScanError Unit := do
  reject (!part.present) (.invalidArchive "archive is not readable")
  reject (!part.isRegular ||
    !(match (pathFileName part.path).bind fun name => rsplitOnce name '.' with
      | some (stem, suffix) => !stem.isEmpty && eqIgnoreAsciiCase suffix "zip"
      | none => false)) (.invalidArchive "inputs must be non-symlink ZIP files")

/-- `validate_inputs`. -/
def validateInputs (parts : List ArchivePart) (maxArchives : Nat) : Except ScanError Unit := do
  reject (parts.isEmpty || decide (maxArchives < parts.length)) (.limitExceeded "max_archives")
  parts.forM validateInput

/-- `portable_entry_path`. -/
def portableEntryPath (entry : ZipEntry) (maxPathBytes : Nat) : Except ScanError String := do
  reject (containsChar entry.name '\\' || containsChar entry.name '\x00' ||
    (splitOn entry.name '/').any fun component => component == "." || component == "..")
    (.invalidArchive "unsafe ZIP entry path")
  match platform.enclosedName entry.name with
  | none => .error (.invalidArchive "unsafe ZIP entry path")
  | some components =>
      let path := "/".intercalate (components.map platform.nfc)
      reject (path.isEmpty || decide (maxPathBytes < byteLen path)) (.limitExceeded "max_path_bytes")
      return path

/-- `validate_entry`. -/
def validateEntry (entry : ZipEntry) (maxEntryBytes maxCompressionRatio ratioGraceBytes : Nat) :
    Except ScanError Unit := do
  reject (entry.encrypted || entry.isSymlink || !entry.isFile)
    (.invalidArchive "encrypted or non-regular ZIP entry")
  reject (entry.compression == .other) (.invalidArchive "unsupported ZIP compression method")
  reject (decide (maxEntryBytes < entry.size)) (.limitExceeded "max_archive_entry_bytes")
  reject (decide (ratioGraceBytes < entry.size) &&
    (entry.compressedSize == 0 ||
      decide (maxCompressionRatio < entry.size / entry.compressedSize)))
    (.invalidArchive "ZIP entry compression ratio exceeded")

/-- `stream_entry`. -/
def streamEntry (entry : ZipEntry) : Except ScanError (List UInt8) :=
  match entry.content with
  | none => .error (.invalidArchive "cannot read or verify ZIP entry")
  | some bytes => do
      reject (decide (bytes.length ≠ entry.size)) (.invalidArchive "ZIP entry size mismatch")
      return bytes

/-- `zip_unix_ms`. -/
def zipUnixMs (value : Option ZipDateTime) : Option Int := do
  let stamp ← value
  let instant ← platform.fromCalendar stamp.year stamp.month stamp.day stamp.hour stamp.minute
    stamp.second
  let millis := (platform.unixTimestampNanos instant).tdiv 1000000
  if -(2 ^ 63) ≤ millis ∧ millis < 2 ^ 63 then some millis else none

/-! ## Merging -/

/-- What an entry is read as. -/
inductive EntryKind
  | media (kind : MediaKind)
  | sidecar (kind : MetadataKind)
  deriving DecidableEq, Repr

/-- The family of an entry, by its path. -/
def entryKind (path : String) : Option EntryKind :=
  match mediaKind platform path, metadataKind platform path with
  | some kind, _ => some (.media kind)
  | none, some kind => some (.sidecar kind)
  | none, none => none

/-- `EntryIdentity`; a Takeout entry has no time. -/
structure EntryIdentity where
  kind : EntryKind
  byteLen : UInt64
  contentSha256 : String
  contentSha1Base64 : String
  modifiedAtUnixMs : Option Int
  deriving DecidableEq

/-- The adapters which read archives. -/
inductive ArchiveFlavor
  | takeout | apple | picasa
  deriving DecidableEq, Repr

/-- The warning about a second copy which is identical. -/
def ArchiveFlavor.duplicate (flavor : ArchiveFlavor) (path : String) : PlanDiagnostic :=
  match flavor with
  | .takeout =>
      diagnostic "ARCHIVE_TAKEOUT_DUPLICATE_IDENTICAL_V1" "identical_takeout_archive_entry" [path]
  | .apple => diagnostic "ARCHIVE_APPLE_DUPLICATE_IDENTICAL_V1" "identical_archive_entry" [path]
  | .picasa => diagnostic "ARCHIVE_PICASA_DUPLICATE_IDENTICAL_V1" "identical_archive_entry" [path]

/-- The error about a second copy which differs. -/
def ArchiveFlavor.conflict (flavor : ArchiveFlavor) (path : String) : PlanDiagnostic :=
  match flavor with
  | .takeout =>
      diagnostic "ARCHIVE_TAKEOUT_PATH_CONFLICT_V1" "conflicting_takeout_archive_entry" [path]
  | .apple => diagnostic "ARCHIVE_APPLE_PATH_CONFLICT_V1" "conflicting_archive_entry" [path]
  | .picasa => diagnostic "ARCHIVE_PICASA_PATH_CONFLICT_V1" "conflicting_archive_entry" [path]

/-- The state of an archive scan. -/
structure ArchiveScan where
  state : ScanState
  /-- The identity of each path, or nothing once its copies conflict. -/
  seen : ExtTreeMap String (Option EntryIdentity)
  layoutFound : Bool

/-- An entry which was read. -/
structure ReadEntry where
  archive : String
  index : Nat
  path : String
  identity : EntryIdentity
  bytes : List UInt8

/-- The media file of an entry. -/
def ReadEntry.media (entry : ReadEntry) (kind : MediaKind) : DiscoveredMedia :=
  { nativePath := entry.archive
    archiveIndex := some entry.index
    relativePath := entry.path
    kind
    byteLen := entry.identity.byteLen
    contentSha256 := entry.identity.contentSha256
    contentSha1Base64 := entry.identity.contentSha1Base64
    createdAtUnixMs := entry.identity.modifiedAtUnixMs
    modifiedAtUnixMs := entry.identity.modifiedAtUnixMs
    metadata := []
    normalizedMetadata := none
    livePhoto := none
    evidence := [regularMediaEvidence] }

/-- The Takeout document of an entry, read while the archive is open. -/
def entryDocument (flavor : ArchiveFlavor) (entry : ReadEntry) (kind : MetadataKind) :
    Option TakeoutDocument × Option ParseError :=
  if flavor ≠ .takeout ∨ kind ≠ .json then
    (none, none)
  else if maxJsonBytes < entry.identity.byteLen.toNat then
    (none, some .oversized)
  else
    match parseBytes platform entry.bytes (isAlbumDocument entry.path) with
    | .ok document => (some document, none)
    | .error error => (none, some error)

/-- The sidecar of an entry. -/
def ReadEntry.sidecar (entry : ReadEntry) (flavor : ArchiveFlavor) (kind : MetadataKind) :
    DiscoveredSidecar :=
  { nativePath := entry.archive
    archiveIndex := some entry.index
    relativePath := entry.path
    kind
    byteLen := entry.identity.byteLen
    contentSha256 := entry.identity.contentSha256
    contentSha1Base64 := entry.identity.contentSha1Base64
    createdAtUnixMs := entry.identity.modifiedAtUnixMs
    modifiedAtUnixMs := entry.identity.modifiedAtUnixMs
    takeoutDocument := (entryDocument platform flavor entry kind).1
    takeoutParseError := (entryDocument platform flavor entry kind).2 }

/-- Drop what was kept of a path. -/
def ScanState.retract (state : ScanState) (path : String) : ScanState :=
  { state with
    media := state.media.filter fun item => item.relativePath != path
    sidecars := state.sidecars.filter fun item => item.relativePath != path }

/-- Keep the first copy of a path. -/
def ScanState.keep (flavor : ArchiveFlavor) (state : ScanState) (entry : ReadEntry) : ScanState :=
  match entry.identity.kind with
  | .media kind => { state with media := state.media ++ [entry.media kind] }
  | .sidecar kind =>
      { state with sidecars := state.sidecars ++ [entry.sidecar platform flavor kind] }

/-- `merge_entry`. -/
def mergeEntry (flavor : ArchiveFlavor) (scan : ArchiveScan) (entry : ReadEntry) : ArchiveScan :=
  match scan.seen[entry.path]? with
  | some previous =>
      if previous = some entry.identity then
        { scan with state := scan.state.warn (flavor.duplicate entry.path) }
      else
        { scan with
          seen := scan.seen.insert entry.path none
          state := (scan.state.retract entry.path).fail (flavor.conflict entry.path) }
  | none =>
      { scan with
        seen := scan.seen.insert entry.path (some entry.identity)
        state := scan.state.keep platform flavor entry }

/-! ## Scanning -/

/-- The limits of an archive scan. -/
structure ArchiveLimits where
  scan : FolderScanConfig
  maxArchives : Nat
  maxEntryBytes : Nat
  maxCompressionRatio : Nat
  ratioGraceBytes : Nat

/-- The limits of a Takeout. -/
def TakeoutScanConfig.limits (config : TakeoutScanConfig) : ArchiveLimits :=
  { scan := config.scan
    maxArchives := config.maxArchives
    maxEntryBytes := config.maxArchiveEntryBytes
    maxCompressionRatio := config.maxCompressionRatio
    ratioGraceBytes := config.compressionRatioGraceBytes }

/-- The limits of an Apple Photos export. -/
def ApplePhotosScanConfig.limits (config : ApplePhotosScanConfig) : ArchiveLimits :=
  { scan := config.scan
    maxArchives := config.maxArchives
    maxEntryBytes := config.maxArchiveEntryBytes
    maxCompressionRatio := config.maxCompressionRatio
    ratioGraceBytes := config.compressionRatioGraceBytes }

/-- `TAKEOUT_PREFIX`. -/
def takeoutPrefix : String := "Takeout/Google Photos/"

/-- The identity of the bytes of an entry. -/
def identityOf (kind : EntryKind) (bytes : List UInt8) (modifiedAtUnixMs : Option Int) :
    EntryIdentity :=
  { kind
    byteLen := lengthOf bytes
    contentSha256 := platform.sha256 bytes
    contentSha1Base64 := platform.sha1Base64 bytes
    modifiedAtUnixMs }

/-- What one entry contributes: a layout, a warning or a copy of a path. -/
structure EntryFinding where
  layout : Bool
  noise : Option String
  copy : Option (String × EntryIdentity × List UInt8)

/-- The copy of a path which an entry of a Takeout archive holds. -/
def takeoutCopy (limits : ArchiveLimits) (entry : ZipEntry) (path : String) :
    Except ScanError EntryFinding := do
  validateEntry entry limits.maxEntryBytes limits.maxCompressionRatio limits.ratioGraceBytes
  match entryKind platform path with
  | none => return { layout := true, noise := none, copy := none }
  | some kind =>
      let bytes ← streamEntry entry
      let identity := identityOf platform kind bytes none
      return { layout := true, noise := none, copy := some (path, identity, bytes) }

/-- One entry of a Takeout archive: everything outside of its directory is left out. -/
def findTakeoutEntry (limits : ArchiveLimits) (entry : ZipEntry) :
    Except ScanError EntryFinding := do
  let path ← portableEntryPath platform entry limits.scan.maxPathBytes
  if entry.isDir || !startsWith path takeoutPrefix then
    let layout := path == "Takeout/Google Photos" || startsWith path takeoutPrefix
    return { layout, noise := none, copy := none }
  else
    takeoutCopy platform limits entry path

/-- The copy of a path which an entry of an Apple or Picasa archive holds. -/
def appleCopy (limits : ArchiveLimits) (entry : ZipEntry) (path : String) (kind : EntryKind) :
    Except ScanError EntryFinding := do
  validateEntry entry limits.maxEntryBytes limits.maxCompressionRatio limits.ratioGraceBytes
  let bytes ← streamEntry entry
  let identity := identityOf platform kind bytes (zipUnixMs platform entry.lastModified)
  return { layout := false, noise := none, copy := some (path, identity, bytes) }

/-- The noise of a path; only Apple knows any. -/
def ArchiveFlavor.noise (flavor : ArchiveFlavor) (path : String) : Option String :=
  if flavor = .apple then exportNoisePath path else none

/-- One entry of an Apple or Picasa archive. -/
def findAppleEntry (flavor : ArchiveFlavor) (limits : ArchiveLimits) (entry : ZipEntry) :
    Except ScanError EntryFinding := do
  let path ← portableEntryPath platform entry limits.scan.maxPathBytes
  match flavor.noise path with
  | some noise => return { layout := false, noise := some noise, copy := none }
  | none =>
      if entry.isDir then
        return { layout := false, noise := none, copy := none }
      else
        match entryKind platform path with
        | none => return { layout := false, noise := none, copy := none }
        | some kind => appleCopy platform limits entry path kind

/-- One entry of an archive. -/
def findEntry (flavor : ArchiveFlavor) (limits : ArchiveLimits) (entry : ZipEntry) :
    Except ScanError EntryFinding :=
  match flavor with
  | .takeout => findTakeoutEntry platform limits entry
  | .apple | .picasa => findAppleEntry platform flavor limits entry

/-- The state after the finding of one entry. -/
def applyFinding (flavor : ArchiveFlavor) (archive : String) (index : Nat) (scan : ArchiveScan)
    (finding : EntryFinding) : ArchiveScan :=
  let found := { scan with layoutFound := scan.layoutFound || finding.layout }
  let warned := match finding.noise with
    | some noise =>
        { found with
          state := found.state.warn (diagnostic "APPLE_EXPORT_NOISE_SKIPPED_V1"
            "known_apple_export_noise" [noise]) }
    | none => found
  match finding.copy with
  | some (path, identity, bytes) =>
      let counted :=
        { warned with
          state :=
            { warned.state with
              bytesRead := min (warned.state.bytesRead + bytes.length) (2 ^ 64 - 1) } }
      mergeEntry platform flavor counted { archive, index, path, identity, bytes }
  | none => warned

/-- One iteration of `scan_archive`. -/
def scanEntry (flavor : ArchiveFlavor) (limits : ArchiveLimits) (archive : String)
    (scan : ArchiveScan) (entry : Option ZipEntry × Nat) : Except ScanError ArchiveScan := do
  let seen := { scan with state := { scan.state with entriesSeen := scan.state.entriesSeen + 1 } }
  match entry.1 with
  | none => .error (.invalidArchive "cannot open ZIP entry")
  | some found =>
      let finding ← findEntry platform flavor limits found
      return applyFinding platform flavor archive entry.2 seen finding

/-- `scan_archive`. -/
def scanArchive (flavor : ArchiveFlavor) (limits : ArchiveLimits) (scan : ArchiveScan)
    (part : ArchivePart) : Except ScanError ArchiveScan :=
  match part.content with
  | .closed => .error (.invalidArchive "cannot open archive")
  | .malformed => .error (.invalidArchive "invalid ZIP directory")
  | .readable entries => do
      reject (decide (limits.scan.maxEntries < scan.state.entriesSeen + entries.length))
        (.limitExceeded "max_entries")
      let scanned ← entries.zipIdx.foldlM (scanEntry platform flavor limits part.path) scan
      reject part.changed (.invalidArchive "archive changed during scan")
      return scanned

/-- The state of `scan_archives` before reconciliation. -/
def readArchives (flavor : ArchiveFlavor) (limits : ArchiveLimits) (parts : List ArchivePart) :
    Except ScanError ScanState := do
  validateInputs parts limits.maxArchives
  let scanned ← parts.foldlM (scanArchive platform flavor limits)
    { state := .new, seen := ∅, layoutFound := false }
  reject (flavor == .takeout && !scanned.layoutFound)
    (.unsupportedLayout "archives must contain Takeout/Google Photos")
  return scanned.state

/-! ## Documents of Picasa archives -/

/-- One entry of `archive_documents`. -/
def archiveDocument (config : PicasaScanConfig) (documents : Documents) (entry : Option ZipEntry) :
    Except ScanError Documents :=
  match entry with
  | none => .error (.invalidArchive "cannot open ZIP entry")
  | some found => do
      let path ← portableEntryPath platform found config.scan.maxPathBytes
      if eqIgnoreAsciiCase (filename path) ".picasa.ini" then
        validateEntry found maxIniBytes config.maxCompressionRatio config.compressionRatioGraceBytes
        let bytes ← readBounded found.content
        return documents.insert (parent path) bytes
      else
        return documents

/-- One input of `archive_documents`. -/
def archivePartDocuments (config : PicasaScanConfig) (documents : Documents) (part : ArchivePart) :
    Except ScanError Documents :=
  match part.content with
  | .closed => .error (.invalidArchive "cannot open archive")
  | .malformed => .error (.invalidArchive "invalid ZIP directory")
  | .readable entries => entries.foldlM (archiveDocument platform config) documents

/-- `archive_documents`. -/
def archiveDocuments (config : PicasaScanConfig) (parts : List ArchivePart) :
    Except ScanError Documents :=
  parts.foldlM (archivePartDocuments platform config) .empty

end

end ImmichRs
