import ImmichRs.Sources.Adapters

/-!
# Discovery

The walk over a directory tree which collects the scan state.  Directories wait on a stack; the
entries of each are met in the reverse of their order.
-/

namespace ImmichRs

open Collections

/-! ## The file system -/

/-- The name of a directory entry: Unicode text, or other bytes. -/
inductive NativeName
  | text (value : String)
  | bytes (value : List UInt8)

/-- A regular file as the scan meets it. -/
structure RegularFile where
  /-- The bytes which streaming reads, unless the file is unreadable. -/
  streamed : Option (List UInt8)
  /-- Whether the snapshots before, during and after streaming differ. -/
  changed : Bool
  /-- Creation and modification time in milliseconds, where they are known and not before the
  epoch. -/
  created : Option Int
  modified : Option Int

/-- An entry of the file system.  A directory is listed unless it is unreadable, and single entries
of its listing may be unreadable too. -/
inductive Node
  | unreadable
  | symlink
  | special
  | file (file : RegularFile)
  | directory (listing : Option (List (Option (NativeName × Node))))

/-- A directory on the stack, with its path as the file system and as the plan spell it. -/
structure PendingDirectory where
  native : String
  portable : String
  listing : Option (List (Option (NativeName × Node)))

/-- An entry of a directory which was read. -/
structure ListedEntry where
  name : NativeName
  node : Node

/-- `validate_source_label`. -/
def validateSourceLabel (label : String) : Except ScanError Unit :=
  reject (label.isEmpty || decide (128 < byteLen label) || anyChar label isControl)
    (.invalidConfiguration "source label must be 1..=128 non-control characters")

/-- A path below a directory. -/
def joinPath (directory name : String) : String :=
  if directory.isEmpty then name else directory ++ "/" ++ name

/-- Why a path is not portable. -/
inductive PortablePathError
  | outsideRoot | nonUnicode | tooLong
  deriving DecidableEq, Repr

/-- `u64::from`, of the number of bytes which were read. -/
def lengthOf (bytes : List UInt8) : UInt64 := UInt64.ofNat bytes.length

/-- The evidence of a media file which was read. -/
def regularMediaEvidence : RuleEvidence :=
  { ruleId := "FS_REGULAR_MEDIA_V1", outcome := "streamed_content_identity" }

section

variable (platform : SourcePlatform)

/-- `portable_path` of an entry of a directory whose own path is portable. -/
def portablePath (directory : String) (name : NativeName) (maxBytes : Option Nat) :
    Except PortablePathError String :=
  match name with
  | .bytes _ => .error .nonUnicode
  | .text value =>
      let portable := joinPath directory (platform.nfc value)
      if portable.isEmpty then
        .error .outsideRoot
      else if maxBytes.any fun limit => decide (limit < byteLen portable) then
        .error .tooLong
      else
        .ok portable

/-- The bytes of `portable_sort_key`. -/
def portableSortBytes (directory : PendingDirectory) (entry : ListedEntry) : List UInt8 :=
  match portablePath platform directory.portable entry.name none, entry.name with
  | .ok portable, _ => utf8Bytes portable
  | .error _, .text value => utf8Bytes (joinPath directory.native value)
  | .error _, .bytes value =>
      utf8Bytes (if directory.native.isEmpty then "" else directory.native ++ "/") ++ value

/-- `portable_sort_key`, with bytes as numbers. -/
def portableSortKey (directory : PendingDirectory) (entry : ListedEntry) : List Nat :=
  (portableSortBytes platform directory entry).map UInt8.toNat

/-- `portable_directory`. -/
def portableDirectory (directory : PendingDirectory) : String :=
  if directory.portable.isEmpty then "." else directory.portable

/-- One entry of `read_dir`, with the entries kept so far. -/
def readEntry (config : FolderScanConfig) (directory : PendingDirectory)
    (current : List ListedEntry × ScanState) (entry : Option (NativeName × Node)) :
    Except ScanError (List ListedEntry × ScanState) := do
  reject (decide (config.maxDirectoryEntries ≤ current.1.length))
    (.limitExceeded "max_directory_entries")
  match entry with
  | some (name, node) => return (current.1 ++ [ListedEntry.mk name node], current.2)
  | none =>
      return (current.1, current.2.fail (diagnostic "FS_UNREADABLE_FILE_V1"
        "unreadable_directory_entry" [portableDirectory directory]))

/-- `directory_entries`. -/
def directoryEntries (config : FolderScanConfig) (directory : PendingDirectory)
    (state : ScanState) : Except ScanError (List ListedEntry × ScanState) :=
  match directory.listing with
  | none =>
      .ok ([], state.fail (diagnostic "FS_UNREADABLE_FILE_V1" "unreadable_directory"
        [portableDirectory directory]))
  | some listing => do
      let (entries, state) ← listing.foldlM (readEntry config directory) ([], state)
      return (sortBy (portableSortKey platform directory) entries, state)

/-- A media file which was read. -/
def discoveredMedia (native path : String) (kind : MediaKind) (file : RegularFile)
    (bytes : List UInt8) : DiscoveredMedia :=
  { nativePath := native
    archiveIndex := none
    relativePath := path
    kind
    byteLen := lengthOf bytes
    contentSha256 := platform.sha256 bytes
    contentSha1Base64 := platform.sha1Base64 bytes
    createdAtUnixMs := file.created
    modifiedAtUnixMs := file.modified
    metadata := []
    normalizedMetadata := none
    livePhoto := none
    evidence := [regularMediaEvidence] }

/-- A sidecar which was read. -/
def discoveredSidecar (native path : String) (kind : MetadataKind) (file : RegularFile)
    (bytes : List UInt8) : DiscoveredSidecar :=
  { nativePath := native
    archiveIndex := none
    relativePath := path
    kind
    byteLen := lengthOf bytes
    contentSha256 := platform.sha256 bytes
    contentSha1Base64 := platform.sha1Base64 bytes
    createdAtUnixMs := file.created
    modifiedAtUnixMs := file.modified
    takeoutDocument := none
    takeoutParseError := none }

/-- The state once a file was streamed. -/
def streamedFile (state : ScanState) (path : String) (file : RegularFile) (bytes : List UInt8) :
    ScanState :=
  let counted := { state with bytesRead := min (state.bytesRead + bytes.length) (2 ^ 64 - 1) }
  if file.changed then
    counted.fail (diagnostic "FS_SOURCE_CHANGED_V1" "source_changed_during_scan" [path])
  else
    counted

/-- `process_regular_file`. -/
def processRegularFile (native path : String) (file : RegularFile) (state : ScanState) :
    ScanState :=
  match mediaKind platform path, metadataKind platform path, file.streamed with
  | none, none, _ => state
  | _, _, none =>
      state.fail (diagnostic "FS_UNREADABLE_FILE_V1" "unreadable_source_file" [path])
  | some kind, _, some bytes =>
      let state := streamedFile state path file bytes
      { state with media := state.media ++ [discoveredMedia platform native path kind file bytes] }
  | none, some kind, some bytes =>
      let state := streamedFile state path file bytes
      { state with
        sidecars := state.sidecars ++ [discoveredSidecar platform native path kind file bytes] }

/-- The diagnostic of a path which is not portable. -/
def portablePathDiagnostic : PortablePathError → PlanDiagnostic
  | .tooLong => diagnostic "FS_PATH_LIMIT_EXCEEDED_V1" "portable_path_too_long" ["<path-over-limit>"]
  | .nonUnicode | .outsideRoot =>
      diagnostic "FS_NON_UNICODE_PATH_V1" "non_unicode_path" ["<non-unicode>"]

/-- The path of an entry as the file system spells it. -/
def nativeChild (directory : PendingDirectory) : NativeName → String
  | .text value => joinPath directory.native value
  | .bytes _ => ""

/-- An entry whose path is portable and not skipped. -/
def processNode (native path : String) (node : Node) (directories : List PendingDirectory)
    (state : ScanState) : List PendingDirectory × ScanState :=
  match node with
  | .directory listing => ({ native, portable := path, listing } :: directories, state)
  | .symlink =>
      (directories, state.warn (diagnostic "FS_SYMLINK_SKIPPED_V1" "symlink_not_followed" [path]))
  | .file file => (directories, processRegularFile platform native path file state)
  | .special =>
      (directories,
        state.warn (diagnostic "FS_SPECIAL_FILE_SKIPPED_V1" "special_file_not_read" [path]))
  | .unreadable => (directories, state)

/-- `process_entry`, which pushes a child directory on the stack. -/
def processEntry (config : FolderScanConfig) (skipPath : String → Option String)
    (directory : PendingDirectory) (entry : ListedEntry) (directories : List PendingDirectory)
    (state : ScanState) : List PendingDirectory × ScanState :=
  match entry.node, portablePath platform directory.portable entry.name config.maxPathBytes with
  | .unreadable, path =>
      (directories, state.fail (diagnostic "FS_UNREADABLE_FILE_V1" "unreadable_metadata"
        path.toOption.toList))
  | _, .error error => (directories, state.fail (portablePathDiagnostic error))
  | node, .ok path =>
      match skipPath path with
      | some noise =>
          (directories, state.warn (diagnostic "APPLE_EXPORT_NOISE_SKIPPED_V1"
            "known_apple_export_noise" [noise]))
      | none =>
          processNode platform (nativeChild directory entry.name) path node directories state

/-- One entry of the walk. -/
def discoverEntry (config : FolderScanConfig) (skipPath : String → Option String)
    (directory : PendingDirectory) (current : List PendingDirectory × ScanState)
    (entry : ListedEntry) : Except ScanError (List PendingDirectory × ScanState) := do
  let state := { current.2 with entriesSeen := current.2.entriesSeen + 1 }
  reject (decide (config.maxEntries < state.entriesSeen)) (.limitExceeded "max_entries")
  return processEntry platform config skipPath directory entry current.1 state

/-- The loop of `discover`.  Each directory but the root was an entry before it was pushed, so the
limit on entries bounds the number of directories which are popped. -/
def discoverLoop (config : FolderScanConfig) (skipPath : String → Option String) :
    Nat → List PendingDirectory → ScanState → Except ScanError ScanState
  | _, [], state => .ok state
  | 0, _ :: _, _ => .error (.limitExceeded "max_entries")
  | pops + 1, directory :: directories, state => do
      let (entries, state) ← directoryEntries platform config directory state
      let (directories, state) ← entries.reverse.foldlM
        (discoverEntry platform config skipPath directory) (directories, state)
      discoverLoop config skipPath pops directories state

/-- `discover`, from the listing of the root. -/
def discover (config : FolderScanConfig) (skipPath : String → Option String)
    (root : Option (List (Option (NativeName × Node)))) : Except ScanError ScanState :=
  discoverLoop platform config skipPath (config.maxEntries + 1)
    [{ native := "", portable := "", listing := root }] .new

end

/-- `skip_path` of the adapters. -/
def Adapter.skipPath : Adapter → String → Option String
  | .applePhotos _ => exportNoisePath
  | _ => fun _ => none

end ImmichRs
