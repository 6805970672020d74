import ImmichRs.Sources.Scanned

/-!
# Scans of changed sidecars

What a scan finds once the sidecars of one path hold other bytes: the same files and diagnostics,
apart from the identities of these sidecars.
-/

namespace ImmichRs

open Collections
open Std (ExtTreeMap)

section

variable (platform : SourcePlatform) (path : String) (bytes : List UInt8)

/-! ## States -/

/-- A sidecar of the path, with the identity of the other bytes. -/
def DiscoveredSidecar.touch (sidecar : DiscoveredSidecar) : DiscoveredSidecar :=
  if sidecar.relativePath = path then
    { sidecar with
      byteLen := lengthOf bytes
      contentSha256 := platform.sha256 bytes
      contentSha1Base64 := platform.sha1Base64 bytes }
  else
    sidecar

theorem relativePath_touch (sidecar : DiscoveredSidecar) :
    (sidecar.touch platform path bytes).relativePath = sidecar.relativePath := by
  rw [DiscoveredSidecar.touch]
  split <;> rfl

theorem kind_touch (sidecar : DiscoveredSidecar) :
    (sidecar.touch platform path bytes).kind = sidecar.kind := by
  rw [DiscoveredSidecar.touch]
  split <;> rfl

theorem touch_of_ne {sidecar : DiscoveredSidecar} (other : sidecar.relativePath ≠ path) :
    sidecar.touch platform path bytes = sidecar :=
  if_neg other

/-- Two states which differ in the identities of the sidecars of the path, and in the number of
bytes which were read. -/
structure ScanState.Touched (first second : ScanState) : Prop where
  media : second.media = first.media
  sidecars : second.sidecars = first.sidecars.map (·.touch platform path bytes)
  warnings : second.warnings = first.warnings
  errors : second.errors = first.errors
  entriesSeen : second.entriesSeen = first.entriesSeen

variable {platform path bytes} {first second : ScanState}

namespace ScanState.Touched

theorem new : ScanState.Touched platform path bytes .new .new :=
  ⟨rfl, rfl, rfl, rfl, rfl⟩

theorem warn (touched : Touched platform path bytes first second) (diagnostic : PlanDiagnostic) :
    Touched platform path bytes (first.warn diagnostic) (second.warn diagnostic) :=
  { touched with warnings := congrArg (· ++ [diagnostic]) touched.warnings }

theorem fail (touched : Touched platform path bytes first second) (diagnostic : PlanDiagnostic) :
    Touched platform path bytes (first.fail diagnostic) (second.fail diagnostic) :=
  { touched with errors := congrArg (· ++ [diagnostic]) touched.errors }

theorem count (touched : Touched platform path bytes first second) {seen otherSeen : Nat}
    (same : otherSeen = seen) (read otherRead : Nat) :
    Touched platform path bytes { first with entriesSeen := seen, bytesRead := read }
      { second with entriesSeen := otherSeen, bytesRead := otherRead } :=
  { touched with entriesSeen := same }

theorem addMedia (touched : Touched platform path bytes first second) (media : DiscoveredMedia) :
    Touched platform path bytes { first with media := first.media ++ [media] }
      { second with media := second.media ++ [media] } :=
  { touched with media := congrArg (· ++ [media]) touched.media }

theorem addSidecar (touched : Touched platform path bytes first second)
    {sidecar other : DiscoveredSidecar} (same : other = sidecar.touch platform path bytes) :
    Touched platform path bytes { first with sidecars := first.sidecars ++ [sidecar] }
      { second with sidecars := second.sidecars ++ [other] } :=
  { touched with
    sidecars := by
      rw [touched.sidecars, same, List.map_append]
      rfl }

theorem retract (touched : Touched platform path bytes first second) (removed : String) :
    Touched platform path bytes (first.retract removed) (second.retract removed) :=
  { touched with
    media := by
      rw [ScanState.retract, ScanState.retract, touched.media]
    sidecars := by
      have same : ((fun item : DiscoveredSidecar => item.relativePath != removed) ∘
          DiscoveredSidecar.touch platform path bytes) =
            fun item : DiscoveredSidecar => item.relativePath != removed := by
        funext sidecar
        rw [Function.comp_apply, relativePath_touch]
      rw [ScanState.retract, ScanState.retract, touched.sidecars, List.filter_map, same] }

end ScanState.Touched

/-! ## Directories -/

section

variable (platform path bytes)

/-- The portable path of an entry of a directory. -/
def childPath (directory : String) : NativeName → String
  | .text value => joinPath directory (platform.nfc value)
  | .bytes _ => ""

mutual

/-- An entry of the file system once the files of the path hold other bytes. -/
def Node.touch (portable : String) : Node → Node
  | .unreadable => .unreadable
  | .symlink => .symlink
  | .special => .special
  | .file file =>
      .file (if portable = path then { file with streamed := file.streamed.map fun _ => bytes }
        else file)
  | .directory none => .directory none
  | .directory (some listing) => .directory (some (touchListing portable listing))

/-- The listing of a directory once the files of the path hold other bytes. -/
def touchListing (directory : String) :
    List (Option (NativeName × Node)) → List (Option (NativeName × Node))
  | [] => []
  | none :: rest => none :: touchListing directory rest
  | some (name, node) :: rest =>
      some (name, node.touch (childPath platform directory name)) :: touchListing directory rest

end

/-- An entry of a listing once the files of the path hold other bytes. -/
def touchEntry (directory : String) (entry : Option (NativeName × Node)) :
    Option (NativeName × Node) :=
  entry.map fun (name, node) =>
    (name, node.touch platform path bytes (childPath platform directory name))

/-- A directory on the stack once the files of the path hold other bytes. -/
def PendingDirectory.touch (directory : PendingDirectory) : PendingDirectory :=
  { directory with
    listing := directory.listing.map (touchListing platform path bytes directory.portable) }

/-- An entry which was read once the files of the path hold other bytes. -/
def ListedEntry.touch (directory : String) (entry : ListedEntry) : ListedEntry :=
  { entry with node := entry.node.touch platform path bytes (childPath platform directory entry.name) }

end

theorem touchListing_eq_map (directory : String) (listing : List (Option (NativeName × Node))) :
    touchListing platform path bytes directory listing =
      listing.map (touchEntry platform path bytes directory) := by
  induction listing with
  | nil => rw [touchListing, List.map_nil]
  | cons entry rest induction =>
      rcases entry with _ | ⟨name, node⟩
      · rw [touchListing, List.map_cons, induction]
        rfl
      · rw [touchListing, List.map_cons, induction]
        rfl

theorem processRegularFile_touched (isSidecar : mediaKind platform path = none)
    (touched : ScanState.Touched platform path bytes first second) (native portable : String)
    (file : RegularFile) :
    ScanState.Touched platform path bytes (processRegularFile platform native portable file first)
      (processRegularFile platform native portable
        (if portable = path then { file with streamed := file.streamed.map fun _ => bytes } else file)
        second) := by
  have streamed : ∀ read otherRead : List UInt8, ScanState.Touched platform path bytes
      (streamedFile first portable file read)
      (streamedFile second portable
        (if portable = path then { file with streamed := file.streamed.map fun _ => bytes } else file)
        otherRead) := by
    intro read otherRead
    have counted := touched.count touched.entriesSeen
      (min (first.bytesRead + read.length) (2 ^ 64 - 1))
      (min (second.bytesRead + otherRead.length) (2 ^ 64 - 1))
    have changed : (if portable = path then
        { file with streamed := file.streamed.map fun _ => bytes } else file).changed =
          file.changed := by
      split <;> rfl
    rw [streamedFile, streamedFile, changed]
    split
    · exact counted.fail _
    · exact counted
  by_cases same : portable = path
  · subst same
    rw [if_pos rfl] at streamed ⊢
    rw [processRegularFile, processRegularFile, isSidecar]
    cases metadataKind platform portable with
    | none => exact touched
    | some kind =>
        cases read : file.streamed with
        | none => exact touched.fail _
        | some content =>
            have here : (discoveredSidecar platform native portable kind file content).relativePath =
                portable := rfl
            apply (streamed content bytes).addSidecar
            rw [DiscoveredSidecar.touch, if_pos here]
            rfl
  · rw [if_neg same] at streamed ⊢
    rw [processRegularFile, processRegularFile]
    split
    · exact touched
    · exact touched.fail _
    · exact (streamed _ _).addMedia _
    · apply (streamed _ _).addSidecar
      exact (touch_of_ne platform path bytes same).symm

/-- Directories on the stack and the state beside them. -/
def WalkTouched (platform : SourcePlatform) (path : String) (bytes : List UInt8)
    (first second : List PendingDirectory × ScanState) : Prop :=
  second.1 = first.1.map (PendingDirectory.touch platform path bytes) ∧
    ScanState.Touched platform path bytes first.2 second.2

theorem processNode_touched (isSidecar : mediaKind platform path = none)
    (touched : ScanState.Touched platform path bytes first second) (native portable : String)
    (node : Node) (directories : List PendingDirectory) :
    WalkTouched platform path bytes (processNode platform native portable node directories first)
      (processNode platform native portable (node.touch platform path bytes portable)
        (directories.map (PendingDirectory.touch platform path bytes)) second) := by
  cases node with
  | unreadable =>
      rw [Node.touch]
      exact ⟨rfl, touched⟩
  | symlink =>
      rw [Node.touch]
      exact ⟨rfl, touched.warn _⟩
  | special =>
      rw [Node.touch]
      exact ⟨rfl, touched.warn _⟩
  | file file =>
      rw [Node.touch]
      exact ⟨rfl, processRegularFile_touched isSidecar touched native portable file⟩
  | directory listing =>
      cases listing with
      | none =>
          rw [Node.touch]
          exact ⟨rfl, touched⟩
      | some listing =>
          rw [Node.touch]
          exact ⟨rfl, touched⟩

theorem processEntry_readable {config : FolderScanConfig} {skipPath : String → Option String}
    {directory : PendingDirectory} {entry : ListedEntry} {directories : List PendingDirectory}
    {state : ScanState} (readable : entry.node ≠ .unreadable) :
    processEntry platform config skipPath directory entry directories state =
      match portablePath platform directory.portable entry.name config.maxPathBytes with
      | .error error => (directories, state.fail (portablePathDiagnostic error))
      | .ok portable =>
          match skipPath portable with
          | some noise =>
              (directories, state.warn (diagnostic "APPLE_EXPORT_NOISE_SKIPPED_V1"
                "known_apple_export_noise" [noise]))
          | none =>
              processNode platform (nativeChild directory entry.name) portable entry.node
                directories state := by
  rw [processEntry.eq_def]
  split
  · rename_i unreadable
    exact absurd unreadable readable
  · rename_i found _
    rw [found]
  · rename_i found _
    rw [found]
    all_goals rfl

theorem childPath_of_portablePath {directory : String} {name : NativeName} {limit : Option Nat}
    {portable : String} (found : portablePath platform directory name limit = .ok portable) :
    childPath platform directory name = portable := by
  rw [portablePath.eq_def] at found
  split at found
  · cases found
  · dsimp only at found
    split at found
    · cases found
    · split at found
      · cases found
      · exact Except.ok.inj found

theorem processEntry_touched (isSidecar : mediaKind platform path = none)
    (touched : ScanState.Touched platform path bytes first second) (config : FolderScanConfig)
    (skipPath : String → Option String) (directory : PendingDirectory) (entry : ListedEntry)
    (directories : List PendingDirectory) :
    WalkTouched platform path bytes
      (processEntry platform config skipPath directory entry directories first)
      (processEntry platform config skipPath (directory.touch platform path bytes)
        (entry.touch platform path bytes directory.portable)
        (directories.map (PendingDirectory.touch platform path bytes)) second) := by
  by_cases readable : entry.node = .unreadable
  · have other : (entry.touch platform path bytes directory.portable).node = .unreadable := by
      rw [ListedEntry.touch, readable, Node.touch]
    simp only [processEntry, readable, other]
    exact ⟨rfl, touched.fail _⟩
  · have other : (entry.touch platform path bytes directory.portable).node ≠ .unreadable := by
      rw [ListedEntry.touch]
      revert readable
      rcases entry.node with _ | _ | _ | _ | _ | _ <;> simp [Node.touch]
    rw [processEntry_readable readable, processEntry_readable other]
    have same : portablePath platform (directory.touch platform path bytes).portable
        (entry.touch platform path bytes directory.portable).name config.maxPathBytes =
          portablePath platform directory.portable entry.name config.maxPathBytes := rfl
    rw [same]
    cases found : portablePath platform directory.portable entry.name config.maxPathBytes with
    | error error => exact ⟨rfl, touched.fail _⟩
    | ok portable =>
        cases skipped : skipPath portable with
        | some noise =>
            simp only [skipped]
            exact ⟨rfl, touched.warn _⟩
        | none =>
            have node : (entry.touch platform path bytes directory.portable).node =
                entry.node.touch platform path bytes portable := by
              rw [ListedEntry.touch, childPath_of_portablePath found]
            simp only [skipped, node]
            exact processNode_touched isSidecar touched _ portable entry.node directories

/-- The entries read from a directory and the state beside them. -/
def ListingTouched (platform : SourcePlatform) (path : String) (bytes : List UInt8)
    (directory : String) (first second : List ListedEntry × ScanState) : Prop :=
  second.1 = first.1.map (ListedEntry.touch platform path bytes directory) ∧
    ScanState.Touched platform path bytes first.2 second.2

theorem readEntry_touched (config : FolderScanConfig) (directory : PendingDirectory)
    {current following : List ListedEntry × ScanState} {entry : Option (NativeName × Node)}
    {next : List ListedEntry × ScanState}
    (touched : ListingTouched platform path bytes directory.portable current following)
    (returned : readEntry config directory current entry = .ok next) :
    ∃ other, readEntry config (directory.touch platform path bytes) following
        (touchEntry platform path bytes directory.portable entry) = .ok other ∧
      ListingTouched platform path bytes directory.portable next other := by
  obtain ⟨entries, state⟩ := following
  obtain ⟨rfl, touched⟩ := touched
  rw [readEntry.eq_def, reject_bind_eq_ok] at returned
  obtain ⟨admitted, returned⟩ := returned
  simp only [readEntry, reject_bind_eq_ok, List.length_map, admitted, true_and]
  rcases entry with _ | ⟨name, node⟩
  · obtain rfl := Except.ok.inj returned
    exact ⟨_, rfl, rfl, touched.fail _⟩
  · obtain rfl := Except.ok.inj returned
    refine ⟨_, rfl, ?_, touched⟩
    rw [List.map_append]
    rfl

theorem directoryEntries_touched (touched : ScanState.Touched platform path bytes first second)
    (config : FolderScanConfig) (directory : PendingDirectory) {entries : List ListedEntry}
    {final : ScanState}
    (returned : directoryEntries platform config directory first = .ok (entries, final)) :
    ∃ other, directoryEntries platform config (directory.touch platform path bytes) second =
        .ok (entries.map (ListedEntry.touch platform path bytes directory.portable), other) ∧
      ScanState.Touched platform path bytes final other := by
  cases listed : directory.listing with
  | none =>
      rw [directoryEntries, listed] at returned
      obtain ⟨rfl, rfl⟩ := Prod.mk.inj (Except.ok.inj returned)
      rw [directoryEntries, PendingDirectory.touch, listed]
      exact ⟨_, rfl, touched.fail _⟩
  | some listing =>
      rw [directoryEntries, listed] at returned
      dsimp only at returned
      rw [bind_eq_ok] at returned
      obtain ⟨⟨read, walked⟩, looped, returned⟩ := returned
      obtain ⟨rfl, rfl⟩ := Prod.mk.inj (Except.ok.inj returned)
      have start : ListingTouched platform path bytes directory.portable ([], first)
        ([], second) := ⟨rfl, touched⟩
      obtain ⟨⟨otherRead, other⟩, followed, same, touched⟩ := foldlM_simulation
        (touchEntry platform path bytes directory.portable) _
        (readEntry_touched config directory) start looped
      refine ⟨other, ?_, touched⟩
      have keys : ∀ entry : ListedEntry,
          portableSortKey platform (directory.touch platform path bytes)
            (entry.touch platform path bytes directory.portable) =
              portableSortKey platform directory entry := fun _ => rfl
      have sorted := sortBy_map keys read
      dsimp only at same
      rw [← same] at sorted
      rw [← sorted, directoryEntries]
      have listing : (directory.touch platform path bytes).listing =
          some (touchListing platform path bytes directory.portable listing) := by
        rw [PendingDirectory.touch, listed]
        rfl
      rw [listing]
      dsimp only
      rw [touchListing_eq_map, bind_eq_ok]
      exact ⟨_, followed, rfl⟩

theorem discoverEntry_touched (isSidecar : mediaKind platform path = none)
    (config : FolderScanConfig) (skipPath : String → Option String) (directory : PendingDirectory)
    {current following : List PendingDirectory × ScanState} {entry : ListedEntry}
    {next : List PendingDirectory × ScanState}
    (touched : WalkTouched platform path bytes current following)
    (returned : discoverEntry platform config skipPath directory current entry = .ok next) :
    ∃ other, discoverEntry platform config skipPath (directory.touch platform path bytes) following
        (entry.touch platform path bytes directory.portable) = .ok other ∧
      WalkTouched platform path bytes next other := by
  obtain ⟨directories, state⟩ := following
  obtain ⟨rfl, touched⟩ := touched
  rw [discoverEntry, reject_bind_eq_ok] at returned
  obtain ⟨admitted, returned⟩ := returned
  obtain rfl := Except.ok.inj returned
  have counted := touched.count (congrArg (· + 1) touched.entriesSeen) current.2.bytesRead
    state.bytesRead
  have stepped := processEntry_touched isSidecar counted config skipPath directory entry current.1
  refine ⟨_, ?_, stepped⟩
  rw [discoverEntry, reject_bind_eq_ok]
  refine ⟨?_, rfl⟩
  rw [← admitted]
  exact congrArg (fun seen => decide (config.maxEntries < seen + 1)) touched.entriesSeen

theorem discoverLoop_touched (isSidecar : mediaKind platform path = none)
    {config : FolderScanConfig} {skipPath : String → Option String} {pops : Nat}
    {directories : List PendingDirectory} {final : ScanState}
    (touched : ScanState.Touched platform path bytes first second)
    (returned : discoverLoop platform config skipPath pops directories first = .ok final) :
    ∃ other, discoverLoop platform config skipPath pops
        (directories.map (PendingDirectory.touch platform path bytes)) second = .ok other ∧
      ScanState.Touched platform path bytes final other := by
  induction pops generalizing directories first second with
  | zero =>
      cases directories with
      | nil =>
          obtain rfl := Except.ok.inj returned
          exact ⟨second, rfl, touched⟩
      | cons directory rest => cases returned
  | succ pops induction =>
      cases directories with
      | nil =>
          obtain rfl := Except.ok.inj returned
          exact ⟨second, rfl, touched⟩
      | cons directory rest =>
          rw [discoverLoop, bind_eq_ok] at returned
          obtain ⟨⟨entries, listed⟩, read, returned⟩ := returned
          rw [bind_eq_ok] at returned
          obtain ⟨⟨pushed, walked⟩, looped, returned⟩ := returned
          obtain ⟨otherListed, otherRead, touched⟩ :=
            directoryEntries_touched touched config directory read
          have start : WalkTouched platform path bytes (rest, listed)
            (rest.map (PendingDirectory.touch platform path bytes), otherListed) := ⟨rfl, touched⟩
          obtain ⟨⟨otherPushed, otherWalked⟩, followed, same, touched⟩ := foldlM_simulation
            (ListedEntry.touch platform path bytes directory.portable) _
            (discoverEntry_touched isSidecar config skipPath directory) start looped
          dsimp only at same
          subst same
          obtain ⟨other, finished, touched⟩ := induction touched returned
          refine ⟨other, ?_, touched⟩
          rw [List.map_cons, discoverLoop, bind_eq_ok]
          refine ⟨_, otherRead, ?_⟩
          dsimp only
          rw [← List.map_reverse, bind_eq_ok]
          exact ⟨_, followed, finished⟩

/-- A directory whose sidecars at one path hold other bytes. -/
theorem discover_touched (isSidecar : mediaKind platform path = none) {config : FolderScanConfig}
    {skipPath : String → Option String} {root : Option (List (Option (NativeName × Node)))}
    {final : ScanState} (returned : discover platform config skipPath root = .ok final)
    (bytes : List UInt8) :
    ∃ other, discover platform config skipPath (root.map (touchListing platform path bytes "")) =
        .ok other ∧ ScanState.Touched platform path bytes final other :=
  discoverLoop_touched isSidecar ScanState.Touched.new returned

/-! ## Archives -/

section

variable (platform path bytes)

/-- An entry once those of the path store other bytes. -/
def ZipEntry.touch (limit : Nat) (entry : ZipEntry) : ZipEntry :=
  if (portableEntryPath platform entry limit).toOption = some path then
    { entry with
      compression := .stored
      size := bytes.length
      compressedSize := bytes.length
      content := some bytes }
  else
    entry

/-- An archive once the entries of the path store other bytes. -/
def ArchivePart.touch (limit : Nat) (part : ArchivePart) : ArchivePart :=
  { part with
    content := match part.content with
      | .readable entries => .readable (entries.map (Option.map (ZipEntry.touch platform path bytes limit)))
      | content => content }

/-- The identity of a copy once those of the path have other bytes. -/
def EntryIdentity.touch (copied : String) (identity : EntryIdentity) : EntryIdentity :=
  if copied = path then
    { identity with
      byteLen := lengthOf bytes
      contentSha256 := platform.sha256 bytes
      contentSha1Base64 := platform.sha1Base64 bytes }
  else
    identity

/-- The copy which an entry holds once those of the path have other bytes. -/
def touchCopy (copy : String × EntryIdentity × List UInt8) :
    String × EntryIdentity × List UInt8 :=
  (copy.1, copy.2.1.touch platform path bytes copy.1, if copy.1 = path then bytes else copy.2.2)

/-- Archive scans whose copies of the path differ in their bytes. -/
structure ArchiveScan.Touched (first second : ArchiveScan) : Prop where
  state : ScanState.Touched platform path bytes first.state second.state
  seen : ∀ copied : String, second.seen[copied]? =
    (first.seen[copied]?).map (Option.map (EntryIdentity.touch platform path bytes copied))

/-- The copies of the path conflict, so none of them is kept. -/
structure ArchiveScan.Conflicted (scan : ArchiveScan) : Prop where
  seen : scan.seen[path]? = some none
  absent : ∀ sidecar ∈ scan.state.sidecars, sidecar.relativePath ≠ path

/-- Archive scans which agree as far as the copies of the path do not conflict. -/
structure ArchiveScan.Follows (first second : ArchiveScan) : Prop where
  entriesSeen : second.state.entriesSeen = first.state.entriesSeen
  agrees : first.Touched platform path bytes second ∨ first.Conflicted path

end

theorem portableEntryPath_touch (limit bound : Nat) (entry : ZipEntry) :
    portableEntryPath platform (entry.touch platform path bytes limit) bound =
      portableEntryPath platform entry bound := by
  rw [ZipEntry.touch]
  split <;> rfl

/-- An entry of at most one byte passes every check which its path, kind and encryption pass. -/
theorem validateEntry_touch {entry : ZipEntry} {limit maxEntryBytes maxRatio grace : Nat}
    (small : bytes.length ≤ 1) (bytesAllowed : 1 ≤ maxEntryBytes) (ratioAllowed : 1 ≤ maxRatio)
    (valid : validateEntry entry maxEntryBytes maxRatio grace = .ok ()) :
    validateEntry (entry.touch platform path bytes limit) maxEntryBytes maxRatio grace = .ok () := by
  rw [ZipEntry.touch]
  split
  · simp only [validateEntry, reject_bind_eq_ok, reject_eq_ok] at valid ⊢
    refine ⟨valid.1, rfl, ?_, ?_⟩
    · rw [decide_eq_false_iff_not]
      omega
    · rcases Nat.le_one_iff_eq_zero_or_eq_one.mp small with none | one
      · simp [none]
      · simp only [one, Nat.div_self Nat.one_pos, Bool.and_eq_false_iff, Bool.or_eq_false_iff,
          decide_eq_false_iff_not, beq_eq_false_iff_ne]
        omega
  · exact valid

theorem mergeEntry_conflicted {flavor : ArchiveFlavor} {scan : ArchiveScan} (entry : ReadEntry)
    (conflicted : scan.Conflicted path) : (mergeEntry platform flavor scan entry).Conflicted path := by
  rw [mergeEntry]
  split
  · rename_i previous found
    split
    · exact ⟨conflicted.seen, conflicted.absent⟩
    · constructor
      · by_cases same : entry.path = path
        · rw [same]
          exact ExtTreeMap.getElem?_insert_self
        · exact (getElem?_insert_of_ne same).trans conflicted.seen
      · intro sidecar member
        exact conflicted.absent sidecar (List.mem_filter.mp member).1
  · rename_i missing
    have other : entry.path ≠ path := by
      intro same
      rw [same, conflicted.seen] at missing
      cases missing
    constructor
    · exact (getElem?_insert_of_ne other).trans conflicted.seen
    · rw [ScanState.keep]
      split
      · exact conflicted.absent
      · intro sidecar member
        rcases List.mem_append.mp member with member | member
        · exact conflicted.absent sidecar member
        · obtain rfl := List.mem_singleton.mp member
          exact other

theorem entriesSeen_mergeEntry (flavor : ArchiveFlavor) (scan : ArchiveScan) (entry : ReadEntry) :
    (mergeEntry platform flavor scan entry).state.entriesSeen = scan.state.entriesSeen := by
  rw [mergeEntry]
  split
  · split <;> rfl
  · dsimp only
    rw [ScanState.keep]
    split <;> rfl

theorem EntryIdentity.touch_of_ne {copied : String} (other : copied ≠ path)
    (identity : EntryIdentity) : identity.touch platform path bytes copied = identity :=
  if_neg other

/-- A copy once those of the path have other bytes. -/
def ReadEntry.touch (platform : SourcePlatform) (path : String) (bytes : List UInt8)
    (entry : ReadEntry) : ReadEntry :=
  { entry with
    identity := entry.identity.touch platform path bytes entry.path
    bytes := if entry.path = path then bytes else entry.bytes }

theorem sidecar_touch {flavor : ArchiveFlavor} (other : flavor ≠ .takeout) (entry : ReadEntry)
    (kind : MetadataKind) :
    (entry.touch platform path bytes).sidecar platform flavor kind =
      (entry.sidecar platform flavor kind).touch platform path bytes := by
  have document : ∀ entry, entryDocument platform flavor entry kind = (none, none) := by
    intro entry
    rw [entryDocument, if_pos (.inl other)]
  rw [ReadEntry.sidecar, ReadEntry.sidecar, document, document, DiscoveredSidecar.touch,
    ReadEntry.touch, EntryIdentity.touch]
  dsimp only
  split <;> rfl

theorem keep_touched {flavor : ArchiveFlavor} (other : flavor ≠ .takeout) {entry : ReadEntry}
    (isSidecar : entry.path = path → ∃ kind, entry.identity.kind = .sidecar kind)
    (touched : ScanState.Touched platform path bytes first second) :
    ScanState.Touched platform path bytes (first.keep platform flavor entry)
      (second.keep platform flavor (entry.touch platform path bytes)) := by
  have kind : (entry.touch platform path bytes).identity.kind = entry.identity.kind := by
    rw [ReadEntry.touch, EntryIdentity.touch]
    dsimp only
    split <;> rfl
  rw [ScanState.keep, ScanState.keep, kind]
  cases family : entry.identity.kind with
  | media media =>
      have different : entry.path ≠ path := by
        intro same
        obtain ⟨kind, found⟩ := isSidecar same
        rw [family] at found
        cases found
      have unchanged : (entry.touch platform path bytes).media media = entry.media media := by
        rw [ReadEntry.touch, EntryIdentity.touch_of_ne different]
        rfl
      dsimp only
      rw [unchanged]
      exact touched.addMedia _
  | sidecar kind =>
      apply touched.addSidecar
      exact sidecar_touch other entry kind

theorem mergeEntry_follows {flavor : ArchiveFlavor} (other : flavor ≠ .takeout)
    {first second : ArchiveScan} {entry : ReadEntry}
    (isSidecar : entry.path = path → ∃ kind, entry.identity.kind = .sidecar kind)
    (follows : first.Follows platform path bytes second) :
    (mergeEntry platform flavor first entry).Follows platform path bytes
      (mergeEntry platform flavor second (entry.touch platform path bytes)) := by
  constructor
  · rw [entriesSeen_mergeEntry, entriesSeen_mergeEntry, follows.entriesSeen]
  rcases follows.agrees with touched | conflicted
  swap
  · exact .inr (mergeEntry_conflicted entry conflicted)
  have inserted : ∀ identity : Option EntryIdentity, ∀ copied : String,
      (second.seen.insert entry.path
        (identity.map (EntryIdentity.touch platform path bytes entry.path)))[copied]? =
      ((first.seen.insert entry.path identity)[copied]?).map
        (Option.map (EntryIdentity.touch platform path bytes copied)) := by
    intro identity copied
    by_cases same : entry.path = copied
    · subst same
      rw [ExtTreeMap.getElem?_insert_self, ExtTreeMap.getElem?_insert_self]
      rfl
    · rw [getElem?_insert_of_ne same, getElem?_insert_of_ne same, touched.seen]
  have seen := touched.seen entry.path
  cases found : first.seen[entry.path]? with
  | none =>
      rw [found, Option.map_none] at seen
      have step : mergeEntry platform flavor first entry =
          { first with
            seen := first.seen.insert entry.path (some entry.identity)
            state := first.state.keep platform flavor entry } := by
        rw [mergeEntry, found]
      have otherStep : mergeEntry platform flavor second (entry.touch platform path bytes) =
          { second with
            seen := second.seen.insert entry.path
              (some (entry.identity.touch platform path bytes entry.path))
            state := second.state.keep platform flavor (entry.touch platform path bytes) } := by
        rw [mergeEntry]
        dsimp only [ReadEntry.touch] at seen ⊢
        rw [seen]
      rw [step, otherStep]
      exact .inl ⟨keep_touched other isSidecar touched.state, inserted (some entry.identity)⟩
  | some previous =>
      rw [found, Option.map_some] at seen
      have step : mergeEntry platform flavor first entry =
          if previous = some entry.identity then
            { first with state := first.state.warn (flavor.duplicate entry.path) }
          else
            { first with
              seen := first.seen.insert entry.path none
              state := (first.state.retract entry.path).fail (flavor.conflict entry.path) } := by
        rw [mergeEntry, found]
      have otherStep : mergeEntry platform flavor second (entry.touch platform path bytes) =
          if previous.map (EntryIdentity.touch platform path bytes entry.path) =
              some (entry.identity.touch platform path bytes entry.path) then
            { second with state := second.state.warn (flavor.duplicate entry.path) }
          else
            { second with
              seen := second.seen.insert entry.path none
              state := (second.state.retract entry.path).fail (flavor.conflict entry.path) } := by
        rw [mergeEntry]
        dsimp only [ReadEntry.touch] at seen ⊢
        rw [seen]
        rfl
      rw [step, otherStep]
      by_cases equal : previous = some entry.identity
      · subst equal
        rw [if_pos rfl, if_pos (Option.map_some ..)]
        exact .inl ⟨touched.state.warn _, touched.seen⟩
      · rw [if_neg equal]
        by_cases same : entry.path = path
        · right
          constructor
          · rw [same]
            exact ExtTreeMap.getElem?_insert_self
          · intro sidecar member kept
            have filtered := (List.mem_filter.mp member).2
            rw [kept, same] at filtered
            simp at filtered
        · left
          have unchanged : EntryIdentity.touch platform path bytes entry.path = id := by
            funext identity
            exact EntryIdentity.touch_of_ne same identity
          rw [unchanged, Option.map_id, id, id, if_neg equal]
          refine ⟨(touched.state.retract _).fail _, ?_⟩
          exact inserted none

theorem ArchiveScan.Follows.change {first second next other : ArchiveScan}
    (follows : first.Follows platform path bytes second) (seen : next.seen = first.seen)
    (otherSeen : other.seen = second.seen) (sidecars : next.state.sidecars = first.state.sidecars)
    (entriesSeen : other.state.entriesSeen = next.state.entriesSeen)
    (touched : ScanState.Touched platform path bytes first.state second.state →
      ScanState.Touched platform path bytes next.state other.state) :
    next.Follows platform path bytes other := by
  refine ⟨entriesSeen, ?_⟩
  rcases follows.agrees with agrees | conflicted
  · refine .inl ⟨touched agrees.state, ?_⟩
    rw [seen, otherSeen]
    exact agrees.seen
  · refine .inr ⟨?_, ?_⟩
    · rw [seen]
      exact conflicted.seen
    · rw [sidecars]
      exact conflicted.absent

theorem findEntry_touched {flavor : ArchiveFlavor} (other : flavor ≠ .takeout)
    {limits : ArchiveLimits} {entry : ZipEntry} {finding : EntryFinding}
    (small : bytes.length ≤ 1) (bytesAllowed : 1 ≤ limits.maxEntryBytes)
    (ratioAllowed : 1 ≤ limits.maxCompressionRatio)
    (found : findEntry platform flavor limits entry = .ok finding) :
    findEntry platform flavor limits (entry.touch platform path bytes limits.scan.maxPathBytes) =
      .ok { finding with copy := finding.copy.map (touchCopy platform path bytes) } := by
  have apple : findEntry platform flavor limits = findAppleEntry platform flavor limits := by
    cases flavor with
    | takeout => exact absurd rfl other
    | apple => rfl
    | picasa => rfl
  have isDir : (entry.touch platform path bytes limits.scan.maxPathBytes).isDir = entry.isDir := by
    rw [ZipEntry.touch]
    split <;> rfl
  rw [apple, findAppleEntry, bind_eq_ok] at found
  obtain ⟨portable, located, found⟩ := found
  rw [apple, findAppleEntry, portableEntryPath_touch, located, isDir]
  dsimp only [bind, Except.bind]
  split at found
  · obtain rfl := Except.ok.inj found
    rfl
  · split at found
    · rename_i directory
      obtain rfl := Except.ok.inj found
      rw [if_pos directory]
      rfl
    · rename_i file
      rw [if_neg file]
      split at found
      · obtain rfl := Except.ok.inj found
        rfl
      · rename_i kind known
        simp only [appleCopy, bind_eq_ok] at found ⊢
        obtain ⟨_, valid, content, streamed, returned⟩ := found
        obtain rfl := Except.ok.inj returned
        refine ⟨(), validateEntry_touch small bytesAllowed ratioAllowed valid, ?_⟩
        by_cases same : portable = path
        · subst same
          have touched : entry.touch platform portable bytes limits.scan.maxPathBytes =
              { entry with
                compression := .stored
                size := bytes.length
                compressedSize := bytes.length
                content := some bytes } := by
            rw [ZipEntry.touch, located]
            exact if_pos rfl
          rw [touched]
          refine ⟨bytes, ?_, ?_⟩
          · simp [streamEntry, reject, pure, Except.pure, bind, Except.bind]
          · simp [touchCopy, EntryIdentity.touch, identityOf, pure, Except.pure]
        · have untouched : entry.touch platform path bytes limits.scan.maxPathBytes = entry := by
            rw [ZipEntry.touch, located]
            exact if_neg fun equal => same (Option.some.inj equal)
          rw [untouched]
          refine ⟨content, streamed, ?_⟩
          simp [touchCopy, EntryIdentity.touch, same, pure, Except.pure]

theorem applyFinding_follows {flavor : ArchiveFlavor} (other : flavor ≠ .takeout)
    (isSidecar : mediaKind platform path = none) {limit : Nat} {finding : EntryFinding}
    (read : finding.Read platform limit) {first second : ArchiveScan}
    (follows : first.Follows platform path bytes second) (archive : String) (index : Nat) :
    (applyFinding platform flavor archive index first finding).Follows platform path bytes
      (applyFinding platform flavor archive index second
        { finding with copy := finding.copy.map (touchCopy platform path bytes) }) := by
  obtain ⟨layout, noise, copy⟩ := finding
  rw [applyFinding.eq_def, applyFinding.eq_def]
  dsimp only
  rcases copy with _ | ⟨copied, identity, content⟩
  · rcases noise with _ | noise
    · exact follows.change rfl rfl rfl follows.entriesSeen id
    · exact follows.change rfl rfl rfl follows.entriesSeen fun touched => touched.warn _
  · have sidecar : copied = path → ∃ kind, identity.kind = .sidecar kind := by
      rintro rfl
      have family := (read archive index copied identity content rfl).kind_eq
      rw [entryKind, isSidecar] at family
      cases kind : metadataKind platform copied with
      | none =>
          rw [kind] at family
          cases family
      | some kind' =>
          rw [kind] at family
          exact ⟨kind', (Option.some.inj family).symm⟩
    apply mergeEntry_follows other sidecar
    rcases noise with _ | noise
    · exact follows.change rfl rfl rfl follows.entriesSeen fun touched =>
        touched.count touched.entriesSeen _ _
    · exact follows.change rfl rfl rfl follows.entriesSeen fun touched =>
        (touched.warn _).count touched.entriesSeen _ _

theorem scanEntry_follows {flavor : ArchiveFlavor} (other : flavor ≠ .takeout)
    (isSidecar : mediaKind platform path = none) {limits : ArchiveLimits} (small : bytes.length ≤ 1)
    (bytesAllowed : 1 ≤ limits.maxEntryBytes) (ratioAllowed : 1 ≤ limits.maxCompressionRatio)
    (archive : String) {first second : ArchiveScan} {entry : Option ZipEntry × Nat}
    {next : ArchiveScan} (follows : first.Follows platform path bytes second)
    (returned : scanEntry platform flavor limits archive first entry = .ok next) :
    ∃ following, scanEntry platform flavor limits archive second
        (entry.1.map (ZipEntry.touch platform path bytes limits.scan.maxPathBytes), entry.2) =
          .ok following ∧ next.Follows platform path bytes following := by
  obtain ⟨entry, index⟩ := entry
  cases entry with
  | none => cases returned
  | some entry =>
      rw [scanEntry] at returned
      dsimp only at returned
      rw [bind_eq_ok] at returned
      obtain ⟨finding, found, returned⟩ := returned
      obtain rfl := Except.ok.inj returned
      have counted : ArchiveScan.Follows platform path bytes
          { first with state := { first.state with entriesSeen := first.state.entriesSeen + 1 } }
          { second with state := { second.state with entriesSeen := second.state.entriesSeen + 1 } } := by
        have same := congrArg (· + 1) follows.entriesSeen
        exact follows.change rfl rfl rfl same fun touched =>
          touched.count same first.state.bytesRead second.state.bytesRead
      refine ⟨_, ?_, applyFinding_follows other isSidecar (findEntry_read found) counted archive index⟩
      rw [scanEntry]
      dsimp only [Option.map_some]
      rw [findEntry_touched other small bytesAllowed ratioAllowed found]
      rfl

theorem scanArchive_follows {flavor : ArchiveFlavor} (other : flavor ≠ .takeout)
    (isSidecar : mediaKind platform path = none) {limits : ArchiveLimits} (small : bytes.length ≤ 1)
    (bytesAllowed : 1 ≤ limits.maxEntryBytes) (ratioAllowed : 1 ≤ limits.maxCompressionRatio)
    {first second : ArchiveScan} {part : ArchivePart} {next : ArchiveScan}
    (follows : first.Follows platform path bytes second)
    (returned : scanArchive platform flavor limits first part = .ok next) :
    ∃ following, scanArchive platform flavor limits second
        (part.touch platform path bytes limits.scan.maxPathBytes) = .ok following ∧
      next.Follows platform path bytes following := by
  obtain ⟨location, present, isRegular, content, changed⟩ := part
  cases content with
  | closed => cases returned
  | malformed => cases returned
  | readable entries =>
      rw [scanArchive] at returned
      dsimp only at returned
      rw [reject_bind_eq_ok, bind_eq_ok] at returned
      obtain ⟨admitted, scanned, looped, returned⟩ := returned
      rw [reject_bind_eq_ok] at returned
      obtain ⟨unchanged, returned⟩ := returned
      obtain rfl := Except.ok.inj returned
      obtain ⟨following, followed, ends⟩ := foldlM_simulation
        (fun entry : Option ZipEntry × Nat =>
          (entry.1.map (ZipEntry.touch platform path bytes limits.scan.maxPathBytes), entry.2)) _
        (scanEntry_follows other isSidecar small bytesAllowed ratioAllowed location) follows looped
      refine ⟨following, ?_, ends⟩
      rw [scanArchive]
      dsimp only [ArchivePart.touch]
      rw [reject_bind_eq_ok, bind_eq_ok, List.length_map, follows.entriesSeen]
      refine ⟨admitted, following, ?_, ?_⟩
      · rw [List.zipIdx_map]
        exact followed
      · rw [reject_bind_eq_ok]
        exact ⟨unchanged, rfl⟩

/-- Archives whose sidecars at one path hold another byte or none, unless the path has conflicting
copies. -/
theorem readArchives_touched {flavor : ArchiveFlavor} (other : flavor ≠ .takeout)
    (isSidecar : mediaKind platform path = none) {limits : ArchiveLimits} (small : bytes.length ≤ 1)
    (bytesAllowed : 1 ≤ limits.maxEntryBytes) (ratioAllowed : 1 ≤ limits.maxCompressionRatio)
    {parts : List ArchivePart} {final : ScanState}
    (returned : readArchives platform flavor limits parts = .ok final)
    (kept : ∃ sidecar ∈ final.sidecars, sidecar.relativePath = path) :
    ∃ following, readArchives platform flavor limits
        (parts.map (ArchivePart.touch platform path bytes limits.scan.maxPathBytes)) =
          .ok following ∧ ScanState.Touched platform path bytes final following := by
  rw [readArchives, bind_eq_ok] at returned
  obtain ⟨_, valid, returned⟩ := returned
  rw [bind_eq_ok] at returned
  obtain ⟨scanned, looped, returned⟩ := returned
  rw [reject_bind_eq_ok] at returned
  obtain ⟨_, returned⟩ := returned
  obtain rfl := Except.ok.inj returned
  have start : ArchiveScan.Follows platform path bytes
      { state := .new, seen := ∅, layoutFound := false }
      { state := .new, seen := ∅, layoutFound := false } := by
    refine ⟨rfl, .inl ⟨ScanState.Touched.new, ?_⟩⟩
    intro copied
    simp
  obtain ⟨following, followed, ends⟩ := foldlM_simulation
    (ArchivePart.touch platform path bytes limits.scan.maxPathBytes) _
    (scanArchive_follows other isSidecar small bytesAllowed ratioAllowed) start looped
  rcases ends.agrees with touched | conflicted
  swap
  · obtain ⟨sidecar, member, located⟩ := kept
    exact absurd located (conflicted.absent sidecar member)
  refine ⟨following.state, ?_, touched.state⟩
  have inputs : validateInputs (parts.map (ArchivePart.touch platform path bytes
      limits.scan.maxPathBytes)) limits.maxArchives = .ok () := by
    rw [← valid]
    simp only [validateInputs, List.isEmpty_map, List.length_map, List.forM_eq_forM, List.forM_map]
    rfl
  rw [readArchives, bind_eq_ok]
  refine ⟨(), inputs, ?_⟩
  rw [bind_eq_ok]
  refine ⟨following, followed, ?_⟩
  rw [reject_bind_eq_ok]
  refine ⟨?_, rfl⟩
  rw [Bool.and_eq_false_iff, beq_eq_false_iff_ne]
  exact .inl other

/-! ## Scans -/

/-- The archives of Apple Photos and Picasa admit entries of one byte. -/
theorem Adapter.archives_admit {adapter : Adapter} {flavor : ArchiveFlavor} {limits : ArchiveLimits}
    (valid : adapter.validate = .ok ()) (known : adapter.archives = some (flavor, limits)) :
    1 ≤ limits.maxEntryBytes ∧ 1 ≤ limits.maxCompressionRatio := by
  cases adapter with
  | folder config => cases known
  | takeout config =>
      obtain ⟨_, rfl⟩ := Prod.mk.inj (Option.some.inj known)
      rw [Adapter.validate, TakeoutScanConfig.validate, bind_eq_ok] at valid
      obtain ⟨_, _, valid⟩ := valid
      simp only [reject_bind_eq_ok, reject_eq_ok, Bool.or_eq_false_iff, within,
        Bool.not_eq_false', Bool.and_eq_true, decide_eq_true_eq, beq_eq_false_iff_ne] at valid
      obtain ⟨_, bytes, ratio, _⟩ := valid
      exact ⟨Nat.one_le_iff_ne_zero.mpr bytes, ratio⟩
  | applePhotos config =>
      obtain ⟨_, rfl⟩ := Prod.mk.inj (Option.some.inj known)
      rw [Adapter.validate, ApplePhotosScanConfig.validate, bind_eq_ok] at valid
      obtain ⟨_, _, valid⟩ := valid
      simp only [reject_bind_eq_ok, reject_eq_ok, Bool.or_eq_false_iff, within,
        Bool.not_eq_false', Bool.and_eq_true, decide_eq_true_eq, beq_eq_false_iff_ne] at valid
      obtain ⟨_, ⟨bytes, ratio, _⟩, _⟩ := valid
      exact ⟨Nat.one_le_iff_ne_zero.mpr bytes, ratio⟩
  | picasa config documents =>
      obtain ⟨_, rfl⟩ := Prod.mk.inj (Option.some.inj known)
      rw [Adapter.validate, PicasaScanConfig.validate, bind_eq_ok] at valid
      obtain ⟨_, _, valid⟩ := valid
      simp only [reject_bind_eq_ok, reject_eq_ok, Bool.or_eq_false_iff, within,
        Bool.not_eq_false', Bool.and_eq_true, decide_eq_true_eq, beq_eq_false_iff_ne] at valid
      obtain ⟨⟨⟨_, bytes⟩, ratio, _⟩, _⟩ := valid
      exact ⟨Nat.one_le_iff_ne_zero.mpr bytes, ratio⟩

/-- Every scan of a source whose sidecars at one path were replaced by another byte or none. -/
theorem Adapter.Scanned.touch {adapter : Adapter} {form : SourceForm} {state : ScanState}
    (scanned : adapter.Scanned platform form state) (other : ∀ config, adapter ≠ .takeout config)
    (isSidecar : mediaKind platform path = none) (small : bytes.length ≤ 1)
    (kept : ∃ sidecar ∈ state.sidecars, sidecar.relativePath = path) :
    ∃ following, adapter.Scanned platform form following ∧
      ScanState.Touched platform path bytes state following := by
  cases scanned with
  | directory valid read =>
      obtain ⟨following, followed, touched⟩ := discover_touched isSidecar read bytes
      exact ⟨following, .directory valid followed, touched⟩
  | archives valid known read =>
      rename_i flavor limits parts
      have flavored : flavor ≠ .takeout := by
        rintro rfl
        cases adapter with
        | takeout config => exact other config rfl
        | folder config => cases known
        | applePhotos config => cases known
        | picasa config documents => cases known
      obtain ⟨bytesAllowed, ratioAllowed⟩ := Adapter.archives_admit valid known
      obtain ⟨following, followed, touched⟩ :=
        readArchives_touched flavored isSidecar small bytesAllowed ratioAllowed read kept
      exact ⟨following, .archives valid known followed, touched⟩

/-! ## Reconciliation -/

namespace ScanState.Touched

theorem sidecarPaths (touched : Touched platform path bytes first second) :
    second.sidecars.map DiscoveredSidecar.relativePath =
      first.sidecars.map DiscoveredSidecar.relativePath := by
  rw [touched.sidecars, List.map_map]
  exact List.map_congr_left fun sidecar _ => relativePath_touch platform path bytes sidecar

theorem collisions (touched : Touched platform path bytes first second) :
    collisions second = collisions first := by
  rw [ImmichRs.collisions, ImmichRs.collisions, touched.media, touched.sidecarPaths]

theorem prepare (touched : Touched platform path bytes first second) :
    Touched platform path bytes first.prepare second.prepare := by
  constructor
  · simp only [ScanState.prepare, removeUnicodeCollisions, touched.media, touched.collisions]
  · have kept : ((fun sidecar : DiscoveredSidecar =>
        !(ImmichRs.collisions first).contains sidecar.relativePath) ∘
          DiscoveredSidecar.touch platform path bytes) =
            fun sidecar => !(ImmichRs.collisions first).contains sidecar.relativePath := by
      funext sidecar
      rw [Function.comp_apply, relativePath_touch]
    simp only [ScanState.prepare, removeUnicodeCollisions, touched.collisions, touched.sidecars,
      List.filter_map, kept]
    exact sortBy_map (relativePath_touch platform path bytes) _
  · exact touched.warnings
  · simp only [ScanState.prepare, removeUnicodeCollisions, touched.errors, touched.collisions]
  · exact touched.entriesSeen

theorem reconcileSidecar (touched : Touched platform path bytes first second)
    (sidecar : DiscoveredSidecar) :
    Touched platform path bytes (reconcileSidecar first sidecar)
      (reconcileSidecar second (sidecar.touch platform path bytes)) := by
  have located := relativePath_touch platform path bytes sidecar
  have kind := kind_touch platform path bytes sidecar
  have exact : exactMatch second (sidecar.touch platform path bytes) = exactMatch first sidecar := by
    simp only [exactMatch, kind, located, touched.media]
  have basename : basenameMatches second (sidecar.touch platform path bytes) =
      basenameMatches first sidecar := by
    simp only [basenameMatches, located, touched.media]
  have attach : attachSidecar (sidecar.touch platform path bytes) = attachSidecar sidecar := by
    funext rule media
    rw [attachSidecar, attachSidecar, located, kind]
  rw [ImmichRs.reconcileSidecar, ImmichRs.reconcileSidecar, exact, basename, attach, located]
  split
  · exact { touched with media := by rw [touched.media] }
  · split
    · exact { touched with media := by rw [touched.media] }
    · exact touched.warn _
    · simp only [mediaPaths, touched.media]
      exact touched.fail _

theorem reconcileSidecars (touched : Touched platform path bytes first second) :
    Touched platform path bytes (reconcileSidecars first) (reconcileSidecars second) := by
  rw [ImmichRs.reconcileSidecars, ImmichRs.reconcileSidecars, touched.sidecars, List.foldl_map]
  have loop : ∀ (sidecars : List DiscoveredSidecar) {first second : ScanState},
      Touched platform path bytes first second →
        Touched platform path bytes (sidecars.foldl ImmichRs.reconcileSidecar first)
          (sidecars.foldl (fun state sidecar =>
            ImmichRs.reconcileSidecar state (sidecar.touch platform path bytes)) second) := by
    intro sidecars
    induction sidecars with
    | nil => exact fun touched => touched
    | cons sidecar rest induction => exact fun touched => induction (touched.reconcileSidecar sidecar)
  exact loop first.sidecars touched

theorem complete (touched : Touched platform path bytes first second) :
    Touched platform path bytes (first.complete platform) (second.complete platform) := by
  constructor
  · simp only [ScanState.complete, touched.media]
  · exact touched.sidecars
  · simp only [ScanState.complete, touched.media, touched.warnings]
  · simp only [ScanState.complete, touched.media, touched.errors]
  · exact touched.entriesSeen

/-- Only the identities of the touched sidecars differ after reconciliation. -/
theorem reconcile (touched : Touched platform path bytes first second) {adapter : Adapter}
    (other : ∀ config, adapter ≠ .takeout config) (contents : String → Option (List UInt8)) :
    Touched platform path bytes (adapter.reconcile platform contents first)
      (adapter.reconcile platform contents second) := by
  have folder := touched.prepare.reconcileSidecars.complete
  cases adapter with
  | takeout config => exact absurd rfl (other config)
  | folder _ => exact folder
  | applePhotos _ => exact folder
  | picasa _ _ => exact folder

end ScanState.Touched

end

end ImmichRs
