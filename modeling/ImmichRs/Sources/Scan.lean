import ImmichRs.Core.Planning

/-!
# Scan configurations and resolved scans

The limits of the source adapters with their validators, the fail-closed scan errors, and the
resolved plan which a scan hands to the executors.
-/

namespace ImmichRs

open Std (ExtTreeMap)

/-- Fail-closed source scan failure. -/
inductive ScanError
  | invalidConfiguration (message : String)
  | invalidRoot
  | unsupportedLayout (message : String)
  | invalidArchive (message : String)
  | limitExceeded (limit : String)
  | cancelled
  | invalidPlan (error : PlanValidationError)
  deriving DecidableEq, Repr

/-- Explicit memory and portability limits for one folder scan. -/
structure FolderScanConfig where
  bufferBytes : Nat
  maxEntries : Nat
  maxDirectoryEntries : Nat
  maxPathBytes : Nat
  caseSensitive : Bool
  deriving DecidableEq, Repr

/-- `FolderScanConfig::default`. -/
def FolderScanConfig.default : FolderScanConfig :=
  { bufferBytes := 64 * 1024
    maxEntries := 100000
    maxDirectoryEntries := 10000
    maxPathBytes := 4096
    caseSensitive := true }

/-- Whether a value lies in an inclusive range. -/
def within (minimum maximum value : Nat) : Bool :=
  decide (minimum ≤ value) && decide (value ≤ maximum)

/-- `FolderScanConfig::validate`. -/
def FolderScanConfig.validate (config : FolderScanConfig) : Except ScanError Unit := do
  reject (!within (4 * 1024) (4 * 1024 * 1024) config.bufferBytes)
    (.invalidConfiguration "buffer_bytes must be in 4096..=4194304")
  reject (config.maxEntries == 0 || config.maxDirectoryEntries == 0)
    (.invalidConfiguration "entry limits must be greater than zero")
  reject (!within 64 65536 config.maxPathBytes)
    (.invalidConfiguration "max_path_bytes must be in 64..=65536")

/-- Explicit limits for a directory or split-ZIP Google Takeout scan. -/
structure TakeoutScanConfig where
  scan : FolderScanConfig
  maxArchives : Nat
  maxArchiveEntryBytes : Nat
  maxCompressionRatio : Nat
  compressionRatioGraceBytes : Nat
  deriving DecidableEq, Repr

/-- `TakeoutScanConfig::default`. -/
def TakeoutScanConfig.default : TakeoutScanConfig :=
  { scan := .default
    maxArchives := 64
    maxArchiveEntryBytes := 1099511627776
    maxCompressionRatio := 200
    compressionRatioGraceBytes := 1048576 }

/-- `TakeoutScanConfig::validate`. -/
def TakeoutScanConfig.validate (config : TakeoutScanConfig) : Except ScanError Unit := do
  config.scan.validate
  reject (!within 1 64 config.maxArchives)
    (.invalidConfiguration "max_archives must be in 1..=64")
  reject (config.maxArchiveEntryBytes == 0 || !within 1 10000 config.maxCompressionRatio)
    (.invalidConfiguration "archive byte and compression limits must be positive and bounded")

/-- Explicit folder-to-album mapping. -/
inductive AlbumMode
  | none | folder | path
  deriving DecidableEq, Repr

/-- Bounded options for Apple Photos directory or independent ZIP inputs. -/
structure ApplePhotosScanConfig where
  scan : FolderScanConfig
  maxArchives : Nat
  maxArchiveEntryBytes : Nat
  maxCompressionRatio : Nat
  compressionRatioGraceBytes : Nat
  albumMode : AlbumMode
  albumPathJoiner : String
  deriving DecidableEq, Repr

/-- `ApplePhotosScanConfig::default`. -/
def ApplePhotosScanConfig.default : ApplePhotosScanConfig :=
  { scan := .default
    maxArchives := 64
    maxArchiveEntryBytes := 1099511627776
    maxCompressionRatio := 200
    compressionRatioGraceBytes := 1048576
    albumMode := .none
    albumPathJoiner := " - " }

/-- `ApplePhotosScanConfig::validate`. -/
def ApplePhotosScanConfig.validate (config : ApplePhotosScanConfig) : Except ScanError Unit := do
  config.scan.validate
  reject (!within 1 64 config.maxArchives)
    (.invalidConfiguration "max_archives must be in 1..=64")
  reject (config.maxArchiveEntryBytes == 0 || !within 1 10000 config.maxCompressionRatio)
    (.invalidConfiguration "archive byte and compression limits must be positive and bounded")
  reject (config.albumPathJoiner.isEmpty || decide (32 < byteLen config.albumPathJoiner) ||
    (containsChar config.albumPathJoiner '/' || containsChar config.albumPathJoiner '\\') ||
    anyChar config.albumPathJoiner isControl)
    (.invalidConfiguration "album_path_joiner must be 1..=32 safe UTF-8 bytes")

/-- Bounded options for Picasa directory or independent ZIP inputs. -/
structure PicasaScanConfig where
  scan : FolderScanConfig
  maxArchives : Nat
  maxArchiveEntryBytes : Nat
  maxCompressionRatio : Nat
  compressionRatioGraceBytes : Nat
  albumMode : AlbumMode
  albumPathJoiner : String
  picasaAlbums : Bool
  filenameDate : Bool
  deriving DecidableEq, Repr

/-- `PicasaScanConfig::default`. -/
def PicasaScanConfig.default : PicasaScanConfig :=
  { scan := .default
    maxArchives := 64
    maxArchiveEntryBytes := 1099511627776
    maxCompressionRatio := 200
    compressionRatioGraceBytes := 1048576
    albumMode := .none
    albumPathJoiner := " / "
    picasaAlbums := true
    filenameDate := true }

/-- `PicasaScanConfig::validate`.  Unlike the Apple adapter it admits a slash in the joiner. -/
def PicasaScanConfig.validate (config : PicasaScanConfig) : Except ScanError Unit := do
  config.scan.validate
  reject (!within 1 64 config.maxArchives || config.maxArchiveEntryBytes == 0 ||
    !within 1 10000 config.maxCompressionRatio)
    (.invalidConfiguration "Picasa archive limits must be positive and bounded")
  reject (config.albumPathJoiner.isEmpty || decide (32 < byteLen config.albumPathJoiner) ||
    containsChar config.albumPathJoiner '\\' || anyChar config.albumPathJoiner isControl)
    (.invalidConfiguration "album_path_joiner must be 1..=32 safe UTF-8 bytes")

/-- `PicasaScanConfig::as_archive_config`. -/
def PicasaScanConfig.asArchiveConfig (config : PicasaScanConfig) : ApplePhotosScanConfig :=
  { scan := config.scan
    maxArchives := config.maxArchives
    maxArchiveEntryBytes := config.maxArchiveEntryBytes
    maxCompressionRatio := config.maxCompressionRatio
    compressionRatioGraceBytes := config.compressionRatioGraceBytes
    albumMode := .none
    albumPathJoiner := "-" }

/-- Ephemeral native resolution and content identity for one scanned file. -/
structure ResolvedSourceFile where
  nativePath : String
  archiveIndex : Option Nat
  byteLen : UInt64
  contentSha256 : String
  contentSha1Base64 : String
  createdAtUnixMs : Option Int
  modifiedAtUnixMs : Option Int
  deriving DecidableEq

/-- One normalized plan paired with native source path resolution. -/
structure ResolvedFolderPlan where
  plan : NormalizedPlan
  files : ExtTreeMap String ResolvedSourceFile

/-- `ResolvedFolderPlan::source_file`. -/
def ResolvedFolderPlan.sourceFile (resolved : ResolvedFolderPlan) (portablePath : String) :
    Option ResolvedSourceFile :=
  resolved.files[portablePath]?

/-- Every default configuration passes its own validator. -/
theorem default_configurations_valid :
    TakeoutScanConfig.default.validate = .ok () ∧ ApplePhotosScanConfig.default.validate = .ok () ∧
      PicasaScanConfig.default.validate = .ok () := by
  decide

end ImmichRs
