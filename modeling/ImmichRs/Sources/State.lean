import ImmichRs.Sources.Scan
import ImmichRs.Collections.Sorting
import ImmichRs.Core.Sha1

/-!
# Scan state

What discovery hands to reconciliation: media, sidecars and diagnostics, with the classification of
portable paths by their extension.
-/

namespace ImmichRs

open Collections

/-! ## Library operations of the sources -/

/-- Coordinates of a Takeout document. -/
structure RawGeo (F64 : Type) where
  latitude : Option F64
  longitude : Option F64

/-- The fields of a Takeout document which are read; a time is its timestamp. -/
structure RawDocument (F64 : Type) where
  title : String
  description : Option String
  photoTakenTime : Option String
  creationTime : Option String
  geoDataExif : Option (RawGeo F64)
  geoData : Option (RawGeo F64)

/-- Library operations which only the sources use. -/
structure SourcePlatform extends Platform where
  /-- `str::to_lowercase`. -/
  lowercase : String → String
  /-- `value.nfc().collect::<String>()`. -/
  nfc : String → String
  /-- `serde_json::from_slice::<RawDocument>`. -/
  decodeDocument : List UInt8 → Option (RawDocument F64)
  /-- `OffsetDateTime::from_unix_timestamp`. -/
  fromUnixTimestamp : Int → Option OffsetDateTime
  /-- `Date::from_calendar_date`, `Time::from_hms` and `assume_utc`. -/
  fromCalendar : Int → Nat → Nat → Nat → Nat → Nat → Option OffsetDateTime
  /-- SHA-1 in base 64. -/
  sha1Base64 : List UInt8 → String
  /-- The components of `ZipFile::enclosed_name`, unless it is unsafe. -/
  enclosedName : String → Option (List String)

/-! ## Portable paths -/

/-- `str::split`, with the parts in order. -/
def splitChars (separator : Char) : List Char → List (List Char)
  | [] => [[]]
  | character :: rest =>
      if character = separator then
        [] :: splitChars separator rest
      else
        match splitChars separator rest with
        | [] => [[character]]
        | part :: parts => (character :: part) :: parts

theorem splitChars_of_notMem {separator : Char} {characters : List Char}
    (free : separator ∉ characters) : splitChars separator characters = [characters] := by
  induction characters with
  | nil => rfl
  | cons character rest induction =>
      rw [List.mem_cons, not_or] at free
      obtain ⟨different, free⟩ := free
      rw [splitChars, if_neg (Ne.symm different), induction free]

theorem splitChars_append {separator : Char} {front rest : List Char} (free : separator ∉ front) :
    splitChars separator (front ++ separator :: rest) =
      front :: splitChars separator rest := by
  induction front with
  | nil => rw [List.nil_append, splitChars, if_pos rfl]
  | cons character front induction =>
      rw [List.mem_cons, not_or] at free
      obtain ⟨different, free⟩ := free
      rw [List.cons_append, splitChars, if_neg (Ne.symm different), induction free]

/-- `str::split` for one character. -/
def splitOn (value : String) (separator : Char) : List String :=
  (splitChars separator value.toList).map String.ofList

/-- The platform restricted to ASCII names, to the number zero, to the Unix epoch and to no Takeout
document. -/
def SourcePlatform.reference : SourcePlatform where
  toPlatform :=
    { Platform.reference with
      F64 := Unit
      parseF64 := fun value => if value == "0" then some () else none
      isFinite := fun _ => true
      isZero := fun _ => true
      withinRange := fun minimum maximum _ => decide (minimum ≤ 0) && decide (0 ≤ maximum)
      displayF64 := fun _ => "0" }
  lowercase value := String.ofList (value.toList.map Char.toLower)
  nfc value := value
  decodeDocument _ := none
  fromUnixTimestamp seconds := if seconds = 0 then some () else none
  fromCalendar year month day hour minute second :=
    if year = 1970 ∧ month = 1 ∧ day = 1 ∧ hour = 0 ∧ minute = 0 ∧ second = 0 then some () else none
  sha1Base64 := Sha1.base64
  enclosedName name :=
    if name.toList.head? = some '/' then
      none
    else
      some ((splitOn name '/').filter fun part => !part.isEmpty)

/-- `Path::file_name`: the last component, unless it is the parent directory. -/
def pathFileName (path : String) : Option String :=
  match ((splitOn path '/').filter fun part => !part.isEmpty && part != ".").getLast? with
  | none => none
  | some name => if name = ".." then none else some name

/-- `stem` of a portable path. -/
def stem (path : String) : String :=
  match rsplitOnce (filename path) '.' with
  | some (name, _) => name
  | none => filename path

section

variable (platform : SourcePlatform)

/-- `extension`: a name which starts with its only dot has none. -/
def extension (path : String) : Option String :=
  match pathFileName path with
  | none => none
  | some name =>
      match rsplitOnce name '.' with
      | none => none
      | some (before, after) => if before.isEmpty then none else some (platform.lowercase after)

/-- `media_kind`. -/
def mediaKind (path : String) : Option MediaKind :=
  match extension platform path with
  | none => none
  | some suffix =>
      if ["jpg", "jpeg", "png", "heic", "heif", "webp", "gif", "tif", "tiff", "dng", "cr2", "cr3",
          "arw", "raf", "nef"].contains suffix then
        some .image
      else if ["mp4", "mov", "avi", "mkv", "m4v", "3gp"].contains suffix then
        some .video
      else
        none

/-- `metadata_kind`. -/
def metadataKind (path : String) : Option MetadataKind :=
  match extension platform path with
  | none => none
  | some suffix =>
      if suffix = "json" then some .json else if suffix = "xmp" then some .xmp else none

end

/-! ## Discovered files -/

/-- A parsed Takeout document. -/
structure TakeoutDocument where
  title : String
  metadata : NormalizedMetadata
  deriving DecidableEq, Repr

/-- Why a Takeout document was refused. -/
inductive ParseError
  | invalid | oversized | sourceChanged
  deriving DecidableEq, Repr

/-- A media file. -/
structure DiscoveredMedia where
  nativePath : String
  archiveIndex : Option Nat
  relativePath : String
  kind : MediaKind
  byteLen : UInt64
  contentSha256 : String
  contentSha1Base64 : String
  createdAtUnixMs : Option Int
  modifiedAtUnixMs : Option Int
  metadata : List MetadataCandidate
  normalizedMetadata : Option NormalizedMetadata
  livePhoto : Option LivePhotoMember
  evidence : List RuleEvidence
  deriving DecidableEq

/-- A metadata sidecar. -/
structure DiscoveredSidecar where
  nativePath : String
  archiveIndex : Option Nat
  relativePath : String
  kind : MetadataKind
  byteLen : UInt64
  contentSha256 : String
  contentSha1Base64 : String
  createdAtUnixMs : Option Int
  modifiedAtUnixMs : Option Int
  takeoutDocument : Option TakeoutDocument
  takeoutParseError : Option ParseError
  deriving DecidableEq

/-- The state of a scan, without its progress events. -/
structure ScanState where
  media : List DiscoveredMedia
  sidecars : List DiscoveredSidecar
  warnings : List PlanDiagnostic
  errors : List PlanDiagnostic
  entriesSeen : Nat
  bytesRead : Nat

/-- `ScanState::new`. -/
def ScanState.new : ScanState :=
  { media := [], sidecars := [], warnings := [], errors := [], entriesSeen := 0, bytesRead := 0 }

/-- `state.warnings.push(..)`. -/
def ScanState.warn (state : ScanState) (diagnostic : PlanDiagnostic) : ScanState :=
  { state with warnings := state.warnings ++ [diagnostic] }

/-- `state.errors.push(..)`. -/
def ScanState.fail (state : ScanState) (diagnostic : PlanDiagnostic) : ScanState :=
  { state with errors := state.errors ++ [diagnostic] }

/-- `MAX_DIAGNOSTIC_PATHS`. -/
def maxDiagnosticPaths : Nat := 8

/-- `diagnostic`. -/
def diagnostic (rule code : String) (paths : List String) : PlanDiagnostic :=
  { ruleId := rule, code := code, paths := (sortDedup paths).take maxDiagnosticPaths }

/-! ## Orders of attached facts -/

/-- The position of a sidecar family in its order. -/
def MetadataKind.rank : MetadataKind → Nat
  | .json => 0
  | .xmp => 1

/-- The fields of a candidate in the order in which they are compared. -/
def MetadataCandidate.key (candidate : MetadataCandidate) : String ×ₗ Nat ×ₗ String :=
  toLex (candidate.relativePath, toLex (candidate.kind.rank, candidate.ruleId))

theorem MetadataCandidate.key_injective : Function.Injective MetadataCandidate.key := by
  rintro ⟨_, firstKind, _⟩ ⟨_, secondKind, _⟩ equal
  simp only [MetadataCandidate.key, toLex_inj, Prod.mk.injEq] at equal
  obtain ⟨rfl, kinds, rfl⟩ := equal
  cases firstKind <;> cases secondKind <;> first | rfl | cases kinds

instance : LinearOrder MetadataCandidate :=
  LinearOrder.lift' MetadataCandidate.key MetadataCandidate.key_injective

/-- The fields of a piece of evidence in the order in which they are compared. -/
def RuleEvidence.key (evidence : RuleEvidence) : String ×ₗ String :=
  toLex (evidence.ruleId, evidence.outcome)

theorem RuleEvidence.key_injective : Function.Injective RuleEvidence.key := by
  rintro ⟨_, _⟩ ⟨_, _⟩ equal
  simp only [RuleEvidence.key, toLex_inj, Prod.mk.injEq] at equal
  obtain ⟨rfl, rfl⟩ := equal
  rfl

instance : LinearOrder RuleEvidence :=
  LinearOrder.lift' RuleEvidence.key RuleEvidence.key_injective

end ImmichRs
