import ImmichRs.Core.Totals

/-!
# Archive manifests

The contract of a read-only archive: originals sorted by their destination below the archive root.
The validator indexes the file name of an asset by bytes, so a result is a value, an error or a
panic.  `ArchiveManifest.Accepted` is what the validator establishes.
-/

namespace ImmichRs

open Std (ExtTreeSet)

/-- How a computation which may panic ends without a value. -/
inductive Stop (ε : Type)
  | panicked
  | failed (error : ε)
  deriving DecidableEq

/-- `Result::map_err`. -/
def Stop.map {ε ε' : Type} (convert : ε → ε') : Stop ε → Stop ε'
  | .panicked => .panicked
  | .failed error => .failed (convert error)

/-- One immutable original asset selected from Immich. -/
structure ArchiveAsset where
  assetId : String
  originalFileName : String
  targetPath : String
  mediaKind : MediaKind
  byteLen : UInt64
  checksumSha1 : String
  deriving DecidableEq

/-- Deterministic counters of an archive manifest. -/
structure ArchiveManifestSummary where
  assets : Nat
  mediaBytes : UInt64
  deriving DecidableEq

/-- Versioned read-only inventory consumed by local archive apply. -/
structure ArchiveManifest where
  schemaVersion : Nat
  server : ServerCompatibility
  configurationSha256 : String
  assets : List ArchiveAsset
  summary : ArchiveManifestSummary
  deriving DecidableEq

/-- `ARCHIVE_MANIFEST_SCHEMA_VERSION`. -/
def archiveManifestSchemaVersion : Nat := 1

/-- Reason an immutable archive contract failed validation. -/
inductive ArchiveManifestValidationError
  | unsupportedSchema (version : Nat)
  | invalidIdentity
  | invalidAsset
  | duplicateAssetId
  | assetsNotStrictlySorted
  | summaryMismatch
  | invalidReport
  deriving DecidableEq, Repr

/-! ## Serialization -/

/-- Serialization of one archived asset. -/
def ArchiveAsset.serialize (asset : ArchiveAsset) : String :=
  jsonObject
    [("asset_id", jsonString asset.assetId),
      ("original_file_name", jsonString asset.originalFileName),
      ("target_path", jsonString asset.targetPath), ("media_kind", asset.mediaKind.serialize),
      ("byte_len", toString asset.byteLen.toNat),
      ("checksum_sha1", jsonString asset.checksumSha1)]

/-- Serialization of an archive manifest. -/
def ArchiveManifest.serialize (manifest : ArchiveManifest) : String :=
  jsonObject
    [("schema_version", toString manifest.schemaVersion),
      ("server", manifest.server.serialize),
      ("configuration_sha256", jsonString manifest.configurationSha256),
      ("assets", jsonArray (manifest.assets.map ArchiveAsset.serialize)),
      ("summary", jsonObject
        [("assets", toString manifest.summary.assets),
          ("media_bytes", toString manifest.summary.mediaBytes.toNat)])]

/-! ## File names -/

/-- The longest prefix of exactly `length` bytes; there is none inside a character. -/
def takeBytes : Nat → List Char → Option (List Char)
  | 0, _ => some []
  | _ + 1, [] => none
  | length + 1, character :: rest =>
      if character.utf8Size ≤ length + 1 then
        (takeBytes (length + 1 - character.utf8Size) rest).map (character :: ·)
      else
        none

/-- `&value[..length]`, which panics where `length` is no boundary of characters. -/
def sliceTo (value : String) (length : Nat) : Option String :=
  (takeBytes length value.toList).map String.ofList

/-- `str::to_ascii_uppercase`. -/
def toAsciiUppercase (value : String) : String :=
  String.ofList (value.toList.map Char.toUpper)

/-- `value.split('.').next()`: the part before the first dot. -/
def leadingStem (value : String) : String :=
  String.ofList (value.toList.takeWhile (· != '.'))

/-- The checks which `safe_component` makes before it looks at the stem. -/
def plainComponent (value : String) : Bool :=
  !(value.isEmpty || decide (255 < byteLen value) || value == "." || value == ".." ||
    (value.toList.getLast?.any fun last => last == '.' || last == ' ') ||
    (containsChar value '/' || containsChar value '\\') || anyChar value isControl)

/-- Whether the fourth byte of a stem is one of the digits `1` to `9`. -/
def numberedStem (stem : String) : Bool :=
  (utf8Bytes stem)[3]?.any fun byte => decide (48 ≤ byte.toNat) && decide (byte.toNat ≤ 57) &&
    byte.toNat != 48

/-- Whether an upper-case stem names a device; `none` is a panic. -/
def reservedStem (stem : String) : Option Bool :=
  if ["CON", "PRN", "AUX", "NUL"].contains stem then
    some true
  else if byteLen stem = 4 then
    (sliceTo stem 3).map fun family => ["COM", "LPT"].contains family && numberedStem stem
  else
    some false

/-- `safe_component`; `none` is a panic. -/
def safeComponent (value : String) : Option Bool :=
  if plainComponent value then
    (reservedStem (toAsciiUppercase (leadingStem value))).map (!·)
  else
    some false

/-! ## Validation -/

/-- `canonical_uuid_v4`. -/
def canonicalUuidV4 (value : String) : Bool := uuidV4 value

/-- `is_sha1`. -/
def isSha1 (value : String) : Bool := lowerHex value 40

/-- `format!("assets/{}/{}", asset_id, original_file_name)`. -/
def archiveTarget (assetId originalFileName : String) : String :=
  "assets/" ++ assetId ++ "/" ++ originalFileName

/-- `validate_asset`, which records the identifier of the asset. -/
def validateAsset (asset : ArchiveAsset) (previousPath : Option String) (ids : ExtTreeSet String) :
    Except (Stop ArchiveManifestValidationError) (ExtTreeSet String) := do
  reject (!canonicalUuidV4 asset.assetId) (.failed .invalidAsset)
  match safeComponent asset.originalFileName with
  | none => .error .panicked
  | some safe =>
      reject (!safe || !isSha1 asset.checksumSha1 ||
        asset.targetPath != archiveTarget asset.assetId asset.originalFileName)
        (.failed .invalidAsset)
      reject (ids.contains asset.assetId) (.failed .duplicateAssetId)
      reject (previousPath.any fun path => decide (asset.targetPath ≤ path))
        (.failed .assetsNotStrictlySorted)
      return ids.insert asset.assetId

/-- The loop of `ArchiveManifest::validate`, which counts the bytes. -/
def validateArchiveAssets : List ArchiveAsset → Option String → ExtTreeSet String → UInt64 →
    Except (Stop ArchiveManifestValidationError) UInt64
  | [], _, _, bytes => .ok bytes
  | asset :: rest, previousPath, ids, bytes => do
      let ids ← validateAsset asset previousPath ids
      match checkedAdd bytes asset.byteLen with
      | none => .error (.failed .summaryMismatch)
      | some bytes => validateArchiveAssets rest (some asset.targetPath) ids bytes

/-- `ArchiveManifest::validate`. -/
def ArchiveManifest.validate (manifest : ArchiveManifest) :
    Except (Stop ArchiveManifestValidationError) Unit := do
  reject (manifest.schemaVersion != archiveManifestSchemaVersion)
    (.failed (.unsupportedSchema manifest.schemaVersion))
  reject (!isLowerSha256 manifest.configurationSha256 ||
    !isLowerSha256 manifest.server.identitySha256 || manifest.server.version.major != 3 ||
    manifest.server.version.minor != 1) (.failed .invalidIdentity)
  let bytes ← validateArchiveAssets manifest.assets none ∅ 0
  reject (manifest.summary != { assets := manifest.assets.length, mediaBytes := bytes })
    (.failed .summaryMismatch)

/-! ## Reports -/

/-- Stable result of one idempotent local archive apply. -/
structure ArchiveApplyReport where
  schemaVersion : Nat
  manifestSha256 : String
  downloaded : Nat
  alreadyComplete : Nat
  bytesWritten : Nat
  retries : Nat
  deriving DecidableEq, Repr

/-- `ARCHIVE_APPLY_REPORT_SCHEMA_VERSION`. -/
def archiveApplyReportSchemaVersion : Nat := 1

/-- `ArchiveApplyReport::validate`. -/
def ArchiveApplyReport.validate (report : ArchiveApplyReport) (expectedAssets : Nat) :
    Except ArchiveManifestValidationError Unit :=
  reject (report.schemaVersion != archiveApplyReportSchemaVersion ||
    !isLowerSha256 report.manifestSha256 ||
    min (report.downloaded + report.alreadyComplete) (2 ^ 64 - 1) != expectedAssets) .invalidReport

/-! ## What the name check decides -/

/-- The names which a device may have before the first dot, in upper case. -/
def reservedNames : List String :=
  ["CON", "PRN", "AUX", "NUL", "COM1", "COM2", "COM3", "COM4", "COM5", "COM6", "COM7", "COM8",
    "COM9", "LPT1", "LPT2", "LPT3", "LPT4", "LPT5", "LPT6", "LPT7", "LPT8", "LPT9"]

/-- A file name which every supported platform can store, and which names no device. -/
structure SafeName (value : String) : Prop where
  nonempty : 1 ≤ byteLen value
  bounded : byteLen value ≤ 255
  noDots : value ≠ "." ∧ value ≠ ".."
  ending : ∀ last, value.toList.getLast? = some last → last ≠ '.' ∧ last ≠ ' '
  separators : '/' ∉ value.toList ∧ '\\' ∉ value.toList
  controls : ∀ character ∈ value.toList, isControl character = false
  reserved : toAsciiUppercase (leadingStem value) ∉ reservedNames

/-- A name which passes every check before the stem, and whose stem of four bytes ends inside
a character at the third. -/
structure CutsCharacter (value : String) : Prop where
  plain : plainComponent value = true
  length : byteLen (leadingStem value) = 4
  wide : ∃ last, (leadingStem value).toList.getLast? = some last ∧ 1 < last.utf8Size

/-- Conversion to upper case keeps the length of every character. -/
theorem utf8Size_toUpper (character : Char) :
    character.toUpper.utf8Size = character.utf8Size := by
  delta Char.toUpper
  split
  · rename_i lower
    have narrow : character.utf8Size = 1 := by
      apply Char.utf8Size_eq_one_iff.mpr
      exact UInt32.le_trans lower.2 (by decide)
    rw [narrow, Char.utf8Size_eq_one_iff]
    have values := lower
    simp only [UInt32.le_iff_toNat_le, Char.reduceVal, UInt32.reduceToNat, UInt32.toNat_add,
      UInt32.reduceSub] at values ⊢
    omega
  · rfl

theorem byteLen_toAsciiUppercase (value : String) :
    byteLen (toAsciiUppercase value) = byteLen value := by
  have characters (characters : List Char) : byteLen (String.ofList (characters.map Char.toUpper)) =
      byteLen (String.ofList characters) := by
    induction characters with
    | nil => rfl
    | cons character rest induction =>
        rw [List.map_cons, byteLen_ofList_cons, byteLen_ofList_cons, induction, utf8Size_toUpper]
  rw [toAsciiUppercase, characters, String.ofList_toList]

/-- A prefix is found exactly where the characters split at that many bytes. -/
theorem takeBytes_eq_some {length : Nat} {characters front : List Char} :
    takeBytes length characters = some front ↔
      ∃ rest, characters = front ++ rest ∧ byteLen (String.ofList front) = length := by
  induction characters generalizing length front with
  | nil =>
      cases length with
      | zero =>
          rw [takeBytes, Option.some.injEq]
          constructor
          · rintro rfl
            exact ⟨[], rfl, by simp [byteLen]⟩
          · rintro ⟨rest, empty, _⟩
            exact (List.append_eq_nil_iff.mp empty.symm).1.symm
      | succ length =>
          refine iff_of_false (fun taken => by cases taken) fun split => ?_
          obtain ⟨rest, empty, counted⟩ := split
          obtain ⟨rfl, rfl⟩ := List.append_eq_nil_iff.mp empty.symm
          exact absurd counted (by simp [byteLen])
  | cons character rest induction =>
      have positive := character.utf8Size_pos
      cases length with
      | zero =>
          rw [takeBytes, Option.some.injEq]
          constructor
          · rintro rfl
            exact ⟨_, rfl, by simp [byteLen]⟩
          · rintro ⟨tail, same, counted⟩
            cases front with
            | nil => rfl
            | cons first front =>
                rw [byteLen_ofList_cons] at counted
                have wide := first.utf8Size_pos
                omega
      | succ length =>
          cases front with
          | nil =>
              refine iff_of_false (fun taken => ?_) fun split => ?_
              · rw [takeBytes] at taken
                split at taken
                · obtain ⟨_, _, impossible⟩ := Option.map_eq_some_iff.mp taken
                  cases impossible
                · cases taken
              · obtain ⟨_, _, counted⟩ := split
                exact absurd counted (by simp [byteLen])
          | cons first front =>
              simp only [takeBytes, Option.ite_none_right_eq_some, Option.map_eq_some_iff,
                List.cons.injEq, induction, byteLen_ofList_cons, List.cons_append]
              constructor
              · rintro ⟨fits, _, ⟨tail, split, counted⟩, rfl, rfl⟩
                exact ⟨tail, ⟨rfl, split⟩, by omega⟩
              · rintro ⟨tail, ⟨rfl, split⟩, counted⟩
                exact ⟨by omega, front, ⟨tail, split, by omega⟩, rfl, rfl⟩

theorem singleton_of_byteLen {characters : List Char}
    (length : byteLen (String.ofList characters) = 1) :
    ∃ character, characters = [character] ∧ character.utf8Size = 1 := by
  cases characters with
  | nil => cases length
  | cons character rest =>
      rw [byteLen_ofList_cons] at length
      have positive := character.utf8Size_pos
      cases rest with
      | nil => exact ⟨character, rfl, by omega⟩
      | cons next rest =>
          rw [byteLen_ofList_cons] at length
          have following := next.utf8Size_pos
          omega

/-- The slice before the last of four bytes ends inside a character exactly where the last
character is wider than a byte. -/
theorem sliceTo_three_eq_none {value : String} (length : byteLen value = 4) :
    sliceTo value 3 = none ↔ ∃ last, value.toList.getLast? = some last ∧ 1 < last.utf8Size := by
  obtain ⟨front, last, characters⟩ : ∃ front last, value.toList = front ++ [last] := by
    apply (List.eq_nil_or_concat' value.toList).resolve_left
    intro empty
    rw [← String.ofList_toList (s := value), empty] at length
    cases length
  have counted : byteLen (String.ofList front) + last.utf8Size = 4 := by
    have total := length
    rw [← String.ofList_toList (s := value), characters, byteLen_ofList_append,
      byteLen_ofList_cons] at total
    simpa [byteLen] using total
  rw [sliceTo, Option.map_eq_none_iff, characters, List.getLast?_concat]
  constructor
  · intro cut
    refine ⟨last, rfl, ?_⟩
    by_contra narrow
    have positive := last.utf8Size_pos
    have found : takeBytes 3 (front ++ [last]) = some front :=
      takeBytes_eq_some.mpr ⟨[last], rfl, by omega⟩
    rw [cut] at found
    cases found
  · rintro ⟨_, ⟨rfl⟩, wide⟩
    rw [Option.eq_none_iff_forall_ne_some]
    intro taken found
    obtain ⟨rest, split, prefixLength⟩ := takeBytes_eq_some.mp found
    have restLength : byteLen (String.ofList rest) = 1 := by
      have total := length
      rw [← String.ofList_toList (s := value), characters, split, byteLen_ofList_append] at total
      omega
    obtain ⟨final, rfl, narrow⟩ := singleton_of_byteLen restLength
    obtain ⟨_, same⟩ := List.append_inj' split rfl
    obtain rfl := List.singleton_inj.mp same
    omega

theorem reservedStem_eq_none {value : String} :
    reservedStem value = none ↔
      byteLen value = 4 ∧ ∃ last, value.toList.getLast? = some last ∧ 1 < last.utf8Size := by
  rw [reservedStem]
  split
  · rename_i device
    refine iff_of_false nofun fun cut => ?_
    rw [List.contains_iff_mem] at device
    have three : byteLen value = 3 := by
      simp only [List.mem_cons, List.not_mem_nil, or_false] at device
      rcases device with rfl | rfl | rfl | rfl <;> rfl
    rw [three] at cut
    cases cut.1
  · split
    · rename_i length
      rw [Option.map_eq_none_iff, sliceTo_three_eq_none length]
      exact (and_iff_right length).symm
    · rename_i other
      exact iff_of_false nofun fun cut => other cut.1

/-- The byte after three bytes is the one of a digit exactly for the characters `1` to `9`. -/
theorem numberedStem_eq_true {front : List Char} {last : Char}
    (length : byteLen (String.ofList front) = 3) (narrow : last.utf8Size = 1) :
    numberedStem (String.ofList (front ++ [last])) = true ↔
      last ∈ ['1', '2', '3', '4', '5', '6', '7', '8', '9'] := by
  have bytes : (utf8Bytes (String.ofList (front ++ [last])))[3]? = some last.val.toUInt8 := by
    have counted : (front.flatMap String.utf8EncodeChar).length = 3 := by
      rw [← utf8Bytes_ofList, utf8Bytes, Array.length_toList]
      exact length
    rw [utf8Bytes_ofList, List.flatMap_append, List.flatMap_singleton,
      String.utf8EncodeChar_eq_singleton narrow, List.getElem?_append_right (by omega), counted]
    rfl
  have small : last.toNat ≤ 127 := UInt32.le_iff_toNat_le.mp (Char.utf8Size_eq_one_iff.mp narrow)
  have byte : last.val.toUInt8.toNat = last.toNat := by
    rw [UInt32.toNat_toUInt8, Nat.mod_eq_of_lt]
    · rfl
    · exact Nat.lt_of_le_of_lt small (by decide)
  rw [numberedStem, bytes]
  simp only [Option.any_some, byte, Bool.and_eq_true, decide_eq_true_eq, bne_iff_ne, List.mem_cons,
    List.not_mem_nil, or_false, ← Char.toNat_inj, Char.reduceToNat]
  omega

theorem reservedStem_of_mem {name : String} (reserved : name ∈ reservedNames) :
    reservedStem name = some true := by
  revert name
  decide +kernel

theorem family_append_digit :
    ∀ family ∈ ["COM", "LPT"], ∀ digit ∈ ['1', '2', '3', '4', '5', '6', '7', '8', '9'],
      family ++ String.ofList [digit] ∈ reservedNames := by
  intro family known digit counted
  simp only [List.mem_cons, List.not_mem_nil, or_false] at known
  rcases known with rfl | rfl <;> revert digit <;> simp [reservedNames, String.ext_iff]

/-- Outside of a panic, exactly the reserved names are recognised. -/
theorem reservedStem_eq_some {value : String} {device : Bool}
    (decided : reservedStem value = some device) :
    device = true ↔ value ∈ reservedNames := by
  constructor
  · rintro rfl
    rw [reservedStem] at decided
    split at decided
    · rename_i named
      rw [List.contains_iff_mem] at named
      simp only [List.mem_cons, List.not_mem_nil, or_false] at named
      rcases named with rfl | rfl | rfl | rfl <;> decide
    · split at decided
      · rename_i length
        obtain ⟨family, sliced, numbered⟩ := Option.map_eq_some_iff.mp decided
        obtain ⟨front, taken, rfl⟩ := Option.map_eq_some_iff.mp sliced
        obtain ⟨rest, characters, counted⟩ := takeBytes_eq_some.mp taken
        have restLength : byteLen (String.ofList rest) = 1 := by
          rw [← String.ofList_toList (s := value), characters, byteLen_ofList_append] at length
          omega
        obtain ⟨last, rfl, narrow⟩ := singleton_of_byteLen restLength
        obtain rfl := String.toList_injective (characters.trans String.toList_ofList.symm)
        rw [Bool.and_eq_true, List.contains_iff_mem, numberedStem_eq_true counted narrow]
          at numbered
        rw [String.ofList_append]
        exact family_append_digit _ numbered.1 last numbered.2
      · cases decided
  · intro reserved
    rw [reservedStem_of_mem reserved] at decided
    exact (Option.some.inj decided).symm

theorem plainComponent_eq_true {value : String} :
    plainComponent value = true ↔ 1 ≤ byteLen value ∧ byteLen value ≤ 255 ∧
      (value ≠ "." ∧ value ≠ "..") ∧
      (∀ last, value.toList.getLast? = some last → last ≠ '.' ∧ last ≠ ' ') ∧
      ('/' ∉ value.toList ∧ '\\' ∉ value.toList) ∧
      ∀ character ∈ value.toList, isControl character = false := by
  have nonempty : value.isEmpty = false ↔ 1 ≤ byteLen value := by
    rw [byteLen, Nat.one_le_iff_ne_zero, Ne, String.utf8ByteSize_eq_zero_iff,
      ← String.isEmpty_iff, Bool.not_eq_true]
  simp only [plainComponent, containsChar, anyChar, Bool.not_eq_true', Bool.or_eq_false_iff,
    nonempty, decide_eq_false_iff_not, Nat.not_lt, beq_eq_false_iff_ne, Option.any_eq_false,
    List.contains_eq_mem, List.any_eq_false, Bool.not_eq_true, and_assoc]

/-- The name check panics exactly on the names which cut a character. -/
theorem safeComponent_eq_none {value : String} :
    safeComponent value = none ↔ CutsCharacter value := by
  have plain : safeComponent value = none ↔ plainComponent value = true ∧
      reservedStem (toAsciiUppercase (leadingStem value)) = none := by
    rw [safeComponent]
    split <;> simp [*]
  rw [plain, reservedStem_eq_none, byteLen_toAsciiUppercase, toAsciiUppercase,
    String.toList_ofList, List.getLast?_map]
  constructor
  · rintro ⟨plain, length, _, ends, wide⟩
    obtain ⟨last, found, rfl⟩ := Option.map_eq_some_iff.mp ends
    rw [utf8Size_toUpper] at wide
    exact ⟨plain, length, last, found, wide⟩
  · rintro ⟨plain, length, last, found, wide⟩
    refine ⟨plain, length, last.toUpper, by rw [found]; rfl, ?_⟩
    rwa [utf8Size_toUpper]

/-- No device has a stem of more than four bytes. -/
theorem safeComponent_of_long {value : String} (plain : plainComponent value = true)
    (long : 4 < byteLen (leadingStem value)) : safeComponent value = some true := by
  have length := byteLen_toAsciiUppercase (leadingStem value)
  have unnamed : ["CON", "PRN", "AUX", "NUL"].contains (toAsciiUppercase (leadingStem value)) =
      false := by
    rw [← Bool.not_eq_true, List.contains_iff_mem]
    intro device
    have three : byteLen (toAsciiUppercase (leadingStem value)) = 3 := by
      simp only [List.mem_cons, List.not_mem_nil, or_false] at device
      rcases device with device | device | device | device <;> rw [device] <;> rfl
    omega
  rw [safeComponent, if_pos plain, reservedStem, unnamed, if_neg (by decide), if_neg (by omega)]
  rfl

/-- A verdict of the name check is the documented one. -/
theorem safeComponent_eq_some {value : String} {safe : Bool}
    (decided : safeComponent value = some safe) : safe = true ↔ SafeName value := by
  rw [safeComponent] at decided
  split at decided
  · rename_i plain
    obtain ⟨device, reserved, rfl⟩ := Option.map_eq_some_iff.mp decided
    have meaning := reservedStem_eq_some reserved
    obtain ⟨nonempty, bounded, noDots, ending, separators, controls⟩ :=
      plainComponent_eq_true.mp plain
    rw [Bool.not_eq_true', ← Bool.not_eq_true, meaning]
    constructor
    · exact fun free => ⟨nonempty, bounded, noDots, ending, separators, controls, free⟩
    · exact SafeName.reserved
  · rename_i other
    obtain rfl := Option.some.inj decided
    refine iff_of_false nofun fun named => other ?_
    exact plainComponent_eq_true.mpr ⟨named.nonempty, named.bounded, named.noDots, named.ending,
      named.separators, named.controls⟩

/-! ## What an accepted manifest satisfies -/

/-- The checks of one asset which do not depend on its position. -/
structure ArchiveAsset.Valid (asset : ArchiveAsset) : Prop where
  uuid : canonicalUuidV4 asset.assetId = true
  name : safeComponent asset.originalFileName = some true
  checksum : isSha1 asset.checksumSha1 = true
  target : asset.targetPath = archiveTarget asset.assetId asset.originalFileName

/-- The content of a successful `ArchiveManifest::validate`. -/
structure ArchiveManifest.Accepted (manifest : ArchiveManifest) : Prop where
  schema : manifest.schemaVersion = archiveManifestSchemaVersion
  configuration : isLowerSha256 manifest.configurationSha256 = true
  identity : isLowerSha256 manifest.server.identitySha256 = true
  version : manifest.server.version.major = 3 ∧ manifest.server.version.minor = 1
  valid : ∀ asset ∈ manifest.assets, asset.Valid
  unique : (manifest.assets.map ArchiveAsset.assetId).Nodup
  sorted : (manifest.assets.map ArchiveAsset.targetPath).Pairwise (· < ·)
  counted : manifest.summary.assets = manifest.assets.length
  bytes : manifest.summary.mediaBytes.toNat =
    totalBytes (manifest.assets.map ArchiveAsset.byteLen)

theorem validateAsset_eq_ok {asset : ArchiveAsset} {previousPath : Option String}
    {ids recorded : ExtTreeSet String} :
    validateAsset asset previousPath ids = .ok recorded ↔
      asset.Valid ∧ asset.assetId ∉ ids ∧ (∀ path ∈ previousPath, path < asset.targetPath) ∧
        recorded = ids.insert asset.assetId := by
  rw [validateAsset, reject_bind_eq_ok]
  cases checked : safeComponent asset.originalFileName with
  | none =>
      refine iff_of_false nofun fun valid => ?_
      rw [valid.1.name] at checked
      cases checked
  | some safe =>
      have absent : ids.contains asset.assetId = false ↔ asset.assetId ∉ ids := by
        rw [← ExtTreeSet.contains_iff_mem, Bool.not_eq_true]
      simp only [reject_bind_eq_ok, Bool.not_eq_false', Bool.or_eq_false_iff, bne_eq_false_iff_eq,
        absent, Option.any_eq_false, decide_eq_false_iff_not,
        not_le, pure, Except.pure, Except.ok.injEq]
      constructor
      · rintro ⟨uuid, ⟨⟨rfl, checksum⟩, target⟩, fresh, above, rfl⟩
        exact ⟨⟨uuid, checked, checksum, target⟩, fresh, above, rfl⟩
      · rintro ⟨⟨uuid, name, checksum, target⟩, fresh, above, rfl⟩
        rw [checked, Option.some.injEq] at name
        exact ⟨uuid, ⟨⟨name, checksum⟩, target⟩, fresh, above, rfl⟩

/-- The loop returns exactly for valid assets in ascending order, with their exact total. -/
theorem validateArchiveAssets_eq_ok {assets : List ArchiveAsset} {previousPath : Option String}
    {ids : ExtTreeSet String} {start total : UInt64} :
    validateArchiveAssets assets previousPath ids start = .ok total ↔
      (∀ asset ∈ assets, asset.Valid) ∧ (assets.map ArchiveAsset.assetId).Nodup ∧
        (∀ asset ∈ assets, asset.assetId ∉ ids) ∧
        (previousPath.toList ++ assets.map ArchiveAsset.targetPath).Pairwise (· < ·) ∧
        (assets.map ArchiveAsset.byteLen).foldlM checkedAdd start = some total := by
  induction assets generalizing previousPath ids start with
  | nil =>
      cases previousPath <;> simp [validateArchiveAssets]
  | cons asset rest induction =>
      have sorted : (previousPath.toList ++ (asset :: rest).map ArchiveAsset.targetPath).Pairwise
          (· < ·) ↔ (∀ path ∈ previousPath, path < asset.targetPath) ∧
            ((some asset.targetPath).toList ++ rest.map ArchiveAsset.targetPath).Pairwise
              (· < ·) := by
        cases previousPath with
        | none => simp
        | some path =>
            simp only [Option.toList_some, List.map_cons, List.singleton_append,
              List.pairwise_cons (a := path), Option.mem_def, Option.some.injEq, forall_eq',
              List.mem_cons, forall_eq_or_imp]
            constructor
            · exact fun both => ⟨both.1.1, both.2⟩
            · refine fun both => ⟨⟨both.1, fun target member => ?_⟩, both.2⟩
              exact lt_trans both.1 ((List.pairwise_cons.mp both.2).1 target member)
      have summed : ((asset :: rest).map ArchiveAsset.byteLen).foldlM checkedAdd start =
          some total ↔ ∃ next, checkedAdd start asset.byteLen = some next ∧
            (rest.map ArchiveAsset.byteLen).foldlM checkedAdd next = some total := by
        rw [List.map_cons, List.foldlM_cons, Option.bind_eq_bind, Option.bind_eq_some_iff]
      rw [validateArchiveAssets, bind_eq_ok, sorted, summed]
      simp only [validateAsset_eq_ok, List.forall_mem_cons, List.map_cons, List.nodup_cons]
      constructor
      · rintro ⟨recorded, ⟨valid, fresh, above, rfl⟩, returned⟩
        cases added : checkedAdd start asset.byteLen with
        | none =>
            rw [added] at returned
            cases returned
        | some next =>
            rw [added] at returned
            obtain ⟨restValid, unique, restFresh, ascending, counted⟩ := induction.mp returned
            simp only [ExtTreeSet.mem_insert, not_or, Std.compare_eq_iff_eq] at restFresh
            refine ⟨⟨valid, restValid⟩, ⟨?_, unique⟩, ⟨fresh, fun other member => ?_⟩,
              ⟨above, ascending⟩, next, rfl, counted⟩
            · intro member
              obtain ⟨other, present, same⟩ := List.mem_map.mp member
              exact (restFresh other present).1 same.symm
            · exact (restFresh other member).2
      · rintro ⟨⟨valid, restValid⟩, ⟨distinct, unique⟩, ⟨fresh, restFresh⟩, ⟨above, ascending⟩,
          next, added, counted⟩
        refine ⟨_, ⟨valid, fresh, above, rfl⟩, ?_⟩
        rw [added]
        refine induction.mpr ⟨restValid, unique, fun other member => ?_, ascending, counted⟩
        simp only [ExtTreeSet.mem_insert, not_or, Std.compare_eq_iff_eq]
        refine ⟨fun same => distinct ?_, restFresh other member⟩
        exact List.mem_map.mpr ⟨other, member, same.symm⟩

/-- The validator returns exactly for the manifests it is documented to accept. -/
theorem ArchiveManifest.validate_eq_ok {manifest : ArchiveManifest} :
    manifest.validate = .ok () ↔ manifest.Accepted := by
  rw [ArchiveManifest.validate]
  simp only [reject_bind_eq_ok, bne_eq_false_iff_eq, Bool.or_eq_false_iff, Bool.not_eq_false']
  constructor
  · rintro ⟨schema, ⟨⟨⟨configuration, identity⟩, major⟩, minor⟩, returned⟩
    rw [bind_eq_ok] at returned
    obtain ⟨bytes, looped, compared⟩ := returned
    rw [reject_eq_ok, bne_eq_false_iff_eq] at compared
    obtain ⟨valid, unique, _, sorted, summed⟩ := validateArchiveAssets_eq_ok.mp looped
    rw [foldlM_checkedAdd] at summed
    refine ⟨schema, configuration, identity, ⟨major, minor⟩, valid, unique, sorted, ?_, ?_⟩
    · rw [compared]
    · rw [compared, summed.2, UInt64.toNat_zero, Nat.zero_add]
  · intro accepted
    refine ⟨accepted.schema, ⟨⟨⟨accepted.configuration, accepted.identity⟩, accepted.version.1⟩,
      accepted.version.2⟩, ?_⟩
    rw [bind_eq_ok]
    refine ⟨manifest.summary.mediaBytes, ?_, ?_⟩
    · apply validateArchiveAssets_eq_ok.mpr
      refine ⟨accepted.valid, accepted.unique, fun _ _ => ExtTreeSet.not_mem_empty, accepted.sorted,
        ?_⟩
      rw [foldlM_checkedAdd, UInt64.toNat_zero, Nat.zero_add, ← accepted.bytes]
      exact ⟨UInt64.toNat_lt _, rfl⟩
    · rw [reject_eq_ok, bne_eq_false_iff_eq, ← accepted.counted]

/-! ## Panics -/

theorem bind_eq_panicked {ε α β : Type} {first : Except (Stop ε) α}
    {next : α → Except (Stop ε) β} :
    (first >>= next) = .error .panicked ↔
      first = .error .panicked ∨ ∃ value, first = .ok value ∧ next value = .error .panicked := by
  cases first <;> simp [bind, Except.bind]

theorem reject_ne_panicked {ε : Type} {condition : Bool} {error : ε} :
    reject condition (Stop.failed error) ≠ .error .panicked := by
  cases condition <;> simp [reject]

theorem cutsCharacter_of_validateAsset {asset : ArchiveAsset} {previousPath : Option String}
    {ids : ExtTreeSet String}
    (stopped : validateAsset asset previousPath ids = .error .panicked) :
    CutsCharacter asset.originalFileName := by
  rw [validateAsset, bind_eq_panicked] at stopped
  obtain ⟨_, _, stopped⟩ := stopped.resolve_left reject_ne_panicked
  cases checked : safeComponent asset.originalFileName with
  | none => exact safeComponent_eq_none.mp checked
  | some safe =>
      simp only [checked, bind_eq_panicked, reject_ne_panicked, false_or] at stopped
      obtain ⟨_, _, _, _, _, _, returned⟩ := stopped
      cases returned

theorem exists_cutsCharacter_of_validateArchiveAssets {assets : List ArchiveAsset}
    {previousPath : Option String} {ids : ExtTreeSet String} {start : UInt64}
    (stopped : validateArchiveAssets assets previousPath ids start = .error .panicked) :
    ∃ asset ∈ assets, CutsCharacter asset.originalFileName := by
  induction assets generalizing previousPath ids start with
  | nil => cases stopped
  | cons asset rest induction =>
      rw [validateArchiveAssets, bind_eq_panicked] at stopped
      cases stopped with
      | inl here => exact ⟨asset, List.mem_cons_self, cutsCharacter_of_validateAsset here⟩
      | inr later =>
          obtain ⟨_, _, stopped⟩ := later
          split at stopped
          · cases stopped
          · obtain ⟨other, member, cuts⟩ := induction stopped
            exact ⟨other, List.mem_cons_of_mem _ member, cuts⟩

/-- Only a name which cuts a character makes the validator panic. -/
theorem ArchiveManifest.exists_cutsCharacter {manifest : ArchiveManifest}
    (stopped : manifest.validate = .error .panicked) :
    ∃ asset ∈ manifest.assets, CutsCharacter asset.originalFileName := by
  rw [ArchiveManifest.validate] at stopped
  simp only [bind_eq_panicked, reject_ne_panicked, false_or] at stopped
  obtain ⟨_, _, _, _, looped | ⟨_, _, impossible⟩⟩ := stopped
  · exact exists_cutsCharacter_of_validateArchiveAssets looped
  · exact impossible.elim

end ImmichRs
