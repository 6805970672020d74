import ImmichRs.Sources.ApplePhotos
import ImmichRs.Core.Json

/-!
# Picasa

The documents which Picasa keeps in each directory, and the captions, albums and dates which they
and the names of files add to a reconciled plan.
-/

namespace ImmichRs

open Collections
open Std (ExtTreeMap)

/-! ## The parser -/

/-- A parsed `.picasa.ini`. -/
structure PicasaDocument where
  album : Option String
  captions : ExtTreeMap String String

/-- Why a `.picasa.ini` was refused. -/
inductive IniError
  | oversized | invalidUtf8 | invalidSyntax | conflict
  deriving DecidableEq, Repr

/-- `str::lines`: a carriage return belongs to the line feed after it. -/
def textLines (text : String) : List String :=
  let parts := splitOn text '\n'
  (parts.dropLast.map fun line => (stripSuffix line "\r").getD line) ++
    (parts.getLast?.toList.filter fun line => !line.isEmpty)

/-- `str::split_once` for one character. -/
def splitOnce (value : String) (separator : Char) : Option (String × String) :=
  if containsChar value separator then
    some (String.ofList (value.toList.takeWhile (· != separator)),
      String.ofList ((value.toList.dropWhile (· != separator)).drop 1))
  else
    none

/-- `std::str::from_utf8`. -/
def decodeUtf8 (bytes : List UInt8) : Option String :=
  String.fromUTF8? (ByteArray.mk bytes.toArray)

/-- The state of the loop over the lines. -/
structure IniState where
  document : PicasaDocument
  current : Option String
  sections : Nat

/-- `assign`, on the album of a document. -/
def assignAlbum (album : Option String) (value : String) : Except IniError (Option String) := do
  reject (value.isEmpty || decide (4096 < byteLen value) ||
    (containsChar value '/' || containsChar value '\\') || anyChar value isControl) .invalidSyntax
  reject (album.any (· != value)) .conflict
  return some value

/-- The caption of a section. -/
def assignCaption (captions : ExtTreeMap String String) (name value : String) :
    Except IniError (ExtTreeMap String String) := do
  let entry := captions[name]?.getD ""
  reject (!entry.isEmpty && entry != value) .conflict
  reject (value.isEmpty ||
    anyChar value fun character => isControl character && !isLayout character) .invalidSyntax
  return captions.insert name value

/-- A line which opens a section. -/
def openSection (state : IniState) (line : String) : Except IniError IniState := do
  match stripSuffix (String.ofList (line.toList.drop 1)) "]" with
  | none => .error .invalidSyntax
  | some name =>
      reject (name.isEmpty || decide (4096 < byteLen name) || anyChar name isControl) .invalidSyntax
      reject (decide (10000 < state.sections + 1)) .oversized
      return { state with current := some name, sections := state.sections + 1 }

/-- A line which assigns a key. -/
def assignKey (state : IniState) (key value : String) : Except IniError IniState := do
  reject (key.isEmpty || decide (256 < byteLen key) || decide (16384 < byteLen value)) .oversized
  match state.current with
  | none => .error .invalidSyntax
  | some name =>
      if eqIgnoreAsciiCase name "Picasa" && eqIgnoreAsciiCase key "name" then
        let album ← assignAlbum state.document.album value
        return { state with document := { state.document with album } }
      else if eqIgnoreAsciiCase key "caption" then
        let captions ← assignCaption state.document.captions name value
        return { state with document := { state.document with captions } }
      else
        return state

/-- A line which is neither empty nor a comment. -/
def parseLine (state : IniState) (line : String) : Except IniError IniState :=
  if startsWith line "[" then
    openSection state line
  else
    match splitOnce line '=' with
    | none => .error .invalidSyntax
    | some (key, value) => assignKey state (trim key) (trim value)

/-- One iteration of the loop over the lines. -/
def parseRawLine (state : IniState) (entry : String × Nat) : Except IniError IniState := do
  reject (decide (20000 ≤ entry.2) || decide (16384 < byteLen entry.1)) .oversized
  let line := trim entry.1
  if line.isEmpty || startsWith line ";" || startsWith line "#" then
    return state
  else
    parseLine state line

/-- `PicasaDocument::default()`. -/
def PicasaDocument.empty : PicasaDocument := { album := none, captions := ∅ }

/-- `MAX_INI_BYTES`. -/
def maxIniBytes : Nat := 1048576

/-- `picasa_ini::parse`. -/
def parseIni (bytes : List UInt8) : Except IniError PicasaDocument := do
  reject (decide (maxIniBytes < bytes.length)) .oversized
  match decodeUtf8 bytes with
  | none => .error .invalidUtf8
  | some text =>
      let state ← (textLines text).zipIdx.foldlM parseRawLine
        { document := .empty, current := none, sections := 0 }
      return state.document

/-! ## Documents of a source -/

/-- `Documents`. -/
structure Documents where
  parsed : ExtTreeMap String PicasaDocument
  errors : List PlanDiagnostic

/-- `Documents::default()`. -/
def Documents.empty : Documents := { parsed := ∅, errors := [] }

/-- `Documents::invalid`. -/
def Documents.invalid (documents : Documents) (directory : String) : Documents :=
  { documents with
    errors := documents.errors ++ [diagnostic "META_PICASA_INI_INVALID_V1" "invalid_picasa_ini"
      [if directory.isEmpty then "." else directory]] }

/-- `Documents::insert`: the first document of a directory stays. -/
def Documents.insert (documents : Documents) (directory : String) (bytes : List UInt8) :
    Documents :=
  match parseIni bytes with
  | .ok document =>
      if documents.parsed.contains directory then
        documents.invalid directory
      else
        { documents with parsed := documents.parsed.insert directory document }
  | .error _ => documents.invalid directory

/-- `read_bounded`, where a content which cannot be read is absent. -/
def readBounded (content : Option (List UInt8)) : Except ScanError (List UInt8) :=
  match content with
  | none => .error (.invalidArchive "cannot read Picasa INI")
  | some bytes => do
      reject (decide (maxIniBytes < bytes.length)) (.limitExceeded "max_picasa_ini_bytes")
      return bytes

/-- What stands at the path of a directory's `.picasa.ini`. -/
inductive IniFile
  /-- Its metadata cannot be read. -/
  | absent
  /-- Not a regular file. -/
  | irregular
  /-- A regular file which cannot be opened. -/
  | closed
  /-- A regular file, with what reading it gives. -/
  | regular (content : Option (List UInt8))

/-- One iteration of `directory_documents`. -/
def directoryDocument (lookup : String → IniFile) (documents : Documents) (directory : String) :
    Except ScanError Documents :=
  match lookup directory with
  | .absent => .ok documents
  | .irregular => .ok (documents.invalid directory)
  | .closed => .error .invalidRoot
  | .regular content => do
      let bytes ← readBounded content
      return documents.insert directory bytes

/-- `directory_documents`. -/
def directoryDocuments (lookup : String → IniFile) (plan : NormalizedPlan) :
    Except ScanError Documents :=
  (sortDedup (plan.assets.map fun asset => parent asset.relativePath)).foldlM
    (directoryDocument lookup) .empty

/-! ## Dates in names -/

/-- A byte which is a decimal digit, as its number. -/
def digitOf (byte : UInt8) : Option Nat :=
  if 48 ≤ byte.toNat && byte.toNat ≤ 57 then some (byte.toNat - 48) else none

/-- The number of at least one digit. -/
def parseDigits (bytes : List UInt8) : Option Nat :=
  if bytes.isEmpty then
    none
  else
    bytes.foldlM (fun number byte => (digitOf byte).map (number * 10 + ·)) 0

/-- `str::parse::<u8>` of two bytes: a plus sign is admitted. -/
def parseU8 : List UInt8 → Option Nat
  | 43 :: digits => parseDigits digits
  | digits => parseDigits digits

/-- `str::parse::<i32>` of four bytes: a sign is admitted. -/
def parseI32 : List UInt8 → Option Int
  | 43 :: digits => (parseDigits digits).map fun number => (number : Int)
  | 45 :: digits => (parseDigits digits).map fun number => -(number : Int)
  | digits => (parseDigits digits).map fun number => (number : Int)

/-- `bytes.get(start..start + count)`. -/
def byteRange (bytes : List UInt8) (start count : Nat) : List UInt8 :=
  (bytes.drop start).take count

section

variable (platform : SourcePlatform)

/-- `filename_timestamp`. -/
def filenameTimestamp (name : String) : Option String :=
  let bytes := utf8Bytes name
  if bytes.length < 15 || bytes[8]? != some 45 then
    none
  else do
    let year ← parseI32 (byteRange bytes 0 4)
    let month ← parseU8 (byteRange bytes 4 2)
    let day ← parseU8 (byteRange bytes 6 2)
    let hour ← parseU8 (byteRange bytes 9 2)
    let minute ← parseU8 (byteRange bytes 11 2)
    let second ← parseU8 (byteRange bytes 13 2)
    let instant ← platform.fromCalendar year month day hour minute second
    platform.formatRfc3339 instant

/-! ## Finishing -/

/-- `folder_album`. -/
def folderAlbum (config : PicasaScanConfig) (path : String) : Option String :=
  parentAlbum config.albumMode config.albumPathJoiner path

/-- A fact which a rule adds to the metadata of an asset. -/
def addFact {α : Type} (fact : Option α) (rule outcome : String)
    (add : NormalizedMetadata → α → NormalizedMetadata)
    (current : NormalizedMetadata × CandidateAsset) : NormalizedMetadata × CandidateAsset :=
  match fact with
  | none => current
  | some value => (add current.1 value, current.2.withEvidence rule outcome)

/-- The caption of an asset. -/
def captionOf (document : Option PicasaDocument) (path : String) : Option String :=
  document.bind fun document => document.captions[filename path]?

/-- The album of a document. -/
def albumOf (config : PicasaScanConfig) (document : Option PicasaDocument) : Option String :=
  if config.picasaAlbums then document.bind PicasaDocument.album else none

/-- The date in the name of an asset which has none yet. -/
def dateOf (config : PicasaScanConfig) (metadata : NormalizedMetadata) (path : String) :
    Option String :=
  if config.filenameDate && metadata.takenAtUtc.isNone then
    filenameTimestamp platform (filename path)
  else
    none

/-- The facts of an asset, in the order in which they are added. -/
def picasaFacts (config : PicasaScanConfig) (document : Option PicasaDocument)
    (asset : CandidateAsset) : NormalizedMetadata × CandidateAsset :=
  let path := asset.relativePath
  let start := (asset.normalizedMetadata.getD .empty, { asset with normalizedMetadata := none })
  let captioned := addFact (captionOf document path) "META_PICASA_CAPTION_V1"
    "picasa_caption_selected" (fun metadata caption => { metadata with description := some caption })
    start
  let collected := addFact (albumOf config document) "META_PICASA_ALBUM_V1" "picasa_album_selected"
    (fun metadata album => { metadata with albums := metadata.albums ++ [album] }) captioned
  let filed := addFact (folderAlbum config path) "META_PICASA_FOLDER_ALBUM_V1"
    "folder_album_selected"
    (fun metadata album => { metadata with albums := metadata.albums ++ [album] }) collected
  addFact (dateOf platform config filed.1 path) "META_PICASA_FILENAME_DATE_V1"
    "filename_date_selected" (fun metadata date => { metadata with takenAtUtc := some date }) filed

/-- `apply_metadata`. -/
def CandidateAsset.applyMetadata (config : PicasaScanConfig) (document : Option PicasaDocument)
    (asset : CandidateAsset) : CandidateAsset :=
  let facts := picasaFacts platform config document asset
  let metadata := { facts.1 with albums := sortDedup facts.1.albums }
  if metadata ≠ .empty then { facts.2 with normalizedMetadata := some metadata } else facts.2

/-- `refresh_fingerprint` of a Picasa source. -/
def NormalizedPlan.refreshPicasa (plan : NormalizedPlan) : NormalizedPlan :=
  let identity := jsonArray
    [jsonArray (plan.assets.map CandidateAsset.serialize),
      jsonArray (plan.warnings.map PlanDiagnostic.serialize),
      jsonArray (plan.errors.map PlanDiagnostic.serialize)]
  { plan with
    source :=
      { plan.source with
        fingerprintSha256 :=
          platform.sha256 (utf8Bytes "picasa-source-v1\x00" ++ utf8Bytes identity) } }

/-- The plan of `finish` before its validation. -/
def NormalizedPlan.withPicasa (config : PicasaScanConfig) (documents : Documents)
    (plan : NormalizedPlan) : NormalizedPlan :=
  { plan with
    assets := plan.assets.map fun (asset : CandidateAsset) =>
      asset.applyMetadata platform config documents.parsed[parent asset.relativePath]?
    errors := sortDedup (plan.errors ++ documents.errors) }.refreshPicasa platform

/-- `finish`. -/
def finishPicasa (config : PicasaScanConfig) (documents : Documents)
    (resolved : ResolvedFolderPlan) : Except ScanError ResolvedFolderPlan := do
  let plan := resolved.plan.withPicasa platform config documents
  Except.mapError ScanError.invalidPlan (plan.validate platform.toPlatform)
  return { resolved with plan }

end

end ImmichRs
