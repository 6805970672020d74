import ImmichRs.Core.Upload

/-!
# Client requests

Failure classes, answers and the checks which the client makes locally, before it sends a request.
-/

namespace ImmichRs

/-- Stable class for one client failure. -/
inductive ClientErrorClass
  | authentication | compatibility | rateLimited | server | timeout | disconnect | protocol
  | source | cancelled
  deriving DecidableEq, Repr

/-- Client failure without response bodies.  Delays are in nanoseconds. -/
structure ClientError where
  class_ : ClientErrorClass
  status : Option Nat
  retryAfter : Option Nat
  deriving DecidableEq, Repr

/-- `ClientError::new`. -/
def ClientError.new (class_ : ClientErrorClass) : ClientError :=
  { class_, status := none, retryAfter := none }

/-- `ClientError::is_retryable`. -/
def ClientError.isRetryable (error : ClientError) : Bool :=
  match error.class_ with
  | .rateLimited | .server | .timeout | .disconnect => true
  | _ => false

/-- `uncertain`: the request may have been committed although no response was received. -/
def uncertain (error : ClientError) : Bool :=
  match error.class_ with
  | .disconnect | .timeout => true
  | _ => false

/-- Result of the checksum duplicate preflight. -/
inductive DuplicateCheck
  | accept
  | duplicate (assetId : String)
  deriving DecidableEq, Repr

/-- Definite result returned by an asset upload response. -/
inductive UploadResult
  | created | duplicate
  deriving DecidableEq, Repr

/-- Local inputs for one streaming multipart upload. -/
structure UploadRequest where
  operationId : String
  fileName : String
  mediaPath : String
  mediaLen : UInt64
  sha1Base64 : String
  createdAtUnixMs : Int
  modifiedAtUnixMs : Int
  xmp : Option (String × UInt64)
  livePhotoVideoId : Option String
  deriving DecidableEq

/-- Minimal immutable album identity returned by the import capability. -/
structure RemoteAlbum where
  id : String
  name : String
  deriving DecidableEq, Repr

/-- The body of a metadata update. -/
structure UpdateAssetRequest (platform : Platform) where
  dateTimeOriginal : Option String
  description : Option String
  latitude : Option platform.F64
  longitude : Option platform.F64

/-- `valid.then_some(()).ok_or_else(..)` with a protocol error. -/
def protocolCheck (valid : Bool) : Except ClientError Unit :=
  reject (!valid) (.new .protocol)

@[simp] theorem protocolCheck_eq_ok (valid : Bool) :
    protocolCheck valid = .ok () ↔ valid = true := by
  simp [protocolCheck]

/-- `str::parse::<u64>`. -/
def parseU64 (text : String) : Option Nat :=
  let digits := match text.toList with
    | '+' :: rest => rest
    | digits => digits
  if digits ≠ [] ∧ digits.all isAsciiDigit then
    let value := digits.foldl (fun value digit => value * 10 + (digit.toNat - '0'.toNat)) 0
    if value < 2 ^ 64 then some value else none
  else
    none

theorem lt_of_parseU64 {text : String} {value : Nat} (parsed : parseU64 text = some value) :
    value < 2 ^ 64 := by
  rw [parseU64] at parsed
  simp only [Option.ite_none_right_eq_some, Option.some.injEq] at parsed
  obtain ⟨_, small, rfl⟩ := parsed
  exact small

/-- `validate_upload_request`. -/
def validateUploadRequest (request : UploadRequest) : Except ClientError Unit :=
  protocolCheck (!request.operationId.isEmpty && !request.fileName.isEmpty &&
    !(containsChar request.fileName '/' || containsChar request.fileName '\\') &&
    decide (0 < request.mediaLen) && !request.sha1Base64.isEmpty &&
    byteLen request.sha1Base64 ≤ 128 &&
    (request.livePhotoVideoId.all fun id => !id.isEmpty && byteLen id ≤ 4096) &&
    request.xmp.all fun sidecar => decide (0 < sidecar.2))

/-- `validate_album_name`. -/
def validateAlbumName (name : String) : Except ClientError Unit :=
  protocolCheck (!name.isEmpty && byteLen name ≤ 4096 &&
    !(containsChar name '/' || containsChar name '\\') && !anyChar name isControl)

section

variable (platform : Platform)

/-- The text and timestamp rules of `metadata_request`. -/
def metadataTextRejected (metadata : NormalizedMetadata) : Bool :=
  (metadata.description.any fun value =>
    value.isEmpty || decide (16 * 1024 < byteLen value) ||
      anyChar value fun character =>
        isControl character && !containsChar "\n\r\t" character) ||
    metadata.takenAtUtc.any fun value => !canonicalTimestamp platform value

/-- The coordinates which `metadata_request` sends. -/
def requestCoordinates (location : Option GeoCoordinates) :
    Except ClientError (Option platform.F64 × Option platform.F64) :=
  match location with
  | none => .ok (none, none)
  | some location =>
      match platform.parseF64 location.latitude, platform.parseF64 location.longitude with
      | some latitude, some longitude =>
          if platform.isFinite latitude && platform.isFinite longitude &&
              platform.withinRange (-90) 90 latitude &&
              platform.withinRange (-180) 180 longitude then
            .ok (some latitude, some longitude)
          else
            .error (.new .protocol)
      | _, _ => .error (.new .protocol)

/-- `metadata_request`. -/
def metadataRequest (metadata : NormalizedMetadata) :
    Except ClientError (UpdateAssetRequest platform) := do
  reject (metadataTextRejected platform metadata) (.new .protocol)
  let (latitude, longitude) ← requestCoordinates platform metadata.location
  let request : UpdateAssetRequest platform :=
    { dateTimeOriginal := metadata.takenAtUtc
      description := metadata.description
      latitude
      longitude }
  protocolCheck (request.dateTimeOriginal.isSome || request.description.isSome ||
    request.latitude.isSome)
  return request

end

end ImmichRs
