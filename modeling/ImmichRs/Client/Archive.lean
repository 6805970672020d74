import ImmichRs.Client.Requests
import ImmichRs.Collections.Sorting
import ImmichRs.Core.Archive
import ImmichRs.Interaction.Evaluation

/-!
# The read-only archive inventory

The requests of the read client, the conversion of its answers into source facts, and the bounded
enumeration of one visibility: a page loop, followed by the linked motion videos which no page
listed.
-/

namespace ImmichRs

open Interaction

/-! ## Answers -/

/-- The type of an asset in an answer. -/
inductive AssetTypeResponse
  | image | video | audio | other
  deriving DecidableEq, Repr

/-- One asset in an answer, with the length which its EXIF block declares. -/
structure ArchiveAssetResponse where
  id : String
  originalFileName : String
  checksum : String
  type_ : AssetTypeResponse
  exifInfo : Option (Option UInt64)
  livePhotoVideoId : Option String
  deriving DecidableEq

/-- One page of a search. -/
structure ArchiveSearchAssets where
  items : List ArchiveAssetResponse
  count : Nat
  nextPage : Option String
  total : Nat
  deriving DecidableEq

/-- The parameters of a search which differ between requests. -/
structure ArchiveSearchRequest where
  page : Nat
  size : Nat
  withExif : Bool
  albumIds : Option (List String)
  visibility : String
  withDeleted : Option Bool
  deriving DecidableEq, Repr

/-- The answer to a version request. -/
structure VersionResponse where
  major : Nat
  minor : Nat
  patch : Nat
  prerelease : Option Nat
  deriving DecidableEq, Repr

/-- Requests of the read client. -/
inductive ReadCall
  | isCancelled
  | version
  | user
  | search (request : ArchiveSearchRequest)
  | asset (identifier : String)

/-- The type of the answer to each request. -/
def ReadAnswer : ReadCall → Type
  | .isCancelled => Bool
  | .version => Except ClientError VersionResponse
  | .user => Except ClientError String
  | .search _ => Except ClientError ArchiveSearchAssets
  | .asset _ => Except ClientError ArchiveAssetResponse

/-- Programs of the read client. -/
abbrev ReadProgram (α : Type) : Type := ExceptT ClientError (Program ReadAnswer) α

/-- `check_cancelled`. -/
def ImmichReadClient.checkCancelled : ReadProgram Unit :=
  ExceptT.mk <| .request ReadCall.isCancelled fun cancelled =>
    .done (reject cancelled (.new .cancelled))

/-- `get_json("api/server/version")`. -/
def getVersion : ReadProgram VersionResponse :=
  ExceptT.mk <| .request ReadCall.version .done

/-- `get_json("api/users/me")`. -/
def getUser : ReadProgram String := ExceptT.mk <| .request ReadCall.user .done

/-- `post_json("api/search/metadata", request)`. -/
def postSearch (request : ArchiveSearchRequest) : ReadProgram ArchiveSearchAssets :=
  ExceptT.mk <| .request (ReadCall.search request) .done

/-- `get_json("api/assets/{identifier}")`. -/
def getAsset (identifier : String) : ReadProgram ArchiveAssetResponse :=
  ExceptT.mk <| .request (ReadCall.asset identifier) .done

/-! ## The negotiated server -/

/-- Opaque proof of a successful authenticated compatibility probe. -/
structure NegotiatedServer where
  compatibility : ServerCompatibility
  originSha256 : String
  deriving DecidableEq, Repr

/-- Read-only authenticated capability for one origin. -/
structure ImmichReadClient where
  canonicalOrigin : String
  deriving DecidableEq, Repr

/-- The part of a client which may fail without a request. -/
def checked {α : Type} (result : Except ClientError α) : ReadProgram α :=
  ExceptT.mk (.done result)

section

variable (platform : Platform)

/-- `identity_digest`. -/
def identityDigest (origin userId : String) : String :=
  platform.sha256 (utf8Bytes origin ++ [0] ++ utf8Bytes userId)

/-- `Sha256::digest(canonical_origin)` in hexadecimal. -/
def ImmichReadClient.originSha256 (client : ImmichReadClient) : String :=
  platform.sha256 (utf8Bytes client.canonicalOrigin)

/-- `ImmichReadClient::probe`. -/
def ImmichReadClient.probe (client : ImmichReadClient) : ReadProgram NegotiatedServer := do
  ImmichReadClient.checkCancelled
  let version ← getVersion
  checked (reject (version.major != 3 || version.minor != 1 || version.prerelease.isSome)
    (.new .compatibility))
  ImmichReadClient.checkCancelled
  let userId ← getUser
  checked (reject (userId.isEmpty || decide (4096 < byteLen userId)) (.new .protocol))
  return {
    compatibility :=
      { version := { major := version.major, minor := version.minor, patch := version.patch }
        identitySha256 := identityDigest platform client.canonicalOrigin userId }
    originSha256 := client.originSha256 platform }

/-- `validate_binding`. -/
def ImmichReadClient.validateBinding (client : ImmichReadClient) (negotiated : NegotiatedServer) :
    Except ClientError Unit :=
  reject (client.originSha256 platform != negotiated.originSha256) (.new .compatibility)

end

/-! ## Source facts -/

/-- Source facts returned by the read-only inventory. -/
structure RemoteArchiveAsset where
  assetId : String
  originalFileName : String
  mediaKind : MediaKind
  byteLen : UInt64
  checksumSha1 : String
  deriving DecidableEq

/-- The value of one digit of base 64. -/
def base64Value (digit : Char) : Option Nat :=
  if 'A' ≤ digit ∧ digit ≤ 'Z' then some (digit.toNat - 'A'.toNat)
  else if 'a' ≤ digit ∧ digit ≤ 'z' then some (digit.toNat - 'a'.toNat + 26)
  else if '0' ≤ digit ∧ digit ≤ '9' then some (digit.toNat - '0'.toNat + 52)
  else if digit = '+' then some 62
  else if digit = '/' then some 63
  else none

/-- The last group of an encoding, whose unused bits are zero. -/
def decodeLastGroup : List Char → Option (List UInt8)
  | [first, second, '=', '='] => do
      let value := (← base64Value first) * 64 + (← base64Value second)
      if value % 16 = 0 then some [UInt8.ofNat (value / 16)] else none
  | [first, second, third, '='] => do
      let value := ((← base64Value first) * 64 + (← base64Value second)) * 64 +
        (← base64Value third)
      if value % 4 = 0 then some [UInt8.ofNat (value / 1024), UInt8.ofNat (value / 4)] else none
  | [first, second, third, fourth] => do
      let value := (((← base64Value first) * 64 + (← base64Value second)) * 64 +
        (← base64Value third)) * 64 + (← base64Value fourth)
      some [UInt8.ofNat (value / 65536), UInt8.ofNat (value / 256), UInt8.ofNat value]
  | _ => none

/-- `STANDARD.decode`, on characters: padding closes only the last group. -/
def base64Decode : List Char → Option (List UInt8)
  | [] => some []
  | first :: second :: third :: fourth :: next :: rest => do
      let value := (((← base64Value first) * 64 + (← base64Value second)) * 64 +
        (← base64Value third)) * 64 + (← base64Value fourth)
      let bytes ← base64Decode (next :: rest)
      some (UInt8.ofNat (value / 65536) :: UInt8.ofNat (value / 256) :: UInt8.ofNat value :: bytes)
  | group => decodeLastGroup group

/-- `lowercase_hex`. -/
def lowercaseHex (bytes : List UInt8) : String :=
  String.ofList (bytes.flatMap fun byte =>
    [Sha256.hexDigit (byte.toNat / 16), Sha256.hexDigit (byte.toNat % 16)])

/-- The media family of an answer; audio and other assets have none. -/
def responseMediaKind : AssetTypeResponse → Except ClientError MediaKind
  | .image => .ok .image
  | .video => .ok .video
  | .audio | .other => .error (.new .protocol)

/-- `convert_asset`. -/
def convertAsset (item : ArchiveAssetResponse) :
    Except ClientError (RemoteArchiveAsset × Option String) := do
  let mediaKind ← responseMediaKind item.type_
  match base64Decode item.checksum.toList with
  | none => .error (.new .protocol)
  | some decoded =>
      reject (decoded.length != 20) (.new .protocol)
      match item.exifInfo.join with
      | none => .error (.new .protocol)
      | some byteLen =>
          return ({
            assetId := item.id
            originalFileName := item.originalFileName
            mediaKind
            byteLen
            checksumSha1 := lowercaseHex decoded }, item.livePhotoVideoId)

/-! ## Enumeration -/

/-- One explicit asset visibility. -/
inductive ArchiveVisibility
  | timeline | archive | hidden
  deriving DecidableEq, Repr

/-- `ArchiveVisibility::api_value`. -/
def ArchiveVisibility.apiValue : ArchiveVisibility → String
  | .timeline => "timeline"
  | .archive => "archive"
  | .hidden => "hidden"

/-- Pagination and selection limits of one enumeration. -/
structure ArchiveListConfig where
  visibility : ArchiveVisibility
  includeTrashed : Bool
  pageSize : Nat
  maxAssets : Nat
  deriving DecidableEq, Repr

/-- `ArchiveListConfig::validate`. -/
def ArchiveListConfig.validate (config : ArchiveListConfig) : Except ClientError Unit :=
  protocolCheck (decide (1 ≤ config.pageSize) && decide (config.pageSize ≤ 1000) &&
    decide (0 < config.maxAssets))

/-- What the page loop has collected. -/
structure ArchivePages where
  assets : List RemoteArchiveAsset
  relatedIds : List String
  page : Nat
  deriving DecidableEq

/-- One item of a page. -/
def pushItem (maxAssets : Nat) (collected : List RemoteArchiveAsset × List String)
    (item : ArchiveAssetResponse) :
    Except ClientError (List RemoteArchiveAsset × List String) := do
  reject (decide (maxAssets ≤ collected.1.length)) (.new .protocol)
  let converted ← convertAsset item
  return (collected.1 ++ [converted.1], collected.2 ++ converted.2.toList)

/-- The page after the current one, when the answer announces it. -/
def nextPage (response : ArchiveSearchAssets) (page : Nat) : Except ClientError (Option Nat) :=
  match response.nextPage with
  | none => .ok none
  | some text =>
      if response.count = 0 then .error (.new .protocol)
      else match parseU64 text with
        | none => .error (.new .protocol)
        | some parsed =>
            if parsed ≠ min (page + 1) (2 ^ 64 - 1) then .error (.new .protocol)
            else .ok (some parsed)

/-- What the page loop makes of one answer; it is done when no further page follows. -/
def acceptPage (config : ArchiveListConfig) (pages : ArchivePages)
    (response : ArchiveSearchAssets) : Except ClientError (ArchivePages ⊕ ArchivePages) := do
  reject (decide (config.maxAssets < response.total)) (.new .protocol)
  reject (response.count != response.items.length) (.new .protocol)
  let collected ←
    response.items.foldlM (pushItem config.maxAssets) (pages.assets, pages.relatedIds)
  match ← nextPage response pages.page with
  | some page => return .inl { assets := collected.1, relatedIds := collected.2, page }
  | none => return .inr { pages with assets := collected.1, relatedIds := collected.2 }

/-- The request for one page. -/
def pageRequest (config : ArchiveListConfig) (page : Nat) : ArchiveSearchRequest :=
  { page
    size := config.pageSize
    withExif := true
    albumIds := none
    visibility := config.visibility.apiValue
    withDeleted := if config.includeTrashed then some true else none }

/-- One turn of the page loop. -/
def listPage (config : ArchiveListConfig) (pages : ArchivePages) :
    ReadProgram (ArchivePages ⊕ ArchivePages) := do
  ImmichReadClient.checkCancelled
  let response ← postSearch (pageRequest config pages.page)
  checked (acceptPage config pages response)

/-- The page loop.  Every turn which continues has collected a further asset, so `fuel` above the
limit of assets is never used up. -/
def listPages (config : ArchiveListConfig) : Nat → ArchivePages → ReadProgram ArchivePages
  | 0, _ => checked (.error (.new .protocol))
  | fuel + 1, pages => do
      match ← listPage config pages with
      | .inl following => listPages config fuel following
      | .inr complete => return complete

/-- The asset of an answer to a request for one identifier. -/
def acceptRelated (identifier : String) (item : ArchiveAssetResponse) :
    Except ClientError RemoteArchiveAsset := do
  let converted ← convertAsset item
  reject (converted.1.assetId != identifier) (.new .protocol)
  return converted.1

/-- The loop over the linked identifiers. -/
def listRelated (config : ArchiveListConfig) :
    List String → List RemoteArchiveAsset → ReadProgram (List RemoteArchiveAsset)
  | [], assets => return assets
  | identifier :: rest, assets => do
      if assets.any fun asset => asset.assetId == identifier then
        listRelated config rest assets
      else
        checked (reject (decide (config.maxAssets ≤ assets.length)) (.new .protocol))
        ImmichReadClient.checkCancelled
        let item ← getAsset identifier
        let asset ← checked (acceptRelated identifier item)
        listRelated config rest (assets ++ [asset])

/-- `list_archive_assets`. -/
def ImmichReadClient.listArchiveAssets (platform : Platform) (client : ImmichReadClient)
    (negotiated : NegotiatedServer) (config : ArchiveListConfig) :
    ReadProgram (List RemoteArchiveAsset) := do
  checked (client.validateBinding platform negotiated)
  checked config.validate
  let pages ← listPages config (config.maxAssets + 1) { assets := [], relatedIds := [], page := 1 }
  listRelated config (Collections.sortDedup pages.relatedIds) pages.assets

end ImmichRs
