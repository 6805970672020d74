import ImmichRs.Core.Migration
import ImmichRs.Executor.Staging

/-!
# Staging of migrated assets

An original is downloaded from the source server to a temporary name and renamed when its length and
both digests are the planned ones.
-/

namespace ImmichRs

open Files Interaction Interaction.Program StagingProgram

/-! ## Digests in two notations -/

/-- `char::to_digit(16)`. -/
def hexByteValue (byte : UInt8) : Option Nat :=
  if 48 ≤ byte ∧ byte ≤ 57 then some (byte.toNat - 48)
  else if 97 ≤ byte ∧ byte ≤ 102 then some (byte.toNat - 87)
  else if 65 ≤ byte ∧ byte ≤ 70 then some (byte.toNat - 55)
  else none

/-- `u8::from_str_radix(text, 16)` of two bytes, of which the first may be a sign. -/
def fromStrRadix (first second : UInt8) : Option UInt8 :=
  if first = 43 then (hexByteValue second).map UInt8.ofNat
  else do
    let high ← hexByteValue first
    let low ← hexByteValue second
    return UInt8.ofNat (high * 16 + low)

/-- The bytes behind `chunks_exact(2)`. -/
def hexChunks : List UInt8 → Option (List UInt8)
  | first :: second :: rest => do
      let byte ← fromStrRadix first second
      let bytes ← hexChunks rest
      return byte :: bytes
  | _ => some []

/-- `STANDARD.encode`. -/
def base64Encode : List UInt8 → List Char
  | first :: second :: third :: rest =>
      Sha1.base64Group (first.toNat * 65536 + second.toNat * 256 + third.toNat) ++
        base64Encode rest
  | [first, second] =>
      (Sha1.base64Group (first.toNat * 65536 + second.toNat * 256)).take 3 ++ ['=']
  | [first] => (Sha1.base64Group (first.toNat * 65536)).take 2 ++ ['=', '=']
  | [] => []

/-- `hex_sha1_base64`. -/
def hexSha1Base64 (value : String) : Except ExecutorError String := do
  reject (byteLen value != 40) .sourceChanged
  match hexChunks (utf8Bytes value) with
  | none => .error .sourceChanged
  | some bytes => return String.ofList (base64Encode bytes)

/-! ## Downloads -/

/-- The staging directory of a migration, with the limit of its assets. -/
structure MigrationStaging where
  maxAssetBytes : Nat
  deriving DecidableEq, Repr

/-- A downloaded asset which is ready to be uploaded. -/
structure PreparedMigrationAsset where
  path : String
  fileName : String
  sha1Base64 : String
  deriving DecidableEq, Repr

/-- `Drop for PreparedMigrationAsset`. -/
def PreparedMigrationAsset.drop (asset : PreparedMigrationAsset) : StagingProgram Unit :=
  cleanUp asset.path

namespace MigrationStaging

/-- `map_client_error`. -/
def mapClientError (error : ClientError) : ExecutorError :=
  match error.class_ with
  | .cancelled => .cancelled
  | _ => .client

/-- `ImmichReadClient::download_original`. -/
def downloadOriginal (assetId : String) : StagingProgram Download := do
  let answer ← (send (StagingCall.download assetId) :
    StagingProgram (StagingAnswer (.download assetId)))
  ofResult (Except.mapError mapClientError answer)

/-- The loop of `download`: what was given to both digests, and the count of its bytes. -/
def copyChunks (staging : MigrationStaging) (temporary : String) (byteLen : UInt64) :
    List (Except ClientError (List UInt8)) → List UInt8 → Nat → StagingProgram (List UInt8 × Nat)
  | [], hashed, observed => pure (hashed, observed)
  | .error error :: _, _, _ => throw (mapClientError error)
  | .ok chunk :: rest, hashed, observed => do
      let observed := observed + chunk.length
      -- `checked_add`
      ofResult (reject (decide (maxU64 < observed)) .sourceChanged)
      ofResult (reject (decide (byteLen.toNat < observed) ||
        decide (staging.maxAssetBytes < observed)) .sourceChanged)
      file (.write temporary chunk) .destination
      staging.copyChunks temporary byteLen rest (hashed ++ chunk) observed

section

variable (platform : Platform)

/-- `MigrationStaging::download`. -/
def download (staging : MigrationStaging) (asset : MigrationAsset) (temporary final : String) :
    StagingProgram Unit := do
  let download ← downloadOriginal asset.sourceAssetId
  ofResult (reject (download.contentLength.any fun length =>
    length != asset.byteLen.toNat || decide (staging.maxAssetBytes < length)) .sourceChanged)
  file (.create temporary) .destination
  let (hashed, observed) ← staging.copyChunks temporary asset.byteLen download.chunks [] 0
  ofResult (reject (observed != asset.byteLen.toNat || Sha1.hex hashed != asset.checksumSha1 ||
    platform.sha256 hashed != asset.contentSha256) .sourceChanged)
  file (.sync temporary) .destination
  file (.rename temporary final) .destination
  file (.inspect final) .sourceChanged

/-- `MigrationStaging::prepare`. -/
def prepare (staging : MigrationStaging) (asset : MigrationAsset) :
    StagingProgram PreparedMigrationAsset := do
  ofResult (reject (decide (staging.maxAssetBytes < asset.byteLen.toNat)) .invalidConfiguration)
  let final := stagedName asset.operationId "media"
  let temporary := stagedName asset.operationId "media.tmp"
  tryCatch (staging.download platform asset temporary final) fun error => do
    cleanUp temporary
    cleanUp final
    throw error
  let sha1Base64 ← ofResult (hexSha1Base64 asset.checksumSha1)
  return { path := final, fileName := asset.originalFileName, sha1Base64 }

end

end MigrationStaging

/-! ## Digests of downloads -/

/-- A lower-case hexadecimal digit is one byte, which is read as a digit. -/
theorem exists_utf8EncodeChar_hexDigit (value : Nat) :
    ∃ byte, String.utf8EncodeChar (Sha256.hexDigit value) = [byte] ∧
      (hexByteValue byte).isSome := by
  have digits : ∀ value < 16,
      String.utf8EncodeChar (Sha256.hexDigit value) =
          [(Sha256.hexDigit value).toNat.toUInt8] ∧
        (hexByteValue (Sha256.hexDigit value).toNat.toUInt8).isSome := by decide
  by_cases small : value < 16
  · exact ⟨_, digits value small⟩
  · have zero : Sha256.hexDigit value = Sha256.hexDigit 0 := by
      rw [Sha256.hexDigit, List.getD_eq_getElem?_getD,
        List.getElem?_eq_none (by simpa using small)]
      rfl
    rw [zero]
    exact ⟨_, digits 0 (by decide)⟩

theorem isSome_fromStrRadix {first second : UInt8} (high : (hexByteValue first).isSome)
    (low : (hexByteValue second).isSome) : (fromStrRadix first second).isSome := by
  obtain ⟨high, highRead⟩ := Option.isSome_iff_exists.mp high
  obtain ⟨low, lowRead⟩ := Option.isSome_iff_exists.mp low
  rw [fromStrRadix, highRead, lowRead]
  split <;> rfl

theorem isSome_hexChunks {bytes : List UInt8}
    (digits : ∀ byte ∈ bytes, (hexByteValue byte).isSome) : (hexChunks bytes).isSome := by
  induction bytes using hexChunks.induct with
  | case1 first second rest induction =>
      rw [List.forall_mem_cons, List.forall_mem_cons] at digits
      obtain ⟨high, low, others⟩ := digits
      obtain ⟨byte, made⟩ := Option.isSome_iff_exists.mp (isSome_fromStrRadix high low)
      obtain ⟨made', following⟩ := Option.isSome_iff_exists.mp (induction others)
      rw [hexChunks, made, following]
      rfl
  | case2 bytes short =>
      rw [hexChunks]
      · rfl
      · exact short

/-- The digest of a download can be written in base 64. -/
theorem exists_hexSha1Base64 (content : List UInt8) :
    ∃ text, hexSha1Base64 (Sha1.hex content) = .ok text := by
  have spelled : ∀ digit ∈ (Sha1.hex content).toList, ∃ value, digit = Sha256.hexDigit value := by
    intro digit member
    rw [Sha1.hex, String.toList_ofList] at member
    obtain ⟨word, _, listed⟩ := List.mem_flatMap.mp member
    obtain ⟨shift, _, same⟩ := List.mem_map.mp listed
    exact ⟨_, same.symm⟩
  have length : byteLen (Sha1.hex content) = 40 := by
    rw [Sha1.hex, byteLen_ofList_of_ascii]
    · rfl
    · intro digit member
      obtain ⟨value, rfl⟩ := spelled digit (by rwa [Sha1.hex, String.toList_ofList])
      exact (Sha256.hexDigit_lower value).2
  have digits : ∀ byte ∈ utf8Bytes (Sha1.hex content), (hexByteValue byte).isSome := by
    intro byte member
    rw [← String.ofList_toList (s := Sha1.hex content), utf8Bytes_ofList] at member
    obtain ⟨digit, listed, encoded⟩ := List.mem_flatMap.mp member
    obtain ⟨value, rfl⟩ := spelled digit listed
    obtain ⟨single, only, read⟩ := exists_utf8EncodeChar_hexDigit value
    rw [only, List.mem_singleton] at encoded
    rwa [encoded]
  obtain ⟨bytes, read⟩ := Option.isSome_iff_exists.mp (isSome_hexChunks digits)
  refine ⟨String.ofList (base64Encode bytes), ?_⟩
  rw [hexSha1Base64, length, read]
  rfl

/-! ## Downloaded files -/

/-- How many bytes a migrated asset may write under each name. -/
def MigrationAsset.plannedBytes (asset : MigrationAsset) (name : String) : Nat :=
  if name = stagedName asset.operationId "media.tmp" then asset.byteLen.toNat else 0

/-- A file is the planned original. -/
def MigrationAsset.Downloaded (platform : Platform) (asset : MigrationAsset)
    (content : List UInt8) : Prop :=
  content.length = asset.byteLen.toNat ∧ platform.sha256 content = asset.contentSha256 ∧
    Sha1.hex content = asset.checksumSha1

namespace MigrationStaging

section

variable {platform : Platform} {staging : MigrationStaging} {planned : String → Nat}
  {files : Contents String} {failed : ExecutorError → Contents String → Prop}

theorem ends_downloadOriginal {assetId : String} {ok : Download → Contents String → Prop}
    (going : ∀ download, ok download files) (stopped : ∀ error, failed error files) :
    Ends planned (downloadOriginal assetId) files ok failed := by
  apply ends_bind
  apply ends_send
  intro answer after performed
  have same : after = files := performed
  rw [same]
  refine ⟨trivial, ?_⟩
  apply ends_ofResult
  · exact fun download _ => going download
  · exact fun error _ => stopped error

/-- Reading a download writes what it hashes, and no more than the expected length. -/
theorem ends_copyChunks {temporary : String} {byteLen : UInt64}
    {chunks : List (Except ClientError (List UInt8))} {hashed : List UInt8} {observed : Nat}
    {ok : List UInt8 × Nat → Contents String → Prop}
    (planned_eq : planned temporary = byteLen.toNat) (present : files temporary = some hashed)
    (counted : observed = hashed.length)
    (going : ∀ result, ok (result, result.length)
      (Function.update files temporary (some result)))
    (stopped : ∀ error content, failed error (Function.update files temporary content)) :
    Ends planned (staging.copyChunks temporary byteLen chunks hashed observed) files ok
      failed := by
  subst counted
  have stays : ∀ error, failed error files := by
    intro error
    have unchanged := stopped error (files temporary)
    rwa [Function.update_eq_self] at unchanged
  induction chunks generalizing files hashed with
  | nil =>
      have unchanged := going hashed
      rwa [← present, Function.update_eq_self] at unchanged
  | cons answer rest induction =>
      cases answer with
      | error error => exact stays _
      | ok chunk =>
          rw [copyChunks, ← List.length_append]
          apply ends_bind
          apply ends_ofResult
          case refused => exact fun error _ => stays error
          case returned =>
            intro _ _
            apply ends_bind
            apply ends_ofResult
            case refused => exact fun error _ => stays error
            case returned =>
              intro _ accepted
              rw [reject_eq_ok, Bool.or_eq_false_iff, decide_eq_false_iff_not,
                Nat.not_lt] at accepted
              apply ends_bind
              apply ends_write present (planned_eq ▸ accepted.1)
              case stopped => exact stopped _
              case going =>
                intro _
                apply induction (Function.update_self _ _ _)
                case going =>
                  intro result
                  rw [Function.update_idem]
                  exact going result
                case stopped =>
                  intro error content
                  rw [Function.update_idem]
                  exact stopped error content
                case stays => exact fun error => stopped error _

/-- What is left of an original which was downloaded under its final name. -/
theorem ends_download {asset : MigrationAsset} {temporary final : String}
    {ok : Unit → Contents String → Prop}
    (planned_eq : planned temporary = asset.byteLen.toNat)
    (going : ∀ content, asset.Downloaded platform content →
      ok () (Function.update (Function.update files temporary none) final (some content)))
    (stopped : ∀ error after, Contents.AgreeOff [temporary, final] after files →
      failed error after) :
    Ends planned (staging.download platform asset temporary final) files ok failed := by
  have untouched := Contents.AgreeOff.refl [temporary, final] files
  have partly : ∀ content, Contents.AgreeOff [temporary, final]
      (Function.update files temporary content) files :=
    fun content => untouched.update List.mem_cons_self
  apply ends_bind
  apply ends_downloadOriginal _ fun error => stopped error _ untouched
  intro download
  apply ends_bind
  apply ends_ofResult _ fun error _ => stopped error _ untouched
  intro _ _
  apply ends_bind
  apply ends_create _ fun content => stopped _ _ (partly content)
  intro _
  apply ends_bind
  apply ends_copyChunks planned_eq (Function.update_self _ _ _) rfl
  case stopped =>
    intro error content
    rw [Function.update_idem]
    exact stopped error _ (partly content)
  case going =>
    intro hashed
    rw [Function.update_idem]
    apply ends_bind
    apply ends_ofResult _ fun error _ => stopped error _ (partly _)
    intro _ accepted
    rw [reject_eq_ok] at accepted
    simp only [Bool.or_eq_false_iff, bne_eq_false_iff_eq] at accepted
    obtain ⟨⟨length, sha1⟩, sha256⟩ := accepted
    have moved := (partly (some hashed)).rename List.mem_cons_self
      (List.mem_cons_of_mem temporary (List.mem_singleton_self final))
    apply ends_bind
    apply ends_sync _ (stopped _ _ (partly _))
    apply ends_bind
    apply ends_rename _ (stopped _ _ (partly _)) (stopped _ _ moved)
    apply ends_inspect _ (stopped _ _ moved)
    have kept := going hashed ⟨length, sha256, sha1⟩
    rwa [Contents.rename, Function.update_self, Function.update_idem]

/-- The planned original is staged. -/
structure Staged (platform : Platform) (asset : MigrationAsset) (prepared : PreparedMigrationAsset)
    (files : Contents String) : Prop where
  path : prepared.path = stagedName asset.operationId "media"
  media : ∃ content, files (stagedName asset.operationId "media") = some content ∧
    asset.Downloaded platform content

/-- Preparing an asset stages the planned original. -/
theorem prepares {asset : MigrationAsset} {root : Contents String}
    (free : ∀ name ∈ stagedNames asset.operationId, root name = none) :
    Stages asset.plannedBytes (staging.prepare platform asset) PreparedMigrationAsset.drop
      (Staged platform asset) root := by
  simp only [stagedNames, List.forall_mem_map, List.forall_mem_cons] at free
  obtain ⟨free, temporaryFree, _⟩ := free
  apply ends_bind
  refine ends_ofResult (fun _ _ => ?_) fun _ _ => rfl
  apply ends_bind
  apply ends_tryCatch
  apply ends_download (if_pos rfl)
  case stopped =>
    intro error after agree
    apply ends_bind
    apply ends_cleanUp
    apply ends_bind
    apply ends_cleanUp
    apply ends_throw
    exact agree.removed temporaryFree free
  case going =>
    intro content downloaded
    rw [← temporaryFree, Function.update_eq_self]
    apply ends_bind
    -- the checksum has passed as the digest of the content, so it is one
    obtain ⟨text, written⟩ := exists_hexSha1Base64 content
    rw [← downloaded.2.2, written]
    apply ends_pure
    refine ⟨⟨rfl, content, Function.update_self _ _ _, downloaded⟩, ?_⟩
    apply ends_cleanUp
    rw [Function.update_idem, ← free, Function.update_eq_self]

end

end MigrationStaging

end ImmichRs
