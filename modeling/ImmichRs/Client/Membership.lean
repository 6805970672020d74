import ImmichRs.Client.Requests
import ImmichRs.Collections.Maps
import ImmichRs.Core.Json
import ImmichRs.Core.Migration

/-!
# Album memberships

The request which adds assets to an album: its local checks, the bounded reading of its answer, and
what the answer has to say about every asset.
-/

namespace ImmichRs

open Collections
open Std (ExtTreeMap)

/-! ## Bounded answers -/

/-- What the transport reports of a failed exchange. -/
structure TransportError where
  isTimeout : Bool
  isConnect : Bool
  isRequest : Bool
  isBody : Bool
  deriving DecidableEq, Repr

/-- `classify_transport`. -/
def classifyTransport (error : TransportError) : ClientError :=
  .new (if error.isTimeout then .timeout
    else if error.isConnect || error.isRequest || error.isBody then .disconnect
    else .protocol)

/-- A response: its status, its `Retry-After` header and the chunks of its body. -/
structure HttpResponse where
  status : Nat
  retryAfter : Option String
  chunks : List (Except TransportError (List UInt8))

/-- `StatusCode::is_success`. -/
def HttpResponse.isSuccess (response : HttpResponse) : Bool :=
  decide (200 ≤ response.status) && decide (response.status < 300)

/-- The class of a status which is no success. -/
def statusClass (status : Nat) : ClientErrorClass :=
  if status = 401 ∨ status = 403 then .authentication
  else if status = 429 then .rateLimited
  else if status = 408 ∨ status = 425 ∨ 500 ≤ status ∧ status ≤ 599 then .server
  else .protocol

/-- `status_error`.  Delays are in nanoseconds. -/
def statusError (response : HttpResponse) (retryAfterCap : Nat) : ClientError :=
  { class_ := statusClass response.status
    status := some response.status
    retryAfter := ((response.retryAfter.bind parseU64).map (· * 1000000000)).filter
      (· ≤ retryAfterCap) }

/-- The loop over the chunks of a body. -/
def boundedBody (maxBytes : Nat) :
    List (Except TransportError (List UInt8)) → List UInt8 → Except ClientError (List UInt8)
  | [], body => .ok body
  | .error error :: _, _ => .error (classifyTransport error)
  | .ok chunk :: rest, body => do
      reject (decide (2 ^ 64 ≤ body.length + chunk.length)) (.new .protocol)
      reject (decide (maxBytes < body.length + chunk.length)) (.new .protocol)
      boundedBody maxBytes rest (body ++ chunk)

/-- `bounded_json`, for a decoder of the answer. -/
def boundedJson {α : Type} (decode : List UInt8 → Option α) (response : HttpResponse)
    (maxBytes retryAfterCap : Nat) : Except ClientError α := do
  reject (!response.isSuccess) (statusError response retryAfterCap)
  let body ← boundedBody maxBytes response.chunks []
  match decode body with
  | none => .error (.new .protocol)
  | some value => .ok value

/-- Network limits of a client.  Durations are in nanoseconds. -/
structure ClientConfig where
  requestTimeout : Nat
  maxResponseBytes : Nat
  retryAfterCap : Nat
  uploadBufferBytes : Nat
  deriving DecidableEq, Repr

/-- `ClientConfig::default()`. -/
def ClientConfig.default : ClientConfig :=
  { requestTimeout := 30 * 1000000000
    maxResponseBytes := 64 * 1024
    retryAfterCap := 60 * 1000000000
    uploadBufferBytes := 64 * 1024 }

/-- `ClientConfig::validate`. -/
def ClientConfig.validate (config : ClientConfig) : Except ClientError Unit :=
  protocolCheck (config.requestTimeout != 0 &&
    (decide (1024 ≤ config.maxResponseBytes) && decide (config.maxResponseBytes ≤ 1024 * 1024)) &&
    (decide (4 * 1024 ≤ config.uploadBufferBytes) &&
      decide (config.uploadBufferBytes ≤ 4 * 1024 * 1024)) &&
    decide (config.retryAfterCap ≤ 300 * 1000000000))

theorem ClientConfig.default_validate : ClientConfig.default.validate = .ok () := by decide +kernel

/-! ## The request -/

/-- Why the server did not add an asset. -/
inductive BulkIdError
  | duplicate | noPermission | notFound | unknown | validation
  deriving DecidableEq, Repr

/-- What the server says about one asset. -/
structure BulkIdResponse where
  id : String
  success : Bool
  error : Option BulkIdError
  deriving DecidableEq, Repr

/-- The asset is in the album. -/
def BulkIdResponse.converged (result : BulkIdResponse) : Bool :=
  result.success || result.error == some .duplicate

/-- `MAX_ALBUM_ASSETS`. -/
def maxAlbumAssets : Nat := 100000

/-- `valid_remote_id`, on characters: a character outside of ASCII is neither a hyphen nor a
digit. -/
def validRemoteId (value : String) : Bool :=
  let characters := value.toList
  byteLen value == 36 && uuidHyphens.all (fun index => characters[index]? == some '-') &&
    characters[14]? == some '4' &&
    (['8', '9', 'a', 'b', 'A', 'B'].any fun variant => characters[19]? == some variant) &&
    (characters.zipIdx.all fun entry => uuidHyphens.contains entry.2 || isAsciiHexdigit entry.1)

/-- `validate_ids`. -/
def validateIds (albumId : String) (assetIds : List String) : Except ClientError Unit :=
  protocolCheck (validRemoteId albumId && !assetIds.isEmpty &&
    decide (assetIds.length ≤ maxAlbumAssets) && assetIds.all validRemoteId &&
    strictlySorted assetIds)

/-- `validate_membership_results`. -/
def validateMembershipResults (expected : List String) (results : List BulkIdResponse) :
    Except ClientError Unit :=
  let actual := fill BulkIdResponse.id BulkIdResponse.converged results
    (∅ : ExtTreeMap String Bool)
  protocolCheck (decide (actual.size = expected.length) &&
    expected.all fun id => actual[id]? == some true)

/-- The capability for metadata and album effects. -/
structure ImmichImportClient where
  config : ClientConfig
  deriving DecidableEq, Repr

/-- `add_album_assets`, with what sending its request gives. -/
def ImmichImportClient.addAlbumAssets (client : ImmichImportClient)
    (decode : List UInt8 → Option (List BulkIdResponse)) (cancelled : Bool)
    (sent : Except ClientError HttpResponse) (albumId : String) (assetIds : List String) :
    Except ClientError Unit := do
  reject cancelled (.new .cancelled)
  validateIds albumId assetIds
  let response ← sent
  let results ←
    boundedJson decode response client.config.maxResponseBytes client.config.retryAfterCap
  validateMembershipResults assetIds results

theorem validateIds_ok_iff {albumId : String} {assetIds : List String} :
    validateIds albumId assetIds = .ok () ↔
      validRemoteId albumId = true ∧ assetIds ≠ [] ∧ assetIds.length ≤ maxAlbumAssets ∧
        (∀ id ∈ assetIds, validRemoteId id = true) ∧ assetIds.Pairwise (· < ·) := by
  rw [validateIds, protocolCheck_eq_ok]
  simp only [Bool.and_eq_true, Bool.not_eq_true', decide_eq_true_eq, List.all_eq_true,
    List.isEmpty_eq_false_iff, and_assoc]
  constructor
  · intro ⟨album, filled, count, valid, sorted⟩
    exact ⟨album, filled, count, valid, pairwise_of_strictlySorted sorted⟩
  · intro ⟨album, filled, count, valid, sorted⟩
    exact ⟨album, filled, count, valid, strictlySorted_of_pairwise sorted⟩

theorem nodup_of_validateIds {albumId : String} {assetIds : List String}
    (sent : validateIds albumId assetIds = .ok ()) : assetIds.Nodup :=
  (validateIds_ok_iff.mp sent).2.2.2.2.imp ne_of_lt

/-! ## What a response says -/

/-- The last result of an identifier says that its asset is in the album. -/
def LastConverges (results : List BulkIdResponse) (id : String) : Prop :=
  ∃ result, (results.filter fun other => other.id = id).getLast? = some result ∧
    result.converged = true

/-- A response reports success for exactly the requested assets, and each of them once. -/
def ConvergesExactly (requested : List String) (results : List BulkIdResponse) : Prop :=
  (∀ result ∈ results, result.converged = true) ∧
    (results.map BulkIdResponse.id).Perm requested

/-- The map of the results holds the last of each identifier. -/
theorem getElem?_results (results : List BulkIdResponse) (id : String) :
    (fill BulkIdResponse.id BulkIdResponse.converged results ∅)[id]? = some true ↔
      LastConverges results id := by
  rw [getElem?_fill_last, ExtTreeMap.getElem?_empty, Option.or_none, Option.map_eq_some_iff]
  exact Iff.rfl

/-- The map of the results holds their identifiers. -/
theorem mem_results (results : List BulkIdResponse) (id : String) :
    id ∈ fill BulkIdResponse.id BulkIdResponse.converged results (∅ : ExtTreeMap String Bool) ↔
      id ∈ results.map BulkIdResponse.id := by
  rw [← ExtTreeMap.isSome_getElem?_iff_mem, getElem?_fill_last, ExtTreeMap.getElem?_empty,
    Option.or_none, Option.isSome_map, List.getLast?_isSome, List.mem_map]
  simp only [ne_eq, List.filter_eq_nil_iff, decide_eq_true_eq, not_forall, not_not, exists_prop]

/-- Requested assets are recognized when the last results of exactly these say so. -/
theorem validateMembershipResults_ok_iff {requested : List String} (distinct : requested.Nodup)
    (results : List BulkIdResponse) :
    validateMembershipResults requested results = .ok () ↔
      (∀ result ∈ results, result.id ∈ requested) ∧ ∀ id ∈ requested, LastConverges results id := by
  rw [validateMembershipResults, protocolCheck_eq_ok]
  simp only [Bool.and_eq_true, decide_eq_true_eq, List.all_eq_true, beq_iff_eq, getElem?_results]
  constructor
  · intro ⟨size, converges⟩
    refine ⟨fun result member => ?_, converges⟩
    have held : ∀ id ∈ requested, id ∈ fill BulkIdResponse.id BulkIdResponse.converged results
        (∅ : ExtTreeMap String Bool) := by
      intro id member
      obtain ⟨last, found, -⟩ := converges id member
      have inside := List.mem_filter.mp (List.mem_of_getLast? found)
      rw [mem_results, ← of_decide_eq_true inside.2]
      exact List.mem_map_of_mem inside.1
    have keys := perm_keys distinct held size.le
    apply keys.mem_iff.mp
    rw [ExtTreeMap.mem_keys, mem_results]
    exact List.mem_map_of_mem member
  · intro ⟨known, converges⟩
    refine ⟨?_, converges⟩
    rw [← ExtTreeMap.length_keys]
    apply List.Perm.length_eq
    rw [List.perm_ext_iff_of_nodup ExtTreeMap.nodup_keys distinct]
    intro id
    rw [ExtTreeMap.mem_keys, mem_results, List.mem_map]
    constructor
    · intro ⟨result, member, same⟩
      exact same ▸ known result member
    · intro member
      obtain ⟨last, found, -⟩ := converges id member
      have inside := List.mem_filter.mp (List.mem_of_getLast? found)
      exact ⟨last, inside.1, of_decide_eq_true inside.2⟩

/-- Among results of different identifiers, each is the last of its own. -/
theorem converged_of_lastConverges {results : List BulkIdResponse}
    (distinct : (results.map BulkIdResponse.id).Nodup) {result : BulkIdResponse}
    (member : result ∈ results) (last : LastConverges results result.id) :
    result.converged = true := by
  obtain ⟨other, found, converged⟩ := last
  have inside := List.mem_filter.mp (List.mem_of_getLast? found)
  have same : other = result :=
    List.inj_on_of_nodup_map distinct inside.1 member (of_decide_eq_true inside.2)
  exact same ▸ converged

/-- A response is accepted only when it reports success for exactly the requested assets, each
once, unless it names an asset twice and ends with success for each of the requested ones. -/
theorem validateMembershipResults_exact_iff {albumId : String} {assetIds : List String}
    (sent : validateIds albumId assetIds = .ok ()) (results : List BulkIdResponse) :
    (validateMembershipResults assetIds results = .ok () → ConvergesExactly assetIds results) ↔
      (results.map BulkIdResponse.id).Nodup ∨ (∃ result ∈ results, result.id ∉ assetIds) ∨
        ∃ id ∈ assetIds, ¬ LastConverges results id := by
  have distinct := nodup_of_validateIds sent
  rw [validateMembershipResults_ok_iff distinct]
  constructor
  · intro exact_
    by_cases known : ∀ result ∈ results, result.id ∈ assetIds
    · by_cases converges : ∀ id ∈ assetIds, LastConverges results id
      · exact .inl ((exact_ ⟨known, converges⟩).2.nodup_iff.mpr distinct)
      · simp only [not_forall, exists_prop] at converges
        exact .inr (.inr converges)
    · simp only [not_forall, exists_prop] at known
      exact .inr (.inl known)
  · rintro (once | ⟨result, member, unknown⟩ | ⟨id, member, failed⟩) ⟨known, converges⟩
    · refine ⟨fun result member => ?_, ?_⟩
      · exact converged_of_lastConverges once member (converges _ (known result member))
      · rw [List.perm_ext_iff_of_nodup once distinct]
        intro id
        constructor
        · intro listed
          obtain ⟨result, member, rfl⟩ := List.mem_map.mp listed
          exact known result member
        · intro member
          obtain ⟨last, found, -⟩ := converges id member
          have inside := List.mem_filter.mp (List.mem_of_getLast? found)
          exact List.mem_map.mpr ⟨last, inside.1, of_decide_eq_true inside.2⟩
    · exact absurd (known result member) unknown
    · exact absurd (converges id member) failed

/-- The results of a successful response. -/
def successResults (assetIds : List String) : List BulkIdResponse :=
  assetIds.map fun id => { id, success := true, error := none }

/-- The identifier which ends in two given digits. -/
def sampleRemoteId (first second : Char) : String :=
  String.ofList ("00000000-0000-4000-8000-0000000000".toList ++ [first, second])

/-- A response which names its only asset once. -/
theorem sampleResults_exact :
    validateMembershipResults [sampleRemoteId '0' '1']
        (successResults [sampleRemoteId '0' '1']) = .ok () ∧
      ConvergesExactly [sampleRemoteId '0' '1'] (successResults [sampleRemoteId '0' '1']) := by
  have accepted : validateMembershipResults [sampleRemoteId '0' '1']
      (successResults [sampleRemoteId '0' '1']) = .ok () := by decide +kernel
  have sent : validateIds (sampleRemoteId '0' '0') [sampleRemoteId '0' '1'] = .ok () := by
    decide +kernel
  exact ⟨accepted, (validateMembershipResults_exact_iff sent _).mpr
    (.inl (List.nodup_singleton _)) accepted⟩

/-- A response which fails an asset and then names it a success is accepted. -/
theorem sampleResults_repeated :
    validateIds (sampleRemoteId '0' '0') [sampleRemoteId '0' '1'] = .ok () ∧
      validateMembershipResults [sampleRemoteId '0' '1']
        [{ id := sampleRemoteId '0' '1', success := false, error := some .noPermission },
          { id := sampleRemoteId '0' '1', success := true, error := none }] = .ok () ∧
      ¬ ConvergesExactly [sampleRemoteId '0' '1']
        [{ id := sampleRemoteId '0' '1', success := false, error := some .noPermission },
          { id := sampleRemoteId '0' '1', success := true, error := none }] := by
  refine ⟨by decide +kernel, by decide +kernel, fun exact_ => ?_⟩
  exact Bool.false_ne_true (exact_.1 _ List.mem_cons_self)

/-! ## The length of a successful response -/

/-- The object of a successful response for one asset. -/
def membershipSuccess (id : String) : String :=
  jsonObject [("id", jsonString id), ("success", jsonBool true)]

/-- A successful response: one object for each asset. -/
def membershipSuccesses (assetIds : List String) : String :=
  jsonArray (assetIds.map membershipSuccess)

theorem byteLen_intercalate_comma (first : String) (rest : List String) :
    byteLen (",".intercalate (first :: rest)) =
      byteLen first + (rest.map fun item => 1 + byteLen item).sum := by
  induction rest generalizing first with
  | nil => rfl
  | cons second rest induction =>
      rw [String.intercalate_cons_cons, byteLen_append, byteLen_append, induction, List.map_cons,
        List.sum_cons, show byteLen "," = 1 from rfl]
      omega

/-- A string without characters to escape is quoted as it is. -/
theorem byteLen_jsonString {value : String}
    (plain : ∀ character ∈ value.toList, jsonEscape character = [character]) :
    byteLen (jsonString value) = byteLen value + 2 := by
  have same : value.toList.flatMap jsonEscape = value.toList := by
    calc value.toList.flatMap jsonEscape
        = value.toList.flatMap fun character => [character] := List.flatMap_congr plain
      _ = value.toList := List.flatMap_singleton' _
  rw [jsonString, same, String.ofList_toList, byteLen_append, byteLen_append,
    show byteLen "\"" = 1 from rfl]
  omega

theorem jsonEscape_of_isAsciiHexdigit {digit : Char} (hexadecimal : isAsciiHexdigit digit = true) :
    jsonEscape digit = [digit] := by
  have codes : 48 ≤ digit.toNat ∧ digit.toNat ≠ 92 := by
    simp only [isAsciiHexdigit, isAsciiDigit, Bool.and_eq_true, Bool.or_eq_true, decide_eq_true_eq,
      Char.le_def, UInt32.le_iff_toNat_le, Char.reduceVal, UInt32.reduceToNat] at hexadecimal
    show 48 ≤ digit.val.toNat ∧ digit.val.toNat ≠ 92
    omega
  have apart : ∀ other : Char, other.toNat < 48 ∨ other.toNat = 92 → digit ≠ other := by
    intro other low same
    subst same
    omega
  rw [jsonEscape, if_neg (apart _ (by decide)), if_neg (apart _ (by decide)),
    if_neg (apart _ (by decide)), if_neg (apart _ (by decide)), if_neg (apart _ (by decide)),
    if_neg (by omega), if_neg (by omega), if_neg (by omega)]

theorem byteLen_of_validRemoteId {id : String} (valid : validRemoteId id = true) :
    byteLen (jsonString id) = 38 := by
  simp only [validRemoteId, Bool.and_eq_true, beq_iff_eq, List.all_eq_true, Bool.or_eq_true,
    List.contains_iff_mem] at valid
  obtain ⟨⟨⟨⟨length, hyphens⟩, _⟩, _⟩, digits⟩ := valid
  rw [byteLen_jsonString, length]
  intro character member
  obtain ⟨index, bound, found⟩ := List.getElem_of_mem member
  have entry : (character, index) ∈ id.toList.zipIdx :=
    List.mk_mem_zipIdx_iff_getElem?.mpr (found ▸ List.getElem?_eq_getElem bound)
  rcases digits _ entry with hyphen | digit
  · have same := hyphens index hyphen
    rw [List.getElem?_eq_getElem bound, found, Option.some.injEq] at same
    rw [same]
    rfl
  · exact jsonEscape_of_isAsciiHexdigit digit

theorem byteLen_membershipSuccess {id : String} (valid : validRemoteId id = true) :
    byteLen (membershipSuccess id) = 60 := by
  rw [membershipSuccess, jsonObject]
  simp only [List.map_cons, List.map_nil, byteLen_append, byteLen_intercalate_comma,
    byteLen_of_validRemoteId valid, List.sum_cons, List.sum_nil]
  rfl

/-- A successful response takes sixty-one bytes for each asset, and one more. -/
theorem byteLen_membershipSuccesses {assetIds : List String} (filled : assetIds ≠ [])
    (valid : ∀ id ∈ assetIds, validRemoteId id = true) :
    byteLen (membershipSuccesses assetIds) = 61 * assetIds.length + 1 := by
  have lengths : ∀ rest : List String, (∀ id ∈ rest, validRemoteId id = true) →
      ((rest.map membershipSuccess).map fun item => 1 + byteLen item).sum = 61 * rest.length := by
    intro rest valid
    induction rest with
    | nil => rfl
    | cons id rest induction =>
        rw [List.map_cons, List.map_cons, List.sum_cons,
          byteLen_membershipSuccess (valid id List.mem_cons_self),
          induction fun other member => valid other (List.mem_cons_of_mem id member),
          List.length_cons]
        omega
  cases assetIds with
  | nil => exact absurd rfl filled
  | cons id rest =>
      rw [membershipSuccesses, jsonArray, List.map_cons, byteLen_append, byteLen_append,
        byteLen_intercalate_comma, byteLen_membershipSuccess (valid id List.mem_cons_self),
        lengths rest fun other member => valid other (List.mem_cons_of_mem id member),
        List.length_cons, show byteLen "[" = 1 from rfl, show byteLen "]" = 1 from rfl]
      omega

/-- Every division of a body into chunks is read, up to the limit. -/
theorem boundedBody_chunks {maxBytes : Nat} (small : maxBytes < 2 ^ 64)
    (chunks : List (List UInt8)) {body : List UInt8} (fits : body.length ≤ maxBytes) :
    boundedBody maxBytes (chunks.map .ok) body =
      if body.length + chunks.flatten.length ≤ maxBytes then .ok (body ++ chunks.flatten)
      else .error (.new .protocol) := by
  induction chunks generalizing body with
  | nil =>
      rw [List.map_nil, boundedBody, List.flatten_nil, List.append_nil, List.length_nil,
        Nat.add_zero, if_pos fits]
  | cons chunk rest induction =>
      rw [List.map_cons, boundedBody, List.flatten_cons, List.length_append]
      by_cases large : maxBytes < body.length + chunk.length
      · rw [if_neg (by omega), decide_eq_true large]
        by_cases huge : 2 ^ 64 ≤ body.length + chunk.length
        · rw [decide_eq_true huge]
          rfl
        · rw [decide_eq_false huge]
          rfl
      · rw [decide_eq_false large, decide_eq_false (by omega)]
        have kept : (body ++ chunk).length ≤ maxBytes := by
          rw [List.length_append]
          omega
        have following := induction kept
        rw [List.length_append, Nat.add_assoc, List.append_assoc] at following
        exact following

theorem ClientConfig.maxResponseBytes_of_validate {config : ClientConfig}
    (accepted : config.validate = .ok ()) : config.maxResponseBytes ≤ 1024 * 1024 := by
  rw [ClientConfig.validate, protocolCheck_eq_ok] at accepted
  simp only [Bool.and_eq_true, decide_eq_true_eq] at accepted
  exact accepted.1.1.2.2

theorem validateMembershipResults_success {assetIds : List String} (distinct : assetIds.Nodup) :
    validateMembershipResults assetIds (successResults assetIds) = .ok () := by
  rw [validateMembershipResults_ok_iff distinct]
  constructor
  · intro result member
    obtain ⟨id, listed, rfl⟩ := List.mem_map.mp member
    exact listed
  · intro id member
    have listed : ({ id, success := true, error := none } : BulkIdResponse) ∈
        (successResults assetIds).filter fun other => other.id = id := by
      apply List.mem_filter.mpr
      exact ⟨List.mem_map_of_mem member, decide_eq_true rfl⟩
    cases found : ((successResults assetIds).filter fun other => other.id = id).getLast? with
    | none =>
        rw [List.getLast?_eq_none_iff] at found
        rw [found] at listed
        cases listed
    | some last =>
        refine ⟨last, found, ?_⟩
        have inside := (List.mem_filter.mp (List.mem_of_getLast? found)).1
        obtain ⟨other, _, rfl⟩ := List.mem_map.mp inside
        rfl

section

variable {client : ImmichImportClient} {decode : List UInt8 → Option (List BulkIdResponse)}
  {albumId : String} {assetIds : List String}

/-- A successful response is recognized, however it is divided, exactly when it fits the limit. -/
theorem addAlbumAssets_success_iff (accepted : client.config.validate = .ok ())
    (requested : validateIds albumId assetIds = .ok ())
    (decoded : decode (utf8Bytes (membershipSuccesses assetIds)) = some (successResults assetIds))
    {response : HttpResponse} (success : response.isSuccess = true) {chunks : List (List UInt8)}
    (divided : response.chunks = chunks.map .ok)
    (body : chunks.flatten = utf8Bytes (membershipSuccesses assetIds)) :
    client.addAlbumAssets decode false (.ok response) albumId assetIds = .ok () ↔
      byteLen (membershipSuccesses assetIds) ≤ client.config.maxResponseBytes := by
  have small := ClientConfig.maxResponseBytes_of_validate accepted
  have read := @boundedBody_chunks client.config.maxResponseBytes (by omega) chunks []
    (Nat.zero_le _)
  rw [List.length_nil, Nat.zero_add, List.nil_append, body, length_utf8Bytes, ← divided] at read
  have distinct := nodup_of_validateIds requested
  have step : client.addAlbumAssets decode false (.ok response) albumId assetIds =
      boundedJson decode response client.config.maxResponseBytes client.config.retryAfterCap >>=
        validateMembershipResults assetIds := by
    rw [ImmichImportClient.addAlbumAssets, requested]
    rfl
  rw [step, boundedJson, success, read]
  by_cases fits : byteLen (membershipSuccesses assetIds) ≤ client.config.maxResponseBytes
  · rw [if_pos fits]
    simp only [Bool.not_true, bind_eq_ok, fits, iff_true]
    refine ⟨successResults assetIds, ⟨(), rfl, _, rfl, ?_⟩,
      validateMembershipResults_success distinct⟩
    rw [decoded]
  · rw [if_neg fits]
    simp [reject, bind, Except.bind, fits]

/-- A successful response is within the limit, and then recognized however it is divided, exactly
when sixty-one bytes for each asset and one more are. -/
theorem addAlbumAssets_recognized_iff (accepted : client.config.validate = .ok ())
    (requested : validateIds albumId assetIds = .ok ())
    (decoded : decode (utf8Bytes (membershipSuccesses assetIds)) =
      some (successResults assetIds)) :
    (byteLen (membershipSuccesses assetIds) ≤ client.config.maxResponseBytes ∧
      ∀ response : HttpResponse, response.isSuccess = true → ∀ chunks : List (List UInt8),
        response.chunks = chunks.map .ok →
          chunks.flatten = utf8Bytes (membershipSuccesses assetIds) →
            client.addAlbumAssets decode false (.ok response) albumId assetIds = .ok ()) ↔
      61 * assetIds.length + 1 ≤ client.config.maxResponseBytes := by
  obtain ⟨-, filled, -, valid, -⟩ := validateIds_ok_iff.mp requested
  rw [← byteLen_membershipSuccesses filled valid]
  constructor
  · intro recognized
    exact recognized.1
  · intro fits
    refine ⟨fits, fun response success chunks divided body => ?_⟩
    exact (addAlbumAssets_success_iff accepted requested decoded success divided body).mpr fits

end

/-- One asset fits the default limit. -/
theorem sampleRequest_recognized :
    61 * [sampleRemoteId '0' '1'].length + 1 ≤ ClientConfig.default.maxResponseBytes ∧
      byteLen (membershipSuccesses [sampleRemoteId '0' '1']) ≤
        ClientConfig.default.maxResponseBytes := by
  have fits : 61 * [sampleRemoteId '0' '1'].length + 1 ≤ ClientConfig.default.maxResponseBytes := by
    decide
  have sent : validateIds (sampleRemoteId '0' '0') [sampleRemoteId '0' '1'] = .ok () := by
    decide +kernel
  exact ⟨fits, ((@addAlbumAssets_recognized_iff ⟨ClientConfig.default⟩
    (fun _ => some (successResults [sampleRemoteId '0' '1'])) _ _ ClientConfig.default_validate sent
    rfl).mpr fits).1⟩

/-- Seventeen identifiers in order. -/
def sampleRemoteIds : List String :=
  (['0', '1', '2', '3', '4', '5', '6', '7', '8'].map (sampleRemoteId '0')) ++
    (['0', '1', '2', '3', '4', '5', '6', '7'].map (sampleRemoteId '1'))

/-- The default limits with the smallest accepted responses. -/
def sampleNarrowConfig : ClientConfig := { ClientConfig.default with maxResponseBytes := 1024 }

/-- Seventeen assets are not recognized within an accepted limit of 1024 bytes. -/
theorem sampleRequest_unrecognized :
    sampleNarrowConfig.validate = .ok () ∧
      validateIds (sampleRemoteId '0' '0') sampleRemoteIds = .ok () ∧
      sampleNarrowConfig.maxResponseBytes < byteLen (membershipSuccesses sampleRemoteIds) ∧
      (⟨sampleNarrowConfig⟩ : ImmichImportClient).addAlbumAssets
        (fun _ => some (successResults sampleRemoteIds)) false
        (.ok { status := 200, retryAfter := none,
               chunks := [.ok (utf8Bytes (membershipSuccesses sampleRemoteIds))] })
        (sampleRemoteId '0' '0') sampleRemoteIds = .error (.new .protocol) := by
  decide +kernel

end ImmichRs
