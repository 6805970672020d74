import ImmichRs.Client.Endpoint
import ImmichRs.Client.Requests
import ImmichRs.Sources.Fingerprint
import ImmichRs.Web.Grants

/-!
# Server profiles

A server profile is bound by one digest of its non-secret inputs, which writes texts of any length
side by side without their lengths.  The identifier is told from the origin by the scheme, and the
address ranges tell themselves apart; the origin, the two paths and the mode do not: two profiles
have one digest exactly when a piece of text can be moved from the end of one of these fields to
what follows it.
-/

namespace ImmichRs.Web.Profiles

open Encoding

/-! ## Address ranges -/

/-- `MAX_ADDRESS_RANGES`. -/
def maxAddressRanges : Nat := 32

/-- An admitted network. -/
inductive AddressRange
  | v4 (network : BitVec 32) (bits : UInt8)
  | v6 (network : BitVec 128) (bits : UInt8)
  deriving DecidableEq, Repr

/-- `mask_v4`. -/
def maskV4 (bits : UInt8) : BitVec 32 :=
  if bits = 0 then 0 else BitVec.allOnes 32 <<< (32 - bits.toNat)

/-- `mask_v6`. -/
def maskV6 (bits : UInt8) : BitVec 128 :=
  if bits = 0 then 0 else BitVec.allOnes 128 <<< (128 - bits.toNat)

/-- `str::parse::<u8>`. -/
def parseByte (text : String) : Option UInt8 :=
  (parseU64 text).bind fun value => if value < 256 then some (UInt8.ofNat value) else none

/-- `AddressRange::parse`. -/
def AddressRange.parse (value : String) : Except String AddressRange :=
  match splitOnce value '/' with
  | none => .error "invalid server address allowlist"
  | some (address, bits) =>
      match IpAddr.parse address, parseByte bits with
      | some (.v4 address), some bits =>
          if bits ≤ 32 then .ok (.v4 (address &&& maskV4 bits) bits)
          else .error "invalid server address allowlist"
      | some (.v6 address), some bits =>
          if bits ≤ 128 then .ok (.v6 (address &&& maskV6 bits) bits)
          else .error "invalid server address allowlist"
      | _, _ => .error "invalid server address allowlist"

/-- `parse_ranges`. -/
def parseRanges (values : List String) : Except String (List AddressRange) := do
  reject (decide (maxAddressRanges < values.length)) "server address allowlist is too large"
  values.mapM AddressRange.parse

/-- `AddressRange::update_digest`. -/
def AddressRange.digestBytes : AddressRange → List UInt8
  | .v4 network bits => 4 :: bits :: littleEndian 4 network.toNat
  | .v6 network bits => 6 :: bits :: littleEndian 16 network.toNat

/-! ## Profiles -/

/-- `RawServerProfile`, with the bytes of its paths. -/
structure RawServerProfile where
  id : String
  origin : String
  apiKeyFile : List UInt8
  caCertificateFile : Option (List UInt8)
  mode : ServerMode
  allowedCidrs : List String
  generation : UInt64
  credentialGeneration : UInt64
  deriving DecidableEq

/-- `ServerProfile`. -/
structure ServerProfile where
  id : String
  origin : String
  apiKeyFile : List UInt8
  caCertificateFile : Option (List UInt8)
  mode : ServerMode
  addressRanges : List AddressRange
  generation : UInt64
  generationSha256 : String
  credentialGeneration : UInt64
  deriving DecidableEq

/-- `MAX_ID_BYTES`. -/
def maxIdBytes : Nat := 64

/-- `u8::is_ascii_lowercase` or `u8::is_ascii_digit`, on a character. -/
def isLowerOrDigit (character : Char) : Bool :=
  ('a' ≤ character && character ≤ 'z') || isAsciiDigit character

/-- `validate_id`. -/
def validateId (value : String) : Except String Unit :=
  reject (!(decide (1 ≤ byteLen value) && decide (byteLen value ≤ maxIdBytes) &&
    value.toList.head?.any isLowerOrDigit &&
    (value.toList.drop 1).all fun character =>
      isLowerOrDigit character || character == '-' || character == '_'))
    "profile identifier is invalid"

/-- `Path::is_absolute`, on Unix. -/
def isAbsolute (path : List UInt8) : Bool := path.head? == some 47

/-- `valid_mode`. -/
def validMode (mode : ServerMode) (url : Url) (endpoint : ImmichEndpoint)
    (ranges : List AddressRange) : Bool :=
  match mode with
  | .disposable =>
      endpoint.loopback &&
        (url.host.any fun host =>
          match host with
          | .address address => address.isLoopback
          | .domain _ => false) &&
        ranges.isEmpty
  | .productionRead => url.scheme == "https" && !endpoint.loopback && !ranges.isEmpty

/-- The byte of a mode. -/
def modeByte : ServerMode → UInt8
  | .disposable => 0
  | .productionRead => 1

/-- The bytes of the mode and of the ranges. -/
def markBytes (mode : ServerMode) (ranges : List AddressRange) : List UInt8 :=
  modeByte mode :: ranges.flatMap AddressRange.digestBytes

/-- What `server_generation` hashes. -/
def serverMessage (raw : RawServerProfile) (ranges : List AddressRange) : List UInt8 :=
  littleEndian 8 raw.generation.toNat ++ (utf8Bytes raw.id ++ (utf8Bytes raw.origin ++
    (raw.apiKeyFile ++ (raw.caCertificateFile.getD [] ++ markBytes raw.mode ranges))))

/-- `server_generation`. -/
def serverGeneration (platform : Platform) (raw : RawServerProfile)
    (ranges : List AddressRange) : String :=
  platform.sha256 (serverMessage raw ranges)

/-- `ServerProfile::from_raw`. -/
def ServerProfile.fromRaw (platform : Platform) (parseUrl : String → Option Url)
    (raw : RawServerProfile) : Except String ServerProfile := do
  validateId raw.id
  let endpoint ← (ImmichEndpoint.parse parseUrl raw.origin).mapError fun _ =>
    "server profile origin is invalid"
  let url ← okOr (parseUrl raw.origin) "server profile origin is invalid"
  let addressRanges ← parseRanges raw.allowedCidrs
  reject (!isAbsolute raw.apiKeyFile || raw.caCertificateFile.any (fun path => !isAbsolute path) ||
    raw.generation == 0 || raw.credentialGeneration == 0 ||
    !validMode raw.mode url endpoint addressRanges) "server profile is invalid"
  let generationSha256 := serverGeneration platform raw addressRanges
  return { id := raw.id
           origin := raw.origin
           apiKeyFile := raw.apiKeyFile
           caCertificateFile := raw.caCertificateFile
           mode := raw.mode
           addressRanges
           generation := raw.generation
           generationSha256
           credentialGeneration := raw.credentialGeneration }

/-- The parts which a grant is bound to. -/
def ServerProfile.forGrant (profile : ServerProfile) : Web.ServerProfile :=
  { mode := profile.mode
    generationSha256 := profile.generationSha256
    credentialGeneration := profile.credentialGeneration.toNat }

/-! ## Accepted profiles -/

/-- The bytes which follow the API key path. -/
def ServerProfile.certificateBytes (profile : ServerProfile) : List UInt8 :=
  profile.caCertificateFile.getD [] ++ markBytes profile.mode profile.addressRanges

/-- The bytes which follow the origin. -/
def ServerProfile.pathBytes (profile : ServerProfile) : List UInt8 :=
  profile.apiKeyFile ++ profile.certificateBytes

/-- What the digest of a profile hashes. -/
def ServerProfile.message (profile : ServerProfile) : List UInt8 :=
  littleEndian 8 profile.generation.toNat ++
    (utf8Bytes profile.id ++ (utf8Bytes profile.origin ++ profile.pathBytes))

/-- The non-secret inputs of a profile. -/
def ServerProfile.inputs (profile : ServerProfile) :
    UInt64 × String × String × List UInt8 × Option (List UInt8) × ServerMode ×
      List AddressRange :=
  (profile.generation, profile.id, profile.origin, profile.apiKeyFile, profile.caCertificateFile,
    profile.mode, profile.addressRanges)

/-- What acceptance says of a profile. -/
structure ServerProfile.Accepted (platform : Platform) (parseUrl : String → Option Url)
    (profile : ServerProfile) : Prop where
  id : validateId profile.id = .ok ()
  origin : ∃ url, parseUrl profile.origin = some url ∧ (url.scheme = "https" ∨ url.scheme = "http")
  certificate : ∀ path, profile.caCertificateFile = some path → isAbsolute path = true
  digest : profile.generationSha256 = platform.sha256 profile.message

section

variable {platform : Platform} {parseUrl : String → Option Url}

theorem ServerProfile.Accepted.of_fromRaw {raw : RawServerProfile} {profile : ServerProfile}
    (accepted : ServerProfile.fromRaw platform parseUrl raw = .ok profile) :
    profile.Accepted platform parseUrl := by
  rw [ServerProfile.fromRaw] at accepted
  simp only [bind_eq_ok, mapError_eq_ok] at accepted
  obtain ⟨_, identifier, endpoint, parsed, url, _, ranges, _, _, valid, built⟩ := accepted
  rw [reject_eq_ok] at valid
  simp only [Bool.or_eq_false_iff, Bool.not_eq_false'] at valid
  obtain ⟨⟨⟨⟨_, certificate⟩, _⟩, _⟩, _⟩ := valid
  cases Except.ok.inj built
  refine ⟨identifier, ImmichEndpoint.scheme_of_parse parsed, ?_, rfl⟩
  intro path present
  dsimp only at present
  rw [present] at certificate
  simpa using certificate

/-! ## The identifier and the origin -/

/-- The characters of an identifier. -/
theorem isIdentifier_of_validateId {value : String} (valid : validateId value = .ok ()) :
    ∀ character ∈ value.toList,
      isLowerOrDigit character = true ∨ character = '-' ∨ character = '_' := by
  rw [validateId, reject_eq_ok] at valid
  simp only [Bool.not_eq_false', Bool.and_eq_true] at valid
  obtain ⟨⟨_, opens⟩, continues⟩ := valid
  intro character member
  cases split : value.toList with
  | nil =>
      rw [split] at member
      cases member
  | cons first rest =>
      rw [split] at member opens continues
      rcases List.mem_cons.mp member with rfl | later
      · exact Or.inl opens
      · have allowed := List.all_eq_true.mp continues character later
        simpa [or_assoc] using allowed

/-- A character which is its own lower case, and neither a colon nor a blank. -/
structure Plain (character : Char) : Prop where
  visible : ' ' < character
  narrow : character ≤ 'z'
  noColon : character ≠ ':'
  lower : character.toLower = character

theorem plain_of_between (low high : Char) {character : Char} (visible : ' ' < low) (narrow : high ≤ 'z')
    (upper : 'Z' < low ∨ high < 'A') (colon : ':' < low ∨ high < ':') (above : low ≤ character)
    (below : character ≤ high) : Plain character := by
  have small : ¬ ('A' ≤ character ∧ character ≤ 'Z') := by
    rintro ⟨atLeast, atMost⟩
    rcases upper with upper | upper
    · exact absurd (above.trans atMost) (not_le_of_gt upper)
    · exact absurd (atLeast.trans below) (not_le_of_gt upper)
  refine ⟨lt_of_lt_of_le visible above, below.trans narrow, ?_, ?_⟩
  · rintro rfl
    rcases colon with colon | colon
    · exact absurd above (not_le_of_gt colon)
    · exact absurd below (not_le_of_gt colon)
  · delta Char.toLower
    exact dif_neg small

theorem plain_of_validateId {value : String} (valid : validateId value = .ok ()) :
    ∀ character ∈ value.toList, Plain character := by
  intro character member
  rcases isIdentifier_of_validateId valid character member with identifier | rfl | rfl
  · rw [isLowerOrDigit, isAsciiDigit, Bool.or_eq_true, Bool.and_eq_true, Bool.and_eq_true,
      decide_eq_true_eq, decide_eq_true_eq, decide_eq_true_eq, decide_eq_true_eq] at identifier
    rcases identifier with ⟨above, below⟩ | ⟨above, below⟩
    · exact plain_of_between 'a' 'z' (by decide) (by decide) (by decide) (by decide) above below
    · exact plain_of_between '0' '9' (by decide) (by decide) (by decide) (by decide) above below
  · apply plain_of_between '-' '-' _ _ _ _ le_rfl le_rfl <;> decide
  · apply plain_of_between '_' '_' _ _ _ _ le_rfl le_rfl <;> decide

/-- Plain characters are what stays of them without blanks and in lower case. -/
theorem lowered_of_plain {characters : List Char}
    (plain : ∀ character ∈ characters, Plain character) :
    (characters.filter fun character => decide (' ' < character)).map Char.toLower =
      characters := by
  rw [List.filter_eq_self.mpr fun character member => decide_eq_true (plain character member).visible]
  exact (List.map_congr_left fun character member => (plain character member).lower).trans
    (List.map_id _)

/-- The schemes of an endpoint. -/
def schemes : List (List Char) := ["http".toList, "https".toList]

/-- The origin up to its first colon. -/
structure OpensOrigin (origin : String) (front behind : List Char) : Prop where
  split : origin.toList = front ++ ':' :: behind
  narrow : ∀ character ∈ front, character ≤ 'z' ∧ character ≠ ':'
  scheme : (front.filter fun character => decide (' ' < character)).map Char.toLower ∈ schemes

theorem ServerProfile.Accepted.exists_front (urls : ShowsScheme parseUrl) {profile : ServerProfile}
    (accepted : profile.Accepted platform parseUrl) :
    ∃ front behind, OpensOrigin profile.origin front behind := by
  obtain ⟨url, parsed, known⟩ := accepted.origin
  obtain ⟨scheme, rest, input, shown⟩ := urls _ _ parsed
  have listed : scheme.map Char.toLower ∈ schemes := by
    rw [← shown]
    rcases known with known | known
    · rw [known]
      exact List.mem_cons_of_mem _ List.mem_cons_self
    · rw [known]
      exact List.mem_cons_self
  have letters : ∀ character ∈ scheme, 'A' ≤ character ∧ character ≤ 'z' := by
    intro character member
    have every : ∀ text ∈ schemes, ∀ letter ∈ text, 'a' ≤ letter ∧ letter ≤ 'z' := by
      simp [schemes]
    obtain ⟨lower, upper⟩ := every _ listed _ (List.mem_map_of_mem member)
    exact letter_of_toLower lower upper
  obtain ⟨front, behind, split, kept, narrow⟩ := exists_front_of_urlInput input letters
  exact ⟨front, behind, split, narrow, kept ▸ listed⟩

/-- The byte of a colon is none of the bytes of some characters of ASCII other than colons. -/
theorem colon_not_mem_bytes {characters : List Char}
    (narrow : ∀ character ∈ characters, character ≤ 'z' ∧ character ≠ ':') :
    58 ∉ characters.flatMap String.utf8EncodeChar := by
  intro member
  obtain ⟨character, listed, encoded⟩ := List.mem_flatMap.mp member
  obtain ⟨low, other⟩ := narrow character listed
  have single : character.utf8Size = 1 :=
    Char.utf8Size_eq_one_iff.mpr (UInt32.le_trans low (by decide))
  rw [String.utf8EncodeChar_eq_singleton single, List.mem_singleton] at encoded
  exact other (eq_of_ascii_byte single (by decide) encoded.symm)

theorem utf8Bytes_eq_flatMap (value : String) :
    utf8Bytes value = value.toList.flatMap String.utf8EncodeChar := by
  rw [← utf8Bytes_ofList, String.ofList_toList]

/-- Identifiers in front of schemes are told apart. -/
theorem append_scheme_cancel {first second firstScheme secondScheme : List Char}
    (firstKnown : firstScheme ∈ schemes) (secondKnown : secondScheme ∈ schemes)
    (same : first ++ firstScheme = second ++ secondScheme) : first = second := by
  have last : firstScheme.getLast? = secondScheme.getLast? := by
    have ends := congrArg List.getLast? same
    have some : ∀ text ∈ schemes, text.getLast?.isSome = true := by decide
    rwa [List.getLast?_append, List.getLast?_append, Option.or_of_isSome (some _ firstKnown),
      Option.or_of_isSome (some _ secondKnown)] at ends
  have schemesSame : firstScheme = secondScheme := by
    have every : ∀ text ∈ schemes, ∀ other ∈ schemes, text.getLast? = other.getLast? →
        text = other := by decide
    exact every _ firstKnown _ secondKnown last
  rw [schemesSame] at same
  exact List.append_cancel_right same

/-- The bytes of an identifier and an origin, up to the first colon. -/
theorem OpensOrigin.stream {profile : ServerProfile} {front behind : List Char}
    (opens : OpensOrigin profile.origin front behind) (tail : List UInt8) :
    utf8Bytes profile.id ++ (utf8Bytes profile.origin ++ tail) =
      utf8Bytes (String.ofList (profile.id.toList ++ front)) ++ [58] ++
        (behind.flatMap String.utf8EncodeChar ++ tail) := by
  have colon : String.utf8EncodeChar ':' = [58] := by decide
  rw [utf8Bytes_ofList, utf8Bytes_eq_flatMap, utf8Bytes_eq_flatMap, opens.split]
  simp [colon]

theorem OpensOrigin.colon_not_mem {profile : ServerProfile} {front behind : List Char}
    (opens : OpensOrigin profile.origin front behind)
    (plain : ∀ character ∈ profile.id.toList, Plain character) :
    58 ∉ utf8Bytes (String.ofList (profile.id.toList ++ front)) := by
  rw [utf8Bytes_ofList]
  apply colon_not_mem_bytes
  intro character member
  rcases List.mem_append.mp member with member | member
  · exact ⟨(plain character member).narrow, (plain character member).noColon⟩
  · exact opens.narrow character member

/-- The identifier is told from the origin, whatever follows. -/
theorem id_splits (urls : ShowsScheme parseUrl) {first second : ServerProfile}
    (firstAccepted : first.Accepted platform parseUrl)
    (secondAccepted : second.Accepted platform parseUrl) {left right : List UInt8}
    (same : utf8Bytes first.id ++ (utf8Bytes first.origin ++ left) =
      utf8Bytes second.id ++ (utf8Bytes second.origin ++ right)) :
    first.id = second.id ∧
      utf8Bytes first.origin ++ left = utf8Bytes second.origin ++ right := by
  obtain ⟨firstFront, firstBehind, firstOpens⟩ := firstAccepted.exists_front urls
  obtain ⟨secondFront, secondBehind, secondOpens⟩ := secondAccepted.exists_front urls
  have firstPlain := plain_of_validateId firstAccepted.id
  have secondPlain := plain_of_validateId secondAccepted.id
  have streams := same
  rw [firstOpens.stream, secondOpens.stream] at streams
  have fronts := (Splits.terminated (58 : UInt8) (firstOpens.colon_not_mem firstPlain)
    (secondOpens.colon_not_mem secondPlain) trivial trivial streams).1
  have texts := String.ofList_injective (utf8Bytes_injective fronts)
  have lowered := congrArg (fun characters : List Char =>
    (characters.filter fun character => decide (' ' < character)).map Char.toLower) texts
  rw [List.filter_append, List.filter_append, List.map_append, List.map_append,
    lowered_of_plain firstPlain, lowered_of_plain secondPlain] at lowered
  have identifier := String.toList_injective
    (append_scheme_cancel firstOpens.scheme secondOpens.scheme lowered)
  rw [identifier] at same
  exact ⟨identifier, List.append_cancel_left same⟩

/-! ## The mode and the ranges -/

theorem digestBytes_splits : Splits (fun _ : AddressRange => True) Anything
    AddressRange.digestBytes := by
  intro first second left right _ _ _ _ same
  cases first with
  | v4 network bits =>
      cases second with
      | v4 other otherBits =>
          simp only [AddressRange.digestBytes, List.cons_append, List.cons.injEq, true_and] at same
          obtain ⟨rfl, digits⟩ := same
          obtain ⟨numbers, rfl⟩ := List.append_inj digits (by
            rw [length_littleEndian, length_littleEndian])
          have networks := littleEndian_injOn network.isLt other.isLt numbers
          exact ⟨congrArg (AddressRange.v4 · bits) (BitVec.eq_of_toNat_eq networks), rfl⟩
      | v6 other otherBits => cases (List.cons.inj same).1
  | v6 network bits =>
      cases second with
      | v4 other otherBits => cases (List.cons.inj same).1
      | v6 other otherBits =>
          simp only [AddressRange.digestBytes, List.cons_append, List.cons.injEq, true_and] at same
          obtain ⟨rfl, digits⟩ := same
          obtain ⟨numbers, rfl⟩ := List.append_inj digits (by
            rw [length_littleEndian, length_littleEndian])
          have networks := littleEndian_injOn network.isLt other.isLt numbers
          exact ⟨congrArg (AddressRange.v6 · bits) (BitVec.eq_of_toNat_eq networks), rfl⟩

/-- The mode and the ranges, where nothing follows. -/
theorem markBytes_injective {firstMode secondMode : ServerMode}
    {firstRanges secondRanges : List AddressRange}
    (same : markBytes firstMode firstRanges = markBytes secondMode secondRanges) :
    firstMode = secondMode ∧ firstRanges = secondRanges := by
  obtain ⟨modes, ranges⟩ := List.cons.inj same
  have known : ∀ first second : ServerMode, modeByte first = modeByte second → first = second := by
    intro first second
    cases first <;> cases second <;> decide
  have splits := digestBytes_splits.flatMap (· ≠ [])
    (fun value stream _ => by cases value <;> simp [AddressRange.digestBytes])
    (fun _ _ => trivial)
  have unmarked : Anything ([] : List UInt8) ∧ ¬ ([] : List UInt8) ≠ [] := ⟨trivial, by simp⟩
  exact ⟨known _ _ modes, splits.injOn unmarked (fun _ _ => trivial) (fun _ _ => trivial) ranges⟩

/-! ## Pieces which move -/

/-- A field of one profile is the field of the other with a piece after it, and the bytes which
follow the field in the other start with this piece. -/
inductive ServerProfile.Moved (longer shorter : ServerProfile) (piece : List UInt8) : Prop
  | origin (field : utf8Bytes longer.origin = utf8Bytes shorter.origin ++ piece)
      (rest : shorter.pathBytes = piece ++ longer.pathBytes)
  | apiKeyFile (origins : longer.origin = shorter.origin)
      (field : longer.apiKeyFile = shorter.apiKeyFile ++ piece)
      (rest : shorter.certificateBytes = piece ++ longer.certificateBytes)
  | certificate (origins : longer.origin = shorter.origin)
      (keys : longer.apiKeyFile = shorter.apiKeyFile) (path : List UInt8)
      (field : longer.caCertificateFile = some (path ++ piece))
      (present : shorter.caCertificateFile = some path)
      (rest : markBytes shorter.mode shorter.addressRanges =
        piece ++ markBytes longer.mode longer.addressRanges)

/-- The profiles agree in generation and identifier, and some text is moved between their fields. -/
def ServerProfile.Resplits (first second : ServerProfile) : Prop :=
  first.generation = second.generation ∧ first.id = second.id ∧
    ∃ piece, piece ≠ [] ∧ (first.Moved second piece ∨ second.Moved first piece)

/-- Two ways to cut one text differ by the piece between the cuts. -/
theorem same_or_moved {left right front rest : List UInt8} (same : left ++ front = right ++ rest) :
    (left = right ∧ front = rest) ∨ ∃ piece, piece ≠ [] ∧
      (left = right ++ piece ∧ rest = piece ++ front ∨
        right = left ++ piece ∧ front = piece ++ rest) := by
  rcases List.append_eq_append_iff.mp same with ⟨piece, cut, tail⟩ | ⟨piece, cut, tail⟩
  · cases piece with
    | nil =>
        left
        simpa using And.intro cut.symm tail
    | cons byte piece => exact Or.inr ⟨_, List.cons_ne_nil _ _, Or.inr ⟨cut, tail⟩⟩
  · cases piece with
    | nil =>
        left
        simpa using And.intro cut tail.symm
    | cons byte piece => exact Or.inr ⟨_, List.cons_ne_nil _ _, Or.inl ⟨cut, tail⟩⟩

theorem ServerProfile.Moved.pathBytes {longer shorter : ServerProfile} {piece : List UInt8}
    (moved : longer.Moved shorter piece) :
    utf8Bytes longer.origin ++ longer.pathBytes = utf8Bytes shorter.origin ++ shorter.pathBytes := by
  cases moved with
  | origin field rest => rw [field, rest, List.append_assoc]
  | apiKeyFile origins field rest =>
      rw [origins, ServerProfile.pathBytes, ServerProfile.pathBytes, field, rest, List.append_assoc]
  | certificate origins keys path field present rest =>
      rw [origins, ServerProfile.pathBytes, ServerProfile.pathBytes, keys,
        ServerProfile.certificateBytes, ServerProfile.certificateBytes, field, present,
        Option.getD_some, Option.getD_some, rest, List.append_assoc]

theorem ServerProfile.Moved.inputs_ne {longer shorter : ServerProfile} {piece : List UInt8}
    (moved : longer.Moved shorter piece) (nonempty : piece ≠ []) :
    longer.inputs ≠ shorter.inputs := by
  intro same
  simp only [ServerProfile.inputs, Prod.mk.injEq] at same
  obtain ⟨_, _, origins, keys, certificates, _, _⟩ := same
  cases moved with
  | origin field rest =>
      rw [origins] at field
      exact nonempty (List.self_eq_append_right.mp field)
  | apiKeyFile _ field rest =>
      rw [keys] at field
      exact nonempty (List.self_eq_append_right.mp field)
  | certificate _ _ path field present rest =>
      rw [field, present, Option.some.injEq] at certificates
      exact nonempty (List.self_eq_append_right.mp certificates.symm)

/-- Paths of certificates and marks are cut at one place unless a piece is moved. -/
theorem certificate_same_or_moved {first second : ServerProfile}
    (firstAccepted : first.Accepted platform parseUrl)
    (secondAccepted : second.Accepted platform parseUrl) (origins : first.origin = second.origin)
    (keys : first.apiKeyFile = second.apiKeyFile)
    (same : first.certificateBytes = second.certificateBytes) :
    (first.caCertificateFile = second.caCertificateFile ∧
        markBytes first.mode first.addressRanges = markBytes second.mode second.addressRanges) ∨
      ∃ piece, piece ≠ [] ∧ (first.Moved second piece ∨ second.Moved first piece) := by
  have absolute : ∀ (path : List UInt8) (mode : ServerMode) (rest tail : List UInt8),
      isAbsolute path = true → path ++ rest ≠ modeByte mode :: tail := by
    intro path mode rest tail rooted clash
    rw [isAbsolute, beq_iff_eq] at rooted
    cases path with
    | nil => cases rooted
    | cons byte path =>
        rw [List.cons_append, List.cons.injEq] at clash
        rw [List.head?_cons, clash.1] at rooted
        revert rooted
        cases mode <;> decide
  rw [ServerProfile.certificateBytes, ServerProfile.certificateBytes] at same
  cases firstPath : first.caCertificateFile with
  | none =>
      cases secondPath : second.caCertificateFile with
      | none =>
          rw [firstPath, secondPath] at same
          exact Or.inl ⟨rfl, List.append_cancel_left same⟩
      | some path =>
          rw [firstPath, secondPath] at same
          exact absurd same.symm (absolute path _ _ _ (secondAccepted.certificate path secondPath))
  | some path =>
      cases secondPath : second.caCertificateFile with
      | none =>
          rw [firstPath, secondPath] at same
          exact absurd same (absolute path _ _ _ (firstAccepted.certificate path firstPath))
      | some other =>
          rw [firstPath, secondPath, Option.getD_some, Option.getD_some] at same
          rcases same_or_moved same with ⟨rfl, marks⟩ | ⟨piece, nonempty, ⟨cut, rest⟩ | ⟨cut, rest⟩⟩
          · exact Or.inl ⟨rfl, marks⟩
          · right
            refine ⟨piece, nonempty, Or.inl ?_⟩
            exact .certificate origins keys other (firstPath.trans (congrArg some cut)) secondPath rest
          · right
            refine ⟨piece, nonempty, Or.inr ?_⟩
            exact .certificate origins.symm keys.symm path (secondPath.trans (congrArg some cut))
              firstPath rest

/-- Profiles of one message have the same inputs unless a piece is moved. -/
theorem inputs_eq_or_resplits (urls : ShowsScheme parseUrl) {first second : ServerProfile}
    (firstAccepted : first.Accepted platform parseUrl)
    (secondAccepted : second.Accepted platform parseUrl)
    (same : first.message = second.message) :
    first.inputs = second.inputs ∨ first.Resplits second := by
  obtain ⟨numbers, texts⟩ := List.append_inj same (by
    rw [length_littleEndian, length_littleEndian])
  have generations : first.generation = second.generation :=
    UInt64.toNat_inj.mp (littleEndian_injOn first.generation.toNat_lt second.generation.toNat_lt
      numbers)
  obtain ⟨identifiers, streams⟩ := id_splits urls firstAccepted secondAccepted texts
  have moves : (∃ piece, piece ≠ [] ∧ (first.Moved second piece ∨ second.Moved first piece)) →
      first.inputs = second.inputs ∨ first.Resplits second := fun moved =>
    Or.inr ⟨generations, identifiers, moved⟩
  rcases same_or_moved streams with ⟨originBytes, paths⟩ | ⟨piece, nonempty, ⟨cut, rest⟩ | ⟨cut, rest⟩⟩
  · have origins := utf8Bytes_injective originBytes
    rcases same_or_moved paths with ⟨keys, certificates⟩ |
      ⟨piece, nonempty, ⟨cut, rest⟩ | ⟨cut, rest⟩⟩
    · rcases certificate_same_or_moved firstAccepted secondAccepted origins keys certificates with
        ⟨files, marks⟩ | moved
      · obtain ⟨modes, ranges⟩ := markBytes_injective marks
        left
        rw [ServerProfile.inputs, ServerProfile.inputs, generations, identifiers, origins, keys,
          files, modes, ranges]
      · exact moves moved
    · exact moves ⟨piece, nonempty, Or.inl (.apiKeyFile origins cut rest)⟩
    · exact moves ⟨piece, nonempty, Or.inr (.apiKeyFile origins.symm cut rest)⟩
  · exact moves ⟨piece, nonempty, Or.inl (.origin cut rest)⟩
  · exact moves ⟨piece, nonempty, Or.inr (.origin cut rest)⟩

theorem ServerProfile.Resplits.message {first second : ServerProfile}
    (resplits : first.Resplits second) : first.message = second.message := by
  obtain ⟨generations, identifiers, piece, _, moved⟩ := resplits
  have streams : utf8Bytes first.origin ++ first.pathBytes =
      utf8Bytes second.origin ++ second.pathBytes := by
    rcases moved with moved | moved
    · exact moved.pathBytes
    · exact moved.pathBytes.symm
  rw [ServerProfile.message, ServerProfile.message, generations, identifiers, streams]

/-- The digest of accepted profiles binds their inputs unless a piece of text is moved between
them. -/
theorem generationSha256_binds_iff (urls : ShowsScheme parseUrl)
    {firstRaw secondRaw : RawServerProfile} {first second : ServerProfile}
    (firstAccepted : ServerProfile.fromRaw platform parseUrl firstRaw = .ok first)
    (secondAccepted : ServerProfile.fromRaw platform parseUrl secondRaw = .ok second)
    (collisionFree : CollisionFree platform {first.message, second.message}) :
    (first.generationSha256 = second.generationSha256 → first.inputs = second.inputs) ↔
      ¬ first.Resplits second := by
  have firstHolds := ServerProfile.Accepted.of_fromRaw firstAccepted
  have secondHolds := ServerProfile.Accepted.of_fromRaw secondAccepted
  constructor
  · intro binds resplits
    have same := binds (by rw [firstHolds.digest, secondHolds.digest, resplits.message])
    obtain ⟨_, _, piece, nonempty, moved⟩ := resplits
    rcases moved with moved | moved
    · exact moved.inputs_ne nonempty same
    · exact moved.inputs_ne nonempty same.symm
  · intro apart digests
    rw [firstHolds.digest, secondHolds.digest] at digests
    have messages := collisionFree (Set.mem_insert _ _) (Set.mem_insert_of_mem _ rfl) digests
    exact (inputs_eq_or_resplits urls firstHolds secondHolds messages).resolve_right apart

end

/-! ## Two profiles of one digest -/

/-- A parser of URLs which knows one origin. -/
def sampleUrls (text : String) : Option Url :=
  if text = "https://photos.example" then
    some
      { scheme := "https"
        username := ""
        password := none
        host := some (.domain "photos.example")
        path := "/"
        query := none
        fragment := none }
  else
    none

theorem sampleUrls_showsScheme : ShowsScheme sampleUrls := by
  intro text url parsed
  rw [sampleUrls, Option.ite_none_right_eq_some] at parsed
  obtain ⟨rfl, parsed⟩ := parsed
  cases parsed
  exact ⟨"https".toList, "//photos.example".toList, by decide +kernel, by decide +kernel⟩

/-- A production server with some paths. -/
def sampleServer (apiKeyFile : String) (caCertificateFile : Option String) : RawServerProfile :=
  { id := "photos"
    origin := "https://photos.example"
    apiKeyFile := utf8Bytes apiKeyFile
    caCertificateFile := caCertificateFile.map utf8Bytes
    mode := .productionRead
    allowedCidrs := ["10.0.0.0/8"]
    generation := 1
    credentialGeneration := 1 }

/-- The profile of a sample server. -/
def sampleProfile (raw : RawServerProfile) : ServerProfile :=
  { id := raw.id
    origin := raw.origin
    apiKeyFile := raw.apiKeyFile
    caCertificateFile := raw.caCertificateFile
    mode := raw.mode
    addressRanges := [.v4 0x0a000000#32 8]
    generation := raw.generation
    generationSha256 := serverGeneration .reference raw [.v4 0x0a000000#32 8]
    credentialGeneration := raw.credentialGeneration }

theorem sampleServer_accepted {apiKeyFile : String} {caCertificateFile : Option String}
    (key : isAbsolute (utf8Bytes apiKeyFile) = true)
    (certificate : (caCertificateFile.map utf8Bytes).any (fun path => !isAbsolute path) = false) :
    ServerProfile.fromRaw .reference sampleUrls (sampleServer apiKeyFile caCertificateFile) =
      .ok (sampleProfile (sampleServer apiKeyFile caCertificateFile)) := by
  have identifier : validateId "photos" = .ok () := by decide +kernel
  have endpoint : ImmichEndpoint.parse sampleUrls "https://photos.example" =
      .ok ⟨⟨"https", "", none, some (.domain "photos.example"), "/", none, none⟩, false⟩ := by
    decide +kernel
  have ranges : parseRanges ["10.0.0.0/8"] = .ok [.v4 0x0a000000#32 8] := by decide +kernel
  have url : okOr (sampleUrls "https://photos.example") "server profile origin is invalid" =
      .ok ⟨"https", "", none, some (.domain "photos.example"), "/", none, none⟩ := rfl
  simp only [ServerProfile.fromRaw, sampleServer, identifier, endpoint, ranges, url, key,
    certificate]
  rfl

/-- A path cut in two. -/
theorem sampleServer_binds :
    ((sampleProfile (sampleServer "/keys" (some "/ca"))).generationSha256 =
          (sampleProfile (sampleServer "/keys/ca" none)).generationSha256 →
        (sampleProfile (sampleServer "/keys" (some "/ca"))).inputs =
          (sampleProfile (sampleServer "/keys/ca" none)).inputs) ↔
      ¬ (sampleProfile (sampleServer "/keys" (some "/ca"))).Resplits
        (sampleProfile (sampleServer "/keys/ca" none)) := by
  have messages : (sampleProfile (sampleServer "/keys" (some "/ca"))).message =
      (sampleProfile (sampleServer "/keys/ca" none)).message := by decide +kernel
  apply generationSha256_binds_iff sampleUrls_showsScheme
    (sampleServer_accepted (by decide +kernel) (by decide +kernel))
    (sampleServer_accepted (by decide +kernel) (by decide +kernel))
  rw [messages, Set.pair_eq_singleton]
  exact Set.injOn_singleton _ _

/-- A server with a certificate and one without have one digest. -/
theorem sampleServer_shared : ∃ first second,
    ServerProfile.fromRaw .reference sampleUrls (sampleServer "/keys" (some "/ca")) = .ok first ∧
      ServerProfile.fromRaw .reference sampleUrls (sampleServer "/keys/ca" none) = .ok second ∧
      ShowsScheme sampleUrls ∧ first.generationSha256 = second.generationSha256 ∧
      first.caCertificateFile ≠ second.caCertificateFile := by
  have messages : serverMessage (sampleServer "/keys" (some "/ca")) [.v4 0x0a000000#32 8] =
      serverMessage (sampleServer "/keys/ca" none) [.v4 0x0a000000#32 8] := by decide +kernel
  exact ⟨_, _, sampleServer_accepted (by decide +kernel) (by decide +kernel),
    sampleServer_accepted (by decide +kernel) (by decide +kernel), sampleUrls_showsScheme,
    congrArg (Platform.sha256 .reference) messages, by decide +kernel⟩

end ImmichRs.Web.Profiles
