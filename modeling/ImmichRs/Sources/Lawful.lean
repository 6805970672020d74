import ImmichRs.Sources.Aliases
import ImmichRs.Sources.Produced

/-!
# Documents of lawful libraries

What the sources rely on in their libraries, and what is therefore known of a parsed Takeout
document.
-/

namespace ImmichRs

open Collections

/-! ## What the libraries promise -/

/-- Digests are lower-case SHA-256, UTC instants are written canonically and finite numbers are
read back from their text. -/
structure SourcePlatform.Lawful (platform : SourcePlatform) : Prop where
  digest : ∀ bytes, isLowerSha256 (platform.sha256 bytes) = true
  unixTimestamp : ∀ seconds instant text, platform.fromUnixTimestamp seconds = some instant →
    platform.formatRfc3339 instant = some text →
      canonicalTimestamp platform.toPlatform text = true
  calendar : ∀ year month day hour minute second instant text,
    platform.fromCalendar year month day hour minute second = some instant →
    platform.formatRfc3339 instant = some text →
      canonicalTimestamp platform.toPlatform text = true
  display : ∀ number, platform.isFinite number = true → platform.isZero number = false →
    platform.parseF64 (platform.displayF64 number) = some number
  zero : ∃ number, platform.parseF64 "0" = some number ∧ platform.isZero number = true ∧
    platform.isFinite number = true ∧ platform.withinRange (-90) 90 number = true ∧
    platform.withinRange (-180) 180 number = true

theorem SourcePlatform.reference_lawful : SourcePlatform.reference.Lawful where
  digest := isLowerSha256_sha256Hex
  unixTimestamp _ _ _ _ formatted := by
    obtain rfl := Option.some.inj formatted
    decide
  calendar _ _ _ _ _ _ _ _ _ formatted := by
    obtain rfl := Option.some.inj formatted
    decide
  display _ _ nonzero := by cases nonzero
  zero := ⟨(), rfl, rfl, rfl, rfl, rfl⟩

/-! ## Metadata -/

section

variable {platform : SourcePlatform}

/-- The parts of valid metadata. -/
structure MetadataParts (platform : Platform) (metadata : NormalizedMetadata) : Prop where
  description : ∀ text ∈ metadata.description, validText text (16 * 1024) true = true
  takenAtUtc : ∀ text ∈ metadata.takenAtUtc, canonicalTimestamp platform text = true
  location : ∀ place ∈ metadata.location, place.isValid platform = true

theorem isValid_iff {platform : Platform} {metadata : NormalizedMetadata} :
    metadata.isValid platform = true ↔ MetadataParts platform metadata ∧
      (∀ album ∈ metadata.albums, validAlbum album = true) ∧
      strictlySorted metadata.albums = true := by
  simp only [NormalizedMetadata.isValid, Bool.and_eq_true, Option.all_eq_true, List.all_eq_true]
  constructor
  · rintro ⟨⟨⟨⟨description, takenAtUtc⟩, location⟩, albums⟩, sorted⟩
    exact ⟨⟨description, takenAtUtc, location⟩, albums, sorted⟩
  · rintro ⟨⟨description, takenAtUtc, location⟩, albums, sorted⟩
    exact ⟨⟨⟨⟨description, takenAtUtc⟩, location⟩, albums⟩, sorted⟩

/-! ## Takeout documents -/

theorem validText_of_validateText {value : String} {maxBytes : Nat} {allowLayout : Bool}
    (accepted : validateText value maxBytes allowLayout = .ok ()) :
    validText value maxBytes allowLayout = true := by
  simp only [validateText, reject_eq_ok, Bool.or_eq_false_iff, decide_eq_false_iff_not,
    Nat.not_lt] at accepted
  obtain ⟨⟨⟨nonempty, short⟩, plain⟩, flat⟩ := accepted
  simp only [validText, nonempty, short, plain, decide_true, Bool.not_false, Bool.and_self,
    Bool.true_and]
  cases allowLayout with
  | true => rfl
  | false => simpa using flat

theorem orInvalid_eq_ok {α : Type} {value : Option α} {found : α} :
    orInvalid value = .ok found ↔ value = some found := by
  cases value <;> simp [orInvalid]

theorem SourcePlatform.Lawful.normalizeTimestamp (lawful : platform.Lawful) {value text : String}
    (normalized : normalizeTimestamp platform value = .ok text) :
    canonicalTimestamp platform.toPlatform text = true := by
  simp only [ImmichRs.normalizeTimestamp, bind_eq_ok, orInvalid_eq_ok] at normalized
  obtain ⟨_, _, _, _, instant, found, formatted⟩ := normalized
  exact lawful.unixTimestamp _ instant text found formatted

theorem SourcePlatform.Lawful.canonicalDecimal (lawful : platform.Lawful)
    {number : platform.F64} {minimum maximum : Int}
    (zeroInRange : ∀ zero, platform.parseF64 "0" = some zero →
      platform.withinRange minimum maximum zero = true)
    (finite : platform.isFinite number = true)
    (inRange : platform.withinRange minimum maximum number = true) :
    decimalInRange platform.toPlatform (canonicalDecimal platform number) minimum maximum =
      true := by
  rw [ImmichRs.canonicalDecimal, decimalInRange]
  cases isZero : platform.isZero number with
  | true =>
      obtain ⟨zero, parsed, zeroIsZero, zeroFinite, _⟩ := lawful.zero
      simp [parsed, zeroIsZero, zeroFinite, zeroInRange zero parsed]
  | false => simp [lawful.display number finite isZero, isZero, finite, inRange]

theorem SourcePlatform.Lawful.normalizeLocation (lawful : platform.Lawful)
    {value : RawGeo platform.F64} {location : Option GeoCoordinates}
    (normalized : normalizeLocation platform value = .ok location) :
    ∀ place ∈ location, place.isValid platform.toPlatform = true := by
  simp only [ImmichRs.normalizeLocation, bind_eq_ok, orInvalid_eq_ok] at normalized
  obtain ⟨latitude, _, longitude, _, ⟨⟩, checked, returned⟩ := normalized
  simp only [reject_eq_ok, Bool.or_eq_false_iff, Bool.not_eq_false'] at checked
  obtain ⟨⟨⟨latitudeFinite, longitudeFinite⟩, latitudeRange⟩, longitudeRange⟩ := checked
  obtain ⟨zero, parsed, _, _, zeroLatitude, zeroLongitude⟩ := lawful.zero
  intro place member
  split at returned
  · obtain rfl := Except.ok.inj returned
    cases member
  · obtain rfl := Except.ok.inj returned
    obtain rfl := Option.some.inj member
    rw [GeoCoordinates.isValid, Bool.and_eq_true]
    constructor
    · refine lawful.canonicalDecimal ?_ latitudeFinite latitudeRange
      intro other found
      obtain rfl := Option.some.inj (parsed.symm.trans found)
      exact zeroLatitude
    · refine lawful.canonicalDecimal ?_ longitudeFinite longitudeRange
      intro other found
      obtain rfl := Option.some.inj (parsed.symm.trans found)
      exact zeroLongitude

theorem normalizeDescription_valid {value description : Option String}
    (normalized : normalizeDescription value = .ok description) :
    ∀ text ∈ description, validText text (16 * 1024) true = true := by
  intro text member
  rw [normalizeDescription.eq_def] at normalized
  split at normalized
  · obtain rfl := Except.ok.inj normalized
    cases member
  · split at normalized
    · obtain rfl := Except.ok.inj normalized
      cases member
    · rw [bind_eq_ok] at normalized
      obtain ⟨⟨⟩, accepted, returned⟩ := normalized
      obtain rfl := Except.ok.inj returned
      obtain rfl := Option.some.inj member
      exact validText_of_validateText accepted

/-- What a parsed document is known for. -/
structure TakeoutDocument.Valid (platform : SourcePlatform) (document : TakeoutDocument) :
    Prop where
  parts : MetadataParts platform.toPlatform document.metadata
  albums : document.metadata.albums = []

theorem mapM_option_eq_ok {ε α β : Type} {next : α → Except ε β} {value : Option α}
    {result : Option β} (returned : value.mapM next = .ok result) {found : β}
    (member : found ∈ result) : ∃ item ∈ value, next item = .ok found := by
  cases value with
  | none =>
      obtain rfl := Except.ok.inj returned
      cases member
  | some item =>
      rw [Option.mapM_some] at returned
      cases outcome : next item with
      | error error => simp [outcome, Functor.map, Except.map] at returned
      | ok parsed =>
          simp only [outcome, Functor.map, Except.map, Except.ok.injEq] at returned
          subst returned
          obtain rfl := Option.some.inj member
          exact ⟨item, rfl, outcome⟩

theorem SourcePlatform.Lawful.parseBytes (lawful : platform.Lawful) {bytes : List UInt8}
    {allowEmptyTitle : Bool} {document : TakeoutDocument}
    (parsed : parseBytes platform bytes allowEmptyTitle = .ok document) :
    document.Valid platform := by
  simp only [ImmichRs.parseBytes, bind_eq_ok] at parsed
  obtain ⟨raw, _, _, _, description, described, takenAtUtc, taken, location, located,
    returned⟩ := parsed
  obtain rfl := Except.ok.inj returned
  refine ⟨⟨normalizeDescription_valid described, ?_, ?_⟩, rfl⟩
  · intro text member
    obtain ⟨value, _, normalized⟩ := mapM_option_eq_ok taken member
    exact lawful.normalizeTimestamp normalized
  · intro place member
    have inner : some place ∈ location := Option.join_eq_some_iff.mp member
    obtain ⟨value, _, normalized⟩ := mapM_option_eq_ok located inner
    exact lawful.normalizeLocation normalized place rfl

theorem parseDocument_ok {contents : String → Option (List UInt8)} {sidecar : DiscoveredSidecar}
    {allowEmptyTitle : Bool} {document : TakeoutDocument}
    (parsed : parseDocument platform contents sidecar allowEmptyTitle = .ok document) :
    sidecar.takeoutDocument = some document ∨
      ∃ bytes, parseBytes platform bytes allowEmptyTitle = .ok document := by
  rw [parseDocument.eq_def] at parsed
  split at parsed
  · cases parsed
  · rename_i stored
    obtain rfl := Except.ok.inj parsed
    exact .inl stored
  · simp only [bind_eq_ok] at parsed
    obtain ⟨_, _, _, _, bytes, _, _, _, _, _, parsed⟩ := parsed
    exact .inr ⟨bytes, parsed⟩

end

end ImmichRs
