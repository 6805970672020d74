import ImmichRs.Core.Text

/-!
# Normalized metadata

`Platform` collects the operations which the program takes from its libraries: binary
floating-point text, RFC 3339 instants, digests and Unicode tables.  Every definition below is
generic in it.
-/

namespace ImmichRs

/-- Library operations used by the program. -/
structure Platform where
  /-- IEEE 754 binary64 values. -/
  F64 : Type
  /-- `str::parse::<f64>`. -/
  parseF64 : String → Option F64
  /-- `f64::is_finite`. -/
  isFinite : F64 → Bool
  /-- Comparison with `0.0`. -/
  isZero : F64 → Bool
  /-- `(minimum..=maximum).contains(&number)`. -/
  withinRange : Int → Int → F64 → Bool
  /-- `f64::to_string`. -/
  displayF64 : F64 → String
  /-- `time::OffsetDateTime`. -/
  OffsetDateTime : Type
  /-- `OffsetDateTime::parse(value, &Rfc3339)`. -/
  parseRfc3339 : String → Option OffsetDateTime
  /-- `OffsetDateTime::format(&Rfc3339)`. -/
  formatRfc3339 : OffsetDateTime → Option String
  /-- `OffsetDateTime::unix_timestamp_nanos`. -/
  unixTimestampNanos : OffsetDateTime → Int
  /-- Lower-case hexadecimal SHA-256. -/
  sha256 : List UInt8 → String

/-- Canonical geographic coordinates without binary floating-point output. -/
structure GeoCoordinates where
  /-- Canonical decimal latitude. -/
  latitude : String
  /-- Canonical decimal longitude. -/
  longitude : String
  deriving DecidableEq, Repr

/-- Source-neutral metadata resolved for one candidate asset. -/
structure NormalizedMetadata where
  /-- Bounded source description. -/
  description : Option String
  /-- Capture instant in RFC 3339. -/
  takenAtUtc : Option String
  /-- Source location. -/
  location : Option GeoCoordinates
  /-- Strictly sorted album titles. -/
  albums : List String
  deriving DecidableEq, Repr

/-- `NormalizedMetadata::default()`. -/
def NormalizedMetadata.empty : NormalizedMetadata :=
  { description := none, takenAtUtc := none, location := none, albums := [] }

/-- `value.windows(2).all(|pair| pair[0] < pair[1])`. -/
def strictlySorted : List String → Bool
  | [] | [_] => true
  | first :: second :: rest => decide (first < second) && strictlySorted (second :: rest)

/-- `valid_album`. -/
def validAlbum (value : String) : Bool :=
  !value.isEmpty && byteLen value ≤ 4096 && !containsChar value '\\' && !anyChar value isControl

/-- Line feed, carriage return or tabulation. -/
def isLayout (character : Char) : Bool :=
  character == '\n' || character == '\r' || character == '\t'

/-- `valid_text`. -/
def validText (value : String) (maxBytes : Nat) (allowLayout : Bool) : Bool :=
  !value.isEmpty && byteLen value ≤ maxBytes &&
    !anyChar value (fun character => isControl character && !(allowLayout && isLayout character)) &&
    (allowLayout || !(containsChar value '/' || containsChar value '\\'))

section

variable (platform : Platform)

/-- `decimal_in_range`. -/
def decimalInRange (value : String) (minimum maximum : Int) : Bool :=
  match platform.parseF64 value with
  | none => false
  | some number =>
      let canonical := if platform.isZero number then "0" else platform.displayF64 number
      platform.isFinite number && platform.withinRange minimum maximum number && value == canonical

/-- `GeoCoordinates::is_valid`. -/
def GeoCoordinates.isValid (location : GeoCoordinates) : Bool :=
  decimalInRange platform location.latitude (-90) 90 &&
    decimalInRange platform location.longitude (-180) 180

/-- A timestamp which formats to itself and is in UTC. -/
def canonicalTimestamp (value : String) : Bool :=
  match (platform.parseRfc3339 value).bind platform.formatRfc3339 with
  | none => false
  | some canonical => canonical == value && value.toList.getLast? == some 'Z'

/-- `NormalizedMetadata::is_valid`. -/
def NormalizedMetadata.isValid (metadata : NormalizedMetadata) : Bool :=
  (metadata.description.all fun value => validText value (16 * 1024) true) &&
    (metadata.takenAtUtc.all fun value => canonicalTimestamp platform value) &&
    (metadata.location.all fun value => value.isValid platform) &&
    metadata.albums.all validAlbum && strictlySorted metadata.albums

end

/-- `has_assignment`: some field is sent by a metadata update. -/
def hasAssignment (metadata : NormalizedMetadata) : Bool :=
  metadata.description.isSome || metadata.takenAtUtc.isSome || metadata.location.isSome

theorem pairwise_of_strictlySorted {values : List String} (sorted : strictlySorted values = true) :
    values.Pairwise (· < ·) := by
  induction values with
  | nil => exact .nil
  | cons first rest induction =>
      cases rest with
      | nil => exact List.pairwise_singleton _ _
      | cons second rest =>
          simp only [strictlySorted, Bool.and_eq_true, decide_eq_true_eq] at sorted
          have tail := induction sorted.2
          refine List.pairwise_cons.mpr ⟨fun value member => ?_, tail⟩
          rcases List.mem_cons.mp member with rfl | member
          · exact sorted.1
          · exact sorted.1.trans ((List.pairwise_cons.mp tail).1 value member)

theorem strictlySorted_of_pairwise {values : List String} (sorted : values.Pairwise (· < ·)) :
    strictlySorted values = true := by
  induction values with
  | nil => rfl
  | cons first rest induction =>
      cases rest with
      | nil => rfl
      | cons second rest =>
          obtain ⟨below, tail⟩ := List.pairwise_cons.mp sorted
          rw [strictlySorted, induction tail, Bool.and_true, decide_eq_true_eq]
          exact below second List.mem_cons_self

/-- A value below the head of a sorted list extends it. -/
theorem pairwise_toList_append {previous : Option String} {first : String} {rest : List String}
    (above : ∀ value ∈ previous, value < first) (sorted : (first :: rest).Pairwise (· < ·)) :
    (previous.toList ++ first :: rest).Pairwise (· < ·) := by
  cases previous with
  | none => exact sorted
  | some value =>
      have below : value < first := above value rfl
      refine List.pairwise_cons.mpr ⟨fun later member => ?_, sorted⟩
      rcases List.mem_cons.mp member with rfl | member
      · exact below
      · exact below.trans ((List.pairwise_cons.mp sorted).1 later member)

end ImmichRs
