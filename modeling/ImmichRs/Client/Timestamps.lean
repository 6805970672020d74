import ImmichRs.Client.Migration
import ImmichRs.Core.Timestamps

/-!
# Timestamps of a source server

The metadata which a migration reads from the answers of its source, with their dates in UTC.
-/

namespace ImmichRs

open Calendar

/-! ## The functions -/

/-- Library operations which only the migration uses. -/
structure MigrationPlatform extends Platform where
  /-- `OffsetDateTime::replace_nanosecond`. -/
  replaceNanosecond : OffsetDateTime → Nat → Option OffsetDateTime
  /-- `to_offset(UtcOffset::UTC)`, which panics where nothing is given. -/
  toUtc : OffsetDateTime → Option OffsetDateTime

/-- What a call gives, unless it panics. -/
abbrev MayPanic (α : Type) := ExceptT ClientError Option α

/-- `.map_err(|_| protocol())`. -/
def orProtocol {α : Type} : Option α → MayPanic α
  | none => throw (.new .protocol)
  | some value => pure value

@[simp] theorem orProtocol_some_bind {α β : Type} (value : α) (next : α → MayPanic β) :
    orProtocol (some value) >>= next = next value := rfl

/-- A value without which the call panics. -/
def orPanic {α : Type} (value : Option α) : MayPanic α := ExceptT.lift value

section

variable (platform : MigrationPlatform)

/-- `canonical_timestamp`. -/
def MigrationPlatform.canonicalTimestamp (value : String) : MayPanic String := do
  let timestamp ← orProtocol (platform.parseRfc3339 value)
  let whole ← orProtocol (platform.replaceNanosecond timestamp 0)
  let utc ← orPanic (platform.toUtc whole)
  orProtocol (platform.formatRfc3339 utc)

/-- `canonical_decimal`, on coordinates. -/
def MigrationPlatform.canonicalDecimal (value : platform.F64) : String :=
  if platform.isZero value then "0" else platform.displayF64 value

/-- The location of an asset: both coordinates or none. -/
def MigrationPlatform.location (latitude longitude : Option platform.F64) :
    MayPanic (Option GeoCoordinates) :=
  match latitude, longitude with
  | none, none => pure none
  | some latitude, some longitude =>
      if platform.isFinite latitude && platform.isFinite longitude then
        pure (some
          { latitude := platform.canonicalDecimal latitude
            longitude := platform.canonicalDecimal longitude })
      else
        throw (.new .protocol)
  | _, _ => throw (.new .protocol)

/-- `normalized_metadata`. -/
def normalizedMetadata (description takenAt : Option String)
    (latitude longitude : Option platform.F64) : MayPanic (Option NormalizedMetadata) := do
  let description := description.filter fun value => !value.isEmpty
  let takenAtUtc ← takenAt.mapM platform.canonicalTimestamp
  let location ← platform.location latitude longitude
  let metadata : NormalizedMetadata := { description, takenAtUtc, location, albums := [] }
  return if metadata ≠ .empty then some metadata else none

end

/-! ## Outcomes -/

/-- The library keeps time, drops the fraction of a second and converts to UTC as the calendar
does. -/
structure MigrationPlatform.KeepsTime (platform : MigrationPlatform)
    (moment : platform.OffsetDateTime → Moment) : Prop
    extends platform.toPlatform.KeepsTime moment where
  replaceNanosecond : ∀ instant,
    (platform.replaceNanosecond instant 0).map moment = some (moment instant).truncated
  toUtc : ∀ instant, (platform.toUtc instant).map moment = (moment instant).toUtc

section

variable {platform : MigrationPlatform} {moment : platform.OffsetDateTime → Moment}

/-- The first nanosecond after the calendar, 10000-01-01T00:00:00Z. -/
def calendarEnd : Int := 253402300800 * 1000000000

/-- A refused timestamp is an error. -/
theorem canonicalTimestamp_of_none {value : String} (refused : platform.parseRfc3339 value = none) :
    platform.canonicalTimestamp value = some (.error (.new .protocol)) := by
  rw [MigrationPlatform.canonicalTimestamp, refused]
  rfl

/-- The instant of an accepted timestamp is written without its fraction. -/
theorem canonicalTimestamp_of_some (keeps : platform.KeepsTime moment) {value : String}
    {original : platform.OffsetDateTime}
    (accepted : platform.parseRfc3339 value = some original) :
    platform.canonicalTimestamp value = (moment original).truncated.toUtc.map fun utc =>
      (utc.render.elim (.error (.new .protocol)) .ok : Except ClientError String) := by
  obtain ⟨whole, replaced, truncated⟩ :=
    Option.map_eq_some_iff.mp (keeps.replaceNanosecond original)
  have exact := keeps.toUtc whole
  rw [truncated] at exact
  rw [← exact, MigrationPlatform.canonicalTimestamp, accepted,
    orProtocol_some_bind, replaced, orProtocol_some_bind]
  cases converted : platform.toUtc whole with
  | none => rfl
  | some utc =>
      rw [converted, Option.map_some] at exact
      obtain ⟨second, _⟩ := Moment.truncated_toUtc exact.symm
      have formatted := keeps.format utc second
      rw [Option.map_some, Option.map_some, ← formatted]
      change orProtocol (platform.formatRfc3339 utc) = _
      cases platform.formatRfc3339 utc <;> rfl

/-- A timestamp at the end of the calendar or after it panics, and no other. -/
theorem toUtc_truncated_eq_none_iff (keeps : platform.KeepsTime moment) {value : String}
    {original : platform.OffsetDateTime}
    (accepted : platform.parseRfc3339 value = some original) :
    (moment original).truncated.toUtc = none ↔
      calendarEnd ≤ platform.unixTimestampNanos original := by
  have start := Moment.firstSecond_le (keeps.year value original accepted)
  have small := (moment original).valid.2.1
  rw [Moment.toUtc_eq_none_iff, Moment.seconds_truncated, keeps.nanos, Moment.nanoseconds,
    calendarEnd]
  rw [lastSecond]
  omega

/-- A call returns an error or valid metadata for the same instant without its fraction. -/
structure Canonicalizes (platform : MigrationPlatform) (value : String) : Prop where
  returns : platform.canonicalTimestamp value ≠ none
  valid : ∀ text, platform.canonicalTimestamp value = some (.ok text) →
    NormalizedMetadata.isValid platform.toPlatform
      { NormalizedMetadata.empty with takenAtUtc := some text } = true
  same : ∀ text, platform.canonicalTimestamp value = some (.ok text) →
    ∃ original instant, platform.parseRfc3339 value = some original ∧
      platform.parseRfc3339 text = some instant ∧
      platform.unixTimestampNanos instant =
        platform.unixTimestampNanos original / 1000000000 * 1000000000

theorem mayPanic_bind_eq_ok {α β : Type} {first : MayPanic α} {next : α → MayPanic β} {value : β} :
    first >>= next = some (.ok value) ↔
      ∃ item, first = some (.ok item) ∧ next item = some (.ok value) := by
  rcases first with _ | (error | item)
  · constructor
    · intro returned
      cases returned
    · rintro ⟨_, found, _⟩
      cases found
  · constructor
    · intro returned
      cases Option.some.inj returned
    · rintro ⟨_, found, _⟩
      cases Option.some.inj found
  · constructor
    · intro returned
      exact ⟨item, rfl, returned⟩
    · rintro ⟨_, found, returned⟩
      obtain rfl := Except.ok.inj (Option.some.inj found)
      exact returned

/-- A canonical timestamp is the text of a whole second in UTC. -/
theorem render_of_canonicalTimestamp (keeps : platform.KeepsTime moment) {value text : String}
    {original : platform.OffsetDateTime} (accepted : platform.parseRfc3339 value = some original)
    (returned : platform.canonicalTimestamp value = some (.ok text)) :
    ∃ utc, (moment original).truncated.toUtc = some utc ∧ utc.render = some text := by
  rw [canonicalTimestamp_of_some keeps accepted, Option.map_eq_some_iff] at returned
  obtain ⟨utc, converted, written⟩ := returned
  refine ⟨utc, converted, ?_⟩
  cases rendered : utc.render with
  | none =>
      rw [rendered] at written
      cases written
  | some other =>
      rw [rendered] at written
      exact congrArg some (Except.ok.inj written)

theorem canonicalTimestamp_canonical (keeps : platform.KeepsTime moment) {value text : String}
    (returned : platform.canonicalTimestamp value = some (.ok text)) :
    ImmichRs.canonicalTimestamp platform.toPlatform text = true := by
  cases accepted : platform.parseRfc3339 value with
  | none =>
      rw [canonicalTimestamp_of_none accepted] at returned
      cases Option.some.inj returned
  | some original =>
      obtain ⟨utc, converted, rendered⟩ := render_of_canonicalTimestamp keeps accepted returned
      exact keeps.toKeepsTime.canonicalTimestamp (Moment.truncated_toUtc converted).1 rendered

/-- A timestamp is made canonical exactly unless its instant is after the calendar in UTC. -/
theorem canonicalizes_iff (keeps : platform.KeepsTime moment) (value : String) :
    Canonicalizes platform value ↔ ∀ original, platform.parseRfc3339 value = some original →
      platform.unixTimestampNanos original < calendarEnd := by
  constructor
  · intro canonicalizes original accepted
    by_contra late
    apply canonicalizes.returns
    rw [canonicalTimestamp_of_some keeps accepted,
      (toUtc_truncated_eq_none_iff keeps accepted).mpr (Int.not_lt.mp late)]
    rfl
  · intro early
    cases accepted : platform.parseRfc3339 value with
    | none =>
        have refused := canonicalTimestamp_of_none accepted
        constructor
        · rw [refused]
          exact Option.some_ne_none _
        · intro text returned
          rw [refused] at returned
          cases Option.some.inj returned
        · intro text returned
          rw [refused] at returned
          cases Option.some.inj returned
    | some original =>
        have returned := canonicalTimestamp_of_some keeps accepted
        cases converted : (moment original).truncated.toUtc with
        | none =>
            have late := (toUtc_truncated_eq_none_iff keeps accepted).mp converted
            exact absurd (early original accepted) (Int.not_lt.mpr late)
        | some utc =>
            obtain ⟨second, nanoseconds⟩ := Moment.truncated_toUtc converted
            rw [converted, Option.map_some] at returned
            have rendered : ∀ text, platform.canonicalTimestamp value = some (.ok text) →
                utc.render = some text := by
              intro text found
              obtain ⟨other, same, written⟩ := render_of_canonicalTimestamp keeps accepted found
              obtain rfl := Option.some.inj (converted.symm.trans same)
              exact written
            refine ⟨?_, fun text found => keeps.isValid second (rendered text found), ?_⟩
            · rw [returned]
              exact Option.some_ne_none _
            · intro text found
              obtain ⟨instant, parsed, same⟩ := keeps.parse utc text second (rendered text found)
              refine ⟨original, instant, accepted, parsed, ?_⟩
              rw [keeps.nanos, keeps.nanos, same, nanoseconds]

/-- The metadata of a source asset has a canonical date and no albums. -/
theorem normalizedMetadata_parts (keeps : platform.KeepsTime moment)
    {description takenAt : Option String} {latitude longitude : Option platform.F64}
    {metadata : NormalizedMetadata}
    (returned : normalizedMetadata platform description takenAt latitude longitude =
      some (.ok (some metadata))) :
    (∀ text ∈ metadata.takenAtUtc,
      ImmichRs.canonicalTimestamp platform.toPlatform text = true) ∧ metadata.albums = [] := by
  rw [normalizedMetadata, mayPanic_bind_eq_ok] at returned
  obtain ⟨takenAtUtc, dated, returned⟩ := returned
  rw [mayPanic_bind_eq_ok] at returned
  obtain ⟨location, _, returned⟩ := returned
  have chosen := Except.ok.inj (Option.some.inj returned)
  rw [Option.ite_none_right_eq_some] at chosen
  obtain ⟨_, same⟩ := chosen
  obtain rfl := Option.some.inj same
  refine ⟨fun text member => ?_, rfl⟩
  cases takenAt with
  | none =>
      obtain rfl := Except.ok.inj (Option.some.inj dated)
      cases member
  | some value =>
      rw [Option.mapM_some, ← bind_pure_comp, mayPanic_bind_eq_ok] at dated
      obtain ⟨date, found, same⟩ := dated
      obtain rfl := Except.ok.inj (Option.some.inj same)
      obtain rfl := Option.some.inj member
      exact canonicalTimestamp_canonical keeps found

end

/-- The reference platform with moments as its instants. -/
def MigrationPlatform.calendar : MigrationPlatform :=
  { Platform.reference.withMoments with
    replaceNanosecond := fun moment nanosecond =>
      if small : nanosecond < 1000000000 then
        some { moment with nanosecond, valid := ⟨moment.valid.1, small, moment.valid.2.2⟩ }
      else
        none
    toUtc := Moment.toUtc }

theorem MigrationPlatform.calendar_keepsTime : MigrationPlatform.calendar.KeepsTime id where
  toKeepsTime := Platform.withMoments_keepsTime _
  replaceNanosecond _ := rfl
  toUtc _ := Option.map_id_apply

/-- A timestamp of the present is made canonical. -/
theorem sampleTimestamp_canonical :
    Canonicalizes MigrationPlatform.calendar "2026-01-01T00:30:00.5+01:00" := by
  apply (canonicalizes_iff MigrationPlatform.calendar_keepsTime _).mpr
  have early : (Moment.parse "2026-01-01T00:30:00.5+01:00").all
      (fun moment => decide (moment.nanoseconds < calendarEnd)) = true := by rfl
  intro original accepted
  exact of_decide_eq_true ((Option.all_eq_true _ _).mp early original accepted)

/-- The last hour of the calendar west of UTC panics. -/
theorem sampleTimestamp_late :
    ¬ Canonicalizes MigrationPlatform.calendar "9999-12-31T23:59:59-01:00" := by
  intro canonicalizes
  exact canonicalizes.returns (by rfl)

end ImmichRs
