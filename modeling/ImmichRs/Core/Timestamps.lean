import ImmichRs.Core.Metadata
import ImmichRs.Calendar.Rfc3339

/-!
# Timestamps

What the program relies on in its time library, whose instants are seen as moments of the calendar.
-/

namespace ImmichRs

open Calendar

/-- The library writes whole seconds in UTC as RFC 3339 has them and reads them back, its years of
four digits are not negative and its instants are those of their moments. -/
structure Platform.KeepsTime (platform : Platform) (moment : platform.OffsetDateTime → Moment) :
    Prop where
  format : ∀ instant, (moment instant).IsUtcSecond →
    platform.formatRfc3339 instant = (moment instant).render
  parse : ∀ (utc : Moment) text, utc.IsUtcSecond → utc.render = some text →
    ∃ instant, platform.parseRfc3339 text = some instant ∧ moment instant = utc
  year : ∀ text instant, platform.parseRfc3339 text = some instant →
    0 ≤ (moment instant).date.year
  nanos : ∀ instant, platform.unixTimestampNanos instant = (moment instant).nanoseconds

section

variable {platform : Platform} {moment : platform.OffsetDateTime → Moment}

theorem Platform.KeepsTime.canonicalTimestamp (keeps : platform.KeepsTime moment) {utc : Moment}
    {text : String} (second : utc.IsUtcSecond) (rendered : utc.render = some text) :
    canonicalTimestamp platform text = true := by
  obtain ⟨instant, parsed, rfl⟩ := keeps.parse utc text second rendered
  have zone := Moment.getLast?_render second rendered
  rw [ImmichRs.canonicalTimestamp, parsed, Option.bind_some, keeps.format instant second, rendered]
  simp [zone]

/-- Metadata of nothing but a whole second in UTC is valid. -/
theorem Platform.KeepsTime.isValid (keeps : platform.KeepsTime moment) {utc : Moment}
    {text : String} (second : utc.IsUtcSecond) (rendered : utc.render = some text) :
    NormalizedMetadata.isValid platform { NormalizedMetadata.empty with takenAtUtc := some text } =
      true := by
  simp [NormalizedMetadata.isValid, NormalizedMetadata.empty, strictlySorted,
    keeps.canonicalTimestamp second rendered]

end

/-- A platform with moments as its instants. -/
def Platform.withMoments (platform : Platform) : Platform :=
  { platform with
    OffsetDateTime := Moment
    parseRfc3339 := Moment.parse
    formatRfc3339 := Moment.render
    unixTimestampNanos := Moment.nanoseconds }

theorem Platform.withMoments_keepsTime (platform : Platform) :
    platform.withMoments.KeepsTime id where
  format _ _ := rfl
  parse utc _ second rendered := ⟨utc, Moment.parse_render second rendered, rfl⟩
  year _ _ parsed := Moment.year_of_parse parsed
  nanos _ := rfl

end ImmichRs
