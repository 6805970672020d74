import ImmichRs.Sources.Archive

/-!
# Reading an entry

The loop in which an entry of an archive is read, one buffer at a time, against every sequence of
readings.  Both of its versions compare the length with the declared one after the end only.
-/

namespace ImmichRs

/-! ## The loop -/

/-- What one turn of the loop meets. -/
inductive Reading
  /-- The cancellation of the scan. -/
  | cancelled
  /-- An error of the reader. -/
  | failed
  /-- The bytes which fill a part of the buffer; none are the end. -/
  | filled (bytes : List UInt8)
  deriving DecidableEq, Repr

/-- What the loop has given to both digests, collected and counted. -/
structure Streamed where
  hashed : List UInt8
  collected : List UInt8
  byteLen : Nat
  deriving DecidableEq, Repr

/-- The state before the loop. -/
def Streamed.empty : Streamed := { hashed := [], collected := [], byteLen := 0 }

/-- The effect of one filled buffer. -/
def Streamed.push (collect : Bool) (state : Streamed) (bytes : List UInt8) : Streamed :=
  { hashed := state.hashed ++ bytes
    collected := if collect then state.collected ++ bytes else state.collected
    byteLen := min (state.byteLen + bytes.length) (2 ^ 64 - 1) }

/-- How far the loop is. -/
inductive StreamProgress
  | reading
  | ended
  | stopped (error : ScanError)
  deriving DecidableEq, Repr

/-- The loop of `stream_entry`, over the readings so far. -/
def streamLoop (collect : Bool) : List Reading → Streamed → Streamed × StreamProgress
  | [], state => (state, .reading)
  | .cancelled :: _, state => (state, .stopped .cancelled)
  | .failed :: _, state => (state, .stopped (.invalidArchive "cannot read or verify ZIP entry"))
  | .filled [] :: _, state => (state, .ended)
  | .filled (first :: bytes) :: rest, state =>
      streamLoop collect rest (state.push collect (first :: bytes))

/-- What `stream_entry` returns. -/
structure StreamedEntry where
  byteLen : Nat
  contentSha256 : String
  contentSha1Base64 : String
  bytes : List UInt8
  deriving DecidableEq, Repr

section

variable (platform : SourcePlatform)

/-- The end of `stream_entry`, once the loop is left. -/
def finishStream (entry : ZipEntry) :
    Streamed × StreamProgress → Option (Except ScanError StreamedEntry)
  | (_, .reading) => none
  | (_, .stopped error) => some (.error error)
  | (state, .ended) => some do
      reject (state.byteLen != entry.size) (.invalidArchive "ZIP entry size mismatch")
      return {
        byteLen := state.byteLen
        contentSha256 := platform.sha256 state.hashed
        contentSha1Base64 := platform.sha1Base64 state.hashed
        bytes := state.collected }

/-- `stream_entry` of a Takeout, after some readings: its state, and its result if it has one. -/
def takeoutStreamEntry (entry : ZipEntry) (collect : Bool) (readings : List Reading) :
    Streamed × Option (Except ScanError StreamedEntry) :=
  let run := streamLoop collect readings .empty
  (run.1, finishStream platform entry run)

/-- `stream_entry` of Apple Photos and Picasa, which collects nothing. -/
def appleStreamEntry (entry : ZipEntry) (readings : List Reading) :
    Streamed × Option (Except ScanError StreamedEntry) :=
  let run := streamLoop false readings .empty
  (run.1, finishStream platform entry run)

end

/-! ## The work of the loop -/

/-- The bytes of some readings before the first end, error or cancellation. -/
def yielded : List Reading → List UInt8
  | .filled (first :: bytes) :: rest => first :: bytes ++ yielded rest
  | _ => []

theorem hashed_streamLoop (collect : Bool) (readings : List Reading) (state : Streamed) :
    (streamLoop collect readings state).1.hashed = state.hashed ++ yielded readings := by
  induction readings generalizing state with
  | nil => exact (List.append_nil _).symm
  | cons reading rest induction =>
      cases reading with
      | cancelled => exact (List.append_nil _).symm
      | failed => exact (List.append_nil _).symm
      | filled bytes =>
          cases bytes with
          | nil => exact (List.append_nil _).symm
          | cons first bytes =>
              rw [streamLoop, induction, Streamed.push, yielded]
              exact List.append_assoc _ _ _

theorem collected_streamLoop (collect : Bool) (readings : List Reading) (state : Streamed) :
    (streamLoop collect readings state).1.collected =
      if collect then state.collected ++ yielded readings else state.collected := by
  have nothing (state : Streamed) :
      state.collected = if collect then state.collected ++ [] else state.collected := by
    rw [List.append_nil, ite_self]
  induction readings generalizing state with
  | nil => exact nothing state
  | cons reading rest induction =>
      cases reading with
      | cancelled => exact nothing state
      | failed => exact nothing state
      | filled bytes =>
          cases bytes with
          | nil => exact nothing state
          | cons first bytes =>
              rw [streamLoop, induction, Streamed.push, yielded]
              cases collect with
              | false => rfl
              | true => exact List.append_assoc _ _ _

theorem yielded_take (readings : List Reading) (taken : Nat) :
    (yielded (readings.take taken)).length ≤ (yielded readings).length := by
  induction readings generalizing taken with
  | nil => rw [List.take_nil]
  | cons reading rest induction =>
      cases taken with
      | zero => exact Nat.zero_le _
      | succ taken =>
          rw [List.take_succ_cons]
          cases reading with
          | cancelled => exact le_rfl
          | failed => exact le_rfl
          | filled bytes =>
              cases bytes with
              | nil => exact le_rfl
              | cons first bytes =>
                  rw [yielded, yielded, List.length_append, List.length_append]
                  exact Nat.add_le_add_left (induction taken) _

/-- No more bytes than a bound were hashed or collected. -/
def Streamed.Within (bound : Nat) (state : Streamed) : Prop :=
  state.hashed.length ≤ bound ∧ state.collected.length ≤ bound

theorem within_streamLoop {collect : Bool} {readings : List Reading} {bound : Nat}
    (short : (yielded readings).length ≤ bound) :
    (streamLoop collect readings .empty).1.Within bound := by
  constructor
  · rw [hashed_streamLoop]
    exact short
  · rw [collected_streamLoop]
    cases collect with
    | false => exact Nat.zero_le _
    | true => exact short

section

variable (platform : SourcePlatform)

/-- Neither version ever hashes or collects more than the declared size and one buffer exactly when
the reader does not yield more. -/
theorem streamEntry_within_iff (entry : ZipEntry) (bufferBytes : Nat) (readings : List Reading) :
    ((∀ collect taken, (takeoutStreamEntry platform entry collect (readings.take taken)).1.Within
        (entry.size + bufferBytes)) ∧
      ∀ taken, (appleStreamEntry platform entry (readings.take taken)).1.Within
        (entry.size + bufferBytes)) ↔
      (yielded readings).length ≤ entry.size + bufferBytes := by
  constructor
  · intro ⟨_, bounded⟩
    have last := (bounded readings.length).1
    rw [appleStreamEntry, List.take_length, hashed_streamLoop] at last
    exact last
  · intro short
    have prefixes (taken : Nat) := (yielded_take readings taken).trans short
    exact ⟨fun _ taken => within_streamLoop (prefixes taken),
      fun taken => within_streamLoop (prefixes taken)⟩

/-- An entry which declares one byte. -/
def sampleShortEntry : ZipEntry where
  name := "Takeout/Google Photos/a.jpg"
  isDir := false
  isSymlink := false
  encrypted := false
  compression := .deflated
  size := 1
  compressedSize := 1
  lastModified := none
  content := none

/-- Its reader fills three buffers of the smallest size. -/
def sampleReadings : List Reading := List.replicate 3 (.filled (List.replicate 4096 0))

/-- An entry which declares one byte is accepted, and its reader is followed beyond one buffer. -/
theorem sampleReadings_overrun :
    validateEntry sampleShortEntry 4096 100 4096 = .ok () ∧
      ¬ (takeoutStreamEntry .reference sampleShortEntry true sampleReadings).1.Within
        (sampleShortEntry.size + 4096) ∧
      ¬ (appleStreamEntry .reference sampleShortEntry sampleReadings).1.Within
        (sampleShortEntry.size + 4096) := by
  have filled (rest : List Reading) : yielded (.filled (List.replicate 4096 0) :: rest) =
      List.replicate 4096 0 ++ yielded rest := by
    rw [List.replicate_succ, yielded]
  have length : (yielded sampleReadings).length = 12288 := by
    simp only [sampleReadings, List.replicate_succ (n := 2), List.replicate_succ (n := 1),
      List.replicate_succ (n := 0), List.replicate_zero, filled, List.length_append,
      List.length_replicate]
    rfl
  have overrun (collect : Bool) : ¬ (streamLoop collect sampleReadings .empty).1.Within
      (sampleShortEntry.size + 4096) := by
    intro within
    have bounded := within.1
    rw [hashed_streamLoop, Streamed.empty, List.nil_append, length] at bounded
    exact absurd bounded (by decide)
  exact ⟨by decide, overrun true, overrun false⟩

/-- The declared size of an accepted entry leaves the configured limit as the bound. -/
theorem Streamed.Within.configured {state : Streamed} {entry : ZipEntry}
    {bufferBytes maxEntryBytes maxCompressionRatio ratioGraceBytes : Nat}
    (within : state.Within (entry.size + bufferBytes))
    (accepted : validateEntry entry maxEntryBytes maxCompressionRatio ratioGraceBytes = .ok ()) :
    state.Within (maxEntryBytes + bufferBytes) := by
  rw [validateEntry] at accepted
  simp only [reject_bind_eq_ok, decide_eq_false_iff_not, Nat.not_lt] at accepted
  have size := Nat.add_le_add_right accepted.2.2.1 bufferBytes
  exact ⟨within.1.trans size, within.2.trans size⟩

/-! ## Well-behaved readers -/

/-- A content which is read to its end in chunks. -/
theorem streamLoop_chunks (collect : Bool) {chunks : List (List UInt8)}
    (filled : ∀ chunk ∈ chunks, chunk ≠ []) (state : Streamed)
    (counted : state.byteLen ≤ 2 ^ 64 - 1) :
    streamLoop collect (chunks.map .filled ++ [.filled []]) state =
      ({ hashed := state.hashed ++ chunks.flatten
         collected := if collect then state.collected ++ chunks.flatten else state.collected
         byteLen := min (state.byteLen + chunks.flatten.length) (2 ^ 64 - 1) }, .ended) := by
  induction chunks generalizing state with
  | nil =>
      rw [List.map_nil, List.nil_append, streamLoop, List.flatten_nil, List.append_nil,
        List.append_nil, ite_self, List.length_nil, Nat.add_zero, min_eq_left counted]
  | cons chunk rest induction =>
      obtain ⟨nonempty, others⟩ := List.forall_mem_cons.mp filled
      cases chunk with
      | nil => exact absurd rfl nonempty
      | cons first bytes =>
          rw [List.map_cons, List.cons_append, streamLoop, induction others _ (min_le_right _ _)]
          rw [List.flatten_cons, List.length_append, Streamed.push]
          cases collect <;> simp only [List.append_assoc, Bool.false_eq_true, if_true, if_false] <;>
            congr 2 <;> omega

/-- Against a reader which divides the content and stops at its end, the loop returns what reading
the content returns. -/
theorem takeoutStreamEntry_content {entry : ZipEntry} {chunks : List (List UInt8)}
    (content : entry.content = some chunks.flatten) (filled : ∀ chunk ∈ chunks, chunk ≠ [])
    (small : chunks.flatten.length < 2 ^ 64) (collect : Bool) :
    (takeoutStreamEntry platform entry collect (chunks.map .filled ++ [.filled []])).2 =
      some ((streamEntry entry).map fun bytes =>
        { byteLen := bytes.length
          contentSha256 := platform.sha256 bytes
          contentSha1Base64 := platform.sha1Base64 bytes
          bytes := if collect then bytes else [] }) := by
  have counted : min (0 + chunks.flatten.length) (2 ^ 64 - 1) = chunks.flatten.length := by omega
  rw [takeoutStreamEntry, streamLoop_chunks collect filled .empty (Nat.zero_le _)]
  rw [finishStream, streamEntry, content]
  simp only [Streamed.empty, counted, List.nil_append]
  have test : (chunks.flatten.length != entry.size) =
      decide (chunks.flatten.length ≠ entry.size) := by
    rw [Bool.eq_iff_iff, bne_iff_ne, decide_eq_true_eq]
  rw [test]
  cases decide (chunks.flatten.length ≠ entry.size) <;> rfl

/-- The same content gives the same identity when nothing is collected. -/
theorem appleStreamEntry_content {entry : ZipEntry} {chunks : List (List UInt8)}
    (content : entry.content = some chunks.flatten) (filled : ∀ chunk ∈ chunks, chunk ≠ [])
    (small : chunks.flatten.length < 2 ^ 64) :
    (appleStreamEntry platform entry (chunks.map .filled ++ [.filled []])).2 =
      some ((streamEntry entry).map fun bytes =>
        { byteLen := bytes.length
          contentSha256 := platform.sha256 bytes
          contentSha1Base64 := platform.sha1Base64 bytes
          bytes := [] }) :=
  takeoutStreamEntry_content platform content filled small false

end

end ImmichRs
