import ImmichRs.Executor.Config
import ImmichRs.Files.Contents
import ImmichRs.Interaction.Fallible
import ImmichRs.Sources.Streaming

/-!
# Staging

Assets which are not files of their own, entries of an archive or originals on a server, are written
to a private directory before they are uploaded.  A staging program asks for the pieces of an asset
and for steps on files; any request may fail, and cancellation may come before any of them.
-/

namespace ImmichRs

open Files Interaction Interaction.Program

/-- What is compared of `fs::Metadata`. -/
structure SourceMetadata where
  length : Nat
  modified : Option Int
  created : Option Int
  deriving DecidableEq, Repr

/-- A download of an original: its declared length, and what each `next_chunk` gives until its
end. -/
structure Download where
  contentLength : Option Nat
  chunks : List (Except ClientError (List UInt8))

/-- Steps on a source which only succeed or fail. -/
inductive SourceStep
  /-- `validate_real_file`. -/
  | realFile (path : String)
  /-- `File::open`. -/
  | openFile (path : String)
  /-- `ZipArchive::new`. -/
  | openArchive (path : String)
  deriving DecidableEq, Repr

/-- Requests of a staging program. -/
inductive StagingCall
  | isCancelled
  | source (step : SourceStep)
  /-- `File::metadata`. -/
  | metadata (path : String)
  /-- `ZipArchive::by_index`, with what each turn of the reading meets. -/
  | openEntry (path : String) (index bufferBytes : Nat)
  /-- `ImmichReadClient::download_original`. -/
  | download (assetId : String)
  /-- A step on the files of the staging root. -/
  | file (step : FileStep String)
  deriving DecidableEq, Repr

/-- The type of the answer to each request. -/
def StagingAnswer : StagingCall → Type
  | .isCancelled | .source _ | .file _ => Bool
  | .metadata _ => Option SourceMetadata
  | .openEntry _ _ _ => Option (ZipEntry × List Reading)
  | .download _ => Except ClientError Download

/-- Programs which stage an asset. -/
abbrev StagingProgram (α : Type) : Type := ExceptT ExecutorError (Program StagingAnswer) α

/-- The largest `i64`, and the largest `isize`: neither a file nor a slice has more bytes. -/
def maxSigned : Nat := 9223372036854775807

/-- The largest `u64`. -/
def maxU64 : Nat := 18446744073709551615

/-- `u64::saturating_add`. -/
def saturatingAddU64 (left right : Nat) : Nat := min (left + right) maxU64

/-- Any step may fail; a reading fills at most the buffer. -/
def stagingEnvironment : Environment StagingAnswer (Contents String)
  | before, ⟨.file step, succeeded⟩, after => step.Performs maxSigned before succeeded after
  | before, ⟨.openEntry _ _ bufferBytes, some (_, readings)⟩, after =>
      after = before ∧ ∀ bytes, Reading.filled bytes ∈ readings →
        bytes.length ≤ min bufferBytes maxSigned
  | before, _, after => after = before

/-- No write leaves more bytes than planned. -/
def NeverExceeds (planned : String → Nat) :
    Contents String → Event StagingAnswer → Contents String → Prop
  | _, ⟨.file (.write name _), _⟩, after => ∀ content, after name = some content →
      content.length ≤ planned name
  | _, _, _ => True

/-! ## Names -/

/-- The name of a staged file. -/
def stagedName (operationId suffix : String) : String := operationId ++ "." ++ suffix

/-- The names of the files which an operation may stage. -/
def stagedNames (operationId : String) : List String :=
  ["media", "media.tmp", "xmp", "xmp.tmp"].map (stagedName operationId)

theorem stagedName_injective {operationId first second : String}
    (same : stagedName operationId first = stagedName operationId second) : first = second := by
  have lists := congrArg String.toList same
  simp only [stagedName, String.toList_append] at lists
  exact String.toList_injective (List.append_cancel_left lists)

theorem stagedName_ne {operationId first second : String} (different : first ≠ second) :
    stagedName operationId first ≠ stagedName operationId second :=
  fun same => different (stagedName_injective same)

/-! ## Requests -/

namespace StagingProgram

/-- `cancellation.is_cancelled()`. -/
abbrev isCancelled : StagingProgram Bool :=
  (send StagingCall.isCancelled : StagingProgram (StagingAnswer .isCancelled))

/-- A step on a source. -/
abbrev sourceStep (step : SourceStep) : StagingProgram Bool :=
  (send (StagingCall.source step) : StagingProgram (StagingAnswer (.source step)))

/-- A step on files. -/
abbrev fileStep (step : FileStep String) : StagingProgram Bool :=
  (send (StagingCall.file step) : StagingProgram (StagingAnswer (.file step)))

/-- `check_cancelled`. -/
def checkCancelled : StagingProgram Unit := do
  let cancelled ← isCancelled
  if cancelled then throw .cancelled else pure ()

/-- A step on a source whose failure is a change of the source. -/
def source (step : SourceStep) : StagingProgram Unit := do
  let succeeded ← sourceStep step
  if succeeded then pure () else throw .sourceChanged

/-- A value which is missing when the source has changed. -/
def required {α : Type} (value : Option α) : StagingProgram α :=
  match value with
  | some value => pure value
  | none => throw .sourceChanged

/-- `File::metadata` of a source. -/
def metadata (path : String) : StagingProgram SourceMetadata := do
  let read ← (send (StagingCall.metadata path) : StagingProgram (StagingAnswer (.metadata path)))
  required read

/-- `ZipArchive::by_index`. -/
def openEntry (path : String) (index bufferBytes : Nat) :
    StagingProgram (ZipEntry × List Reading) := do
  let opened ← (send (StagingCall.openEntry path index bufferBytes) :
    StagingProgram (StagingAnswer (.openEntry path index bufferBytes)))
  required opened

/-- A step on files whose failure is an error. -/
def file (step : FileStep String) (error : ExecutorError) : StagingProgram Unit := do
  let succeeded ← fileStep step
  if succeeded then pure () else throw error

/-- `fs::remove_file`, whose result is ignored. -/
def cleanUp (name : String) : StagingProgram Unit := do
  let _ ← fileStep (.remove name)

/-! ### Rules -/

section Rules

variable {planned : String → Nat} {files : Contents String}
  {failed : ExecutorError → Contents String → Prop}

/-- Every value of a program satisfies `ok` and every error `failed`, and no write exceeds what is
planned. -/
abbrev Ends {α : Type} (planned : String → Nat) (program : StagingProgram α)
    (files : Contents String) (ok : α → Contents String → Prop)
    (failed : ExecutorError → Contents String → Prop) : Prop :=
  Program.Ends stagingEnvironment (NeverExceeds planned) program files ok failed

/-- No write of a preparation exceeds what is planned.  Its asset is `staged`, and dropping the asset
leaves the files as they were, and so does a failure. -/
def Stages {Asset : Type} (planned : String → Nat) (prepare : StagingProgram Asset)
    (drop : Asset → StagingProgram Unit) (staged : Asset → Contents String → Prop)
    (files : Contents String) : Prop :=
  Ends planned prepare files
    (fun asset after => staged asset after ∧
      Ends planned (drop asset) after (fun _ last => last = files) fun _ _ => False)
    fun _ after => after = files

theorem ends_checkCancelled {ok : Unit → Contents String → Prop} (going : ok () files)
    (stopped : failed .cancelled files) : Ends planned checkCancelled files ok failed := by
  refine ends_bind (ends_send ?_)
  rintro (_ | _) after step
  · obtain rfl : after = files := step
    exact ⟨trivial, going⟩
  · obtain rfl : after = files := step
    exact ⟨trivial, stopped⟩

theorem ends_source {step : SourceStep} {ok : Unit → Contents String → Prop}
    (going : ok () files) (stopped : failed .sourceChanged files) :
    Ends planned (source step) files ok failed := by
  refine ends_bind (ends_send ?_)
  rintro (_ | _) after performed
  · obtain rfl : after = files := performed
    exact ⟨trivial, stopped⟩
  · obtain rfl : after = files := performed
    exact ⟨trivial, going⟩

theorem ends_required {α : Type} {value : Option α} {ok : α → Contents String → Prop}
    (going : ∀ result, value = some result → ok result files)
    (stopped : failed .sourceChanged files) : Ends planned (required value) files ok failed := by
  cases value with
  | none => exact stopped
  | some result => exact going result rfl

theorem ends_metadata {path : String} {ok : SourceMetadata → Contents String → Prop}
    (going : ∀ result, ok result files) (stopped : failed .sourceChanged files) :
    Ends planned (metadata path) files ok failed := by
  refine ends_bind (ends_send ?_)
  intro answer after performed
  have same : after = files := performed
  rw [same]
  exact ⟨trivial, ends_required (fun result _ => going result) stopped⟩

theorem ends_openEntry {path : String} {index bufferBytes : Nat}
    {ok : ZipEntry × List Reading → Contents String → Prop}
    (going : ∀ entry readings, (∀ bytes, Reading.filled bytes ∈ readings →
      bytes.length ≤ min bufferBytes maxSigned) → ok (entry, readings) files)
    (stopped : failed .sourceChanged files) :
    Ends planned (openEntry path index bufferBytes) files ok failed := by
  refine ends_bind (ends_send ?_)
  rintro (_ | ⟨entry, readings⟩) after performed
  · obtain rfl : after = files := performed
    exact ⟨trivial, ends_required (fun _ missing => by cases missing) stopped⟩
  · obtain ⟨rfl, small⟩ := performed
    refine ⟨trivial, ends_required (fun result found => ?_) stopped⟩
    obtain rfl := Option.some.inj found
    exact going entry readings small

/-- A step on files, by what it does when it succeeds and when it fails. -/
theorem ends_file {step : FileStep String} {error : ExecutorError}
    {ok : Unit → Contents String → Prop}
    (bounded : ∀ name bytes after content, step = .write name bytes →
      step.Performs maxSigned files true after ∨ step.Performs maxSigned files false after →
        after name = some content → content.length ≤ planned name)
    (going : ∀ after, step.Performs maxSigned files true after → ok () after)
    (stopped : ∀ after, step.Performs maxSigned files false after → failed error after) :
    Ends planned (file step error) files ok failed := by
  have safe : ∀ succeeded after, step.Performs maxSigned files succeeded after →
      NeverExceeds planned files ⟨.file step, succeeded⟩ after := by
    intro succeeded after performed
    cases step with
    | write name bytes =>
        intro content held
        cases succeeded with
        | true => exact bounded name bytes after content rfl (.inl performed) held
        | false => exact bounded name bytes after content rfl (.inr performed) held
    | create name => trivial
    | sync name => trivial
    | rename source target => trivial
    | inspect name => trivial
    | remove name => trivial
  refine ends_bind (ends_send ?_)
  rintro (_ | _) after performed
  · exact ⟨safe false after performed, stopped after performed⟩
  · exact ⟨safe true after performed, going after performed⟩

theorem ends_create {name : String} {error : ExecutorError} {ok : Unit → Contents String → Prop}
    (going : files name = none → ok () (Function.update files name (some [])))
    (stopped : ∀ content, failed error (Function.update files name content)) :
    Ends planned (file (.create name) error) files ok failed := by
  apply ends_file
  case bounded =>
    intro _ _ _ _ same
    cases same
  case going =>
    rintro after ⟨free, rfl⟩
    exact going free
  case stopped =>
    rintro after (rfl | ⟨_, rfl⟩)
    · have unchanged := stopped (after name)
      rwa [Function.update_eq_self] at unchanged
    · exact stopped _

/-- A write to a file whose content is known. -/
theorem ends_write {name : String} {bytes content : List UInt8} {error : ExecutorError}
    {ok : Unit → Contents String → Prop} (present : files name = some content)
    (room : (content ++ bytes).length ≤ planned name)
    (going : (content ++ bytes).length ≤ maxSigned →
      ok () (Function.update files name (some (content ++ bytes))))
    (stopped : ∀ content, failed error (Function.update files name content)) :
    Ends planned (file (.write name bytes) error) files ok failed := by
  rw [List.length_append] at room
  apply ends_file
  case bounded =>
    intro other written after found same performed held
    cases same
    have short : ∀ part : List UInt8, part <+: bytes → found = content ++ part →
        found.length ≤ planned name := by
      rintro part prior rfl
      have fewer := prior.length_le
      rw [List.length_append]
      omega
    rcases performed with ⟨known, now, _, rfl⟩ | rfl | ⟨known, part, now, prior, rfl⟩
    · obtain rfl := Option.some.inj (now.symm.trans present)
      rw [Function.update_self] at held
      exact short bytes (List.prefix_refl _) (Option.some.inj held).symm
    · obtain rfl := Option.some.inj (held.symm.trans present)
      exact short [] List.nil_prefix (List.append_nil _).symm
    · obtain rfl := Option.some.inj (now.symm.trans present)
      rw [Function.update_self] at held
      exact short part prior (Option.some.inj held).symm
  case going =>
    rintro after ⟨known, now, small, rfl⟩
    obtain rfl := Option.some.inj (now.symm.trans present)
    exact going small
  case stopped =>
    rintro after (rfl | ⟨known, part, _, _, rfl⟩)
    · have unchanged := stopped (after name)
      rwa [Function.update_eq_self] at unchanged
    · exact stopped _

theorem ends_sync {name : String} {error : ExecutorError} {ok : Unit → Contents String → Prop}
    (going : ok () files) (stopped : failed error files) :
    Ends planned (file (.sync name) error) files ok failed := by
  apply ends_file
  case bounded =>
    intro _ _ _ _ same
    cases same
  case going =>
    rintro after rfl
    exact going
  case stopped =>
    rintro after rfl
    exact stopped

theorem ends_inspect {name : String} {error : ExecutorError} {ok : Unit → Contents String → Prop}
    (going : ok () files) (stopped : failed error files) :
    Ends planned (file (.inspect name) error) files ok failed := by
  apply ends_file
  case bounded =>
    intro _ _ _ _ same
    cases same
  case going =>
    rintro after rfl
    exact going
  case stopped =>
    rintro after rfl
    exact stopped

theorem ends_rename {source target : String} {error : ExecutorError}
    {ok : Unit → Contents String → Prop} (going : ok () (files.rename source target))
    (stopped : failed error files) (partly : failed error (files.rename source target)) :
    Ends planned (file (.rename source target) error) files ok failed := by
  apply ends_file
  case bounded =>
    intro _ _ _ _ same
    cases same
  case going =>
    rintro after ⟨_, rfl⟩
    exact going
  case stopped =>
    rintro after (rfl | rfl)
    · exact stopped
    · exact partly

theorem ends_cleanUp {name : String} {ok : Unit → Contents String → Prop}
    (removed : ok () (Function.update files name none)) :
    Ends planned (cleanUp name) files ok failed := by
  refine ends_bind (ends_send ?_)
  rintro answer after rfl
  exact ⟨trivial, removed⟩

end Rules

/-! ### Successions -/

/-- Prepare assets one after another, each of them dropped before the next. -/
def inTurn {Operation Asset : Type} (prepare : Operation → StagingProgram Asset)
    (drop : Asset → StagingProgram Unit) (operations : List Operation) : StagingProgram Unit :=
  operations.forM fun operation => do
    let asset ← prepare operation
    drop asset

/-- A succession of preparations leaves the files as they were. -/
theorem ends_inTurn {Operation Asset : Type} {prepare : Operation → StagingProgram Asset}
    {drop : Asset → StagingProgram Unit} {operations : List Operation}
    {planned : Operation → String → Nat} {staged : Operation → Asset → Contents String → Prop}
    {files : Contents String}
    (each : ∀ operation ∈ operations,
      Stages (planned operation) (prepare operation) drop (staged operation) files) :
    Program.Ends stagingEnvironment (fun _ _ _ => True) (inTurn prepare drop operations) files
      (fun _ after => after = files) fun _ after => after = files := by
  apply ends_forM
  case start => rfl
  case each =>
    rintro operation member _ rfl
    apply ends_bind
    apply (each operation member).mono (fun _ _ _ _ => trivial) _ fun _ _ => id
    intro asset after held
    exact held.2.mono (fun _ _ _ _ => trivial) (fun _ _ => id) fun _ _ => False.elim

end StagingProgram

end ImmichRs
