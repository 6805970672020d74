import ImmichRs.Executor.Calls

/-!
# One upload operation

`applyOperation` repeats a duplicate check and an upload until one of them settles the operation,
the retry policy is exhausted or cancellation is observed.
-/

namespace ImmichRs

open Interaction

/-- Journalled outcome of one operation. -/
structure OperationOutcome where
  operationId : String
  kind : OutcomeKind
  assetId : Option String
  retries : Nat
  deriving DecidableEq, Repr

/-- Result of one operation. -/
inductive OperationResult
  | completed (outcome : OperationOutcome)
  | cancelled (outcome : Option OperationOutcome)
  deriving DecidableEq, Repr

/-- `successful`. -/
def successful (operation : UploadOperation) (kind : OutcomeKind) (assetId : String)
    (retries : Nat) : OperationOutcome :=
  { operationId := operation.operationId, kind, assetId := some assetId, retries }

/-- `failed`. -/
def failed (operation : UploadOperation) (retries : Nat) : OperationOutcome :=
  { operationId := operation.operationId, kind := .failed, assetId := none, retries }

/-- `indeterminate`. -/
def indeterminate (operation : UploadOperation) (retries : Nat) : OperationOutcome :=
  { operationId := operation.operationId, kind := .indeterminate, assetId := none, retries }

/-- The request which `apply` builds for one operation. -/
def uploadRequest (operation : UploadOperation) (source : VerifiedAsset)
    (livePhotoVideoId : Option String) : UploadRequest :=
  { operationId := operation.operationId
    fileName := source.fileName
    mediaPath := source.mediaPath
    mediaLen := operation.byteLen
    sha1Base64 := source.sha1Base64
    createdAtUnixMs := operation.createdAtUnixMs
    modifiedAtUnixMs := operation.modifiedAtUnixMs
    xmp := source.xmp
    livePhotoVideoId }

/-- The outcome kind of a definite upload response. -/
def UploadResult.outcomeKind : UploadResult → OutcomeKind
  | .created => .created
  | .duplicate => .duplicate

/-- `reconcile_uncertain`. -/
def reconcileUncertain (operation : UploadOperation) (source : VerifiedAsset) (retries : Nat) :
    Executor OperationResult := do
  match ← duplicateCheck operation.operationId source.sha1Base64 with
  | .ok (.duplicate assetId) =>
      return .completed (successful operation .duplicate assetId retries)
  | _ =>
      if ← isCancelled then
        return .cancelled (some (indeterminate operation retries))
      else
        return .completed (indeterminate operation retries)

section

variable (platform : Platform) (config : UploadExecutionConfig) (operation : UploadOperation)
  (source : VerifiedAsset) (livePhotoVideoId : Option String)

/-- The upload half of one iteration of `apply`. -/
def uploadAttempt (retries : Nat) : Executor (Nat ⊕ OperationResult) := do
  match ← upload (uploadRequest operation source livePhotoVideoId) with
  | .ok (status, assetId) =>
      return .inr (.completed (successful operation status.outcomeKind assetId retries))
  | .error error =>
      if error.class_ = .cancelled then
        return .inr (.cancelled (some (indeterminate operation retries)))
      else if ← retryAllowed config error retries then
        if ← wait (retryDelay platform operation.operationId (retries + 1) error config) then
          return .inl (retries + 1)
        else
          return .inr (.cancelled (some (indeterminate operation retries)))
      else if uncertain error then
        return .inr (← reconcileUncertain operation source retries)
      else
        return .inr (.completed (failed operation retries))

/-- One iteration of `apply`: continue with a retry count, or return. -/
def attempt (retries : Nat) : Executor (Nat ⊕ OperationResult) := do
  match ← duplicateCheck operation.operationId source.sha1Base64 with
  | .ok (.duplicate assetId) =>
      return .inr (.completed (successful operation .duplicate assetId retries))
  | .ok .accept => uploadAttempt platform config operation source livePhotoVideoId retries
  | .error error =>
      if error.class_ = .cancelled then
        return .inr (.cancelled none)
      else if ← retryAllowed config error retries then
        if ← wait (retryDelay platform operation.operationId (retries + 1) error config) then
          return .inl (retries + 1)
        else
          return .inr (.cancelled none)
      else
        return .inr (.completed (failed operation retries))

/-- `operation::apply`. -/
def applyOperation : Executor OperationResult :=
  Program.loop (attempt platform config operation source livePhotoVideoId)
    (fun retries => .completed (failed operation retries)) (config.maxAttemptsPerOperation + 1) 0

end

/-! ## Runs against a script -/

/-- The answers to every call which one iteration of `apply` can make. -/
structure AttemptAnswers where
  /-- The preflight duplicate check. -/
  duplicate : Except ClientError DuplicateCheck
  /-- The upload. -/
  upload : Except ClientError (UploadResult × String)
  /-- The claim on the shared retry budget. -/
  claim : Bool
  /-- The backoff; false when cancelled. -/
  wait : Bool
  /-- The duplicate check after an uncertain upload. -/
  reconcile : Except ClientError DuplicateCheck
  /-- The cancellation token after a reconciliation without a duplicate. -/
  cancelled : Bool

/-- Which iteration is being answered, and whether it has sent its upload. -/
structure Position where
  attempt : Nat
  uploaded : Bool

/-- Answer each iteration from its entry in a script. -/
def scripted (script : Nat → AttemptAnswers) (position : Position) :
    (call : Call) → Answer call × Position
  | .duplicateCheck _ _ =>
      (if position.uploaded then (script position.attempt).reconcile
        else (script position.attempt).duplicate, position)
  | .upload _ => ((script position.attempt).upload, { position with uploaded := true })
  | .claim => ((script position.attempt).claim, position)
  | .wait _ =>
      ((script position.attempt).wait,
        if (script position.attempt).wait then ⟨position.attempt + 1, false⟩ else position)
  | .isCancelled => ((script position.attempt).cancelled, position)
  | .updateAssetMetadata _ _ _ | .addAlbumAssets _ _ _ | .findOwnedAlbums _ | .createAlbum _ =>
      (.error (.new .protocol), position)
  | .scanResolved _ => (.error .cancelled, position)
  | .streamIdentity _ _ _ _ | .streamContent _ _ | .prepare _ | .openStaging | .openJournal _
  | .appendEvent _ | .appendEffect _ | .readEvents | .readEffects => (.error .invariant, position)

/-- The retry policy grants another iteration after an error. -/
def AttemptAnswers.granted (answers : AttemptAnswers) (config : UploadExecutionConfig)
    (retries : Nat) (error : ClientError) : Bool :=
  error.isRetryable && decide (retries + 1 < config.maxAttemptsPerOperation) && answers.claim

/-- The iteration ends in a granted retry whose backoff is not cancelled. -/
def AttemptAnswers.Retried (answers : AttemptAnswers) (config : UploadExecutionConfig)
    (retries : Nat) : Prop :=
  answers.wait = true ∧ ∃ error, answers.granted config retries error = true ∧
    (answers.duplicate = .error error ∨
      answers.duplicate = .ok .accept ∧ answers.upload = .error error)

/-- The iteration sends an upload which may have been committed without a response. -/
def AttemptAnswers.UploadUncertain (answers : AttemptAnswers) : Prop :=
  answers.duplicate = .ok .accept ∧
    ∃ error, answers.upload = .error error ∧ uncertain error = true

/-- The iteration ends the call on a failing or cancelled duplicate check, or on an upload error
which is certain and not retried. -/
def AttemptAnswers.EndsDefinitely (answers : AttemptAnswers) (config : UploadExecutionConfig)
    (retries : Nat) : Prop :=
  ¬answers.Retried config retries ∧
    ((∃ error, answers.duplicate = .error error) ∨
      answers.duplicate = .ok .accept ∧ ∃ error, answers.upload = .error error ∧
        error.class_ ≠ .cancelled ∧ uncertain error = false ∧
        answers.granted config retries error = false)

/-- A definite failure, or a cancellation which reports no indeterminate outcome. -/
def OperationResult.Definite : OperationResult → Prop
  | .completed outcome => outcome.kind = .failed
  | .cancelled outcome => ∀ value ∈ outcome, value.kind ≠ .indeterminate

@[simp] theorem definite_failed (operation : UploadOperation) (retries : Nat) :
    (OperationResult.completed (failed operation retries)).Definite := rfl

@[simp] theorem definite_cancelled_none : (OperationResult.cancelled none).Definite := by
  simp [OperationResult.Definite]

@[simp] theorem not_definite_successful (operation : UploadOperation) (result : UploadResult)
    (assetId : String) (retries : Nat) :
    ¬(OperationResult.completed
      (successful operation result.outcomeKind assetId retries)).Definite := by
  cases result <;> simp [OperationResult.Definite, successful, UploadResult.outcomeKind]

@[simp] theorem not_definite_duplicate (operation : UploadOperation) (assetId : String)
    (retries : Nat) :
    ¬(OperationResult.completed (successful operation .duplicate assetId retries)).Definite :=
  not_definite_successful operation .duplicate assetId retries

@[simp] theorem not_definite_indeterminate (operation : UploadOperation) (retries : Nat) :
    ¬(OperationResult.completed (indeterminate operation retries)).Definite := by
  simp [OperationResult.Definite, indeterminate]

@[simp] theorem not_definite_cancelled_indeterminate (operation : UploadOperation)
    (retries : Nat) :
    ¬(OperationResult.cancelled (some (indeterminate operation retries))).Definite := by
  simp [OperationResult.Definite, indeterminate]

/-- Whether an answer is a timeout or a disconnect. -/
def uncertainAnswer {α : Type} : Except ClientError α → Bool
  | .error error => uncertain error
  | .ok _ => false

/-- Whether an event is an upload request answered by a timeout or a disconnect. -/
def uncertainUpload : Event Answer → Bool
  | ⟨.upload _, answer⟩ => uncertainAnswer (α := UploadResult × String) answer
  | _ => false

section

variable (platform : Platform) (config : UploadExecutionConfig) (operation : UploadOperation)
  (source : VerifiedAsset) (livePhotoVideoId : Option String) (script : Nat → AttemptAnswers)

/-- What an iteration observed and how it ended, as read off its answers. -/
def AttemptRuns (retries : Nat) (played : List (Event Answer) × (Nat ⊕ OperationResult) × Position) :
    Prop :=
  (played.1.any uncertainUpload = true ↔ (script retries).UploadUncertain) ∧
    ((script retries).Retried config retries ∧
        played.2 = (.inl (retries + 1), ⟨retries + 1, false⟩) ∨
      ¬(script retries).Retried config retries ∧ ∃ result, played.2.1 = .inr result ∧
        (result.Definite ↔ (script retries).EndsDefinitely config retries))

/-- The claim which a retry makes when the policy admits one. -/
def claimEvents (admitted granted : Bool) : List (Event Answer) :=
  if admitted then [⟨.claim, granted⟩] else []

@[simp] theorem any_uncertainUpload_claimEvents (admitted granted : Bool) :
    (claimEvents admitted granted).any uncertainUpload = false := by
  cases admitted <;> rfl

theorem retryAllowed_play (error : ClientError) (retries : Nat) (position : Position) :
    (retryAllowed config error retries).play (scripted script) position =
      (claimEvents (error.isRetryable && decide (retries + 1 < config.maxAttemptsPerOperation))
          (script position.attempt).claim,
        (script position.attempt).granted config retries error, position) := by
  unfold retryAllowed AttemptAnswers.granted claimEvents
  split
  case isTrue admitted => simp [admitted, scripted]
  case isFalse refused => simp [refused]

/-- Reconciliation after an uncertain upload never claims a definite failure. -/
theorem reconcileUncertain_play (retries : Nat) :
    let played := (reconcileUncertain operation source retries).play (scripted script)
      ⟨retries, true⟩
    played.1.any uncertainUpload = false ∧ ¬played.2.1.Definite := by
  cases check : (script retries).reconcile with
  | error error =>
      cases stopped : (script retries).cancelled <;>
        simp [reconcileUncertain, scripted, check, stopped, uncertainUpload]
  | ok answer =>
      cases answer with
      | duplicate assetId => simp [reconcileUncertain, scripted, check, uncertainUpload]
      | accept =>
          cases stopped : (script retries).cancelled <;>
            simp [reconcileUncertain, scripted, check, stopped, uncertainUpload]

theorem uploadAttempt_play (retries : Nat) (accepted : (script retries).duplicate = .ok .accept) :
    AttemptRuns config script retries
      ((uploadAttempt platform config operation source livePhotoVideoId retries).play
        (scripted script) ⟨retries, false⟩) := by
  cases answer : (script retries).upload with
  | ok response =>
      simp [uploadAttempt, scripted, answer, accepted, AttemptRuns, AttemptAnswers.UploadUncertain,
        AttemptAnswers.Retried, AttemptAnswers.EndsDefinitely, uncertainUpload, uncertainAnswer]
  | error error =>
      by_cases cancelledError : error.class_ = .cancelled
      · have certain : uncertain error = false := by simp [uncertain, cancelledError]
        have refused : (script retries).granted config retries error = false := by
          simp [AttemptAnswers.granted, ClientError.isRetryable, cancelledError]
        simp [uploadAttempt, scripted, answer, accepted, AttemptRuns,
          AttemptAnswers.UploadUncertain, AttemptAnswers.Retried, AttemptAnswers.EndsDefinitely,
          uncertainUpload, uncertainAnswer, cancelledError, certain, refused]
      · simp only [uploadAttempt, Program.bind_eq, Program.bind_request, Program.bind_done,
          Program.play_request, scripted, answer, if_neg cancelledError, Program.play_bind,
          retryAllowed_play]
        cases granted : (script retries).granted config retries error with
        | true =>
            cases waited : (script retries).wait <;>
              simp [AttemptRuns, uncertainUpload, uncertainAnswer, AttemptAnswers.UploadUncertain,
                accepted, answer, AttemptAnswers.Retried, waited, granted,
                AttemptAnswers.EndsDefinitely, scripted]
        | false =>
            obtain ⟨quiet, unsettled⟩ := reconcileUncertain_play operation source script retries
            cases unknown : uncertain error <;>
              simp [AttemptRuns, uncertainUpload, uncertainAnswer, AttemptAnswers.UploadUncertain,
                accepted, answer, AttemptAnswers.Retried, granted, AttemptAnswers.EndsDefinitely,
                unknown, cancelledError, quiet, unsettled, Program.play_bind]

theorem attempt_play (retries : Nat) :
    AttemptRuns config script retries
      ((attempt platform config operation source livePhotoVideoId retries).play
        (scripted script) ⟨retries, false⟩) := by
  cases answer : (script retries).duplicate with
  | ok check =>
      cases check with
      | duplicate assetId =>
          simp [attempt, scripted, answer, AttemptRuns, AttemptAnswers.UploadUncertain,
            AttemptAnswers.Retried, AttemptAnswers.EndsDefinitely, uncertainUpload]
      | accept =>
          simpa [attempt, scripted, answer, AttemptRuns, uncertainUpload] using
            uploadAttempt_play platform config operation source livePhotoVideoId script retries
              answer
  | error error =>
      by_cases cancelledError : error.class_ = .cancelled
      · have refused : (script retries).granted config retries error = false := by
          simp [AttemptAnswers.granted, ClientError.isRetryable, cancelledError]
        simp [attempt, scripted, answer, AttemptRuns, AttemptAnswers.UploadUncertain,
          AttemptAnswers.Retried, AttemptAnswers.EndsDefinitely, uncertainUpload, cancelledError,
          refused]
      · cases granted : (script retries).granted config retries error with
        | true =>
            cases waited : (script retries).wait <;>
              simp [attempt, AttemptRuns, uncertainUpload, AttemptAnswers.UploadUncertain, answer,
                AttemptAnswers.Retried, waited, granted, AttemptAnswers.EndsDefinitely, scripted,
                cancelledError, Program.play_bind, retryAllowed_play]
        | false =>
            simp [attempt, AttemptRuns, uncertainUpload, AttemptAnswers.UploadUncertain, answer,
              AttemptAnswers.Retried, granted, AttemptAnswers.EndsDefinitely, scripted,
              cancelledError, Program.play_bind, retryAllowed_play]

/-- A retried iteration stays below the attempt limit. -/
theorem AttemptAnswers.Retried.below {answers : AttemptAnswers} {retries : Nat}
    (retried : answers.Retried config retries) :
    retries + 1 < config.maxAttemptsPerOperation := by
  obtain ⟨_, error, granted, _⟩ := retried
  simp only [AttemptAnswers.granted, Bool.and_eq_true, decide_eq_true_eq] at granted
  exact granted.1.2

/-- The loop runs through retried iterations up to the one which ends it. -/
theorem loop_play (fuel retries : Nat)
    (enough : config.maxAttemptsPerOperation < retries + fuel) (positive : 0 < fuel) :
    let played := (Program.loop (attempt platform config operation source livePhotoVideoId)
      (fun retries => .completed (failed operation retries)) fuel retries).play
        (scripted script) ⟨retries, false⟩
    ∃ last, retries ≤ last ∧
      (∀ earlier, retries ≤ earlier → earlier < last →
        (script earlier).Retried config earlier) ∧
      ¬(script last).Retried config last ∧
      (played.2.1.Definite ↔ (script last).EndsDefinitely config last) ∧
      (played.1.any uncertainUpload = true ↔
        ∃ index, retries ≤ index ∧ index ≤ last ∧ (script index).UploadUncertain) := by
  induction fuel generalizing retries with
  | zero => omega
  | succ fuel induction =>
      obtain ⟨observed, ending⟩ :=
        attempt_play platform config operation source livePhotoVideoId script retries
      simp only [Program.loop, Program.play_bind, List.any_append, Bool.or_eq_true]
      rcases ending with ⟨retried, continued⟩ | ⟨final, result, returned, definite⟩
      · have below := retried.below
        obtain ⟨last, later, allRetried, final, definite, uncertainLater⟩ :=
          induction (retries + 1) (by omega) (by omega)
        rw [continued]
        refine ⟨last, by omega, fun earlier first second => ?_, final, definite, ?_⟩
        · rcases Nat.eq_or_lt_of_le first with rfl | first
          · exact retried
          · exact allRetried earlier first second
        · rw [observed, uncertainLater]
          constructor
          · rintro (here | ⟨index, lower, upper, unknown⟩)
            · exact ⟨retries, le_rfl, by omega, here⟩
            · exact ⟨index, by omega, upper, unknown⟩
          · rintro ⟨index, lower, upper, unknown⟩
            rcases Nat.eq_or_lt_of_le lower with rfl | lower
            · exact .inl unknown
            · exact .inr ⟨index, lower, upper, unknown⟩
      · refine ⟨retries, le_rfl, fun earlier first second => by omega, final, ?_, ?_⟩
        · rw [returned]
          exact definite
        · rw [returned]
          simp only [Program.play_done, List.any_nil, Bool.false_eq_true, or_false]
          rw [observed]
          constructor
          · exact fun unknown => ⟨retries, le_rfl, le_rfl, unknown⟩
          · rintro ⟨index, lower, upper, unknown⟩
            rwa [Nat.le_antisymm upper lower] at unknown

/-- The events and the result of one call of `apply` answered by a script. -/
def applyScripted : List (Event Answer) × OperationResult :=
  ((applyOperation platform config operation source livePhotoVideoId).play (scripted script)
      ⟨0, false⟩).map id Prod.fst

/-- A definite failure is returned only if no upload of the call was left uncertain. -/
def DefiniteOnlyIfCertain (run : List (Event Answer) × OperationResult) : Prop :=
  run.2.Definite → run.1.any uncertainUpload = false

/-- A call of `apply` answered by a script returns a definite failure only if none of its uploads
was left uncertain, unless an iteration with an uncertain upload is retried and a later iteration
ends the call on a duplicate check or on a certain upload error. -/
theorem applyOperation_definite_iff :
    DefiniteOnlyIfCertain
        (applyScripted platform config operation source livePhotoVideoId script) ↔
      ¬∃ earlier last, earlier < last ∧ (∀ index < last, (script index).Retried config index) ∧
        (script earlier).UploadUncertain ∧ (script last).EndsDefinitely config last := by
  obtain ⟨last, _, retried, final, definite, unknown⟩ :=
    loop_play platform config operation source livePhotoVideoId script
      (config.maxAttemptsPerOperation + 1) 0 (by omega) (by omega)
  simp only [DefiniteOnlyIfCertain, applyScripted, applyOperation, Prod.map]
  rw [id_eq, ← Bool.not_eq_true, definite, unknown]
  constructor
  · rintro settled ⟨earlier, ending, before, allRetried, uncertainUpload, ends⟩
    have same : ending = last := by
      rcases Nat.lt_trichotomy ending last with less | equal | more
      · exact absurd (retried ending (Nat.zero_le _) less) ends.1
      · exact equal
      · exact absurd (allRetried last more) final
    subst same
    exact settled ends ⟨earlier, Nat.zero_le _, before.le, uncertainUpload⟩
  · rintro excluded ends ⟨index, _, upper, uncertainUpload⟩
    refine excluded ⟨index, last, lt_of_le_of_ne upper ?_,
      fun earlier less => retried earlier (Nat.zero_le _) less, uncertainUpload, ends⟩
    rintro rfl
    obtain ⟨accepted, error, answered, possible⟩ := uncertainUpload
    rcases ends.2 with ⟨other, refused⟩ | ⟨_, other, certainAnswer, _, certain, _⟩
    · rw [accepted] at refused
      cases refused
    · rw [answered] at certainAnswer
      cases certainAnswer
      rw [possible] at certain
      cases certain

end

/-- The first upload times out, its retry is granted, and the next duplicate check is refused. -/
def lostUploadScript (index : Nat) : AttemptAnswers :=
  { duplicate := if index = 0 then .ok .accept else .error (.new .authentication)
    upload := .error (.new .timeout)
    claim := true
    wait := true
    reconcile := .ok .accept
    cancelled := false }

/-- An upload which may have been committed is reported as a definite failure. -/
theorem applyOperation_lostUpload :
    ¬DefiniteOnlyIfCertain
      (applyScripted .reference .default
        (sampleOperation 'a' "a.heic" .image .standalone none)
        { mediaPath := "/photos/a.heic"
          fileName := "a.heic"
          sha1Base64 := "2jmj7l5rSw0yVb/vlWAYkK/YBwk="
          xmp := none } none lostUploadScript) := by
  intro settled
  have certain := settled rfl
  exact Bool.false_ne_true certain.symm

end ImmichRs
