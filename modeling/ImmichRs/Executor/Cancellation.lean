import ImmichRs.Executor.AccountingRun
import ImmichRs.Executor.ApplyTrace
import ImmichRs.Executor.ImportRows
import ImmichRs.Executor.LocalChecks
import ImmichRs.Interaction.Interruption

/-!
# Cancellation of the executors

Which answers tell an executor that its run is cancelled, and what it makes of them: a verification
fails with the error class of a cancellation, an apply ends with a report which says so, and what
was under way is journalled first.
-/

namespace ImmichRs

open Interaction
open Std (ExtTreeMap ExtTreeSet)

/-! ## Answers -/

/-- Whether a request of the client was cancelled. -/
def clientCancelled {α : Type} : Except ClientError α → Bool
  | .error error => error.class_ == .cancelled
  | .ok _ => false

/-- Whether an executor's own step was cancelled. -/
def stepCancelled {α : Type} : Except ExecutorError α → Bool
  | .error error => error == .cancelled
  | .ok _ => false

/-- Whether a scan was cancelled. -/
def scanCancelled {α : Type} : Except ScanError α → Bool
  | .error error => error == .cancelled
  | .ok _ => false

/-- The answers which tell about a cancellation. -/
def reportsCancellation : Event Answer → Bool
  | ⟨.isCancelled, answer⟩ => (answer : Bool)
  | ⟨.wait _, answer⟩ => !(answer : Bool)
  | ⟨.duplicateCheck _ _, answer⟩ => clientCancelled (answer : Except ClientError DuplicateCheck)
  | ⟨.upload _, answer⟩ => clientCancelled (answer : Except ClientError (UploadResult × String))
  | ⟨.updateAssetMetadata _ _ _, answer⟩ => clientCancelled (answer : Except ClientError Unit)
  | ⟨.addAlbumAssets _ _ _, answer⟩ => clientCancelled (answer : Except ClientError Unit)
  | ⟨.findOwnedAlbums _, answer⟩ => clientCancelled (answer : Except ClientError (List RemoteAlbum))
  | ⟨.createAlbum _, answer⟩ => clientCancelled (answer : Except ClientError RemoteAlbum)
  | ⟨.scanResolved _, answer⟩ => scanCancelled (answer : Except ScanError ResolvedFolderPlan)
  | ⟨.streamIdentity _ _ _ _, answer⟩ => stepCancelled (answer : Except ExecutorError StreamIdentity)
  | ⟨.streamContent _ _, answer⟩ => stepCancelled (answer : Except ExecutorError StreamIdentity)
  | ⟨.prepare _, answer⟩ => stepCancelled (answer : Except ExecutorError VerifiedAsset)
  | _ => false

/-- A token which is not set. -/
def deniesCancellation : Event Answer → Bool
  | ⟨.isCancelled, answer⟩ => !(answer : Bool)
  | _ => false

/-- The cancellation token, as an executor meets it. -/
def cancellation : Interruption Answer where
  reports := reportsCancellation
  denies := deniesCancellation
  exclusive := by
    rintro ⟨call, answer⟩ reported
    cases call with
    | isCancelled =>
        have set : answer = true := reported
        rw [set]
        rfl
    | _ => rfl

/-- Journals are written, and a scan names its assets by lower-case digests. -/
def WorksLocally : Event Answer → Prop
  | ⟨.appendEvent _, answer⟩ => (answer : Except ExecutorError Unit) = .ok ()
  | ⟨.appendEffect _, answer⟩ => (answer : Except ExecutorError Unit) = .ok ()
  | ⟨.scanResolved _, answer⟩ => ∀ resolved,
      (answer : Except ScanError ResolvedFolderPlan) = .ok resolved →
        ∀ asset ∈ resolved.plan.assets, isLowerSha256 asset.operationId = true
  | _ => True

/-- The answers of surroundings in which local steps succeed and the client has checked the ids
which it returns. -/
structure Cooperates (event : Event Answer) : Prop where
  identified : Identified event
  performed : WorksLocally event

/-- An executor which remembers whether it has been told about a cancellation. -/
abbrev notified : Environment Answer Bool := alerted cancellation Cooperates

/-! ## Programs -/

section

variable {α : Type} {marked valid : α → Prop} {alert : Bool}

/-- An executor returns valid values, and marked ones after a report. -/
abbrev Heeds (marked valid : α → Prop) (alert : Bool) (program : Executor α) : Prop :=
  Marks cancellation Cooperates marked valid alert program

theorem heeds_done {value : α} (holds : valid value) : Heeds marked valid false (.done value) :=
  marks_done (fun report => by cases report) holds

theorem heeds_answer {call : Call} {next : Answer call → Executor α}
    (report : ∀ answer, reportsCancellation ⟨call, answer⟩ = true →
      Heeds marked valid true (next answer))
    (silent : ∀ answer, reportsCancellation ⟨call, answer⟩ = false → Cooperates ⟨call, answer⟩ →
      Heeds marked valid alert (next answer)) :
    Heeds marked valid alert (.request call next) := by
  apply marks_request
  intro answer cooperates _
  cases told : cancellation.reports ⟨call, answer⟩ with
  | true =>
      rw [Bool.or_true]
      exact report answer told
  | false =>
      rw [Bool.or_false]
      exact silent answer told cooperates

/-- Whoever has been told about a cancellation finds the token set. -/
theorem heeds_isCancelled {next : Bool → Executor α} (stop : Heeds marked valid true (next true))
    (go : alert = false → Heeds marked valid false (next false)) :
    Heeds marked valid alert (.request .isCancelled next) := by
  apply marks_request
  intro answer _ told
  cases answer with
  | true =>
      have report : (alert || cancellation.reports ⟨.isCancelled, true⟩) = true := Bool.or_true _
      rw [report]
      exact stop
  | false =>
      cases alert with
      | false => exact go rfl
      | true => exact absurd (told rfl) (by decide)

theorem heeds_wait {delay : Nat} {next : Bool → Executor α}
    (stop : Heeds marked valid true (next false)) (go : Heeds marked valid alert (next true)) :
    Heeds marked valid alert (.request (.wait delay) next) := by
  apply heeds_answer
  case report =>
    intro answer report
    cases answer with
    | false => exact stop
    | true => cases report
  case silent =>
    intro answer silent _
    cases answer with
    | false => cases silent
    | true => exact go

theorem heeds_retryAllowed {config : UploadExecutionConfig} {error : ClientError} {retries : Nat}
    {next : Bool → Executor α} (rest : ∀ granted, Heeds marked valid alert (next granted)) :
    Heeds marked valid alert ((retryAllowed config error retries).bind next) := by
  rw [retryAllowed]
  split
  · apply heeds_answer
    · exact fun _ report => by cases report
    · exact fun granted _ _ => rest granted
  · exact rest false

/-- The reaction of a retry loop to an error of the client. -/
theorem heeds_error {config : UploadExecutionConfig} {error : ClientError} {retries delay : Nat}
    {again stopped otherwise : Executor α} (stops : Heeds marked valid true stopped)
    (repeats : Heeds marked valid false again) (rest : Heeds marked valid false otherwise) :
    Heeds marked valid (error.class_ == .cancelled)
      (if error.class_ = .cancelled then
        stopped
      else do
        if ← retryAllowed config error retries then
          if ← wait delay then again else stopped
        else otherwise) := by
  split
  case isTrue cancelled =>
    rw [cancelled]
    exact stops
  case isFalse running =>
    rw [beq_false_of_ne running]
    apply heeds_retryAllowed
    intro granted
    cases granted with
    | false => exact rest
    | true => exact heeds_wait stops repeats

end

/-! ## Errors -/

section

variable {α β : Type} {stopped : α → Prop} {alert : Bool}

/-- How a program ends which has been told about a cancellation. -/
def Halts (stopped : α → Prop) : Except ExecutorError α → Prop
  | .ok value => stopped value
  | .error error => error = .cancelled

/-- After a report a program returns what is `stopped`, or fails as cancelled. -/
abbrev Unwinds (stopped : α → Prop) (alert : Bool) (program : FallibleExecutor α) : Prop :=
  Heeds (Halts stopped) (fun _ => True) alert program.run

/-- After a report a program fails as cancelled. -/
abbrev Aborts (program : FallibleExecutor α) : Prop := Unwinds (fun _ => False) false program

theorem unwinds_pure {value : α} (tells : alert = true → stopped value) :
    Unwinds stopped alert (pure value) :=
  marks_done tells trivial

theorem unwinds_ofExcept (value : Except ExecutorError α) :
    Unwinds stopped false (ofExcept value) :=
  heeds_done trivial

theorem Unwinds.bind {program : FallibleExecutor β} {next : β → FallibleExecutor α}
    {halted : β → Prop} (first : Unwinds halted alert program)
    (rest : ∀ value later, (later = true → halted value) → Unwinds stopped later (next value)) :
    Unwinds stopped alert (program >>= next) := by
  apply marks_bind first
  intro outcome later tells _
  cases outcome with
  | ok value => exact rest value later tells
  | error error => exact marks_done tells trivial

/-- An executor which cannot fail in front of a fallible one. -/
theorem unwinds_lift {marked valid : β → Prop} {program : Executor β}
    {next : β → FallibleExecutor α} (first : Heeds marked valid alert program)
    (rest : ∀ value later, (later = true → marked value) → valid value →
      Unwinds stopped later (next value)) :
    Unwinds stopped alert ((liftM program : FallibleExecutor β) >>= next) := by
  have lifted : Heeds (fun outcome => ∃ value, outcome = .ok value ∧ marked value)
      (fun outcome => ∃ value, outcome = .ok value ∧ valid value) alert
      (liftM program : FallibleExecutor β).run := by
    apply marks_bind first
    intro value later tells holds
    exact marks_done (fun report => ⟨value, rfl, tells report⟩) ⟨value, rfl, holds⟩
  apply marks_bind lifted
  rintro _ later tells ⟨value, rfl, holds⟩
  apply rest value later _ holds
  intro report
  obtain ⟨_, same, marked⟩ := tells report
  rwa [Except.ok.inj same]

/-- A loop which asks for the token before each turn. -/
theorem unwinds_isCancelled {next : Bool → FallibleExecutor α} (stop : Unwinds stopped true (next true))
    (go : Unwinds stopped false (next false)) :
    Unwinds stopped false ((liftM (isCancelled : Executor Bool) : FallibleExecutor Bool) >>= next) :=
  heeds_isCancelled stop fun _ => go

theorem Aborts.bind {program : FallibleExecutor β} {next : β → FallibleExecutor α}
    (first : Aborts program) (rest : ∀ value, Unwinds stopped false (next value)) :
    Unwinds stopped false (program >>= next) := by
  apply Unwinds.bind first
  intro value later never
  cases later with
  | false => exact rest value
  | true => exact (never rfl).elim

/-- A request of which every report becomes the error. -/
theorem aborts_request {call : Call} {read : Answer call → Except ExecutorError α}
    (cancels : ∀ answer, reportsCancellation ⟨call, answer⟩ = true →
      read answer = .error .cancelled) :
    Aborts (ExceptT.mk (.request call fun answer => .done (read answer))) := by
  apply marks_request
  intro answer _ _
  apply marks_done
  · intro report
    rw [cancels answer report]
    rfl
  · trivial

/-- A request which is never interrupted. -/
theorem aborts_of_silent {call : Call} {read : Answer call → Except ExecutorError α}
    (silent : ∀ answer, reportsCancellation ⟨call, answer⟩ = false) :
    Aborts (ExceptT.mk (.request call fun answer => .done (read answer))) :=
  aborts_request fun answer report => absurd (report.symm.trans (silent answer)) (by decide)

theorem eq_of_stepCancelled {answer : Except ExecutorError α} (cancelled : stepCancelled answer) :
    answer = .error .cancelled := by
  cases answer with
  | ok value => cases cancelled
  | error error => rw [beq_iff_eq.mp cancelled]

end

/-! ## Verification -/

theorem aborts_checkCancelled : Aborts checkCancelled := by
  apply heeds_isCancelled
  · exact marks_done (fun _ => rfl) trivial
  · exact fun _ => heeds_done trivial

theorem aborts_scanResolved (sourceLabel : String) : Aborts (scanResolved sourceLabel) := by
  apply aborts_request
  intro answer cancelled
  cases answer with
  | ok resolved => cases cancelled
  | error error =>
      have same : error = .cancelled := beq_iff_eq.mp cancelled
      rw [same]
      rfl

theorem aborts_streamContent (nativePath : String) (byteLen : UInt64) :
    Aborts (streamContent nativePath byteLen) :=
  aborts_request fun _ => eq_of_stepCancelled

theorem aborts_streamIdentity (nativePath : String) (byteLen : UInt64)
    (createdAtUnixMs modifiedAtUnixMs : Int) :
    Aborts (streamIdentity nativePath byteLen createdAtUnixMs modifiedAtUnixMs) :=
  aborts_request fun _ => eq_of_stepCancelled

theorem aborts_verifySidecar (resolved : ResolvedFolderPlan) (operation : UploadOperation) :
    Aborts (verifySidecar resolved operation) := by
  rw [verifySidecar]
  split
  · exact unwinds_pure fun report => by cases report
  · apply Aborts.bind (unwinds_ofExcept _)
    intro source
    apply Aborts.bind (aborts_streamContent _ _)
    intro identity
    apply Aborts.bind (unwinds_ofExcept _)
    exact fun _ => unwinds_pure fun report => by cases report

theorem aborts_verifyOperation (resolved : ResolvedFolderPlan) (operation : UploadOperation) :
    Aborts (verifyOperation resolved operation) := by
  apply Aborts.bind aborts_checkCancelled
  intro _
  apply Aborts.bind (unwinds_ofExcept _)
  intro media
  apply Aborts.bind (aborts_streamIdentity _ _ _ _)
  intro identity
  apply Aborts.bind (unwinds_ofExcept _)
  intro _
  apply Aborts.bind (aborts_verifySidecar resolved operation)
  exact fun _ => unwinds_pure fun report => by cases report

theorem aborts_verifyOperations (resolved : ResolvedFolderPlan) (operations : List UploadOperation)
    (verified : ExtTreeMap String VerifiedAsset) :
    Aborts (verifyOperations resolved operations verified) := by
  induction operations generalizing verified with
  | nil => exact unwinds_pure fun report => by cases report
  | cons operation rest induction =>
      apply Aborts.bind (aborts_verifyOperation resolved operation)
      exact fun asset => induction _

/-- A verification which is cancelled fails as cancelled. -/
theorem aborts_verifySource (platform : Platform) (plan : UploadPlan)
    (config : UploadExecutionConfig) : Aborts (verifySource platform plan config) := by
  apply Aborts.bind (unwinds_ofExcept _)
  intro _
  apply Aborts.bind (unwinds_ofExcept _)
  intro identity
  apply Aborts.bind (unwinds_ofExcept _)
  intro _
  apply Aborts.bind (aborts_scanResolved _)
  intro resolved
  apply Aborts.bind (unwinds_ofExcept _)
  intro _
  exact aborts_verifyOperations resolved _ _

theorem aborts_uploadStart (platform : Platform) (plan : UploadPlan)
    (config : UploadExecutionConfig) (compatibility : ServerCompatibility)
    (backupReferenceSha256 : Option String) :
    Aborts (uploadStart platform plan config compatibility backupReferenceSha256) := by
  apply Aborts.bind (unwinds_ofExcept _)
  intro _
  apply Aborts.bind (unwinds_ofExcept _)
  intro _
  apply Aborts.bind (aborts_verifySource platform plan config)
  intro verified
  apply Aborts.bind
  · apply Aborts.bind (unwinds_ofExcept _)
    exact fun _ => aborts_of_silent fun _ => rfl
  · intro _
    apply Aborts.bind (aborts_of_silent fun _ => rfl)
    intro events
    apply Aborts.bind (unwinds_ofExcept _)
    intro completed
    apply Aborts.bind (unwinds_ofExcept _)
    intro _
    apply Aborts.bind (unwinds_ofExcept _)
    exact fun groups => unwinds_pure fun report => by cases report

/-! ## Operations -/

/-- A journal accepts the outcome of an operation. -/
def UsableOutcome (operation : UploadOperation) (outcome : OperationOutcome) : Prop :=
  outcome.operationId = operation.operationId ∧ assetContract outcome.event = true

/-- A result which says that its operation was cancelled. -/
def OperationResult.IsCancelled (result : OperationResult) : Prop :=
  ∃ outcome, result = .cancelled outcome

/-- The outcome of a result, if there is one, is usable. -/
def OperationResult.Usable (operation : UploadOperation) (result : OperationResult) : Prop :=
  ∀ outcome, result.outcome = some outcome → UsableOutcome operation outcome

section

variable {platform : Platform} {config : UploadExecutionConfig} {operation : UploadOperation}
  {source : VerifiedAsset} {livePhotoVideoId : Option String} {alert : Bool}

theorem usable_successful {kind : OutcomeKind} {assetId : String}
    (recordable : isRecordable assetId = true) (positive : kind = .created ∨ kind = .duplicate)
    (retries : Nat) : UsableOutcome operation (successful operation kind assetId retries) := by
  refine ⟨rfl, ?_⟩
  obtain rfl | rfl := positive <;> exact recordable

theorem OperationResult.Usable.completed {outcome : OperationOutcome}
    (usable : UsableOutcome operation outcome) :
    (OperationResult.completed outcome).Usable operation := by
  intro found same
  rwa [← Option.some.inj same]

theorem OperationResult.usable_cancelled_indeterminate (retries : Nat) :
    (OperationResult.cancelled (some (indeterminate operation retries))).Usable operation := by
  intro found same
  rw [← Option.some.inj same]
  exact ⟨rfl, rfl⟩

theorem OperationResult.usable_cancelled_none :
    (OperationResult.cancelled none).Usable operation := by
  intro found same
  cases same

/-- A program about one operation. -/
abbrev HeedsOperation (operation : UploadOperation) : Bool → Executor OperationResult → Prop :=
  Heeds OperationResult.IsCancelled (OperationResult.Usable operation)

/-- An iteration about one operation, which goes on only without a report. -/
abbrev HeedsIteration (operation : UploadOperation) :
    Bool → Executor (Nat ⊕ OperationResult) → Prop :=
  Heeds (Sum.elim (fun _ => False) OperationResult.IsCancelled)
    (Sum.elim (fun _ => True) (OperationResult.Usable operation))

theorem heeds_completed {outcome : OperationOutcome} (usable : UsableOutcome operation outcome) :
    HeedsOperation operation false (.done (.completed outcome)) :=
  heeds_done (.completed usable)

theorem heeds_stopped {result : OperationResult} (cancelled : result.IsCancelled)
    (usable : result.Usable operation) : HeedsIteration operation alert (.done (.inr result)) :=
  marks_done (fun _ => cancelled) usable

theorem heeds_returned {outcome : OperationOutcome} (usable : UsableOutcome operation outcome) :
    HeedsIteration operation false (.done (.inr (.completed outcome))) :=
  heeds_done (OperationResult.Usable.completed usable)

theorem heeds_reconcileUncertain (retries : Nat) :
    HeedsOperation operation false (reconcileUncertain operation source retries) := by
  have asked : ∀ alert, HeedsOperation operation alert (do
      if ← isCancelled then
        return .cancelled (some (indeterminate operation retries))
      else
        return .completed (indeterminate operation retries)) := by
    intro alert
    apply heeds_isCancelled
    · exact marks_done (fun _ => ⟨_, rfl⟩) (OperationResult.usable_cancelled_indeterminate retries)
    · exact fun _ => heeds_completed ⟨rfl, rfl⟩
  apply heeds_answer
  case report =>
    intro answer report
    cases answer with
    | error error => exact asked true
    | ok check => cases report
  case silent =>
    intro answer _ cooperates
    cases answer with
    | error error => exact asked false
    | ok check =>
        cases check with
        | accept => exact asked false
        | duplicate assetId =>
            exact heeds_completed (usable_successful cooperates.identified (.inr rfl) retries)

theorem heeds_uploadAttempt (retries : Nat) : HeedsIteration operation false
    (uploadAttempt platform config operation source livePhotoVideoId retries) := by
  apply marks_request
  intro answer cooperates _
  cases answer with
  | ok created =>
      obtain ⟨status, assetId⟩ := created
      apply heeds_returned
      apply usable_successful cooperates.identified
      cases status with
      | created => exact .inl rfl
      | duplicate => exact .inr rfl
  | error error =>
      apply heeds_error
      case stops =>
        exact heeds_stopped ⟨_, rfl⟩ (OperationResult.usable_cancelled_indeterminate retries)
      case repeats => exact heeds_done trivial
      case rest =>
        split
        case isTrue _ =>
          apply marks_bind (heeds_reconcileUncertain retries)
          exact fun result later tells usable => marks_done tells usable
        case isFalse _ => exact heeds_returned ⟨rfl, rfl⟩

theorem heeds_attempt (retries : Nat) : HeedsIteration operation false
    (attempt platform config operation source livePhotoVideoId retries) := by
  apply marks_request
  intro answer cooperates _
  cases answer with
  | ok check =>
      cases check with
      | accept => exact heeds_uploadAttempt retries
      | duplicate assetId =>
          exact heeds_returned (usable_successful cooperates.identified (.inr rfl) retries)
  | error error =>
      apply heeds_error
      case stops => exact heeds_stopped ⟨_, rfl⟩ OperationResult.usable_cancelled_none
      case repeats => exact heeds_done trivial
      case rest => exact heeds_returned ⟨rfl, rfl⟩

theorem heeds_applyOperation : HeedsOperation operation false
    (applyOperation platform config operation source livePhotoVideoId) := by
  apply marks_loop heeds_attempt
  exact fun retries => OperationResult.Usable.completed ⟨rfl, rfl⟩

end

/-! ## Groups -/

/-- The journal accepts every outcome of a group. -/
def GroupResult.Usable (result : GroupResult) : Prop :=
  ∀ outcome ∈ result.outcomes,
    outcome.operationId.isEmpty = false ∧ assetContract outcome.event = true

/-- A program about one group. -/
abbrev HeedsGroup : Bool → Executor GroupResult → Prop :=
  Heeds (fun result => result.cancelled = true) GroupResult.Usable

section

variable {platform : Platform} {config : UploadExecutionConfig}
  {verified : ExtTreeMap String VerifiedAsset} {completed : ExtTreeMap String String}

theorem usable_append {operation : UploadOperation} {outcomes : List OperationOutcome}
    {outcome : OperationOutcome} {before after : Bool} (named : operation.operationId.isEmpty = false)
    (usable : GroupResult.Usable { outcomes, cancelled := before })
    (next : UsableOutcome operation outcome) :
    GroupResult.Usable { outcomes := outcomes ++ [outcome], cancelled := after } := by
  intro found member
  obtain earlier | last := List.mem_append.mp member
  · exact usable found earlier
  · rw [List.mem_singleton.mp last, next.1]
    exact ⟨named, next.2⟩

theorem heeds_applyGroupLoop (operations : List UploadOperation)
    (named : ∀ operation ∈ operations, operation.operationId.isEmpty = false)
    (outcomes : List OperationOutcome) (videoAssetId : Option String)
    (usable : GroupResult.Usable { outcomes, cancelled := false }) :
    HeedsGroup false
      (applyGroupLoop platform config verified completed operations outcomes videoAssetId) := by
  induction operations generalizing outcomes videoAssetId with
  | nil => exact heeds_done usable
  | cons operation rest induction =>
      rw [List.forall_mem_cons] at named
      obtain ⟨here, later⟩ := named
      have skips := induction later
      have fails : ∀ outcome, UsableOutcome operation outcome → GroupResult.Usable
          { outcomes := outcomes ++ [outcome], cancelled := false } :=
        fun outcome => usable_append here usable
      apply heeds_isCancelled
      · exact marks_done (fun _ => rfl) usable
      · intro _
        simp only [Program.bind_done, Bool.false_eq_true, if_false]
        split
        case h_1 assetId resumed => exact skips _ _ usable
        case h_2 pending =>
            split
            case isTrue orphaned => exact skips _ _ (fails _ ⟨rfl, rfl⟩)
            case isFalse linked =>
                split
                case h_1 missing => exact skips _ _ (fails _ ⟨rfl, rfl⟩)
                case h_2 source found =>
                    apply marks_bind heeds_applyOperation
                    intro result alert tells valid
                    cases result with
                    | cancelled outcome =>
                        apply marks_done
                        · exact fun _ => rfl
                        · cases outcome with
                          | none => simpa [GroupResult.Usable] using usable
                          | some outcome => exact usable_append here usable (valid outcome rfl)
                    | completed outcome =>
                        have running : alert = false := by
                          cases alert with
                          | false => rfl
                          | true =>
                              obtain ⟨_, same⟩ := tells rfl
                              cases same
                        rw [running]
                        have reached := fails outcome (valid outcome rfl)
                        simp only []
                        split
                        case isTrue ended =>
                            exact heeds_done reached
                        case isFalse goes => exact skips _ _ reached

/-- Journalling the outcomes of a group neither fails nor reports anything. -/
theorem journalOutcomes_keeps (report : ApplyReport) {outcomes : List OperationOutcome}
    (usable : ∀ outcome ∈ outcomes,
      outcome.operationId.isEmpty = false ∧ assetContract outcome.event = true) (alert : Bool) :
    (journalOutcomes report outcomes).run.Ensures notified
      (fun _ event _ => reportsCancellation event = false) alert fun outcome _ =>
        ∃ next, outcome = .ok next ∧ next.cancelled = report.cancelled := by
  induction outcomes generalizing report alert with
  | nil => exact ⟨report, rfl, rfl⟩
  | cons outcome rest induction =>
      rw [List.forall_mem_cons] at usable
      obtain ⟨⟨named, contract⟩, later⟩ := usable
      have sent : appendEvent outcome.event =
          ExceptT.mk (.request (Call.appendEvent outcome.event) fun answer => .done answer) := by
        apply if_neg
        rw [contract, show outcome.event.operationId.isEmpty = false from named]
        decide
      rw [journalOutcomes, Program.ensures_exceptT_bind, sent]
      rintro answer after ⟨cooperates, rfl, _⟩
      refine ⟨rfl, ?_⟩
      have written : (answer : Except ExecutorError Unit) = .ok () := cooperates.performed
      rw [written]
      apply (induction (recordReport report outcome) later _).post
      rintro _ _ ⟨next, rfl, same⟩
      exact ⟨next, rfl, same.trans (recordReport_counted report outcome).2.2.2⟩

theorem takeGroup_tells (report : ApplyReport) {result : GroupResult} (usable : result.Usable) :
    (takeGroup report result).Ensures notified
      (fun _ event _ => reportsCancellation event = false) false fun outcome _ =>
        ∃ next, outcome = .ok next ∧
          (report.cancelled = true ∨ result.cancelled = true → next.cancelled = true) := by
  apply (journalOutcomes_keeps _ usable false).post
  rintro _ _ ⟨next, rfl, same⟩
  refine ⟨next, rfl, fun told => ?_⟩
  rw [same, Bool.or_eq_true]
  exact told

/-- Operations with digests as ids have names. -/
theorem UploadOperation.Valid.named {operation : UploadOperation}
    (valid : operation.Valid platform) : operation.operationId.isEmpty = false := by
  have length := valid.operationId
  simp only [isSha256, Bool.and_eq_true, beq_iff_eq] at length
  exact isEmpty_of_byteLen length.1

/-- The operations of the scheduled groups have names. -/
theorem Started.named {plan : UploadPlan} {start : UploadStart}
    (started : Started platform plan start) {group : List UploadOperation}
    (scheduled : group ∈ start.groups) :
    ∀ operation ∈ group, operation.operationId.isEmpty = false := by
  intro operation member
  have grouped : group ∈ plan.operations.filterMap (groupOf plan) :=
    List.mem_of_mem_filter (started.groups_perm.2.subset scheduled)
  have planned := mem_operations_of_mem_groups (List.mem_flatten.mpr ⟨group, grouped, member⟩)
  exact (started.accepted.valid operation planned).named

/-- A finished pool of groups says in its report whether the run was cancelled. -/
theorem drained_tells {World : Type} {quiet : Environment Answer World}
    (undisturbed : Undisturbed cancellation Cooperates quiet) {plan : UploadPlan}
    {start : UploadStart} (started : Started platform plan start) {before after : Moment World}
    {events : List (Event Answer)} {result : Except ExecutorError ApplyReport}
    (drained : Drained (interrupted cancellation quiet) config.concurrency takeGroup
      (start.pool platform config) start.report before events result after) :
    ∃ report, result = .ok report ∧
      (events.any reportsCancellation = true → report.cancelled = true) := by
  apply drained.tells undisturbed
  · exact fun report result usable => takeGroup_tells report usable
  · intro program member
    rw [UploadStart.pool, Pool.programs, List.nil_append] at member
    obtain ⟨group, scheduled, rfl⟩ := List.mem_map.mp member
    apply heeds_applyGroupLoop group (started.named scheduled)
    exact fun _ listed => by cases listed

end

end ImmichRs
