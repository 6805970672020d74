import ImmichRs.Executor.Cancellation
import ImmichRs.Executor.ImportOutcome

/-!
# Cancellation of an import

An effect which is cancelled is journalled first; the run then ends with a report which says that it
was cancelled.
-/

namespace ImmichRs

open Interaction
open Std (ExtTreeMap ExtTreeSet)

/-! ## Rows -/

section

variable {α β : Type} {stopped : α → Prop} {alert : Bool}

/-- A program returns `value` and is told nothing. -/
def Provides (value : α) (alert : Bool) (program : FallibleExecutor α) : Prop :=
  program.run.Ensures notified (fun _ _ _ => True) alert fun outcome after =>
    outcome = .ok value ∧ after = alert

theorem provides_pure (value : α) : Provides value alert (pure value) :=
  ⟨rfl, rfl⟩

theorem Provides.bind {program : FallibleExecutor β} {next : β → FallibleExecutor α} {middle : β}
    {value : α} (first : Provides middle alert program) (rest : Provides value alert (next middle)) :
    Provides value alert (program >>= next) := by
  rw [Provides, Program.ensures_exceptT_bind]
  apply Program.Ensures.post first
  rintro _ _ ⟨rfl, rfl⟩
  exact rest

/-- A program goes on as if its first part had not been there. -/
theorem Provides.heeds {marked valid : β → Prop} {program : FallibleExecutor α}
    {next : Except ExecutorError α → Executor β} {value : α} (first : Provides value alert program)
    (rest : Heeds marked valid alert (next (.ok value))) :
    Heeds marked valid alert (program.run.bind next) := by
  rw [Heeds, Marks, Program.ensures_bind]
  apply Program.Ensures.post first
  rintro _ _ ⟨rfl, rfl⟩
  exact rest

theorem Provides.unwinds {program : FallibleExecutor β} {next : β → FallibleExecutor α} {value : β}
    (first : Provides value alert program) (rest : Unwinds stopped alert (next value)) :
    Unwinds stopped alert (program >>= next) :=
  first.heeds rest

theorem Provides.ends {program : FallibleExecutor α} {value : α}
    (provides : Provides value alert program) (tells : alert = true → stopped value) :
    Unwinds stopped alert program := by
  apply Program.Ensures.post provides
  rintro _ _ ⟨rfl, rfl⟩
  exact ⟨tells, trivial⟩

variable {key : EffectKey} (lower : isLowerSha256 key.digest = true)

include lower

/-- The journal accepts a row whose identifier fits its outcome. -/
theorem provides_append {outcome : ImportOutcome} {remoteId : Option String} (retries : Nat)
    (identified : outcome.expectsId = remoteId.any isRecordable) :
    Provides () alert (append key.render outcome remoteId retries) := by
  have accepted : validateEffect key.render outcome remoteId = .ok () :=
    validateEffect_render lower identified
  rw [append, appendEffect, accepted]
  rintro answer after ⟨cooperates, rfl, _⟩
  have written : (answer : Except ExecutorError Unit) = .ok () := cooperates.performed
  exact ⟨trivial, written, Bool.or_false alert⟩

theorem provides_recordEffectFailure (indeterminate : Bool) (retries : Nat)
    (report : ImportApplyReport) :
    Provides ((report.fail indeterminate).addRetries retries) alert
      (recordEffectFailure key.render indeterminate retries report) := by
  refine (provides_append lower retries ?_).bind (provides_pure _)
  cases indeterminate <;> rfl

end

/-! ## Effects -/

section

variable {platform : Platform} {config : UploadExecutionConfig} {alert : Bool}

/-- The end of a loop over an effect: the run stops, and its report says so. -/
abbrev Stopped (result : Bool × ImportApplyReport) : Prop :=
  result.1 = false ∧ result.2.cancelled = true

theorem heeds_effectAttempt {key : EffectKey} (lower : isLowerSha256 key.digest = true)
    {request : Executor (Except ClientError Unit)}
    (requests : Heeds (fun answer => clientCancelled answer = true) (fun _ => True) false request)
    (count : ImportApplyReport → ImportApplyReport) (report : ImportApplyReport) (retries : Nat) :
    Heeds (Sum.elim (fun _ => False) (Halts Stopped)) (Sum.elim (fun _ => True) fun _ => True) false
      (effectAttempt platform config key.render request count report retries) := by
  have recorded : ∀ alert, Provides (false, ((report.fail true).addRetries retries).cancel) alert (do
      let report ← recordEffectFailure key.render true retries report
      return (false, report.cancel)) :=
    fun _ => (provides_recordEffectFailure lower true retries report).bind (provides_pure _)
  have stops : ∀ alert, Heeds (Sum.elim (fun _ => False) (Halts Stopped))
      (Sum.elim (fun _ : Nat => True) fun _ => True) alert
      ((ExceptT.run do
        let report ← recordEffectFailure key.render true retries report
        return (false, report.cancel)).bind fun result => .done (.inr result)) :=
    fun alert => (recorded alert).heeds (marks_done (fun _ => ⟨rfl, rfl⟩) trivial)
  apply marks_bind requests
  intro answer later tells _
  cases answer with
  | ok sent =>
      have running : later = false := by
        rw [Bool.eq_false_iff]
        intro report
        cases tells report
      have settled : Provides (true, (count report).addRetries retries) later (do
          append key.render .completed none retries
          return (true, (count report).addRetries retries)) :=
        (provides_append lower retries rfl).bind (provides_pure _)
      rw [running] at settled ⊢
      exact settled.heeds (heeds_done trivial)
  | error error =>
      by_cases cancelled : error.class_ = .cancelled
      · simp only [if_pos cancelled]
        exact stops later
      · have running : later = false := by
          rw [Bool.eq_false_iff]
          exact fun report => cancelled (beq_iff_eq.mp (tells report))
        have refused : Provides (true, (report.fail (uncertain error)).addRetries retries) later (do
            let report ← recordEffectFailure key.render (uncertain error) retries report
            return (true, report)) :=
          (provides_recordEffectFailure lower _ retries report).bind (provides_pure _)
        simp only [if_neg cancelled]
        rw [running] at refused ⊢
        apply heeds_retryAllowed
        intro granted
        cases granted with
        | true => exact heeds_wait (stops true) (heeds_done trivial)
        | false => exact refused.heeds (heeds_done trivial)

/-- A cancelled metadata or membership update stops the run. -/
theorem unwinds_settleEffect {key : EffectKey} (lower : isLowerSha256 key.digest = true)
    {request : Executor (Except ClientError Unit)}
    (requests : Heeds (fun answer => clientCancelled answer = true) (fun _ => True) false request)
    (count : ImportApplyReport → ImportApplyReport) (report : ImportApplyReport) :
    Unwinds Stopped false (settleEffect platform config key.render request count report) :=
  marks_loop (heeds_effectAttempt lower requests count report) (fun _ => trivial) _ _

/-- A request answers with the error of its cancellation. -/
theorem heeds_ask {call : Call} {read : Answer call → Except ClientError Unit}
    (reports : ∀ answer, reportsCancellation ⟨call, answer⟩ = clientCancelled (read answer)) :
    Heeds (fun answer => clientCancelled answer = true) (fun _ => True) false
      (.request call fun answer => .done (read answer)) := by
  apply marks_request
  intro answer _ _
  apply marks_done _ trivial
  intro report
  rw [← reports]
  exact report

theorem unwinds_applyMetadata (state : ImportState) {operation : UploadOperation}
    (lower : isLowerSha256 operation.operationId = true) (assetId : String)
    (report : ImportApplyReport) :
    Unwinds Stopped false (applyMetadata platform config state operation assetId report) := by
  have key : isLowerSha256 (EffectKey.metadata operation.operationId).digest = true := lower
  rw [applyMetadata]
  split
  · exact heeds_done trivial
  · split
    · exact heeds_done trivial
    · exact unwinds_settleEffect key (heeds_ask fun _ => rfl) _ _

theorem unwinds_applyMembership {identity : String} (lower : isLowerSha256 identity = true)
    (albumId : String) (memberIds : List String) (report : ImportApplyReport) :
    Unwinds Stopped false (applyMembership platform config identity albumId memberIds report) := by
  have key : isLowerSha256 (EffectKey.membership identity).digest = true := lower
  exact unwinds_settleEffect key (heeds_ask fun _ => rfl) _ _

/-! ## Albums -/

/-- An effect which was cancelled. -/
def EffectResult.IsCancelled (effect : EffectResult String) : Prop :=
  ∃ indeterminate retries, effect = .cancelled indeterminate retries

/-- A lookup which was cancelled. -/
def LookupCancelled (found : Except (EffectResult String) (List RemoteAlbum) × Nat) : Prop :=
  ∃ retries count, found = (.error (.cancelled false retries), count)

theorem heeds_lookupAlbums (name : String) (retries : Nat) :
    Heeds LookupCancelled (fun _ => True) false (lookupAlbums platform config name retries) := by
  apply marks_loop _ fun _ => trivial
  intro retries
  apply marks_request
  intro answer _ _
  cases answer with
  | ok albums => exact heeds_done trivial
  | error error =>
      apply heeds_error
      case stops => exact marks_done (fun _ => ⟨_, _, rfl⟩) trivial
      case repeats => exact heeds_done trivial
      case rest => exact heeds_done trivial

theorem heeds_createAttempt (name : String) (retries : Nat) :
    Heeds (Sum.elim (fun _ => False) EffectResult.IsCancelled)
      (Sum.elim (fun _ => True) fun _ => True) false
      (createAttempt platform config name retries) := by
  apply marks_request
  intro answer _ _
  cases answer with
  | ok album => exact heeds_done trivial
  | error error =>
      by_cases cancelled : error.class_ = .cancelled
      · simp only [Program.bind_done, if_pos cancelled]
        exact marks_done (fun _ => ⟨_, _, rfl⟩) trivial
      · have running : (false || cancellation.reports ⟨.createAlbum name, .error error⟩) = false :=
          beq_false_of_ne cancelled
        rw [running]
        simp only [Program.bind_done, if_neg cancelled]
        split
        case isFalse certain => exact heeds_done trivial
        case isTrue retryable =>
            apply marks_bind (heeds_lookupAlbums name retries)
            rintro ⟨observed, now⟩ later tells _
            have ended : ∀ alert, Heeds (Sum.elim (fun _ => False) EffectResult.IsCancelled)
                (Sum.elim (fun _ : Nat => True) fun _ => True) alert (do
                  if ← isCancelled then
                    return .inr (.cancelled true now)
                  else
                    return .inr (.failed (uncertain error) now)) := by
              intro alert
              apply heeds_isCancelled
              · exact marks_done (fun _ => ⟨_, _, rfl⟩) trivial
              · exact fun _ => heeds_done trivial
            cases later with
            | true =>
                obtain ⟨_, _, same⟩ := tells rfl
                obtain ⟨rfl, rfl⟩ := Prod.mk.inj same
                exact marks_done (fun _ => ⟨_, _, rfl⟩) trivial
            | false =>
                simp only
                split
                · exact heeds_done trivial
                · apply heeds_retryAllowed
                  intro granted
                  cases granted with
                  | true => exact heeds_wait (ended true) (heeds_done trivial)
                  | false => exact ended false

theorem heeds_convergeAlbum (name : String) :
    Heeds EffectResult.IsCancelled (fun _ => True) false (convergeAlbum platform config name) := by
  apply marks_bind (heeds_lookupAlbums name 0)
  rintro ⟨observed, now⟩ later tells _
  cases later with
  | true =>
      obtain ⟨_, _, same⟩ := tells rfl
      obtain ⟨rfl, rfl⟩ := Prod.mk.inj same
      exact marks_done (fun _ => ⟨_, _, rfl⟩) trivial
  | false =>
      obtain result | albums := observed
      · exact heeds_done trivial
      · obtain _ | ⟨album, _ | ⟨_, _⟩⟩ := albums
        · exact marks_loop (heeds_createAttempt name) (fun _ => trivial) _ _
        · exact heeds_done trivial
        · exact heeds_done trivial

/-- What holds of the answers of checked surroundings holds here as well. -/
theorem notified_of_holds {α : Type} {program : Executor α} {post : α → Prop} {alert : Bool}
    (holds : ∀ world, Holds program world fun value _ => post value) :
    program.Ensures notified (fun _ _ _ => True) alert fun value _ => post value := by
  have step : ∀ (view : Option ExecutorError) before event after, True →
      notified before event after → ∃ next, checkedEnvironment view event next ∧ True :=
    fun view _ event _ _ taken => ⟨(reported event).or view, ⟨taken.1.identified, rfl⟩, trivial⟩
  apply ((holds none).simulated step trivial).post
  rintro value _ ⟨_, _, held⟩
  exact held

/-- The result of a program which is marked after a report. -/
theorem Heeds.and {α : Type} {marked valid known : α → Prop} {program : Executor α} {alert : Bool}
    (heeds : Heeds marked valid alert program)
    (holds : ∀ world, Holds program world fun value _ => known value) :
    Heeds marked known alert program := by
  apply (Program.Ensures.and heeds (notified_of_holds holds)).mono (fun _ _ _ _ => trivial)
  exact fun _ _ reached => ⟨reached.1.1, reached.2⟩

/-- A cancelled album is recorded, and stops the run. -/
theorem recordAlbum_provides {identity : String} (lower : isLowerSha256 identity = true)
    {effect : EffectResult String} (recordable : effect.Recordable) (report : ImportApplyReport) :
    ∃ found, Provides found alert (recordAlbum identity effect report) ∧
      (effect.IsCancelled → found.1 = none ∧ found.2.cancelled = true) := by
  have key : isLowerSha256 (EffectKey.album identity).digest = true := lower
  cases effect with
  | done album outcome retries =>
      have identified : outcome.expectsId = (some album).any isRecordable :=
        recordable.1.trans recordable.2.symm
      refine ⟨_, (provides_append key retries identified).bind (provides_pure _), ?_⟩
      rintro ⟨_, _, same⟩
      cases same
  | failed indeterminate retries =>
      refine ⟨_, (provides_recordEffectFailure key indeterminate retries report).bind
        (provides_pure _), ?_⟩
      rintro ⟨_, _, same⟩
      cases same
  | cancelled indeterminate retries =>
      exact ⟨_, (provides_recordEffectFailure key indeterminate retries report).bind
        (provides_pure _), fun _ => ⟨rfl, rfl⟩⟩

/-- A reference which was not found because the run stops. -/
abbrev Missing (found : Option String × ImportApplyReport) : Prop :=
  found.1 = none ∧ found.2.cancelled = true

theorem unwinds_albumReference (positive : 1 ≤ config.maxAttemptsPerOperation)
    (digests : ∀ bytes, isLowerSha256 (platform.sha256 bytes) = true) (state : ImportState)
    (name : String) (report : ImportApplyReport) :
    Unwinds Missing false (albumReference platform config state name report) := by
  rw [albumReference]
  split
  · exact heeds_done trivial
  · apply unwinds_lift ((heeds_convergeAlbum name).and (convergeAlbum_holds positive))
    intro effect later tells recordable
    have lower : isLowerSha256 (albumIdentity platform name) = true := digests _
    obtain ⟨found, provides, stops⟩ := recordAlbum_provides lower recordable report
    exact provides.ends fun report => stops (tells report)

theorem unwinds_applyAlbumsLoop (positive : 1 ≤ config.maxAttemptsPerOperation)
    (digests : ∀ bytes, isLowerSha256 (platform.sha256 bytes) = true) (state : ImportState)
    (albums : List (String × ExtTreeSet String)) (report : ImportApplyReport) :
    Unwinds (fun report => report.cancelled = true) false
      (applyAlbumsLoop platform config state albums report) := by
  induction albums generalizing report with
  | nil => exact heeds_done trivial
  | cons album rest induction =>
      obtain ⟨name, members⟩ := album
      have lower : isLowerSha256 (albumIdentity platform name) = true := digests _
      apply unwinds_isCancelled
      · exact unwinds_pure fun _ => rfl
      · apply Unwinds.bind (unwinds_albumReference positive digests state name report)
        rintro ⟨found, referenced⟩ later missing
        cases found with
        | none =>
            simp only
            split
            case isTrue cancelled => exact unwinds_pure fun _ => cancelled
            case isFalse running =>
                cases later with
                | true => exact absurd (missing rfl).2 running
                | false => exact induction referenced
        | some albumId =>
            cases later with
            | true => cases (missing rfl).1
            | false =>
                simp only
                split
                · exact induction referenced.resume
                · apply Unwinds.bind (unwinds_applyMembership lower albumId _ _)
                  rintro ⟨proceed, updated⟩ later stops
                  cases proceed with
                  | false => exact unwinds_pure fun report => (stops report).2
                  | true =>
                      cases later with
                      | true => cases (stops rfl).1
                      | false => exact induction updated

/-! ## The whole run -/

theorem recordAsset_provides {operation : UploadOperation}
    (lower : isLowerSha256 operation.operationId = true) {result : OperationResult}
    (recordable : result.Recordable operation) (report : ImportApplyReport) :
    ∃ found, Provides found alert (recordAsset operation result report) ∧
      (result.IsCancelled → found.1 = none ∧ found.2.cancelled = true) := by
  have key : isLowerSha256 (EffectKey.asset operation.operationId).digest = true := lower
  cases result with
  | completed outcome =>
      obtain ⟨same, identified⟩ := recordable
      have row : Provides () alert (append (EffectKey.asset operation.operationId).render
          outcome.kind.importOutcome outcome.assetId outcome.retries) :=
        provides_append key outcome.retries identified
      rw [recordAsset, recordCompletedAsset, same]
      refine ⟨_, row.bind (provides_pure _), ?_⟩
      rintro ⟨_, other⟩
      cases other
  | cancelled partialOutcome =>
      cases partialOutcome with
      | none => exact ⟨_, provides_pure _, fun _ => ⟨rfl, rfl⟩⟩
      | some outcome =>
          have unknown : ImportOutcome.indeterminate.expectsId =
              (none : Option String).any isRecordable := rfl
          exact ⟨_, (provides_append key outcome.retries unknown).bind (provides_pure _),
            fun _ => ⟨rfl, rfl⟩⟩

theorem unwinds_assetReference (positive : 1 ≤ config.maxAttemptsPerOperation)
    (state : ImportState) (assetIds : ExtTreeMap String String) {operation : UploadOperation}
    (lower : isLowerSha256 operation.operationId = true) (report : ImportApplyReport) :
    Unwinds Missing false
      (assetReference platform config state assetIds operation report) := by
  have key : isLowerSha256 (EffectKey.asset operation.operationId).digest = true := lower
  rw [assetReference]
  split
  · exact heeds_done trivial
  · split
    · have failed : ImportOutcome.failed.expectsId = (none : Option String).any isRecordable := rfl
      have recorded : Provides (report.fail false) false (appendAssetFailure operation report) :=
        (provides_append key 0 failed).bind (provides_pure _)
      exact recorded.unwinds (heeds_done trivial)
    · have prepared : Aborts (prepare operation) := aborts_request fun _ => eq_of_stepCancelled
      apply prepared.bind
      intro source
      have applied : Heeds OperationResult.IsCancelled (OperationResult.Recordable operation) false
          (applyOperation platform config operation source (liveVideoId operation assetIds)) :=
        heeds_applyOperation.and (applyOperation_holds positive)
      apply unwinds_lift applied
      intro result later tells recordable
      obtain ⟨found, provides, stops⟩ := recordAsset_provides lower recordable report
      exact provides.ends fun report => stops (tells report)

theorem unwinds_applyOperationsLoop (positive : 1 ≤ config.maxAttemptsPerOperation)
    (state : ImportState) (operations : List UploadOperation)
    (lower : ∀ operation ∈ operations, isLowerSha256 operation.operationId = true)
    (report : ImportApplyReport) (assetIds : ExtTreeMap String String) :
    Unwinds (fun result => result.1.cancelled = true) false
      (applyOperationsLoop platform config state operations report assetIds) := by
  induction operations generalizing report assetIds with
  | nil => exact heeds_done trivial
  | cons operation rest induction =>
      rw [List.forall_mem_cons] at lower
      obtain ⟨here, later⟩ := lower
      have goes := induction later
      apply unwinds_isCancelled
      · exact unwinds_pure fun _ => rfl
      · apply Unwinds.bind (unwinds_assetReference positive state assetIds here report)
        rintro ⟨found, referenced⟩ alert missing
        cases found with
        | none =>
            simp only
            split
            case isTrue cancelled => exact unwinds_pure fun _ => cancelled
            case isFalse running =>
                cases alert with
                | true => exact absurd (missing rfl).2 running
                | false => exact goes referenced assetIds
        | some assetId =>
            cases alert with
            | true => cases (missing rfl).1
            | false =>
                apply Unwinds.bind (unwinds_applyMetadata state here assetId referenced)
                rintro ⟨proceed, updated⟩ alert stops
                cases proceed with
                | false => exact unwinds_pure fun report => (stops report).2
                | true =>
                    cases alert with
                    | true => cases (stops rfl).1
                    | false => exact goes updated _

theorem unwinds_applyEffects (positive : 1 ≤ config.maxAttemptsPerOperation)
    (digests : ∀ bytes, isLowerSha256 (platform.sha256 bytes) = true) {plan : UploadPlan}
    (accepted : plan.Accepted platform)
    (lower : ∀ operation ∈ plan.operations, isLowerSha256 operation.operationId = true)
    (state : ImportState) :
    Unwinds (fun report => report.cancelled = true) false
      (applyEffects platform config plan state) := by
  cases ordered : orderedOperations plan with
  | error error =>
      rw [applyEffects, ordered]
      exact heeds_done trivial
  | ok operations =>
      have inside := (orderedOperations_subperm accepted ordered).subset
      rw [applyEffects, ordered]
      apply Unwinds.bind (unwinds_applyOperationsLoop positive state operations
        (fun operation member => lower operation (inside member)) _ _)
      rintro ⟨report, assetIds⟩ later tells
      simp only
      split
      case isTrue running =>
          cases later with
          | true =>
              have cancelled : report.cancelled = true := tells rfl
              simp [cancelled] at running
          | false => exact unwinds_applyAlbumsLoop positive digests state _ report
      case isFalse ended => exact unwinds_pure tells

theorem aborts_rescan (platform : Platform) (plan : UploadPlan) (config : ImportConfig) :
    Aborts (rescan platform plan config) := by
  apply Aborts.bind (aborts_scanResolved _)
  intro resolved
  apply Aborts.bind (unwinds_ofExcept _)
  intro observed
  apply Aborts.bind (unwinds_ofExcept _)
  exact fun _ => unwinds_pure fun report => by cases report

theorem aborts_importStart (platform : Platform) (plan : UploadPlan) (config : ImportConfig)
    (client : ClientBinding) (backupReferenceSha256 : Option String) :
    Aborts (importStart platform plan config client backupReferenceSha256) := by
  apply Aborts.bind (unwinds_ofExcept _)
  intro _
  apply Aborts.bind (aborts_rescan platform plan config)
  intro _
  apply Aborts.bind
  · apply Aborts.bind (unwinds_ofExcept _)
    intro _
    apply Aborts.bind (unwinds_ofExcept _)
    intro _
    apply Aborts.bind (unwinds_ofExcept _)
    exact fun _ => aborts_of_silent fun _ => rfl
  · intro _
    apply Aborts.bind (aborts_of_silent fun _ => rfl)
    intro events
    apply Aborts.bind (unwinds_ofExcept _)
    intro state
    apply Aborts.bind (unwinds_ofExcept _)
    intro _
    apply Aborts.bind (aborts_of_silent fun _ => rfl)
    exact fun _ => unwinds_pure fun report => by cases report

/-- What is known when an import has been opened. -/
structure ImportKnown (platform : Platform) (plan : UploadPlan) (config : ImportConfig) : Prop where
  accepted : plan.Accepted platform
  positive : 1 ≤ config.upload.maxAttemptsPerOperation
  lower : ∀ operation ∈ plan.operations, isLowerSha256 operation.operationId = true

theorem importOperation_operationId {resolved : ResolvedFolderPlan} {sourceKind : SourceKind}
    {videos : ExtTreeMap String String} {asset : CandidateAsset} {operation : UploadOperation}
    (planned : importOperation platform resolved sourceKind videos asset = .ok operation) :
    operation.operationId = asset.operationId := by
  simp only [importOperation, bind_eq_ok, pure, Except.pure, Except.ok.injEq] at planned
  obtain ⟨_, _, _, _, _, _, _, _, rfl⟩ := planned
  rfl

/-- An import which has been opened has the lower-case ids of its scan. -/
theorem Opened.known {plan : UploadPlan} {config : ImportConfig} {events : List (Event Answer)}
    {state : ImportState} (opened : Opened platform plan config events state)
    (cooperates : ∀ event ∈ events, Cooperates event) : ImportKnown platform plan config := by
  obtain ⟨resolved, scanned, created⟩ := opened.created
  have named := (cooperates _ scanned).performed resolved rfl
  have created := createImportUploadPlan_ok created
  refine ⟨created.accepted, created.positive, fun operation member => ?_⟩
  obtain ⟨asset, listed, planned⟩ :=
    forall₂_exists_right (forall₂_of_mapM created.operations).flip member
  rw [importOperation_operationId planned]
  exact named asset listed

end

section

variable {platform : Platform} {plan : UploadPlan} {config : ImportConfig}

theorem importStart_known (client : ClientBinding) (backupReferenceSha256 : Option String) :
    (importStart platform plan config client backupReferenceSha256).run.Ensures notified
      (fun _ _ _ => True) false fun outcome _ =>
        ∀ state, outcome = .ok state → ImportKnown platform plan config := by
  have traces : Performs platform (fun _ _ => True) 0 []
      (importStart platform plan config client backupReferenceSha256)
      (Opened platform plan config) :=
    importStart_performs client backupReferenceSha256
  apply (Program.Traces.ensures traces fun _ _ _ step => step.1).post
  rintro outcome _ ⟨events, cooperates, _, opened⟩ state returned
  exact (opened state returned).known cooperates

/-- An import which is cancelled fails as cancelled, or says so in its report. -/
theorem unwinds_applyImportInner
    (digests : ∀ bytes, isLowerSha256 (platform.sha256 bytes) = true) (client : ClientBinding)
    (backupReferenceSha256 : Option String) :
    Unwinds (fun report => report.cancelled = true) false
      (applyImportInner platform plan config client backupReferenceSha256) := by
  have started := Program.Ensures.and
    (aborts_importStart platform plan config client backupReferenceSha256)
    (importStart_known client backupReferenceSha256)
  have opens : Heeds (Halts fun _ => False)
      (fun outcome => ∀ state, outcome = .ok state → ImportKnown platform plan config) false
      (importStart platform plan config client backupReferenceSha256).run :=
    started.mono (fun _ _ _ _ => trivial) fun _ _ reached => ⟨reached.1.1, reached.2⟩
  apply marks_bind opens
  intro outcome later tells known
  cases outcome with
  | error error => exact marks_done tells trivial
  | ok state =>
      have known := known state rfl
      cases later with
      | true => exact (tells rfl).elim
      | false => exact unwinds_applyEffects known.positive digests known.accepted known.lower state

end

end ImmichRs
