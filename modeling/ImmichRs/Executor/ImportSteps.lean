import ImmichRs.Executor.ImportTrace

/-!
# What each effect of an import does

The retry loops of uploads, metadata updates, memberships and album convergence, each as one
segment of its own effect.
-/

namespace ImmichRs

open Interaction
open Std (ExtTreeMap ExtTreeSet)

section

variable (platform : Platform) (members : String → List String → Prop) (key : EffectKey)
  {config : UploadExecutionConfig}

theorem retryAllowed_segment (error : ClientError) (retries : Nat) :
    (retryAllowed config error retries).Traces fun events answer =>
      Segment platform members key events 0 answer.toNat ∧
        (answer = true → retries + 1 < config.maxAttemptsPerOperation) := by
  unfold retryAllowed
  split
  case isTrue admitted =>
      rw [Bool.and_eq_true, decide_eq_true_eq] at admitted
      intro answer
      exact ⟨segment_plain rfl, fun _ => admitted.2⟩
  case isFalse refused => exact ⟨segment_nil, by simp⟩

/-- The retry policy: another attempt after a granted claim and its delay, or an end. -/
theorem retry_rule {α : Type} {again stopped refused : Executor α}
    {post : List (Event Answer) → α → Prop} (error : ClientError) (retries delay : Nat)
    (granted : ∀ first, Segment platform members key first 0 1 →
      retries + 1 < config.maxAttemptsPerOperation →
        again.Traces fun events value => post (first ++ events) value)
    (cancelled : ∀ first, Segment platform members key first 0 1 →
      stopped.Traces fun events value => post (first ++ events) value)
    (denied : ∀ first, Segment platform members key first 0 0 →
      refused.Traces fun events value => post (first ++ events) value) :
    ((retryAllowed config error retries).bind fun allowed =>
      if allowed then
        (wait delay).bind fun waited => if waited then again else stopped
      else refused).Traces post := by
  rw [Program.traces_bind]
  refine (retryAllowed_segment platform members key error retries).mono fun events allowed claimed => ?_
  obtain ⟨segment, below⟩ := claimed
  cases allowed with
  | false => exact denied events segment
  | true =>
      intro answer
      have waited : Segment platform members key (events ++ [⟨.wait delay, answer⟩]) 0 1 :=
        segment.append (segment_plain rfl)
      cases answer with
      | true =>
          refine (granted _ waited (below rfl)).mono fun rest value reached => ?_
          simpa using reached
      | false =>
          refine (cancelled _ waited).mono fun rest value reached => ?_
          simpa using reached

end

/-! ## Counters -/

/-- The effects which a report counts. -/
def ImportApplyReport.total (report : ImportApplyReport) : Nat :=
  report.resumedEffects + report.created + report.duplicate + report.metadataUpdated +
    report.albumsCreated + report.albumsReused + report.albumMembershipsUpdated + report.failed +
    report.indeterminate

/-- The effects which a report counts as failed or unknown. -/
def ImportApplyReport.unsettled (report : ImportApplyReport) : Nat :=
  report.failed + report.indeterminate

/-- How a report changes over events with `claims` granted retries on at most `effects` effects.
All of them are counted unless one is unsettled or the run is cancelled. -/
structure Tally (before after : ImportApplyReport) (effects claims : Nat) : Prop where
  retried : after.retried ≤ before.retried + claims
  total_le : after.total ≤ before.total + effects
  unsettled_le : before.unsettled ≤ after.unsettled
  cancelled : before.cancelled = true → after.cancelled = true
  complete : after.cancelled = false → after.unsettled = before.unsettled →
    after.total = before.total + effects

theorem tally_refl (report : ImportApplyReport) : Tally report report 0 0 :=
  ⟨le_rfl, le_rfl, le_rfl, id, fun _ _ => rfl⟩

theorem Tally.trans {first second third : ImportApplyReport} {effects effects' claims claims' : Nat}
    (head : Tally first second effects claims) (tail : Tally second third effects' claims') :
    Tally first third (effects + effects') (claims + claims') where
  retried := by
    have := head.retried
    have := tail.retried
    omega
  total_le := by
    have := head.total_le
    have := tail.total_le
    omega
  unsettled_le := head.unsettled_le.trans tail.unsettled_le
  cancelled := fun stopped => tail.cancelled (head.cancelled stopped)
  complete running settled := by
    have running' : second.cancelled = false := by
      cases stopped : second.cancelled with
      | false => rfl
      | true =>
          rw [tail.cancelled stopped] at running
          cases running
    have lower := head.unsettled_le
    have upper := tail.unsettled_le
    have := head.complete running' (by omega)
    have := tail.complete running (by omega)
    omega

theorem Tally.mono {before after : ImportApplyReport} {effects claims claims' : Nat}
    (tally : Tally before after effects claims) (more : claims ≤ claims') :
    Tally before after effects claims' :=
  { tally with retried := tally.retried.trans (Nat.add_le_add_left more _) }

/-- An effect which leaves the rest of its work undone because it is unsettled or cancelled. -/
theorem Tally.widen {before after : ImportApplyReport} {effects effects' claims : Nat}
    (tally : Tally before after effects claims) (more : effects ≤ effects')
    (stopped : after.cancelled = true ∨ before.unsettled < after.unsettled) :
    Tally before after effects' claims where
  retried := tally.retried
  total_le := tally.total_le.trans (Nat.add_le_add_left more _)
  unsettled_le := tally.unsettled_le
  cancelled := tally.cancelled
  complete running settled := by
    rcases stopped with stopped | unsettled
    · rw [stopped] at running
      cases running
    · omega

theorem tally_resume (report : ImportApplyReport) : Tally report report.resume 1 0 where
  retried := le_rfl
  total_le := by simp only [ImportApplyReport.total, ImportApplyReport.resume]; omega
  unsettled_le := le_rfl
  cancelled := id
  complete _ _ := by simp only [ImportApplyReport.total, ImportApplyReport.resume]; omega

theorem tally_cancel (report : ImportApplyReport) : Tally report report.cancel 0 0 :=
  ⟨le_rfl, le_rfl, le_rfl, fun _ => rfl, fun _ _ => rfl⟩

/-- A function which counts one finished effect. -/
structure Counts (count : ImportApplyReport → ImportApplyReport) : Prop where
  total : ∀ report, (count report).total = report.total + 1
  unsettled : ∀ report, (count report).unsettled = report.unsettled
  retried : ∀ report, (count report).retried = report.retried
  cancelled : ∀ report, (count report).cancelled = report.cancelled

theorem Counts.tally {count : ImportApplyReport → ImportApplyReport} (counts : Counts count)
    (report : ImportApplyReport) (retries : Nat) :
    Tally report ((count report).addRetries retries) 1 retries where
  retried := by rw [ImportApplyReport.addRetries, counts.retried]
  total_le := (counts.total report).le
  unsettled_le := (counts.unsettled report).ge
  cancelled stopped := (counts.cancelled report).trans stopped
  complete _ _ := counts.total report

/-- A failure is counted, whether or not its outcome is known. -/
theorem tally_fail (report : ImportApplyReport) (indeterminate : Bool) (retries : Nat) :
    Tally report ((report.fail indeterminate).addRetries retries) 1 retries ∧
      report.unsettled < ((report.fail indeterminate).addRetries retries).unsettled := by
  have total : ((report.fail indeterminate).addRetries retries).total = report.total + 1 := by
    cases indeterminate <;>
      simp only [ImportApplyReport.total, ImportApplyReport.fail, ImportApplyReport.addRetries,
        Bool.false_eq_true, if_true, if_false] <;> omega
  have unsettled : ((report.fail indeterminate).addRetries retries).unsettled =
      report.unsettled + 1 := by
    cases indeterminate <;>
      simp only [ImportApplyReport.unsettled, ImportApplyReport.fail,
        ImportApplyReport.addRetries, Bool.false_eq_true, if_true, if_false] <;> omega
  have retried : ((report.fail indeterminate).addRetries retries).retried =
      report.retried + retries := by
    cases indeterminate <;> rfl
  have cancelled : ((report.fail indeterminate).addRetries retries).cancelled =
      report.cancelled := by
    cases indeterminate <;> rfl
  refine ⟨⟨retried.le, total.le, by omega, fun stopped => cancelled.trans stopped, ?_⟩, by omega⟩
  intro _ same
  omega

/-! ## Uploads -/

/-- Outcomes of an upload which give an asset. -/
def OutcomeKind.isSettled : OutcomeKind → Bool
  | .created | .duplicate => true
  | .failed | .indeterminate => false

/-- What a result of `apply` reports about its operation. -/
def OperationResult.Reports (result : OperationResult) (operation : UploadOperation)
    (retries : Nat) : Prop :=
  match result with
  | .completed outcome => outcome.operationId = operation.operationId ∧
      outcome.retries = retries ∧ outcome.assetId.isSome = outcome.kind.isSettled
  | .cancelled (some outcome) => outcome.retries = retries
  | .cancelled none => True

section

variable (platform : Platform) (members : String → List String → Prop)
  (config : UploadExecutionConfig) (operation : UploadOperation) (source : VerifiedAsset)
  (livePhotoVideoId : Option String)

theorem segment_duplicateCheck (sha1Base64 : String) (answer : Except ClientError DuplicateCheck) :
    Segment platform members (.asset operation.operationId)
      [⟨.duplicateCheck operation.operationId sha1Base64, answer⟩] 0 0 :=
  segment_request rfl rfl (justified_of_plain (fun _ => rfl) (fun _ _ _ same => by cases same) rfl)

theorem segment_upload (answer : Except ClientError (UploadResult × String)) :
    Segment platform members (.asset operation.operationId)
      [⟨.upload (uploadRequest operation source livePhotoVideoId), answer⟩] 1 0 :=
  segment_request rfl rfl (justified_of_plain (fun _ => rfl) (fun _ _ _ same => by cases same) rfl)

/-- What one iteration of `apply` leaves behind. -/
def AttemptSpent (retries : Nat) (events : List (Event Answer)) : Nat ⊕ OperationResult → Prop
  | .inl next => next = retries + 1 ∧ next < config.maxAttemptsPerOperation ∧
      Segment platform members (.asset operation.operationId) events 1 1
  | .inr result => Segment platform members (.asset operation.operationId) events 1 0 ∧
      result.Reports operation retries

theorem reconcileUncertain_spent (retries : Nat) :
    (reconcileUncertain operation source retries).Traces fun events result =>
      Segment platform members (.asset operation.operationId) events 0 0 ∧
        result.Reports operation retries := by
  have undecided : ∀ (answer : Except ClientError DuplicateCheck) (stopped : Bool),
      Segment platform members (.asset operation.operationId)
        ([⟨.duplicateCheck operation.operationId source.sha1Base64, answer⟩] ++
          [⟨.isCancelled, stopped⟩]) 0 0 := by
    intro answer stopped
    exact (segment_duplicateCheck platform members operation _ answer).append (segment_plain rfl)
  rintro (error | check)
  · rintro (_ | _)
    · exact ⟨undecided _ false, rfl, rfl, rfl⟩
    · exact ⟨undecided _ true, rfl⟩
  · cases check with
    | accept =>
        rintro (_ | _)
        · exact ⟨undecided _ false, rfl, rfl, rfl⟩
        · exact ⟨undecided _ true, rfl⟩
    | duplicate assetId =>
        exact ⟨segment_duplicateCheck platform members operation _ _, rfl, rfl, rfl⟩

theorem uploadAttempt_spent (retries : Nat) :
    (uploadAttempt platform config operation source livePhotoVideoId retries).Traces
      (AttemptSpent platform members config operation retries) := by
  rintro (error | response)
  · have sent := segment_upload platform members operation source livePhotoVideoId (.error error)
    simp only [Program.bind_done]
    split
    · exact ⟨sent, rfl⟩
    · refine retry_rule platform members (.asset operation.operationId) error retries _ ?_ ?_ ?_
      · intro first segment below
        exact ⟨rfl, below, (sent.append (segment.append segment_nil))⟩
      · intro first segment
        exact ⟨(sent.append (segment.append segment_nil)).mono le_rfl (Nat.zero_le _), rfl⟩
      · intro first segment
        split
        · rw [Program.bind_eq, Program.traces_bind]
          refine (reconcileUncertain_spent platform members operation source retries).mono
            fun events result reached => ?_
          refine ⟨?_, reached.2⟩
          have whole := sent.append (segment.append reached.1)
          simpa using whole
        · exact ⟨sent.append (segment.append segment_nil), rfl, rfl, rfl⟩
  · refine ⟨segment_upload platform members operation source livePhotoVideoId (.ok response), rfl,
      rfl, ?_⟩
    cases response.1 <;> rfl

theorem attempt_spent (retries : Nat) :
    (attempt platform config operation source livePhotoVideoId retries).Traces
      (AttemptSpent platform members config operation retries) := by
  rintro (error | check)
  · have checked := segment_duplicateCheck platform members operation source.sha1Base64
      (.error error)
    simp only [Program.bind_done]
    split
    · exact ⟨checked.mono (Nat.zero_le _) le_rfl, trivial⟩
    · refine retry_rule platform members (.asset operation.operationId) error retries _ ?_ ?_ ?_
      · intro first segment below
        exact ⟨rfl, below,
          (checked.append (segment.append segment_nil)).mono (Nat.zero_le _) le_rfl⟩
      · intro first segment
        exact ⟨(checked.append (segment.append segment_nil)).mono (Nat.zero_le _)
          (Nat.zero_le _), trivial⟩
      · intro first segment
        exact ⟨(checked.append (segment.append segment_nil)).mono (Nat.zero_le _) le_rfl,
          rfl, rfl, rfl⟩
  · have checked := segment_duplicateCheck platform members operation source.sha1Base64
      (.ok check)
    cases check with
    | duplicate assetId => exact ⟨checked.mono (Nat.zero_le _) le_rfl, rfl, rfl, rfl⟩
    | accept =>
        refine (uploadAttempt_spent platform members config operation source livePhotoVideoId
          retries).mono fun events outcome spent => ?_
        cases outcome with
        | inl next =>
            obtain ⟨same, below, segment⟩ := spent
            exact ⟨same, below, (checked.append segment).mono (by simp) (by simp)⟩
        | inr result =>
            exact ⟨(checked.append spent.1).mono (by simp) (by simp), spent.2⟩

/-- An upload spends one mutation more than the retries which it reports. -/
def OperationSpent (events : List (Event Answer)) (result : OperationResult) : Prop :=
  ∃ retries < config.maxAttemptsPerOperation,
    Segment platform members (.asset operation.operationId) events (retries + 1) retries ∧
      result.Reports operation retries

theorem applyOperation_spent (positive : 1 ≤ config.maxAttemptsPerOperation) :
    (applyOperation platform config operation source livePhotoVideoId).Traces
      (OperationSpent platform members config operation) := by
  refine Program.loop_traces (OperationSpent platform members config operation) (fun retries past => retries < config.maxAttemptsPerOperation ∧
      Segment platform members (.asset operation.operationId) past retries retries)
    (fun retries => config.maxAttemptsPerOperation - retries) ?_
    (config.maxAttemptsPerOperation + 1) 0 [] (by omega) ⟨positive, segment_nil⟩
  rintro retries past ⟨below, segment⟩
  refine (attempt_spent platform members config operation source livePhotoVideoId retries).mono
    fun events outcome spent => ?_
  cases outcome with
  | inl next =>
      obtain ⟨rfl, next, more⟩ := spent
      exact ⟨⟨next, segment.append more⟩, by omega⟩
  | inr result => exact ⟨retries, below, segment.append spent.1, spent.2⟩

end

/-! ## Rows -/

section

variable {platform : Platform} {members : String → List String → Prop} {key : EffectKey}

/-- The row which `append` tries to store. -/
def rowFor (key : EffectKey) (outcome : ImportOutcome) (remoteId : Option String)
    (retries : Nat) : ImportEvent :=
  { effectKey := key.render, outcome, remoteId, retries }

/-- A row ends the segment of its effect, and is stored when `append` returns. -/
theorem append_rule {past : List (Event Answer)} {spent claims : Nat}
    (segment : Segment platform members key past spent claims) {outcome : ImportOutcome}
    (remoteId : Option String) (retries : Nat) (allowed : outcome ∈ key.outcomes)
    (confirmed : ∀ identity, key = .membership identity → outcome = .completed →
      ∃ albumId assetIds, ⟨.addAlbumAssets identity albumId assetIds, .ok ()⟩ ∈ past) :
    (append key.render outcome remoteId retries).run.Traces fun events result =>
      Closed platform members key (past ++ events) spent claims ∧
        (result = .ok () → (⟨.appendEffect (rowFor key outcome remoteId retries), .ok ()⟩ :
          Event Answer) ∈ events) := by
  rw [append, appendEffect, Program.traces_exceptT_bind, ofExcept]
  refine (?_ : (Program.done _).Traces _)
  rw [Program.traces_done]
  cases valid : validateEffect key.render outcome remoteId with
  | error error =>
      rw [List.append_nil]
      exact ⟨segment.closed, by simp⟩
  | ok nothing =>
      intro answer
      have rowOf : (rowFor key outcome remoteId retries).RowOf key := by
        refine ⟨rfl, allowed, ?_⟩
        simp only [rowFor]
        exact valid
      have justified : Justified members past
          ⟨.appendEffect (rowFor key outcome remoteId retries), answer⟩ := by
        refine justified_row answer fun identity keyed completed => ?_
        exact confirmed identity (EffectKey.render_injective keyed) completed
      refine ⟨segment.record rowOf answer justified, ?_⟩
      rintro rfl
      exact List.mem_singleton_self _

/-- A row followed by a pure result. -/
theorem append_return {α : Type} {past : List (Event Answer)} {spent claims : Nat}
    (segment : Segment platform members key past spent claims) {outcome : ImportOutcome}
    (remoteId : Option String) (retries : Nat) (allowed : outcome ∈ key.outcomes)
    (confirmed : ∀ identity, key = .membership identity → outcome = .completed →
      ∃ albumId assetIds, ⟨.addAlbumAssets identity albumId assetIds, .ok ()⟩ ∈ past) (value : α) :
    (append key.render outcome remoteId retries >>= fun _ => pure value).run.Traces
      fun events result => Closed platform members key (past ++ events) spent claims ∧
        ∀ returned, result = .ok returned → returned = value ∧
          (⟨.appendEffect (rowFor key outcome remoteId retries), .ok ()⟩ : Event Answer) ∈
            events := by
  rw [Program.traces_exceptT_bind]
  refine (append_rule segment remoteId retries allowed confirmed).mono fun events result row => ?_
  cases result with
  | error error => exact ⟨row.1, by simp⟩
  | ok nothing =>
      refine ⟨by simpa using row.1, ?_⟩
      rintro _ ⟨⟩
      exact ⟨rfl, by simpa using row.2 rfl⟩

theorem failure_mem_outcomes (key : EffectKey) (indeterminate : Bool) :
    (if indeterminate then ImportOutcome.indeterminate else .failed) ∈ key.outcomes := by
  cases key <;> cases indeterminate <;> simp [EffectKey.outcomes]

/-- A failure row ends the segment of its effect and is counted. -/
theorem recordEffectFailure_rule {past : List (Event Answer)} {spent claims : Nat}
    (segment : Segment platform members key past spent claims) (indeterminate : Bool)
    (retries : Nat) (report : ImportApplyReport) :
    (recordEffectFailure key.render indeterminate retries report).run.Traces
      fun events result => Closed platform members key (past ++ events) spent claims ∧
        ∀ after, result = .ok after →
          after = (report.fail indeterminate).addRetries retries := by
  have row := append_return segment none retries (failure_mem_outcomes key indeterminate)
    (by cases indeterminate <;> simp) ((report.fail indeterminate).addRetries retries)
  exact row.mono fun events result reached =>
    ⟨reached.1, fun after returned => (reached.2 after returned).1⟩

end

/-! ## Metadata updates and memberships -/

section

variable (platform : Platform) (members : String → List String → Prop) (key : EffectKey)
  (config : UploadExecutionConfig)

/-- What an effect which has been settled or given up leaves behind. -/
def EffectSettled (report : ImportApplyReport) (events : List (Event Answer))
    (result : Except ExecutorError (Bool × ImportApplyReport)) : Prop :=
  ∃ retries < config.maxAttemptsPerOperation,
    Closed platform members key events (retries + 1) retries ∧
      ∀ proceed after, result = .ok (proceed, after) →
        Tally report after 1 retries ∧ (proceed = false → after.cancelled = true)

/-- A request which works on one effect. -/
def Requests (request : Executor (Except ClientError Unit)) : Prop :=
  request.Traces fun events answer =>
    Segment platform members key events 1 0 ∧
      (answer = .ok () → ∀ identity, key = .membership identity →
        ∃ albumId assetIds, ⟨.addAlbumAssets identity albumId assetIds, .ok ()⟩ ∈ events)

variable {platform members key config} {request : Executor (Except ClientError Unit)}
  {count : ImportApplyReport → ImportApplyReport}

theorem effectAttempt_rule (requests : Requests platform members key request)
    (completes : .completed ∈ key.outcomes) (counts : Counts count) (report : ImportApplyReport)
    {retries : Nat} (below : retries < config.maxAttemptsPerOperation)
    {past : List (Event Answer)} (segment : Segment platform members key past retries retries) :
    (effectAttempt platform config key.render request count report retries).Traces
      fun events outcome => match outcome with
        | .inl next => (next < config.maxAttemptsPerOperation ∧
              Segment platform members key (past ++ events) next next) ∧
            config.maxAttemptsPerOperation - next < config.maxAttemptsPerOperation - retries
        | .inr result =>
            EffectSettled platform members key config report (past ++ events) result := by
  rw [effectAttempt, Program.bind_eq, Program.traces_bind]
  refine requests.mono fun first answer reached => ?_
  obtain ⟨sent, confirmed⟩ := reached
  have spent := segment.append sent
  have stopped : ∀ middle, Segment platform members key (past ++ (first ++ middle)) (retries + 1)
      retries → (do
        let report ← recordEffectFailure key.render true retries report
        return (false, report.cancel) : FallibleExecutor (Bool × ImportApplyReport)).run.Traces
          fun events result => EffectSettled platform members key config report
            (past ++ (first ++ (middle ++ events))) result := by
    intro middle segment
    rw [Program.traces_exceptT_bind]
    refine (recordEffectFailure_rule segment true retries report).mono fun events result row => ?_
    simp only [List.append_assoc] at row
    cases result with
    | error error => exact ⟨retries, below, row.1, by simp⟩
    | ok after =>
        refine ⟨retries, below, by simpa using row.1, ?_⟩
        rintro proceed final ⟨⟩
        rw [row.2 after rfl]
        exact ⟨((tally_fail report true retries).1.trans (tally_cancel _)), fun _ => rfl⟩
  cases answer with
  | ok nothing =>
      simp only [Program.bind_eq]
      rw [Program.traces_bind]
      have row := append_return spent none retries completes
        (fun identity keyed _ => by
          obtain ⟨albumId, assetIds, member⟩ := confirmed rfl identity keyed
          exact ⟨albumId, assetIds, List.mem_append_right _ member⟩)
        (true, (count report).addRetries retries)
      refine row.mono fun events result reached => ?_
      refine ⟨retries, below, by simpa using reached.1, ?_⟩
      rintro proceed final rfl
      obtain ⟨rfl, rfl⟩ := Prod.mk.inj (reached.2 _ rfl).1
      exact ⟨counts.tally report retries, by simp⟩
  | error error =>
      simp only
      split
      · rw [Program.bind_eq, Program.traces_bind]
        refine (stopped [] (by simpa using spent)).mono fun events result reached => ?_
        simpa using reached
      · refine retry_rule platform members key error retries _ ?_ ?_ ?_
        · intro middle claimed next
          have whole := spent.append claimed
          refine ⟨⟨next, ?_⟩, by omega⟩
          simpa using whole
        · intro middle claimed
          rw [Program.bind_eq, Program.traces_bind]
          have whole := (spent.append claimed).mono le_rfl (Nat.le_succ _)
          refine (stopped middle (by simpa using whole)).mono fun events result reached => ?_
          simpa using reached
        · intro middle claimed
          rw [Program.bind_eq, Program.traces_bind, Program.traces_exceptT_bind]
          have whole := spent.append claimed
          refine (recordEffectFailure_rule whole (uncertain error) retries report).mono
            fun events result row => ?_
          cases result with
          | error error => exact ⟨retries, below, by simpa using row.1, by simp⟩
          | ok after =>
              refine ⟨retries, below, by simpa using row.1, ?_⟩
              rintro proceed final ⟨⟩
              rw [row.2 after rfl]
              exact ⟨(tally_fail report (uncertain error) retries).1, by simp⟩

theorem settleEffect_rule (positive : 1 ≤ config.maxAttemptsPerOperation)
    (requests : Requests platform members key request) (completes : .completed ∈ key.outcomes)
    (counts : Counts count) (report : ImportApplyReport) :
    (settleEffect platform config key.render request count report).run.Traces
      (EffectSettled platform members key config report) := by
  refine Program.loop_traces (EffectSettled platform members key config report)
    (fun retries past => retries < config.maxAttemptsPerOperation ∧
      Segment platform members key past retries retries)
    (fun retries => config.maxAttemptsPerOperation - retries) ?_
    (config.maxAttemptsPerOperation + 1) 0 [] (by omega) ⟨positive, segment_nil⟩
  rintro retries past ⟨below, segment⟩
  refine (effectAttempt_rule requests completes counts report below segment).mono
    fun events outcome reached => ?_
  cases outcome <;> exact reached

end

theorem requests_updateAssetMetadata (platform : Platform)
    (members : String → List String → Prop) (operationId assetId : String)
    (metadata : NormalizedMetadata) :
    Requests platform members (.metadata operationId)
      (updateAssetMetadata operationId assetId metadata) := by
  intro answer
  exact ⟨segment_request rfl rfl
    (justified_of_plain (fun _ => rfl) (fun _ _ _ same => by cases same) rfl), by simp⟩

theorem requests_addAlbumAssets (platform : Platform) {members : String → List String → Prop}
    {identity : String} (albumId : String) {assetIds : List String}
    (listed : members identity assetIds) :
    Requests platform members (.membership identity)
      (addAlbumAssets identity albumId assetIds) := by
  intro answer
  refine ⟨segment_request rfl rfl ⟨?_, ?_, ?_⟩, ?_⟩
  · intro _ creates
    cases creates
  · rintro _ _ _ ⟨⟩
    exact listed
  · intro row _ appends
    cases appends
  · rintro rfl _ ⟨⟩
    exact ⟨albumId, assetIds, List.mem_singleton_self _⟩

theorem counts_metadataUpdated : Counts fun report =>
    { report with metadataUpdated := report.metadataUpdated + 1 } where
  total report := by simp only [ImportApplyReport.total]; omega
  unsettled _ := rfl
  retried _ := rfl
  cancelled _ := rfl

theorem counts_albumMembershipsUpdated : Counts fun report =>
    { report with albumMembershipsUpdated := report.albumMembershipsUpdated + 1 } where
  total report := by simp only [ImportApplyReport.total]; omega
  unsettled _ := rfl
  retried _ := rfl
  cancelled _ := rfl

/-! ## Album convergence -/

section

variable (platform : Platform) (members : String → List String → Prop)
  (config : UploadExecutionConfig) (name : String)

/-- The album effect of a name. -/
abbrev albumEffect : EffectKey := .album (albumIdentity platform name)

theorem segment_findOwnedAlbums (answer : Except ClientError (List RemoteAlbum)) :
    Segment platform members (albumEffect platform name) [⟨.findOwnedAlbums name, answer⟩] 0 0 :=
  segment_request rfl rfl (justified_of_plain (fun _ => rfl) (fun _ _ _ same => by cases same) rfl)

/-- What a lookup leaves behind: no create, the retries which it used, and its last answer. -/
structure LookupSpent (retries : Nat) (events : List (Event Answer))
    (outcome : Except (EffectResult String) (List RemoteAlbum) × Nat) : Prop where
  segment : Segment platform members (albumEffect platform name) events 0 (outcome.2 - retries)
  later : retries ≤ outcome.2
  below : outcome.2 < config.maxAttemptsPerOperation
  found : ∀ albums, outcome.1 = .ok albums →
    ∃ front, events = front ++ [⟨.findOwnedAlbums name, .ok albums⟩]
  failure : ∀ result, outcome.1 = .error result → result.retries = outcome.2 ∧
    ∀ album kind retries, result ≠ .done album kind retries

theorem lookupAttempt_spent {retries now : Nat} {past : List (Event Answer)}
    (later : retries ≤ now) (below : now < config.maxAttemptsPerOperation)
    (segment : Segment platform members (albumEffect platform name) past 0 (now - retries)) :
    (lookupAttempt platform config name now).Traces fun events outcome => match outcome with
      | .inl next => next = now + 1 ∧ next < config.maxAttemptsPerOperation ∧
          Segment platform members (albumEffect platform name) (past ++ events) 0 (next - retries)
      | .inr result => LookupSpent platform members config name retries (past ++ events) result := by
  rintro (error | albums)
  · have asked := segment_findOwnedAlbums platform members name (.error error)
    have whole := segment.append asked
    have given : ∀ (events : List (Event Answer)) (claims : Nat) (result : EffectResult String),
        Segment platform members (albumEffect platform name) events 0 claims →
        (result.retries = now ∧ ∀ album kind retries, result ≠ .done album kind retries) →
          LookupSpent platform members config name retries
            (past ++ ([⟨.findOwnedAlbums name, .error error⟩] ++ events)) (.error result, now) := by
      intro events claims result more count
      refine ⟨?_, later, below, by simp, ?_⟩
      · have sum := (whole.append more).mono le_rfl (Nat.le_add_right _ claims)
        simpa using sum
      · rintro _ ⟨⟩
        exact count
    simp only [Program.bind_done]
    split
    · have ended := given [] 0 (.cancelled false now) segment_nil (by simp [EffectResult.retries])
      simpa using ended
    · refine retry_rule platform members (albumEffect platform name) error now _ ?_ ?_ ?_
      · intro first claimed next
        refine ⟨rfl, next, ?_⟩
        have sum := whole.append claimed
        have count : now - retries + 0 + 1 = now + 1 - retries := by omega
        rw [count] at sum
        simpa using sum
      · intro first claimed
        have ended := given (first ++ []) 1 (.cancelled false now) (by simpa using claimed)
          (by simp [EffectResult.retries])
        simpa using ended
      · intro first claimed
        have ended := given (first ++ []) 0 (.failed false now) (by simpa using claimed)
          (by simp [EffectResult.retries])
        simpa using ended
  · refine ⟨segment.append (segment_findOwnedAlbums platform members name (.ok albums)), later,
      below, ?_, by simp⟩
    rintro _ ⟨⟩
    exact ⟨past, rfl⟩

theorem lookupAlbums_spent {retries : Nat} (below : retries < config.maxAttemptsPerOperation) :
    (lookupAlbums platform config name retries).Traces
      (LookupSpent platform members config name retries) := by
  refine Program.loop_traces (LookupSpent platform members config name retries)
    (fun now past => retries ≤ now ∧ now < config.maxAttemptsPerOperation ∧
      Segment platform members (albumEffect platform name) past 0 (now - retries))
    (fun now => config.maxAttemptsPerOperation - now) ?_ (config.maxAttemptsPerOperation + 1)
    retries [] (by omega) ⟨le_rfl, below, by simpa using segment_nil⟩
  rintro now past ⟨later, below, segment⟩
  refine (lookupAttempt_spent platform members config name later below segment).mono
    fun events outcome reached => ?_
  cases outcome with
  | inl next =>
      obtain ⟨rfl, next, more⟩ := reached
      exact ⟨⟨by omega, next, more⟩, by omega⟩
  | inr result => exact reached

/-- What converging an album leaves behind. -/
def ConvergeSpent (events : List (Event Answer)) (result : EffectResult String) : Prop :=
  result.retries < config.maxAttemptsPerOperation ∧
    Segment platform members (albumEffect platform name) events (result.retries + 1)
      result.retries ∧
    ∀ album outcome retries, result = .done album outcome retries →
      outcome = .created ∨ outcome = .reused

variable {platform members config name}

/-- Segments without mutations create no album. -/
theorem Segment.quiet {key : EffectKey} {events : List (Event Answer)} {claims : Nat}
    (segment : Segment platform members key events 0 claims) :
    ∀ event ∈ events, ∀ other, createsAlbum other event = false := by
  intro event member other
  have calm := List.countP_eq_zero.mp (Nat.le_zero.mp segment.mutations) event member
  obtain ⟨call, answer⟩ := event
  cases call <;> first
    | rfl
    | exact absurd rfl calm

theorem observedAlbums_some {retries start : Nat} {events : List (Event Answer)}
    {observed : Except (EffectResult String) (List RemoteAlbum)} {result : EffectResult String}
    (spent : LookupSpent platform members config name start events (observed, retries))
    (decided : observedAlbums retries observed = some result) :
    result.retries = retries ∧ ∀ album outcome count, result = .done album outcome count →
      outcome = .created ∨ outcome = .reused := by
  have failure := spent.failure
  match observed with
  | .ok [] => cases decided
  | .ok [album] =>
      cases decided
      refine ⟨rfl, ?_⟩
      rintro _ _ _ ⟨⟩
      exact .inl rfl
  | .ok (first :: second :: rest) =>
      cases decided
      exact ⟨rfl, by simp⟩
  | .error (.cancelled seen count) =>
      cases decided
      exact ⟨(failure (.cancelled seen count) rfl).1, by simp⟩
  | .error (.failed seen count) =>
      cases decided
      exact ⟨(failure (.failed seen count) rfl).1, by simp⟩
  | .error (.done _ _ _) =>
      cases decided
      exact ⟨rfl, by simp⟩

theorem observedAlbums_none {retries : Nat}
    {observed : Except (EffectResult String) (List RemoteAlbum)}
    (undecided : observedAlbums retries observed = none) : observed = .ok [] := by
  match observed with
  | .ok [] => rfl
  | .ok [_] => cases undecided
  | .ok (_ :: _ :: _) => cases undecided
  | .error (.cancelled _ _) => cases undecided
  | .error (.failed _ _) => cases undecided
  | .error (.done _ _ _) => cases undecided

/-- One create after a lookup which found no album. -/
theorem createAttempt_spent {retries : Nat} {past : List (Event Answer)}
    (below : retries < config.maxAttemptsPerOperation)
    (segment : Segment platform members (albumEffect platform name) past retries retries)
    (ready : Ready name past) :
    (createAttempt platform config name retries).Traces fun events outcome => match outcome with
      | .inl next => retries < next ∧ next < config.maxAttemptsPerOperation ∧
          Segment platform members (albumEffect platform name) (past ++ events) next next ∧
          Ready name (past ++ events)
      | .inr result => ConvergeSpent platform members config name (past ++ events) result := by
  have created : ∀ answer : Except ClientError RemoteAlbum,
      Segment platform members (albumEffect platform name)
        (past ++ [⟨.createAlbum name, answer⟩]) (retries + 1) retries := by
    intro answer
    refine segment.concat (fun other found => (Option.some.inj found).symm) rfl ⟨?_, ?_, ?_⟩
    · intro other creates
      rw [← eq_of_beq creates]
      exact ready
    · intro _ _ _ same
      cases same
    · intro _ _ appends
      cases appends
  rintro (error | album)
  · simp only [Program.bind_done]
    split
    · exact ⟨below, created _, by simp⟩
    · split
      · rw [Program.bind_eq, Program.traces_bind]
        refine (lookupAlbums_spent platform members config name below).mono
          fun events outcome spent => ?_
        obtain ⟨observed, now⟩ := outcome
        have later := spent.later
        have sum := (created (.error error)).append spent.segment
        have whole : Segment platform members (albumEffect platform name)
            (past ++ ([⟨.createAlbum name, .error error⟩] ++ events)) (retries + 1) now := by
          have count : retries + (now - retries) = now := by omega
          rw [count] at sum
          simpa using sum
        simp only
        split
        case h_1 result decided =>
            obtain ⟨count, outcome⟩ := observedAlbums_some spent decided
            refine ⟨by rw [count]; exact spent.below, ?_, outcome⟩
            rw [count]
            simpa using whole.mono (by omega) le_rfl
        case h_2 undecided =>
            obtain ⟨front, split⟩ := spent.found [] (observedAlbums_none undecided)
            have again : Ready name (past ++ ([⟨.createAlbum name, .error error⟩] ++ events)) := by
              refine ⟨past ++ ([⟨.createAlbum name, .error error⟩] ++ front), [], ?_, by simp⟩
              rw [split]
              simp
            have stopped : ∀ first claims,
                Segment platform members (albumEffect platform name) first 0 claims →
                (do if ← isCancelled then return .inr (.cancelled true now)
                    else return .inr (.failed (uncertain error) now) :
                      Executor (Nat ⊕ EffectResult String)).Traces fun last outcome =>
                  match outcome with
                  | .inl _ => False
                  | .inr result => ConvergeSpent platform members config name
                      (past ++ (⟨.createAlbum name, .error error⟩ :: (events ++ (first ++ last))))
                      result := by
              intro first claims more answer
              have asked : Segment platform members (albumEffect platform name)
                  [⟨.isCancelled, answer⟩] 0 0 := segment_plain rfl
              have all : Segment platform members (albumEffect platform name)
                  (past ++ ([⟨.createAlbum name, .error error⟩] ++ events) ++ first ++
                    [⟨.isCancelled, answer⟩]) (now + 1) now :=
                ((whole.append more).append asked).mono (by omega) (by omega)
              simp only [List.append_assoc, List.cons_append, List.nil_append] at all
              cases answer <;> exact ⟨spent.below, all, by simp⟩
            refine retry_rule platform members (albumEffect platform name) error now _ ?_ ?_ ?_
            · intro first claimed next
              refine ⟨by omega, next, ?_, ?_⟩
              · have all := (whole.append claimed).mono (Nat.add_le_add_right later 1) le_rfl
                simpa using all
              · have still := again.append fun event member => claimed.quiet event member name
                simpa using still
            · intro first claimed
              refine (stopped first 1 claimed).mono fun last outcome reached => ?_
              cases outcome with
              | inl next => exact reached.elim
              | inr result => exact reached
            · intro first claimed
              refine (stopped first 0 claimed).mono fun last outcome reached => ?_
              cases outcome with
              | inl next => exact reached.elim
              | inr result => exact reached
      · exact ⟨below, created _, by simp⟩
  · refine ⟨below, created _, ?_⟩
    rintro _ _ _ ⟨⟩
    exact .inl rfl

theorem convergeAlbum_spent (positive : 1 ≤ config.maxAttemptsPerOperation) :
    (convergeAlbum platform config name).Traces
      (ConvergeSpent platform members config name) := by
  rw [convergeAlbum, Program.bind_eq, Program.traces_bind]
  refine (lookupAlbums_spent platform members config name positive).mono
    fun first outcome spent => ?_
  obtain ⟨observed, now⟩ := outcome
  have segment : Segment platform members (albumEffect platform name) first 0 now :=
    spent.segment
  have below : now < config.maxAttemptsPerOperation := spent.below
  have ended : ∀ result : EffectResult String, result.retries = now →
      (∀ album kind retries, result = .done album kind retries →
        kind = .created ∨ kind = .reused) →
      ConvergeSpent platform members config name (first ++ []) result := by
    intro result count kinds
    refine ⟨count.trans_lt below, ?_, kinds⟩
    rw [count, List.append_nil]
    exact segment.mono (Nat.zero_le _) le_rfl
  match observed with
  | .error result =>
      obtain ⟨count, failure⟩ := spent.failure result rfl
      exact ended result count fun album kind retries same => absurd same (failure _ _ _)
  | .ok [album] =>
      refine ended (.done album.id .reused now) rfl ?_
      rintro _ _ _ ⟨⟩
      exact .inr rfl
  | .ok (_ :: _ :: _) => exact ended (.failed false now) rfl (by simp)
  | .ok [] =>
      obtain ⟨front, split⟩ := spent.found [] rfl
      have ready : Ready name first := ⟨front, [], split, by simp⟩
      refine Program.loop_traces (ConvergeSpent platform members config name)
        (fun retries past => retries < config.maxAttemptsPerOperation ∧
          Segment platform members (albumEffect platform name) past retries retries ∧
          Ready name past)
        (fun retries => config.maxAttemptsPerOperation - retries) ?_
        (config.maxAttemptsPerOperation + 1) now first (by omega)
        ⟨below, segment.mono (Nat.zero_le _) le_rfl, ready⟩
      rintro retries past ⟨below, segment, ready⟩
      refine (createAttempt_spent below segment ready).mono fun events outcome reached => ?_
      cases outcome with
      | inl next =>
          obtain ⟨later, next, more, again⟩ := reached
          exact ⟨⟨next, more, again⟩, by omega⟩
      | inr result => exact reached

end

end ImmichRs
