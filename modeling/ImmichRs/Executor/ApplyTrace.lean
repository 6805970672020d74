import ImmichRs.Executor.AccountingRun
import ImmichRs.Interaction.History

/-!
# What a folder apply requests and records

A group sends requests for those of its members which the journal did not report as completed, and
uploads an image with the asset id which the journal or the server gave for the video of its group.
Only the main loop writes rows, at most one for each pending member of a finished group.
-/

namespace ImmichRs

open Interaction
open Std (ExtTreeMap)

/-! ## Events -/

/-- The operation on whose behalf an event sends a request. -/
def requestedOperation : Event Answer → Option String
  | ⟨.duplicateCheck operationId _, _⟩ => some operationId
  | ⟨.upload request, _⟩ => some request.operationId
  | _ => none

/-- The row which an event tries to append. -/
def attemptedEvent : Event Answer → Option JournalEvent
  | ⟨.appendEvent row, _⟩ => some row
  | _ => none

/-- The server names the asset of an operation: a duplicate answer or a finished upload. -/
def Gives (operationId assetId : String) : Event Answer → Prop
  | ⟨.duplicateCheck id _, answer⟩ =>
      id = operationId ∧ (answer : Except ClientError DuplicateCheck) = .ok (.duplicate assetId)
  | ⟨.upload request, answer⟩ =>
      request.operationId = operationId ∧
        ∃ status, (answer : Except ClientError (UploadResult × String)) = .ok (status, assetId)
  | _ => False

/-- An event which sends no request and stores no row. -/
def SilentEvent (event : Event Answer) : Prop :=
  requestedOperation event = none ∧ attemptedEvent event = none

/-- A call which is neutral whatever its answer is neither sends a request nor stores a row. -/
theorem silent_of_neutral {call : Call} (answer : Answer call)
    (neutral : ∀ answer, NeutralEvent ⟨call, answer⟩) : SilentEvent ⟨call, answer⟩ := by
  cases call with
  | duplicateCheck operationId sha1Base64 =>
      have settled := (neutral (.ok (.duplicate "")) operationId).1
      simp [settles] at settled
  | upload request =>
      have settled := (neutral (.ok (.created, "")) request.operationId).1
      simp [settles] at settled
  | appendEvent row =>
      have stored := (neutral (.ok ()) row.operationId).2
      simp [journals] at stored
  | _ => exact ⟨rfl, rfl⟩

/-- A program which is neutral whatever the answers are is silent, even when it is cut off. -/
theorem silent_of_traces {α World : Type} {environment : Environment Answer World}
    {program final : Executor α} {before after : World} {events : List (Event Answer)}
    (execution : Execution environment program before events final after)
    (neutral : program.Traces fun events _ => Neutral events) :
    ∀ event ∈ events, SilentEvent event := by
  induction execution with
  | refl => simp
  | @head call next answer _ _ _ _ _ _ _ induction =>
      have each : ∀ answer, NeutralEvent ⟨call, answer⟩ := by
        intro answer operationId
        have start : Execution arbitrary (next answer) () [] (next answer) () := .refl _ _
        obtain ⟨rest, _, quiet, _⟩ := start.traces_extend refuse (neutral answer)
        have counts := quiet operationId
        simp only [List.countP_cons] at counts
        constructor <;> rw [← Bool.not_eq_true] <;> intro holds <;> simp [holds] at counts
      refine List.forall_mem_cons.mpr ⟨silent_of_neutral answer each, induction ?_⟩
      refine (neutral answer).mono fun events _ quiet operationId => ?_
      have counts := quiet operationId
      simp only [List.countP_cons] at counts
      omega

/-! ## One operation -/

/-- Events on behalf of one operation, whose uploads carry the given video. -/
structure Sends (operation : UploadOperation) (livePhotoVideoId : Option String)
    (event : Event Answer) : Prop where
  request : ∀ operationId, requestedOperation event = some operationId →
    operationId = operation.operationId
  video : ∀ request, event.1 = .upload request → request.livePhotoVideoId = livePhotoVideoId
  silent : attemptedEvent event = none

/-- The outcome which a result carries. -/
def OperationResult.outcome : OperationResult → Option OperationOutcome
  | .completed outcome => some outcome
  | .cancelled outcome => outcome

/-- A result reports on the operation, and only an asset which an event gives. -/
structure Reports (operation : UploadOperation) (events : List (Event Answer))
    (outcome : OperationOutcome) : Prop where
  same : outcome.operationId = operation.operationId
  given : ∀ assetId, outcome.assetId = some assetId →
    ∃ event ∈ events, Gives operation.operationId assetId event

theorem reports_failed (operation : UploadOperation) (retries : Nat)
    (events : List (Event Answer)) : Reports operation events (failed operation retries) :=
  ⟨rfl, fun _ found => by cases found⟩

theorem reports_indeterminate (operation : UploadOperation) (retries : Nat)
    (events : List (Event Answer)) : Reports operation events (indeterminate operation retries) :=
  ⟨rfl, fun _ found => by cases found⟩

/-- The last event gives the asset of a success. -/
theorem reports_successful {operation : UploadOperation} {kind : OutcomeKind} {assetId : String}
    {event : Event Answer} (past : List (Event Answer)) (retries : Nat)
    (gives : Gives operation.operationId assetId event) :
    Reports operation (past ++ [event]) (successful operation kind assetId retries) := by
  refine ⟨rfl, fun other found => ⟨event, List.mem_append_right _ List.mem_cons_self, ?_⟩⟩
  obtain rfl := Option.some.inj found
  exact gives

section

variable (platform : Platform) (config : UploadExecutionConfig) (operation : UploadOperation)
  (source : VerifiedAsset) (livePhotoVideoId : Option String)

/-- A program which works for one operation and ends in `post`. -/
def WorksFor {α : Type} (program : Executor α) (past : List (Event Answer))
    (post : α → List (Event Answer) → Prop) : Prop :=
  program.Ensures recording (fun _ event _ => Sends operation livePhotoVideoId event) past post

variable {operation source livePhotoVideoId}

theorem sends_duplicateCheck (sha1Base64 : String)
    (answer : Answer (.duplicateCheck operation.operationId sha1Base64)) :
    Sends operation livePhotoVideoId ⟨.duplicateCheck operation.operationId sha1Base64, answer⟩ :=
  ⟨fun _ same => (Option.some.inj same).symm, nofun, rfl⟩

theorem sends_upload (answer : Answer (.upload (uploadRequest operation source livePhotoVideoId))) :
    Sends operation livePhotoVideoId
      ⟨.upload (uploadRequest operation source livePhotoVideoId), answer⟩ := by
  refine ⟨fun _ same => (Option.some.inj same).symm, fun request same => ?_, rfl⟩
  rw [← Call.upload.inj same]
  rfl

/-- Calls on the run itself concern every operation. -/
theorem sends_local {event : Event Answer} (silent : SilentEvent event)
    (other : ∀ request, event.1 ≠ .upload request) : Sends operation livePhotoVideoId event := by
  refine ⟨fun _ requested => ?_, fun request same => absurd same (other request), silent.2⟩
  rw [silent.1] at requested
  cases requested

theorem retryAllowed_works (error : ClientError) (retries : Nat) (past : List (Event Answer)) :
    WorksFor operation livePhotoVideoId (retryAllowed config error retries) past
      fun granted _ => granted = true → retries + 1 < config.maxAttemptsPerOperation := by
  unfold retryAllowed
  split
  case isTrue admitted =>
      simp only [Bool.and_eq_true, decide_eq_true_eq] at admitted
      rintro answer _ rfl
      exact ⟨sends_local ⟨rfl, rfl⟩ nofun, fun _ => admitted.2⟩
  case isFalse refused =>
      rintro ⟨⟩

theorem reconcileUncertain_works (retries : Nat) (past : List (Event Answer)) :
    WorksFor operation livePhotoVideoId (reconcileUncertain operation source retries) past
      fun result after => ∀ outcome, result.outcome = some outcome →
        Reports operation after outcome := by
  have undecided : ∀ past, WorksFor operation livePhotoVideoId
      (do if ← isCancelled then
            return OperationResult.cancelled (some (indeterminate operation retries))
          else return .completed (indeterminate operation retries)) past
      fun result after => ∀ outcome, result.outcome = some outcome →
        Reports operation after outcome := by
    rintro past (_ | _) _ rfl
    · refine ⟨sends_local ⟨rfl, rfl⟩ nofun, ?_⟩
      rintro _ ⟨⟩
      exact reports_indeterminate operation retries _
    · refine ⟨sends_local ⟨rfl, rfl⟩ nofun, ?_⟩
      rintro _ ⟨⟩
      exact reports_indeterminate operation retries _
  rintro (error | check) _ rfl
  · exact ⟨sends_duplicateCheck _ _, undecided _⟩
  · refine ⟨sends_duplicateCheck _ _, ?_⟩
    cases check with
    | accept => exact undecided _
    | duplicate assetId =>
        rintro _ ⟨⟩
        exact reports_successful past retries ⟨rfl, rfl⟩

/-- What one iteration leaves behind. -/
def AttemptReports (config : UploadExecutionConfig) (operation : UploadOperation)
    (retries : Nat) : Nat ⊕ OperationResult → List (Event Answer) → Prop
  | .inl next, _ => next = retries + 1 ∧ next < config.maxAttemptsPerOperation
  | .inr result, after => ∀ outcome, result.outcome = some outcome →
      Reports operation after outcome

theorem retry_works (error : ClientError) (retries delay : Nat) {cancelled : OperationResult}
    {otherwise : Executor (Nat ⊕ OperationResult)} {past : List (Event Answer)}
    (stopped : ∀ after outcome, cancelled.outcome = some outcome →
      Reports operation after outcome)
    (refused : ∀ past, WorksFor operation livePhotoVideoId otherwise past
      (AttemptReports config operation retries)) :
    WorksFor operation livePhotoVideoId
      ((retryAllowed config error retries).bind fun granted =>
        if granted then
          (wait delay).bind fun waited =>
            if waited then .done (.inl (retries + 1)) else .done (.inr cancelled)
        else otherwise) past (AttemptReports config operation retries) := by
  rw [WorksFor, Program.ensures_bind]
  refine (retryAllowed_works config error retries past).post fun granted after claimed => ?_
  cases granted with
  | true =>
      rintro (_ | _) _ rfl
      · exact ⟨sends_local ⟨rfl, rfl⟩ nofun, stopped _⟩
      · exact ⟨sends_local ⟨rfl, rfl⟩ nofun, rfl, claimed rfl⟩
  | false => exact refused after

theorem uploadAttempt_works (retries : Nat) (past : List (Event Answer)) :
    WorksFor operation livePhotoVideoId
      (uploadAttempt platform config operation source livePhotoVideoId retries) past
      (AttemptReports config operation retries) := by
  rintro (error | response) _ rfl
  · refine ⟨sends_upload _, ?_⟩
    simp only [Program.bind_done]
    split
    · rintro _ ⟨⟩
      exact reports_indeterminate operation retries _
    · refine retry_works config error retries _ ?_ fun past => ?_
      · rintro after _ ⟨⟩
        exact reports_indeterminate operation retries after
      · split
        · rw [WorksFor, Program.bind_eq, Program.ensures_bind]
          exact reconcileUncertain_works retries past
        · rintro _ ⟨⟩
          exact reports_failed operation retries past
  · refine ⟨sends_upload _, ?_⟩
    rintro _ ⟨⟩
    exact reports_successful past retries ⟨rfl, response.1, rfl⟩

theorem attempt_works (retries : Nat) (past : List (Event Answer)) :
    WorksFor operation livePhotoVideoId
      (attempt platform config operation source livePhotoVideoId retries) past
      (AttemptReports config operation retries) := by
  rintro (error | check) _ rfl
  · refine ⟨sends_duplicateCheck _ _, ?_⟩
    simp only [Program.bind_done]
    split
    · rintro _ ⟨⟩
    · refine retry_works config error retries _ ?_ fun past => ?_
      · rintro after _ ⟨⟩
      · rintro _ ⟨⟩
        exact reports_failed operation retries past
  · refine ⟨sends_duplicateCheck _ _, ?_⟩
    cases check with
    | accept => exact uploadAttempt_works platform config retries _
    | duplicate assetId =>
        rintro _ ⟨⟩
        exact reports_successful past retries ⟨rfl, rfl⟩

/-- Every request of `apply` is for its operation, and its outcome reports an asset which the
server gave to the operation. -/
theorem applyOperation_works (past : List (Event Answer)) :
    WorksFor operation livePhotoVideoId
      (applyOperation platform config operation source livePhotoVideoId) past
      fun result after => ∀ outcome, result.outcome = some outcome →
        Reports operation after outcome := by
  apply Program.loop_ensures (fun _ _ => True)
    (fun retries => config.maxAttemptsPerOperation - retries)
  · intro retries world _
    refine (attempt_works platform config retries world).post fun outcome after reached => ?_
    cases outcome with
    | inl next =>
        obtain ⟨rfl, below⟩ := reached
        exact ⟨trivial, by omega⟩
    | inr result => exact reached
  · omega
  · trivial

end

/-! ## Groups -/

/-- The members of a group which the journal did not report as completed. -/
def pendingIds (completed : ExtTreeMap String String) (group : List UploadOperation) :
    List String :=
  (group.filter fun operation => !completed.contains operation.operationId).map
    UploadOperation.operationId

/-- The asset of an operation is known from the journal, or from an answer of the server. -/
def Known (completed : ExtTreeMap String String) (past : List (Event Answer))
    (operationId assetId : String) : Prop :=
  completed[operationId]? = some assetId ∨ ∃ event ∈ past, Gives operationId assetId event

theorem Known.mono {completed : ExtTreeMap String String} {past later : List (Event Answer)}
    {operationId assetId : String} (known : Known completed past operationId assetId)
    (more : past ⊆ later) : Known completed later operationId assetId :=
  known.imp_right fun ⟨event, member, gives⟩ => ⟨event, more member, gives⟩

/-- An upload carries the asset of some video among the given operations. -/
def CarriesVideo (completed : ExtTreeMap String String) (group : List UploadOperation)
    (past : List (Event Answer)) (livePhotoVideoId : Option String) : Prop :=
  ∃ video ∈ group, video.role.isLivePhotoVideo = true ∧
    ∃ assetId, livePhotoVideoId = some assetId ∧ Known completed past video.operationId assetId

theorem CarriesVideo.mono {completed : ExtTreeMap String String} {group : List UploadOperation}
    {past later : List (Event Answer)} {livePhotoVideoId : Option String}
    (carries : CarriesVideo completed group past livePhotoVideoId) (more : past ⊆ later) :
    CarriesVideo completed group later livePhotoVideoId := by
  obtain ⟨video, member, role, assetId, same, known⟩ := carries
  exact ⟨video, member, role, assetId, same, known.mono more⟩

/-- What a group may do after given events. -/
structure GroupRule (completed : ExtTreeMap String String) (group : List UploadOperation)
    (past : List (Event Answer)) (event : Event Answer) : Prop where
  request : ∀ operationId, requestedOperation event = some operationId →
    operationId ∈ pendingIds completed group
  video : ∀ request, event.1 = .upload request → ∀ image ∈ group,
    image.operationId = request.operationId → image.role.isLivePhotoImage = true →
      CarriesVideo completed group past request.livePhotoVideoId
  silent : attemptedEvent event = none

/-- Silent events are allowed anywhere. -/
theorem groupRule_silent {completed : ExtTreeMap String String} {group : List UploadOperation}
    {past : List (Event Answer)} {event : Event Answer} (silent : SilentEvent event) :
    GroupRule completed group past event := by
  refine ⟨fun _ requested => ?_, fun request same => ?_, silent.2⟩
  · rw [silent.1] at requested
    cases requested
  · obtain ⟨call, answer⟩ := event
    cases same
    have requested := silent.1
    cases requested

theorem pendingIds_completed {completed : ExtTreeMap String String} {operation : UploadOperation}
    (rest : List UploadOperation) {assetId : String}
    (done : completed[operation.operationId]? = some assetId) :
    pendingIds completed (operation :: rest) = pendingIds completed rest := by
  have known : completed.contains operation.operationId = true := by
    rw [ExtTreeMap.contains_eq_isSome_getElem?, done]
    rfl
  rw [pendingIds, List.filter_cons_of_neg (by simp [known]), pendingIds]

theorem pendingIds_pending {completed : ExtTreeMap String String} {operation : UploadOperation}
    (rest : List UploadOperation) (pending : completed[operation.operationId]? = none) :
    pendingIds completed (operation :: rest) =
      operation.operationId :: pendingIds completed rest := by
  have unknown : completed.contains operation.operationId = false := by
    rw [ExtTreeMap.contains_eq_isSome_getElem?, pending]
    rfl
  rw [pendingIds, List.filter_cons_of_pos (by simp [unknown]), List.map_cons, pendingIds]

/-- The requests for a pending member are allowed when an image carries a video. -/
theorem groupRule_sends {completed : ExtTreeMap String String} {group : List UploadOperation}
    (distinct : (group.map UploadOperation.operationId).Nodup) {operation : UploadOperation}
    (member : operation ∈ group) (pending : completed[operation.operationId]? = none)
    {videoAssetId : Option String} {past before : List (Event Answer)} {event : Event Answer}
    (carried : operation.role.isLivePhotoImage = true →
      CarriesVideo completed group past videoAssetId)
    (sends : past <+: before ∧ Sends operation videoAssetId event) :
    GroupRule completed group before event := by
  obtain ⟨later, sends⟩ := sends
  refine ⟨fun operationId requested => ?_, fun request same image inside names role => ?_,
    sends.silent⟩
  · rw [sends.request operationId requested]
    refine List.mem_map.mpr ⟨operation, List.mem_filter.mpr ⟨member, ?_⟩, rfl⟩
    rw [ExtTreeMap.contains_eq_isSome_getElem?, pending]
    rfl
  · have own : request.operationId = operation.operationId := by
      refine sends.request _ ?_
      obtain ⟨call, answer⟩ := event
      cases same
      rfl
    obtain rfl := List.inj_on_of_nodup_map distinct inside member (names.trans own)
    rw [sends.video request same]
    exact (carried role).mono later.subset

/-- A group keeps its rule, and reports at most once on each of its pending members. -/
theorem applyGroupLoop_works (platform : Platform) (config : UploadExecutionConfig)
    (verified : ExtTreeMap String VerifiedAsset) (completed : ExtTreeMap String String)
    {group : List UploadOperation} (distinct : (group.map UploadOperation.operationId).Nodup)
    {rest : List UploadOperation} (inside : rest ⊆ group) (outcomes : List OperationOutcome)
    (videoAssetId : Option String) (past : List (Event Answer))
    (carried : videoAssetId.isSome = true → CarriesVideo completed group past videoAssetId) :
    (applyGroupLoop platform config verified completed rest outcomes videoAssetId).Ensures recording
      (fun before event _ => GroupRule completed group before event) past fun result _ =>
        (result.outcomes.map OperationOutcome.operationId).Sublist
          (outcomes.map OperationOutcome.operationId ++ pendingIds completed rest) := by
  induction rest generalizing outcomes videoAssetId past with
  | nil => exact List.sublist_append_left _ _
  | cons operation rest induction =>
      obtain ⟨member, tail⟩ := List.cons_subset.mp inside
      rintro (_ | _) _ rfl
      · refine ⟨groupRule_silent ⟨rfl, rfl⟩, ?_⟩
        have kept : videoAssetId.isSome = true → CarriesVideo completed group
            (past ++ [⟨.isCancelled, false⟩]) videoAssetId :=
          fun present => (carried present).mono (List.subset_append_left _ _)
        simp only [Program.bind_done, Bool.false_eq_true, if_false]
        split
        case h_1 assetId done =>
            rw [pendingIds_completed rest done]
            refine induction tail outcomes _ _ fun present => ?_
            split at present
            case isTrue video =>
                rw [if_pos video]
                exact ⟨operation, member, video, assetId, rfl, .inl done⟩
            case isFalse other =>
                rw [if_neg other]
                exact kept present
        case h_2 pending =>
            have reported : ∀ outcome : OperationOutcome,
                outcome.operationId = operation.operationId →
                (outcomes ++ [outcome]).map OperationOutcome.operationId ++
                    pendingIds completed rest =
                  outcomes.map OperationOutcome.operationId ++
                    pendingIds completed (operation :: rest) := by
              intro outcome same
              rw [pendingIds_pending rest pending, List.map_append, List.append_assoc, ← same]
              rfl
            split
            · rw [← reported (failed operation 0) rfl]
              exact induction tail _ _ _ kept
            · next ready =>
              split
              · rw [← reported (failed operation 0) rfl]
                exact induction tail _ _ _ kept
              · next source _ =>
                have image : operation.role.isLivePhotoImage = true →
                    CarriesVideo completed group (past ++ [⟨.isCancelled, false⟩])
                      videoAssetId := by
                  intro role
                  rw [role, Bool.true_and, Bool.not_eq_true, Option.isNone_eq_false_iff] at ready
                  exact kept ready
                rw [Program.bind_eq, Program.ensures_bind]
                have works : WorksFor operation videoAssetId
                    (applyOperation platform config operation source videoAssetId) _ _ :=
                  applyOperation_works platform config (past ++ [⟨.isCancelled, false⟩])
                refine Program.Ensures.mono works.recorded (fun before event after sends =>
                  groupRule_sends distinct member pending image sends) ?_
                rintro (outcome | outcome) after ⟨grown, reports⟩
                · have report := reports outcome rfl
                  simp only
                  split
                  · rw [← reported outcome report.same]
                    exact List.sublist_append_left _ _
                  · rw [← reported outcome report.same]
                    refine induction tail _ _ _ fun present => ?_
                    split at present
                    case isTrue video =>
                        obtain ⟨assetId, found⟩ := Option.isSome_iff_exists.mp present
                        rw [if_pos video]
                        exact ⟨operation, member, video, assetId, found,
                          .inr (report.given assetId found)⟩
                    case isFalse other =>
                        rw [if_neg other]
                        exact (kept present).mono grown.subset
                · cases outcome with
                  | none =>
                      simp only [Option.toList_none, List.append_nil]
                      exact List.sublist_append_left _ _
                  | some outcome =>
                      simp only [Option.toList_some]
                      rw [← reported outcome (reports outcome rfl).same]
                      exact List.sublist_append_left _ _
      · exact ⟨groupRule_silent ⟨rfl, rfl⟩, List.sublist_append_left _ _⟩

theorem pendingIds_append (completed : ExtTreeMap String String)
    (first second : List UploadOperation) :
    pendingIds completed (first ++ second) =
      pendingIds completed first ++ pendingIds completed second := by
  rw [pendingIds, List.filter_append, List.map_append, pendingIds, pendingIds]

/-- A local run of one group, finished or not. -/
theorem groupRun_works {platform : Platform} {config : UploadExecutionConfig}
    {verified : ExtTreeMap String VerifiedAsset} {completed : ExtTreeMap String String}
    {group : List UploadOperation} {run : LocalRun Answer GroupResult}
    (program : run.program = applyGroup platform config verified completed group)
    (distinct : (group.map UploadOperation.operationId).Nodup) :
    (∀ front event back, run.events = front ++ event :: back →
        GroupRule completed group front event) ∧
      (outcomeIds run.residual).Sublist (pendingIds completed group) := by
  have valid := run.valid
  rw [program] at valid
  obtain ⟨each, kept⟩ := valid.keeps (applyGroupLoop_works platform config verified completed
    distinct (List.Subset.refl _) [] none [] nofun)
  refine ⟨each, ?_⟩
  cases residual : run.residual with
  | request call next => exact List.nil_sublist _
  | done result =>
      rw [residual] at kept
      simpa [outcomeIds] using kept

/-- The local runs of all groups together. -/
theorem groupRuns_works {platform : Platform} {config : UploadExecutionConfig}
    {verified : ExtTreeMap String VerifiedAsset} {completed : ExtTreeMap String String}
    {groups : List (List UploadOperation)} {runs : List (LocalRun Answer GroupResult)}
    (programs : runs.map LocalRun.program =
      groups.map (applyGroup platform config verified completed))
    (distinct : (groups.flatten.map UploadOperation.operationId).Nodup) :
    (∀ run ∈ runs, ∃ group ∈ groups, ∀ front event back, run.events = front ++ event :: back →
        GroupRule completed group front event) ∧
      ((runs.map LocalRun.residual).flatMap outcomeIds).Sublist
        (pendingIds completed groups.flatten) := by
  induction groups generalizing runs with
  | nil =>
      rw [List.map_nil, List.map_eq_nil_iff] at programs
      rw [programs]
      exact ⟨by simp, List.nil_sublist _⟩
  | cons group groups induction =>
      obtain ⟨run, rest, rfl, program, tail⟩ := List.map_eq_cons_iff.mp programs
      rw [List.flatten_cons, List.map_append, List.nodup_append'] at distinct
      obtain ⟨keeps, reported⟩ := groupRun_works program distinct.1
      obtain ⟨others, ids⟩ := induction tail distinct.2.1
      rw [List.map_cons, List.flatMap_cons, List.flatten_cons, pendingIds_append]
      refine ⟨List.forall_mem_cons.mpr ⟨⟨group, List.mem_cons_self, keeps⟩, ?_⟩,
        reported.append ids⟩
      intro other member
      obtain ⟨found, inside, rule⟩ := others other member
      exact ⟨found, List.mem_cons_of_mem _ inside, rule⟩

/-! ## The main loop -/

/-- Rows which `Journal::append` accepts. -/
structure JournalEvent.Valid (row : JournalEvent) : Prop where
  named : row.operationId.isEmpty = false
  contract : assetContract row = true

/-- Events which record some of the given outcomes and request nothing. -/
structure Records (outcomes : List OperationOutcome) (events : List (Event Answer)) : Prop where
  calm : ∀ event ∈ events, requestedOperation event = none
  rows : (events.filterMap attemptedEvent).Sublist (outcomes.map OperationOutcome.event)
  valid : ∀ row ∈ events.filterMap attemptedEvent, row.Valid

theorem records_nil (outcomes : List OperationOutcome) : Records outcomes [] :=
  ⟨by simp, List.nil_sublist _, by simp⟩

theorem Records.append {left right : List OperationOutcome} {first second : List (Event Answer)}
    (head : Records left first) (tail : Records right second) :
    Records (left ++ right) (first ++ second) where
  calm event member := (List.mem_append.mp member).elim (head.calm event) (tail.calm event)
  rows := by
    rw [List.filterMap_append, List.map_append]
    exact head.rows.append tail.rows
  valid row member := by
    rw [List.filterMap_append, List.mem_append] at member
    exact member.elim (head.valid row) (tail.valid row)

theorem Records.of_append {outcomes : List OperationOutcome} {first second : List (Event Answer)}
    (records : Records outcomes (first ++ second)) : Records outcomes first where
  calm event member := records.calm event (List.mem_append_left _ member)
  rows := by
    have rows := records.rows
    rw [List.filterMap_append] at rows
    exact (List.sublist_append_left _ _).trans rows
  valid row member := by
    refine records.valid row ?_
    rw [List.filterMap_append]
    exact List.mem_append_left _ member

theorem journalOutcomes_records (report : ApplyReport) (outcomes : List OperationOutcome) :
    (journalOutcomes report outcomes).run.Traces fun events _ => Records outcomes events := by
  induction outcomes generalizing report with
  | nil => exact records_nil []
  | cons outcome rest induction =>
      rw [journalOutcomes, Program.traces_exceptT_bind, appendEvent]
      split
      case isTrue refused => exact records_nil _
      case isFalse accepted =>
          rw [Bool.or_eq_true, not_or, Bool.not_eq_true, Bool.not_eq_true',
            Bool.not_eq_false] at accepted
          have row : ∀ answer, Records [outcome] [⟨.appendEvent outcome.event, answer⟩] := by
            intro answer
            refine ⟨by simp [requestedOperation], List.Sublist.refl _, ?_⟩
            intro row member
            obtain rfl := List.mem_singleton.mp member
            exact ⟨accepted.1, accepted.2⟩
          rintro (error | ⟨⟩)
          · have stopped := (row (.error error)).append (records_nil rest)
            exact stopped
          · refine (induction (recordReport report outcome)).mono fun events result tail => ?_
            exact (row (.ok ())).append tail

/-- One iteration of the main loop, finished or not. -/
theorem takeGroup_records {World : Type} {environment : Environment Answer World}
    {report : ApplyReport} {value : GroupResult} {before after : World}
    {events : List (Event Answer)} {final : Executor (Except ExecutorError ApplyReport)}
    (execution : Execution environment (takeGroup report value) before events final after) :
    Records value.outcomes events := by
  obtain ⟨rest, _, whole, _⟩ := execution.traces_extend refuse
    (journalOutcomes_records { report with cancelled := report.cancelled || value.cancelled }
      value.outcomes)
  exact whole.of_append

theorem consumed_records {before after : ApplyReport} {values : List GroupResult}
    {events : List (Event Answer)} (consumed : Consumed takeGroup before values events after) :
    Records (values.flatMap GroupResult.outcomes) events := by
  induction consumed with
  | nil state => exact records_nil []
  | cons taken _ induction => exact (takeGroup_records taken).append induction

end ImmichRs
