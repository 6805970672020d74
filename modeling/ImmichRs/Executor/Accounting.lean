import ImmichRs.Executor.Apply

/-!
# Accounting of a folder apply

Which journal rows a finished run of `apply_upload` writes.  A group stops at a motion video which
ends without an asset id and leaves the pending image of the pair without an outcome, so a run
accounts for every operation exactly when each such video is answered with an asset.
-/

namespace ImmichRs

open Interaction
open Std (ExtTreeMap ExtTreeSet)

/-- Whether an event gives the asset id of an operation: a duplicate answer or a finished upload. -/
def settles (operationId : String) : Event Answer → Bool
  | ⟨.duplicateCheck id _, answer⟩ =>
      id == operationId && match (answer : Except ClientError DuplicateCheck) with
        | .ok (.duplicate _) => true
        | _ => false
  | ⟨.upload request, answer⟩ =>
      request.operationId == operationId &&
        match (answer : Except ClientError (UploadResult × String)) with
        | .ok _ => true
        | .error _ => false
  | _ => false

/-- Whether an event stores a journal row of an operation. -/
def journals (operationId : String) : Event Answer → Bool
  | ⟨.appendEvent event, answer⟩ =>
      event.operationId == operationId && match (answer : Except ExecutorError Unit) with
        | .ok () => true
        | .error _ => false
  | _ => false

/-- Events which give no asset id and store no row. -/
def Neutral (events : List (Event Answer)) : Prop :=
  ∀ operationId, events.countP (settles operationId) = 0 ∧
    events.countP (journals operationId) = 0

@[simp] theorem neutral_nil : Neutral [] := fun _ => ⟨rfl, rfl⟩

theorem Neutral.append {first second : List (Event Answer)} (left : Neutral first)
    (right : Neutral second) : Neutral (first ++ second) := by
  intro operationId
  rw [List.countP_append, List.countP_append, (left operationId).1, (left operationId).2,
    (right operationId).1, (right operationId).2]
  exact ⟨rfl, rfl⟩

/-- An event which gives no asset id and stores no row. -/
def NeutralEvent (event : Event Answer) : Prop :=
  ∀ operationId, settles operationId event = false ∧ journals operationId event = false

theorem Neutral.cons {event : Event Answer} {events : List (Event Answer)}
    (head : NeutralEvent event) (tail : Neutral events) : Neutral (event :: events) := by
  intro operationId
  simp [(head operationId).1, (head operationId).2, (tail operationId).1, (tail operationId).2]

/-- The events of one operation and the outcome which they justify. -/
structure OperationTrace (operation : UploadOperation) (events : List (Event Answer))
    (result : OperationResult) : Prop where
  silent : ∀ operationId, events.countP (journals operationId) = 0
  own : ∀ operationId, operationId ≠ operation.operationId →
    events.countP (settles operationId) = 0
  outcome : ∀ outcome, result = .completed outcome →
    outcome.operationId = operation.operationId ∧
      (outcome.assetId.isSome = true ↔ 0 < events.countP (settles operation.operationId))

theorem OperationTrace.prepend {operation : UploadOperation} {past events : List (Event Answer)}
    {result : OperationResult} (neutral : Neutral past)
    (trace : OperationTrace operation events result) :
    OperationTrace operation (past ++ events) result where
  silent operationId := by
    rw [List.countP_append, (neutral operationId).2, trace.silent]
  own operationId different := by
    rw [List.countP_append, (neutral operationId).1, trace.own operationId different]
  outcome outcome returned := by
    rw [List.countP_append, (neutral operation.operationId).1, Nat.zero_add]
    exact trace.outcome outcome returned

/-- Neutral events justify every result without an asset. -/
theorem OperationTrace.of_neutral {operation : UploadOperation} {events : List (Event Answer)}
    {result : OperationResult} (neutral : Neutral events)
    (outcome : ∀ outcome, result = .completed outcome →
      outcome.operationId = operation.operationId ∧ outcome.assetId = none) :
    OperationTrace operation events result where
  silent operationId := (neutral operationId).2
  own operationId _ := (neutral operationId).1
  outcome value returned := by
    obtain ⟨same, absent⟩ := outcome value returned
    rw [absent, (neutral operation.operationId).1]
    exact ⟨same, by simp⟩

theorem retryAllowed_traces (config : UploadExecutionConfig) (error : ClientError)
    (retries : Nat) :
    (retryAllowed config error retries).Traces fun events granted =>
      Neutral events ∧ (granted = true → retries + 1 < config.maxAttemptsPerOperation) := by
  unfold retryAllowed
  split
  case isTrue admitted =>
      simp only [Bool.and_eq_true, decide_eq_true_eq] at admitted
      intro answer
      exact ⟨Neutral.cons (fun _ => ⟨rfl, rfl⟩) neutral_nil, fun _ => admitted.2⟩
  case isFalse refused => exact ⟨neutral_nil, by simp⟩

/-- One settling event justifies an outcome with an asset. -/
theorem OperationTrace.of_settled {operation : UploadOperation} {event : Event Answer}
    {outcome : OperationOutcome} (silent : ∀ operationId, journals operationId event = false)
    (settled : ∀ operationId, settles operationId event = (operation.operationId == operationId))
    (same : outcome.operationId = operation.operationId)
    (present : outcome.assetId.isSome = true) :
    OperationTrace operation [event] (.completed outcome) where
  silent operationId := by simp [silent operationId]
  own operationId different := by simp [settled operationId, different.symm]
  outcome value returned := by
    cases returned
    simp [settled operation.operationId, same, present]

theorem neutralEvent_duplicateCheck_error (operationId sha1Base64 : String)
    (error : ClientError) :
    NeutralEvent ⟨.duplicateCheck operationId sha1Base64, .error error⟩ :=
  fun _ => ⟨Bool.and_false _, rfl⟩

theorem neutralEvent_duplicateCheck_accept (operationId sha1Base64 : String) :
    NeutralEvent ⟨.duplicateCheck operationId sha1Base64, .ok .accept⟩ :=
  fun _ => ⟨Bool.and_false _, rfl⟩

theorem neutralEvent_upload_error (request : UploadRequest) (error : ClientError) :
    NeutralEvent ⟨.upload request, .error error⟩ :=
  fun _ => ⟨Bool.and_false _, rfl⟩

/-- A duplicate answer settles its operation. -/
theorem operationTrace_duplicate (operation : UploadOperation) (sha1Base64 assetId : String)
    (retries : Nat) :
    OperationTrace operation
      [⟨.duplicateCheck operation.operationId sha1Base64, .ok (.duplicate assetId)⟩]
      (.completed (successful operation .duplicate assetId retries)) :=
  .of_settled (fun _ => rfl) (fun _ => Bool.and_true _) rfl rfl

/-- A finished upload settles its operation. -/
theorem operationTrace_upload (operation : UploadOperation) (source : VerifiedAsset)
    (livePhotoVideoId : Option String) (response : UploadResult × String) (retries : Nat) :
    OperationTrace operation
      [⟨.upload (uploadRequest operation source livePhotoVideoId), .ok response⟩]
      (.completed (successful operation response.1.outcomeKind response.2 retries)) :=
  .of_settled (fun _ => rfl) (fun _ => Bool.and_true _) rfl rfl

theorem reconcileUncertain_traces (operation : UploadOperation) (source : VerifiedAsset)
    (retries : Nat) :
    (reconcileUncertain operation source retries).Traces (OperationTrace operation) := by
  have undecided : ∀ event, NeutralEvent event → ∀ stopped : Bool,
      OperationTrace operation [event, ⟨.isCancelled, stopped⟩]
        (if stopped then .cancelled (some (indeterminate operation retries))
          else .completed (indeterminate operation retries)) := by
    intro event neutral stopped
    refine .of_neutral (.cons neutral (.cons (fun _ => ⟨rfl, rfl⟩) neutral_nil)) ?_
    cases stopped <;> rintro _ ⟨⟩
    exact ⟨rfl, rfl⟩
  rintro (error | check)
  · rintro (_ | _)
    · exact undecided _ (neutralEvent_duplicateCheck_error _ _ error) false
    · exact undecided _ (neutralEvent_duplicateCheck_error _ _ error) true
  · cases check with
    | accept =>
        rintro (_ | _)
        · exact undecided _ (neutralEvent_duplicateCheck_accept _ _) false
        · exact undecided _ (neutralEvent_duplicateCheck_accept _ _) true
    | duplicate assetId => exact operationTrace_duplicate operation _ assetId retries

section

variable (platform : Platform) (config : UploadExecutionConfig) (operation : UploadOperation)
  (source : VerifiedAsset) (livePhotoVideoId : Option String)

/-- What one iteration leaves behind: neutral events before a retry, or a justified result. -/
def AttemptTrace (retries : Nat) (events : List (Event Answer)) :
    Nat ⊕ OperationResult → Prop
  | .inl next => Neutral events ∧ next = retries + 1 ∧ next < config.maxAttemptsPerOperation
  | .inr result => OperationTrace operation events result

/-- A retry which has been asked for after neutral events. -/
theorem retry_traces {event : Event Answer} (neutral : NeutralEvent event) (error : ClientError)
    (retries delay : Nat) {cancelled : OperationResult}
    {otherwise : Executor (Nat ⊕ OperationResult)}
    (stopped : ∀ outcome, cancelled = .completed outcome →
      outcome.operationId = operation.operationId ∧ outcome.assetId = none)
    (refused : otherwise.Traces fun events result =>
      ∀ past, Neutral past → AttemptTrace config operation retries (past ++ events) result) :
    ((retryAllowed config error retries).bind fun granted =>
      if granted then
        (wait delay).bind fun waited =>
          if waited then .done (.inl (retries + 1)) else .done (.inr cancelled)
      else otherwise).Traces fun events result =>
        AttemptTrace config operation retries (event :: events) result := by
  rw [Program.traces_bind]
  refine (retryAllowed_traces config error retries).mono fun events granted claimed => ?_
  have asked : Neutral (event :: events) := .cons neutral claimed.1
  cases granted with
  | true =>
      have waited : ∀ answer : Bool, Neutral (event :: (events ++ [⟨.wait delay, answer⟩])) :=
        fun answer => .cons neutral (claimed.1.append (.cons (fun _ => ⟨rfl, rfl⟩) neutral_nil))
      rintro (_ | _)
      · exact .of_neutral (waited false) stopped
      · exact ⟨waited true, rfl, claimed.2 rfl⟩
  | false => exact refused.mono fun rest result justified => justified _ asked

theorem uploadAttempt_traces (retries : Nat) :
    (uploadAttempt platform config operation source livePhotoVideoId retries).Traces
      (AttemptTrace config operation retries) := by
  rintro (error | response)
  · have sent := neutralEvent_upload_error
      (uploadRequest operation source livePhotoVideoId) error
    simp only [Program.bind_done]
    split
    · refine .of_neutral (.cons sent neutral_nil) ?_
      rintro _ ⟨⟩
    · refine retry_traces config operation sent error retries _ (by rintro _ ⟨⟩) ?_
      split
      · rw [Program.bind_eq, Program.traces_bind]
        refine (reconcileUncertain_traces operation source retries).mono
          fun events result trace past neutral => ?_
        rw [List.append_nil]
        exact trace.prepend neutral
      · intro past neutral
        refine .of_neutral (by simpa using neutral) ?_
        rintro _ ⟨⟩
        exact ⟨rfl, rfl⟩
  · exact operationTrace_upload operation source livePhotoVideoId response retries

theorem attempt_traces (retries : Nat) :
    (attempt platform config operation source livePhotoVideoId retries).Traces
      (AttemptTrace config operation retries) := by
  rintro (error | check)
  · have refused := neutralEvent_duplicateCheck_error operation.operationId source.sha1Base64 error
    simp only [Program.bind_done]
    split
    · refine .of_neutral (.cons refused neutral_nil) ?_
      rintro _ ⟨⟩
    · refine retry_traces config operation refused error retries _ (by rintro _ ⟨⟩) ?_
      intro past neutral
      refine .of_neutral (by simpa using neutral) ?_
      rintro _ ⟨⟩
      exact ⟨rfl, rfl⟩
  · cases check with
    | duplicate assetId => exact operationTrace_duplicate operation _ assetId retries
    | accept =>
        have accepted := neutralEvent_duplicateCheck_accept operation.operationId
          source.sha1Base64
        refine (uploadAttempt_traces platform config operation source livePhotoVideoId
          retries).mono fun events outcome trace => ?_
        cases outcome with
        | inl next => exact ⟨.cons accepted trace.1, trace.2⟩
        | inr result => exact OperationTrace.prepend (.cons accepted neutral_nil) trace

/-- The events of `apply` justify its result, for every sequence of answers. -/
theorem applyOperation_traces :
    (applyOperation platform config operation source livePhotoVideoId).Traces
      (OperationTrace operation) := by
  refine Program.loop_traces (OperationTrace operation) (fun _ past => Neutral past)
    (fun retries => config.maxAttemptsPerOperation - retries) ?_
    (config.maxAttemptsPerOperation + 1) 0 [] (by omega) neutral_nil
  intro retries past neutral
  refine (attempt_traces platform config operation source livePhotoVideoId retries).mono
    fun events outcome trace => ?_
  cases outcome with
  | inl next =>
      obtain ⟨quiet, rfl, below⟩ := trace
      exact ⟨neutral.append quiet, by omega⟩
  | inr result => exact trace.prepend neutral

end

/-! ## Groups -/

/-- The operations of a group which get an outcome: those not completed, up to and including a
motion video which is left without an asset. -/
def accountedIds (completed : ExtTreeMap String String) (settled : String → Bool) :
    List UploadOperation → List String
  | [] => []
  | operation :: rest =>
      if completed.contains operation.operationId then
        accountedIds completed settled rest
      else
        operation.operationId ::
          if operation.role.isLivePhotoVideo && !settled operation.operationId then []
          else accountedIds completed settled rest

/-- Whether some event gives the asset id of an operation. -/
def settledIn (events : List (Event Answer)) (operationId : String) : Bool :=
  decide (0 < events.countP (settles operationId))

theorem accountedIds_congr {completed : ExtTreeMap String String} {first second : String → Bool}
    {group : List UploadOperation}
    (agree : ∀ operation ∈ group, first operation.operationId = second operation.operationId) :
    accountedIds completed first group = accountedIds completed second group := by
  induction group with
  | nil => rfl
  | cons operation rest induction =>
      have tail := induction fun other member => agree other (List.mem_cons_of_mem _ member)
      rw [accountedIds, accountedIds, agree operation List.mem_cons_self, tail]

/-- The events of one group and the outcomes which they justify. -/
structure GroupTrace (completed : ExtTreeMap String String) (group : List UploadOperation)
    (past : List OperationOutcome) (events : List (Event Answer)) (result : GroupResult) :
    Prop where
  silent : ∀ operationId, events.countP (journals operationId) = 0
  own : ∀ operationId, operationId ∉ group.map UploadOperation.operationId →
    events.countP (settles operationId) = 0
  outcomes : result.cancelled = false →
    result.outcomes.map OperationOutcome.operationId =
      past.map OperationOutcome.operationId ++ accountedIds completed (settledIn events) group

section

variable (platform : Platform) (config : UploadExecutionConfig)
  (verified : ExtTreeMap String VerifiedAsset) (completed : ExtTreeMap String String)

theorem Neutral.settledIn_append {past events : List (Event Answer)} (neutral : Neutral past) :
    settledIn (past ++ events) = settledIn events := by
  funext operationId
  rw [settledIn, List.countP_append, (neutral operationId).1, Nat.zero_add, settledIn]

theorem GroupTrace.prepend {group : List UploadOperation} {past : List OperationOutcome}
    {before events : List (Event Answer)} {result : GroupResult} (neutral : Neutral before)
    (trace : GroupTrace completed group past events result) :
    GroupTrace completed group past (before ++ events) result where
  silent operationId := by
    rw [List.countP_append, (neutral operationId).2, trace.silent]
  own operationId outside := by
    rw [List.countP_append, (neutral operationId).1, trace.own operationId outside]
  outcomes running := by
    rw [neutral.settledIn_append]
    exact trace.outcomes running

/-- A member which is skipped or has failed without a request adds no events. -/
theorem GroupTrace.skip {operation : UploadOperation} {rest : List UploadOperation}
    {past later : List OperationOutcome} {events : List (Event Answer)} {result : GroupResult}
    (trace : GroupTrace completed rest later events result)
    (accounted : later.map OperationOutcome.operationId ++
        accountedIds completed (settledIn events) rest =
      past.map OperationOutcome.operationId ++
        accountedIds completed (settledIn events) (operation :: rest)) :
    GroupTrace completed (operation :: rest) past events result where
  silent := trace.silent
  own operationId outside := by
    refine trace.own operationId fun member => outside ?_
    rw [List.map_cons]
    exact List.mem_cons_of_mem _ member
  outcomes running := by
    rw [trace.outcomes running, accounted]

/-- A cancelled group accounts for nothing. -/
theorem GroupTrace.of_cancelled {group : List UploadOperation} {past : List OperationOutcome}
    {events : List (Event Answer)} {outcomes : List OperationOutcome}
    (silent : ∀ operationId, events.countP (journals operationId) = 0)
    (own : ∀ operationId, operationId ∉ group.map UploadOperation.operationId →
      events.countP (settles operationId) = 0) :
    GroupTrace completed group past events { outcomes, cancelled := true } where
  silent := silent
  own := own
  outcomes running := absurd running (by simp)

/-- A member whose request completed, followed by a run of the remaining members. -/
theorem GroupTrace.cons {operation : UploadOperation} {rest : List UploadOperation}
    {past : List OperationOutcome} {outcome : OperationOutcome}
    {first second : List (Event Answer)} {result : GroupResult}
    (pending : completed.contains operation.operationId = false)
    (fresh : operation.operationId ∉ rest.map UploadOperation.operationId)
    (head : OperationTrace operation first (.completed outcome))
    (continues : (operation.role.isLivePhotoVideo && outcome.assetId.isNone) = false)
    (trace : GroupTrace completed rest (past ++ [outcome]) second result) :
    GroupTrace completed (operation :: rest) past (first ++ second) result where
  silent operationId := by
    rw [List.countP_append, head.silent, trace.silent]
  own operationId outside := by
    rw [List.map_cons, List.mem_cons, not_or] at outside
    rw [List.countP_append, head.own operationId outside.1, trace.own operationId outside.2]
  outcomes running := by
    obtain ⟨same, asset⟩ := head.outcome outcome rfl
    have others : ∀ other ∈ rest, settledIn second other.operationId =
        settledIn (first ++ second) other.operationId := by
      intro other member
      have different : other.operationId ≠ operation.operationId := by
        intro equal
        exact fresh (List.mem_map.mpr ⟨other, member, equal⟩)
      rw [settledIn, settledIn, List.countP_append, head.own _ different, Nat.zero_add]
    have settled : settledIn (first ++ second) operation.operationId = outcome.assetId.isSome := by
      rw [settledIn, List.countP_append, trace.own _ fresh, Nat.add_zero, Bool.eq_iff_iff,
        decide_eq_true_eq, asset]
    have goesOn : (operation.role.isLivePhotoVideo &&
        !settledIn (first ++ second) operation.operationId) = false := by
      rw [settled, Option.not_isSome]
      exact continues
    rw [trace.outcomes running, accountedIds_congr others, accountedIds, pending, goesOn]
    simp [same]

/-- A motion video which completed without an asset ends its group. -/
theorem GroupTrace.stop {operation : UploadOperation} {rest : List UploadOperation}
    (past : List OperationOutcome) {outcome : OperationOutcome} {events : List (Event Answer)}
    (pending : completed.contains operation.operationId = false)
    (head : OperationTrace operation events (.completed outcome))
    (stops : (operation.role.isLivePhotoVideo && outcome.assetId.isNone) = true) :
    GroupTrace completed (operation :: rest) past events
      { outcomes := past ++ [outcome], cancelled := false } where
  silent := head.silent
  own operationId outside := by
    rw [List.map_cons, List.mem_cons, not_or] at outside
    exact head.own operationId outside.1
  outcomes _ := by
    obtain ⟨same, asset⟩ := head.outcome outcome rfl
    have settled : settledIn events operation.operationId = outcome.assetId.isSome := by
      rw [settledIn, Bool.eq_iff_iff, decide_eq_true_eq, asset]
    rw [accountedIds, pending, settled, Option.not_isSome, stops]
    simp [same]

theorem applyGroupLoop_traces (group : List UploadOperation)
    (present : ∀ operation ∈ group, verified.contains operation.operationId = true)
    (distinct : (group.map UploadOperation.operationId).Nodup)
    (past : List OperationOutcome) (videoAssetId : Option String) :
    (applyGroupLoop platform config verified completed group past videoAssetId).Traces
      (GroupTrace completed group past) := by
  induction group generalizing past videoAssetId with
  | nil =>
      refine ⟨fun _ => rfl, fun _ _ => rfl, fun _ => ?_⟩
      rw [accountedIds, List.append_nil]
  | cons operation rest induction =>
      have tail := induction (fun other member => present other (List.mem_cons_of_mem _ member))
        (List.nodup_cons.mp distinct).2
      have fresh := (List.nodup_cons.mp distinct).1
      have asked : ∀ answer : Bool, Neutral [(⟨.isCancelled, answer⟩ : Event Answer)] :=
        fun _ => .cons (fun _ => ⟨rfl, rfl⟩) neutral_nil
      rintro (_ | _)
      · cases done : completed[operation.operationId]? with
        | some assetId =>
            have known : completed.contains operation.operationId = true := by
              rw [ExtTreeMap.contains_eq_isSome_getElem?, done]
              rfl
            simp only [Program.bind_done, Bool.false_eq_true, if_false]
            refine (tail _ _).mono fun events result trace => ?_
            refine GroupTrace.prepend completed (asked false) (trace.skip completed ?_)
            rw [accountedIds, known, if_pos rfl]
        | none =>
            have pending : completed.contains operation.operationId = false := by
              rw [ExtTreeMap.contains_eq_isSome_getElem?, done]
              rfl
            simp only [Program.bind_done, Bool.false_eq_true, if_false]
            split
            case isTrue orphan =>
                refine (tail _ _).mono fun events result trace => ?_
                refine GroupTrace.prepend completed (asked false) (trace.skip completed ?_)
                have image : operation.role.isLivePhotoVideo = false := by
                  cases role : operation.role <;>
                    simp_all [UploadRole.isLivePhotoImage, UploadRole.isLivePhotoVideo]
                rw [accountedIds, pending, image]
                simp [failed]
            case isFalse ready =>
                have found := present operation List.mem_cons_self
                rw [ExtTreeMap.contains_eq_isSome_getElem?] at found
                obtain ⟨source, source_eq⟩ := Option.isSome_iff_exists.mp found
                simp only [source_eq, Program.bind_eq, Program.traces_bind]
                refine (applyOperation_traces platform config operation source
                  videoAssetId).mono fun first outcome head => ?_
                cases outcome with
                | cancelled outcome =>
                    have stopped : GroupTrace completed (operation :: rest) past (first ++ [])
                        { outcomes := past ++ outcome.toList, cancelled := true } := by
                      rw [List.append_nil]
                      refine GroupTrace.of_cancelled completed head.silent fun id outside => ?_
                      rw [List.map_cons, List.mem_cons, not_or] at outside
                      exact head.own id outside.1
                    exact GroupTrace.prepend completed (asked false) stopped
                | completed outcome =>
                    simp only
                    split
                    case isTrue stops =>
                        rw [Bool.and_comm] at stops
                        have stopped : GroupTrace completed (operation :: rest) past (first ++ [])
                            { outcomes := past ++ [outcome], cancelled := false } := by
                          rw [List.append_nil]
                          exact GroupTrace.stop completed past pending head stops
                        exact GroupTrace.prepend completed (asked false) stopped
                    case isFalse continues =>
                        refine (tail _ _).mono fun second result trace => ?_
                        refine GroupTrace.prepend completed (asked false) ?_
                        refine GroupTrace.cons completed pending fresh head ?_ trace
                        rw [Bool.and_comm]
                        exact Bool.eq_false_iff.mpr continues
      · exact GroupTrace.of_cancelled completed (fun id => (asked true id).2)
          (fun id _ => (asked true id).1)

end

/-! ## The main loop -/

/-- The outcomes counted by a report. -/
def ApplyReport.counted (report : ApplyReport) : Nat :=
  report.created + report.duplicate + report.failed + report.indeterminate

theorem recordReport_counted (report : ApplyReport) (outcome : OperationOutcome) :
    (recordReport report outcome).counted = report.counted + 1 ∧
      (recordReport report outcome).planned = report.planned ∧
      (recordReport report outcome).resumed = report.resumed ∧
      (recordReport report outcome).cancelled = report.cancelled := by
  cases kind : outcome.kind <;>
    simp only [recordReport, kind, ApplyReport.counted, and_true] <;> omega

/-- What the main loop has done to its report and to the journal. -/
structure Journalled (before after : ApplyReport) (outcomes : List OperationOutcome)
    (events : List (Event Answer)) : Prop where
  counted : after.counted = before.counted + outcomes.length
  planned : after.planned = before.planned
  resumed : after.resumed = before.resumed
  stored : ∀ operationId, events.countP (journals operationId) =
    (outcomes.map OperationOutcome.operationId).count operationId
  unsettled : ∀ operationId, events.countP (settles operationId) = 0

theorem journalled_nil (report : ApplyReport) : Journalled report report [] [] :=
  ⟨rfl, rfl, rfl, fun _ => rfl, fun _ => rfl⟩

theorem Journalled.append {before middle after : ApplyReport}
    {first second : List OperationOutcome} {left right : List (Event Answer)}
    (head : Journalled before middle first left) (tail : Journalled middle after second right) :
    Journalled before after (first ++ second) (left ++ right) where
  counted := by
    rw [tail.counted, head.counted, List.length_append, Nat.add_assoc]
  planned := tail.planned.trans head.planned
  resumed := tail.resumed.trans head.resumed
  stored operationId := by
    rw [List.countP_append, head.stored, tail.stored, List.map_append, List.count_append]
  unsettled operationId := by
    rw [List.countP_append, head.unsettled, tail.unsettled]

theorem journalOutcomes_traces (report : ApplyReport) (outcomes : List OperationOutcome) :
    (journalOutcomes report outcomes).run.Traces fun events result =>
      ∀ after, result = .ok after →
        Journalled report after outcomes events ∧ after.cancelled = report.cancelled := by
  induction outcomes generalizing report with
  | nil =>
      rintro _ ⟨⟩
      exact ⟨journalled_nil report, rfl⟩
  | cons outcome rest induction =>
      obtain ⟨counted, planned, resumed, cancelled⟩ := recordReport_counted report outcome
      have head : Journalled report (recordReport report outcome) [outcome]
          [(⟨.appendEvent outcome.event, .ok ()⟩ : Event Answer)] :=
        { counted
          planned
          resumed
          stored := fun operationId => by
            simp [journals, OperationOutcome.event, List.count_singleton]
          unsettled := fun operationId => by simp [settles] }
      rw [journalOutcomes, Program.traces_exceptT_bind, appendEvent]
      split
      · rintro _ ⟨⟩
      · rintro (error | ⟨⟩)
        · rintro _ ⟨⟩
        · refine (induction (recordReport report outcome)).mono fun events result tail => ?_
          intro after returned
          obtain ⟨journalled, same⟩ := tail after returned
          exact ⟨head.append journalled, same.trans cancelled⟩

/-- The main loop journals every outcome it takes, and is cancelled if some group is. -/
theorem consumed_takeGroup {before after : ApplyReport} {values : List GroupResult}
    {events : List (Event Answer)} (consumed : Consumed takeGroup before values events after) :
    Journalled before after (values.flatMap GroupResult.outcomes) events ∧
      after.cancelled = (before.cancelled || values.any GroupResult.cancelled) := by
  induction consumed with
  | nil state => exact ⟨journalled_nil state, by simp⟩
  | @cons state next final value values first events taken _ induction =>
      obtain ⟨tail, tailCancelled⟩ := induction
      obtain ⟨head, headCancelled⟩ := taken.traces rfl
        (journalOutcomes_traces { state with cancelled := state.cancelled || value.cancelled }
          value.outcomes) next rfl
      have head : Journalled state next value.outcomes first :=
        ⟨head.counted, head.planned, head.resumed, head.stored, head.unsettled⟩
      refine ⟨head.append tail, ?_⟩
      rw [tailCancelled, headCancelled, List.any_cons, Bool.or_assoc]

/-! ## The opening of a run -/

/-- A fallible program whose events are neutral and whose value satisfies `post`. -/
def Prepares {α : Type} (program : FallibleExecutor α) (post : α → Prop) : Prop :=
  program.run.Traces fun events result => Neutral events ∧ ∀ value, result = .ok value → post value

section

variable {α β : Type}

theorem Prepares.bind {program : FallibleExecutor α} {next : α → FallibleExecutor β}
    {first : α → Prop} {post : β → Prop} (head : Prepares program first)
    (tail : ∀ value, first value → Prepares (next value) post) :
    Prepares (program >>= next) post := by
  rw [Prepares, Program.traces_exceptT_bind]
  refine head.mono fun events outcome reached => ?_
  cases outcome with
  | error error =>
      refine ⟨reached.1, ?_⟩
      rintro _ ⟨⟩
  | ok value =>
      refine (tail value (reached.2 value rfl)).mono fun later result rest => ?_
      exact ⟨reached.1.append rest.1, rest.2⟩

theorem prepares_pure {value : α} {post : α → Prop} (holds : post value) :
    Prepares (pure value) post := by
  refine ⟨neutral_nil, ?_⟩
  rintro _ ⟨⟩
  exact holds

theorem prepares_ofExcept (value : Except ExecutorError α) :
    Prepares (ofExcept value) fun result => value = .ok result :=
  ⟨neutral_nil, fun _ returned => returned⟩

/-- A single neutral request whose answer is the result. -/
theorem prepares_request (call : Call) (read : Answer call → Except ExecutorError α)
    (neutral : ∀ answer, NeutralEvent ⟨call, answer⟩) :
    Prepares (ExceptT.mk (.request call fun answer => .done (read answer))) fun _ => True :=
  fun answer => ⟨.cons (neutral answer) neutral_nil, fun _ _ => trivial⟩

end

theorem prepares_checkCancelled : Prepares checkCancelled fun _ => True := by
  rintro (_ | _) <;> exact ⟨.cons (fun _ => ⟨rfl, rfl⟩) neutral_nil, fun _ _ => trivial⟩

theorem prepares_verifySidecar (resolved : ResolvedFolderPlan) (operation : UploadOperation) :
    Prepares (verifySidecar resolved operation) fun _ => True := by
  unfold verifySidecar
  split
  · exact prepares_pure trivial
  · refine (prepares_ofExcept _).bind fun source _ => ?_
    refine (prepares_request _ _ fun _ _ => ⟨rfl, rfl⟩).bind fun identity _ => ?_
    refine (prepares_ofExcept _).bind fun _ _ => ?_
    exact prepares_pure trivial

theorem prepares_verifyOperation (resolved : ResolvedFolderPlan) (operation : UploadOperation) :
    Prepares (verifyOperation resolved operation) fun _ => True := by
  refine prepares_checkCancelled.bind fun _ _ => ?_
  refine (prepares_ofExcept _).bind fun media _ => ?_
  refine (prepares_request _ _ fun _ _ => ⟨rfl, rfl⟩).bind fun identity _ => ?_
  refine (prepares_ofExcept _).bind fun _ _ => ?_
  refine (prepares_verifySidecar resolved operation).bind fun xmp _ => ?_
  exact prepares_pure trivial

/-- Verification keeps what it had verified and adds every operation of the list. -/
theorem prepares_verifyOperations (resolved : ResolvedFolderPlan)
    (operations : List UploadOperation) (verified : ExtTreeMap String VerifiedAsset) :
    Prepares (verifyOperations resolved operations verified) fun result =>
      ∀ operationId, verified.contains operationId = true ∨
          operationId ∈ operations.map UploadOperation.operationId →
        result.contains operationId = true := by
  induction operations generalizing verified with
  | nil => exact prepares_pure fun operationId known => by simpa using known
  | cons operation rest induction =>
      refine (prepares_verifyOperation resolved operation).bind fun asset _ => ?_
      refine (induction (verified.insert operation.operationId asset)).mono
        fun events result reached => ⟨reached.1, fun value returned operationId known => ?_⟩
      refine reached.2 value returned operationId ?_
      rw [ExtTreeMap.contains_insert]
      rcases known with known | known
      · exact .inl (by rw [known, Bool.or_true])
      · rcases List.mem_cons.mp known with rfl | known
        · exact .inl (by simp)
        · exact .inr known

/-- What `apply_upload_inner` has established before its first group. -/
structure Started (platform : Platform) (plan : UploadPlan) (start : UploadStart) : Prop where
  accepted : plan.Accepted platform
  verified : ∀ operation ∈ plan.operations,
    start.verified.contains operation.operationId = true
  completed : ∀ operationId, start.completed.contains operationId = true →
    operationId ∈ plan.operations.map UploadOperation.operationId
  groups : pendingGroups plan start.completed = .ok start.groups
  report : start.report =
    { ApplyReport.new plan.summary.operations with resumed := start.completed.size }

theorem prepares_verifySource (platform : Platform) (plan : UploadPlan)
    (config : UploadExecutionConfig) :
    Prepares (verifySource platform plan config) fun verified =>
      plan.Accepted platform ∧ ∀ operation ∈ plan.operations,
        verified.contains operation.operationId = true := by
  refine (prepares_ofExcept _).bind fun _ valid => ?_
  have accepted : plan.Accepted platform := by
    refine (plan.validate_ok_iff platform).mp ?_
    unfold requireValidPlan at valid
    split at valid
    · assumption
    · cases valid
  refine (prepares_ofExcept _).bind fun identity _ => ?_
  refine (prepares_ofExcept _).bind fun _ _ => ?_
  refine (prepares_request _ _ fun _ _ => ⟨rfl, rfl⟩).bind fun resolved _ => ?_
  refine (prepares_ofExcept _).bind fun _ _ => ?_
  refine (prepares_verifyOperations resolved plan.operations ∅).mono
    fun events result reached => ⟨reached.1, fun value returned => ⟨accepted, ?_⟩⟩
  intro operation member
  exact reached.2 value returned _ (.inr (List.mem_map_of_mem member))

theorem prepares_openJournal (backupReferenceSha256 : Option String) :
    Prepares (openJournal backupReferenceSha256) fun _ => True := by
  refine (prepares_ofExcept _).bind fun _ _ => ?_
  exact prepares_request _ _ fun _ _ => ⟨rfl, rfl⟩

theorem prepares_uploadStart (platform : Platform) (plan : UploadPlan)
    (config : UploadExecutionConfig) (compatibility : ServerCompatibility)
    (backupReferenceSha256 : Option String) :
    Prepares (uploadStart platform plan config compatibility backupReferenceSha256)
      (Started platform plan) := by
  refine (prepares_ofExcept _).bind fun _ _ => ?_
  refine (prepares_ofExcept _).bind fun _ _ => ?_
  refine (prepares_verifySource platform plan config).bind fun verified checked => ?_
  refine (prepares_openJournal backupReferenceSha256).bind fun _ _ => ?_
  refine (prepares_request _ _ fun _ _ => ⟨rfl, rfl⟩).bind fun rows _ => ?_
  refine (prepares_ofExcept _).bind fun completed _ => ?_
  refine (prepares_ofExcept _).bind fun _ known => ?_
  refine (prepares_ofExcept _).bind fun groups scheduled => ?_
  refine prepares_pure ⟨checked.1, checked.2, fun operationId contained => ?_, scheduled, rfl⟩
  rw [validateCompleted, reject_eq_ok, List.any_eq_false] at known
  have listed := known operationId (by simpa [ExtTreeMap.mem_keys] using contained)
  simp only [Bool.not_eq_true', Bool.not_eq_false, List.any_eq_true, beq_iff_eq] at listed
  obtain ⟨operation, member, same⟩ := listed
  exact List.mem_map.mpr ⟨operation, member, same⟩

/-- What is known when the opening of a run has returned. -/
theorem started_of_execution {World : Type} {environment : Environment Answer World}
    {platform : Platform} {plan : UploadPlan} {config : UploadExecutionConfig}
    {compatibility : ServerCompatibility} {backupReferenceSha256 : Option String}
    {before after : World} {events : List (Event Answer)} {start : UploadStart}
    (execution : Execution environment
      (uploadStart platform plan config compatibility backupReferenceSha256).run before events
      (.done (.ok start)) after) :
    Neutral events ∧ Started platform plan start := by
  obtain ⟨quiet, established⟩ := execution.traces rfl (prepares_uploadStart _ _ _ _ _)
  exact ⟨quiet, established start rfl⟩

end ImmichRs
