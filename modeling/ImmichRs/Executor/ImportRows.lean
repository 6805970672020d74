import ImmichRs.Executor.ImportResume

/-!
# The rows which an import writes

The client checks the identifiers which it returns.  With such answers, and lower-case digests, the
journal accepts every row which a run tries to append, and a later run accepts the journal.
-/

namespace ImmichRs

open Interaction
open Std (ExtTreeMap ExtTreeSet)

/-! ## Checked answers -/

/-- The bounds which the journal sets for a remote identifier. -/
def isRecordable (id : String) : Bool := !id.isEmpty && byteLen id ≤ 4096

/-- The identifiers of an answer have passed the checks of the client. -/
def Identified : Event Answer → Prop
  | ⟨.duplicateCheck _ _, .ok (.duplicate assetId)⟩ => isRecordable assetId = true
  | ⟨.upload _, .ok (_, assetId)⟩ => isRecordable assetId = true
  | ⟨.findOwnedAlbums _, .ok albums⟩ => ∀ album ∈ albums, isRecordable album.id = true
  | ⟨.createAlbum _, .ok album⟩ => isRecordable album.id = true
  | _ => True

/-- The error which staging or the journal answers with. -/
def reported : Event Answer → Option ExecutorError
  | ⟨.prepare _, .error error⟩ | ⟨.appendEffect _, .error error⟩ => some error
  | _ => none

/-- Answers with checked identifiers, and the last error which was reported. -/
def checkedEnvironment : Environment Answer (Option ExecutorError) := fun before event after =>
  Identified event ∧ after = (reported event).or before

/-- Every run with checked answers ends with `post`. -/
abbrev Holds {α : Type} (program : Executor α) (world : Option ExecutorError)
    (post : α → Option ExecutorError → Prop) : Prop :=
  program.Ensures checkedEnvironment (fun _ _ _ => True) world post

/-- A value which satisfies `post`, or the error which was reported last. -/
def Concludes {α : Type} (post : α → Prop) :
    Except ExecutorError α → Option ExecutorError → Prop
  | .ok value, _ => post value
  | .error error, last => last = some error

/-- A larger retry count, or a value which satisfies `post`. -/
def Attempted {α : Type} (config : UploadExecutionConfig) (retries : Nat)
    (post : α → Option ExecutorError → Prop) : Nat ⊕ α → Option ExecutorError → Prop
  | .inl next, _ => retries < next ∧ next < config.maxAttemptsPerOperation
  | .inr value, last => post value last

/-- A fallible program fails only with an error which was reported to it. -/
abbrev Completes {α : Type} (program : FallibleExecutor α) (post : α → Prop) : Prop :=
  ∀ world, Holds program.run world (Concludes post)

section

variable {α β : Type}

theorem holds_request {call : Call} {next : Answer call → Executor α}
    {world : Option ExecutorError} {post : α → Option ExecutorError → Prop}
    (tail : ∀ answer, Identified ⟨call, answer⟩ →
      Holds (next answer) ((reported ⟨call, answer⟩).or world) post) :
    Holds (.request call next) world post := by
  rintro answer after ⟨identified, rfl⟩
  exact ⟨trivial, tail answer identified⟩

theorem completes_pure {value : α} {post : α → Prop} (holds : post value) :
    Completes (pure value) post :=
  fun _ => holds

theorem completes_ofExcept {value : Except ExecutorError α} {result : α} {post : α → Prop}
    (returned : value = .ok result) (holds : post result) : Completes (ofExcept value) post := by
  rw [returned]
  exact fun _ => holds

theorem Completes.bind {program : FallibleExecutor α} {next : α → FallibleExecutor β}
    {middle : α → Prop} {post : β → Prop} (head : Completes program middle)
    (tail : ∀ value, middle value → Completes (next value) post) :
    Completes (program >>= next) post := by
  intro world
  refine (Program.ensures_exceptT_bind _ _ _ _).mpr ?_
  refine (head world).post fun outcome after reached => ?_
  cases outcome with
  | ok value => exact tail value reached after
  | error error => exact reached

theorem completes_lift {program : Executor α} {next : α → FallibleExecutor β}
    {middle : α → Prop} {post : β → Prop}
    (head : ∀ world, Holds program world fun value _ => middle value)
    (tail : ∀ value, middle value → Completes (next value) post) :
    Completes ((liftM program : FallibleExecutor α) >>= next) post := by
  have lifted : Completes (liftM program : FallibleExecutor α) middle := by
    intro world
    exact (Program.ensures_bind _ _ _ _).mpr (head world)
  exact lifted.bind tail

/-- The retry policy: another attempt below the limit, or an end. -/
theorem holds_retry {config : UploadExecutionConfig} {again stopped refused : Executor α}
    {post : α → Option ExecutorError → Prop} (error : ClientError) (retries delay : Nat)
    (world : Option ExecutorError)
    (granted : retries + 1 < config.maxAttemptsPerOperation → ∀ world, Holds again world post)
    (cancelled : ∀ world, Holds stopped world post) (denied : ∀ world, Holds refused world post) :
    Holds ((retryAllowed config error retries).bind fun allowed =>
      if allowed then (wait delay).bind fun waited => if waited then again else stopped
      else refused) world post := by
  unfold retryAllowed
  split
  case isTrue admitted =>
      rw [Bool.and_eq_true, decide_eq_true_eq] at admitted
      refine holds_request fun allowed _ => ?_
      cases allowed with
      | false => exact denied _
      | true =>
          refine holds_request fun waited _ => ?_
          cases waited with
          | false => exact cancelled _
          | true => exact granted admitted.2 _
  case isFalse rejected => exact denied world

/-- A loop over a retry count which stays below the attempts. -/
theorem holds_loop {config : UploadExecutionConfig} {body : Nat → Executor (Nat ⊕ α)}
    {exhausted : Nat → α} {post : α → Option ExecutorError → Prop} {start : Nat}
    (below : start < config.maxAttemptsPerOperation)
    (step : ∀ retries world, start ≤ retries → retries < config.maxAttemptsPerOperation →
      Holds (body retries) world (Attempted config retries post))
    (world : Option ExecutorError) :
    Holds (Program.loop body exhausted (config.maxAttemptsPerOperation + 1) start) world post := by
  refine Program.loop_ensures
    (fun retries _ => start ≤ retries ∧ retries < config.maxAttemptsPerOperation)
    (fun retries => config.maxAttemptsPerOperation - retries) ?_ _ _ _ (by omega) ⟨le_rfl, below⟩
  rintro retries world ⟨later, below⟩
  refine (step retries world later below).post fun outcome after reached => ?_
  cases outcome with
  | inl next =>
      obtain ⟨more, under⟩ : retries < next ∧ next < config.maxAttemptsPerOperation := reached
      exact ⟨⟨by omega, under⟩, by omega⟩
  | inr value => exact reached

end

/-! ## Rows -/

section

variable {key : EffectKey} (lower : isLowerSha256 key.digest = true)

include lower

/-- The journal accepts a row whose identifier fits its outcome. -/
theorem append_completes {outcome : ImportOutcome} {remoteId : Option String} (retries : Nat)
    (identified : outcome.expectsId = remoteId.any isRecordable) :
    Completes (append key.render outcome remoteId retries) fun _ => True := by
  have valid : Completes (ofExcept (validateEffect key.render outcome remoteId)) fun _ => True :=
    completes_ofExcept (validateEffect_render lower identified) trivial
  refine valid.bind fun _ _ world => ?_
  refine holds_request fun answer _ => ?_
  cases answer with
  | ok nothing => exact trivial
  | error error => rfl

theorem recordEffectFailure_completes (indeterminate : Bool) (retries : Nat)
    (report : ImportApplyReport) :
    Completes (recordEffectFailure key.render indeterminate retries report) fun _ => True := by
  refine (append_completes lower retries ?_).bind fun _ _ => completes_pure trivial
  cases indeterminate <;> rfl

/-- The loops of metadata updates and memberships. -/
theorem settleEffect_completes {platform : Platform} {config : UploadExecutionConfig}
    (positive : 1 ≤ config.maxAttemptsPerOperation)
    {request : Executor (Except ClientError Unit)}
    (requests : ∀ world, Holds request world fun _ _ => True)
    (count : ImportApplyReport → ImportApplyReport) (report : ImportApplyReport) :
    Completes (settleEffect platform config key.render request count report) fun _ => True := by
  refine holds_loop positive fun retries world _ _ => ?_
  refine (Program.ensures_bind _ _ _ _).mpr ((requests world).post fun answer after _ => ?_)
  have stopped : Completes (do
      let report ← recordEffectFailure key.render true retries report
      return (false, report.cancel)) fun _ => True :=
    (recordEffectFailure_completes lower true retries report).bind fun _ _ =>
      completes_pure trivial
  have ended : ∀ {program : FallibleExecutor (Bool × ImportApplyReport)} (world),
      Completes program (fun _ => True) →
        Holds (program.run >>= fun result => pure (.inr result)) world
          (Attempted config retries (Concludes fun _ => True)) :=
    fun world completes => (Program.ensures_bind _ _ _ _).mpr (completes world)
  cases answer with
  | ok nothing =>
      have identified : ImportOutcome.completed.expectsId = (none : Option String).any isRecordable :=
        rfl
      refine ended after ((append_completes lower retries identified).bind fun _ _ => ?_)
      exact completes_pure trivial
  | error error =>
      simp only
      split
      · exact ended after stopped
      · refine holds_retry error retries _ after (fun next _ => ⟨Nat.lt_succ_self _, next⟩)
          (fun world => ended world stopped) fun world => ended world ?_
        exact (recordEffectFailure_completes lower (uncertain error) retries report).bind
          fun _ _ => completes_pure trivial

end

/-! ## Uploads -/

/-- The row of a result of `apply` has an identifier exactly when its outcome needs one. -/
def OperationResult.Recordable (operation : UploadOperation) : OperationResult → Prop
  | .completed outcome => outcome.operationId = operation.operationId ∧
      outcome.kind.importOutcome.expectsId = outcome.assetId.any isRecordable
  | .cancelled _ => True

section

variable {platform : Platform} {config : UploadExecutionConfig} {operation : UploadOperation}
  {source : VerifiedAsset} {livePhotoVideoId : Option String}

theorem reconcileUncertain_holds (retries : Nat) (world : Option ExecutorError) :
    Holds (reconcileUncertain operation source retries) world fun result _ =>
      result.Recordable operation := by
  refine holds_request fun answer identified => ?_
  have undecided : ∀ world, Holds (isCancelled.bind fun stopped =>
      if stopped then .done (OperationResult.cancelled (some (indeterminate operation retries)))
      else .done (OperationResult.completed (indeterminate operation retries))) world
        fun result _ => result.Recordable operation := by
    intro world
    refine holds_request fun stopped _ => ?_
    cases stopped with
    | true => exact trivial
    | false => exact ⟨rfl, rfl⟩
  match answer, identified with
  | .ok (.duplicate assetId), identified => exact ⟨rfl, identified.symm⟩
  | .ok .accept, _ => exact undecided _
  | .error _, _ => exact undecided _

theorem uploadAttempt_holds (retries : Nat) (world : Option ExecutorError) :
    Holds (uploadAttempt platform config operation source livePhotoVideoId retries) world
      (Attempted config retries fun result _ => result.Recordable operation) := by
  refine holds_request fun answer identified => ?_
  match answer, identified with
  | .ok (status, assetId), identified =>
      refine ⟨rfl, ?_⟩
      cases status <;> exact identified.symm
  | .error error, _ =>
      simp only [Program.bind_done]
      split
      · exact trivial
      · refine holds_retry error retries _ _ (fun next _ => ⟨Nat.lt_succ_self _, next⟩) (fun _ => trivial)
          fun world => ?_
        split
        · exact (Program.ensures_bind _ _ _ _).mpr (reconcileUncertain_holds retries world)
        · exact ⟨rfl, rfl⟩

theorem applyOperation_holds (positive : 1 ≤ config.maxAttemptsPerOperation)
    (world : Option ExecutorError) :
    Holds (applyOperation platform config operation source livePhotoVideoId) world
      fun result _ => result.Recordable operation := by
  refine holds_loop positive (fun retries world _ _ => holds_request fun answer identified => ?_)
    world
  match answer, identified with
  | .ok (.duplicate assetId), identified => exact ⟨rfl, identified.symm⟩
  | .ok .accept, _ => exact uploadAttempt_holds retries _
  | .error error, _ =>
      simp only [Program.bind_done]
      split
      · exact trivial
      · exact holds_retry error retries _ _ (fun next _ => ⟨Nat.lt_succ_self _, next⟩) (fun _ => trivial)
          fun _ => ⟨rfl, rfl⟩

end

/-! ## Albums -/

/-- The row of a converged album has an identifier which the journal accepts. -/
def EffectResult.Recordable : EffectResult String → Prop
  | .done album outcome _ => outcome.expectsId = true ∧ isRecordable album = true
  | .failed _ _ | .cancelled _ _ => True

section

variable {platform : Platform} {config : UploadExecutionConfig} {name : String}

/-- What a lookup returns: albums with checked identifiers, and a retry count below the limit. -/
def LookedUp (config : UploadExecutionConfig) (start : Nat)
    (found : Except (EffectResult String) (List RemoteAlbum) × Nat) : Prop :=
  (start ≤ found.2 ∧ found.2 < config.maxAttemptsPerOperation) ∧ match found.1 with
    | .ok albums => ∀ album ∈ albums, isRecordable album.id = true
    | .error result => result.Recordable

theorem lookupAlbums_holds {retries : Nat} (below : retries < config.maxAttemptsPerOperation)
    (world : Option ExecutorError) :
    Holds (lookupAlbums platform config name retries) world fun found _ =>
      LookedUp config retries found := by
  refine holds_loop below (fun retries world later below => ?_) world
  refine holds_request fun answer identified => ?_
  match answer, identified with
  | .ok albums, identified => exact ⟨⟨later, below⟩, identified⟩
  | .error error, _ =>
      simp only [Program.bind_done]
      split
      · exact ⟨⟨later, below⟩, trivial⟩
      · exact holds_retry error retries _ _ (fun next _ => ⟨Nat.lt_succ_self _, next⟩)
          (fun _ => ⟨⟨later, below⟩, trivial⟩) fun _ => ⟨⟨later, below⟩, trivial⟩

theorem observedAlbums_recordable {start retries : Nat}
    {observed : Except (EffectResult String) (List RemoteAlbum)}
    (found : LookedUp config start (observed, retries)) {result : EffectResult String}
    (decided : observedAlbums retries observed = some result) : result.Recordable := by
  match observed with
  | .ok [] => cases decided
  | .ok [album] =>
      cases decided
      exact ⟨rfl, found.2 album List.mem_cons_self⟩
  | .ok (_ :: _ :: _) =>
      cases decided
      exact trivial
  | .error (.cancelled _ _) | .error (.failed _ _) | .error (.done _ _ _) =>
      cases decided
      exact trivial

theorem createAttempt_holds {retries : Nat} (below : retries < config.maxAttemptsPerOperation)
    (world : Option ExecutorError) :
    Holds (createAttempt platform config name retries) world
      (Attempted config retries fun result _ => result.Recordable) := by
  refine holds_request fun answer identified => ?_
  match answer, identified with
  | .ok album, identified => exact ⟨rfl, identified⟩
  | .error error, _ =>
      simp only [Program.bind_done]
      split
      · exact trivial
      · split
        · refine (Program.ensures_bind _ _ _ _).mpr ((lookupAlbums_holds below _).post ?_)
          rintro ⟨observed, now⟩ after found
          simp only
          cases decided : observedAlbums now observed with
          | some result => exact observedAlbums_recordable found decided
          | none =>
              have stopped : ∀ world, Holds (isCancelled.bind fun stopped =>
                  if stopped then .done (.inr (EffectResult.cancelled true now) : Nat ⊕ _)
                  else .done (.inr (.failed (uncertain error) now))) world
                    (Attempted config retries fun result _ => result.Recordable) := by
                intro world
                refine holds_request fun stopped _ => ?_
                cases stopped <;> exact trivial
              have later : retries ≤ now := found.1.1
              exact holds_retry error now _ _ (fun next _ => ⟨by omega, next⟩) stopped stopped
        · exact trivial

theorem convergeAlbum_holds (positive : 1 ≤ config.maxAttemptsPerOperation)
    (world : Option ExecutorError) :
    Holds (convergeAlbum platform config name) world fun result _ => result.Recordable := by
  refine (Program.ensures_bind _ _ _ _).mpr ((lookupAlbums_holds positive world).post ?_)
  rintro ⟨observed, now⟩ after ⟨⟨_, below⟩, found⟩
  match observed, found with
  | .error result, found => exact found
  | .ok [album], found => exact ⟨rfl, found album List.mem_cons_self⟩
  | .ok [], _ =>
      exact holds_loop below (fun retries world _ below => createAttempt_holds below world) after
  | .ok (_ :: _ :: _), _ => exact trivial

theorem recordAlbum_completes {identity : String} (lower : isLowerSha256 identity = true)
    {effect : EffectResult String} (recordable : effect.Recordable) (report : ImportApplyReport) :
    Completes (recordAlbum identity effect report) fun _ => True := by
  have key : isLowerSha256 (EffectKey.album identity).digest = true := lower
  cases effect with
  | done album outcome retries =>
      have identified : outcome.expectsId = (some album).any isRecordable :=
        recordable.1.trans recordable.2.symm
      exact (append_completes key retries identified).bind fun _ _ => completes_pure trivial
  | failed indeterminate retries =>
      exact (recordEffectFailure_completes key indeterminate retries report).bind
        fun _ _ => completes_pure trivial
  | cancelled indeterminate retries =>
      exact (recordEffectFailure_completes key indeterminate retries report).bind
        fun _ _ => completes_pure trivial

end

/-! ## The whole run -/

section

variable {platform : Platform} {config : UploadExecutionConfig}

theorem running_holds (world : Option ExecutorError) : Holds isCancelled world fun _ _ => True :=
  holds_request fun _ _ => trivial

theorem applyAlbumsLoop_completes (positive : 1 ≤ config.maxAttemptsPerOperation)
    (digests : ∀ bytes, isLowerSha256 (platform.sha256 bytes) = true) (state : ImportState)
    (albums : List (String × ExtTreeSet String)) (report : ImportApplyReport) :
    Completes (applyAlbumsLoop platform config state albums report) fun _ => True := by
  induction albums generalizing report with
  | nil => exact completes_pure trivial
  | cons album rest induction =>
      obtain ⟨name, members⟩ := album
      have lower : isLowerSha256 (albumIdentity platform name) = true := digests _
      refine completes_lift running_holds fun stopped _ => ?_
      cases stopped with
      | true => exact completes_pure trivial
      | false =>
          have referred : Completes (albumReference platform config state name report)
              fun _ => True := by
            rw [albumReference]
            split
            · exact completes_pure trivial
            · exact completes_lift (convergeAlbum_holds positive) fun effect recordable =>
                recordAlbum_completes lower recordable report
          refine referred.bind fun found _ => ?_
          obtain ⟨albumId, after⟩ := found
          cases albumId with
          | none =>
              simp only
              split
              · exact completes_pure trivial
              · exact induction after
          | some albumId =>
              simp only
              split
              · exact induction after.resume
              · have key : isLowerSha256 (EffectKey.membership
                    (albumIdentity platform name)).digest = true := lower
                have sent : ∀ world, Holds (addAlbumAssets (albumIdentity platform name) albumId
                    members.toList) world fun _ _ => True :=
                  fun _ => holds_request fun _ _ => trivial
                have settled : Completes (applyMembership platform config
                    (albumIdentity platform name) albumId members.toList after) fun _ => True :=
                  settleEffect_completes key positive sent _ _
                refine settled.bind fun next _ => ?_
                obtain ⟨proceed, final⟩ := next
                cases proceed with
                | true => exact induction final
                | false => exact completes_pure trivial

theorem assetReference_completes (positive : 1 ≤ config.maxAttemptsPerOperation)
    (state : ImportState) (assetIds : ExtTreeMap String String) {operation : UploadOperation}
    (lower : isLowerSha256 operation.operationId = true) (report : ImportApplyReport) :
    Completes (assetReference platform config state assetIds operation report) fun _ => True := by
  have key : isLowerSha256 (EffectKey.asset operation.operationId).digest = true := lower
  rw [assetReference]
  split
  · exact completes_pure trivial
  · split
    · have failed : ImportOutcome.failed.expectsId = (none : Option String).any isRecordable := rfl
      have recorded : Completes (appendAssetFailure operation report) fun _ => True :=
        (append_completes key 0 failed).bind fun _ _ => completes_pure trivial
      exact recorded.bind fun _ _ => completes_pure trivial
    · have prepared : Completes (prepare operation) fun _ => True := by
        intro world
        refine holds_request fun answer _ => ?_
        cases answer with
        | ok source => exact trivial
        | error error => rfl
      refine prepared.bind fun source _ => ?_
      refine completes_lift (applyOperation_holds positive) fun result recordable => ?_
      cases result with
      | completed outcome =>
          obtain ⟨same, identified⟩ := recordable
          have row := append_completes key outcome.retries identified
          rw [recordAsset, recordCompletedAsset, same]
          exact row.bind fun _ _ => completes_pure trivial
      | cancelled partialOutcome =>
          cases partialOutcome with
          | none => exact completes_pure trivial
          | some outcome =>
              have unknown : ImportOutcome.indeterminate.expectsId =
                  (none : Option String).any isRecordable := rfl
              exact (append_completes key outcome.retries unknown).bind
                fun _ _ => completes_pure trivial

theorem applyOperationsLoop_completes (positive : 1 ≤ config.maxAttemptsPerOperation)
    (state : ImportState) (operations : List UploadOperation)
    (lower : ∀ operation ∈ operations, isLowerSha256 operation.operationId = true)
    (report : ImportApplyReport) (assetIds : ExtTreeMap String String) :
    Completes (applyOperationsLoop platform config state operations report assetIds)
      fun _ => True := by
  induction operations generalizing report assetIds with
  | nil => exact completes_pure trivial
  | cons operation rest induction =>
      obtain ⟨here, later⟩ := List.forall_mem_cons.mp lower
      refine completes_lift running_holds fun stopped _ => ?_
      cases stopped with
      | true => exact completes_pure trivial
      | false =>
          refine (assetReference_completes positive state assetIds here report).bind
            fun found _ => ?_
          obtain ⟨assetId, after⟩ := found
          cases assetId with
          | none =>
              simp only
              split
              · exact completes_pure trivial
              · exact induction later after assetIds
          | some assetId =>
              have key : isLowerSha256 (EffectKey.metadata operation.operationId).digest = true :=
                here
              have updated : Completes
                  (applyMetadata platform config state operation assetId after) fun _ => True := by
                rw [applyMetadata]
                split
                · exact completes_pure trivial
                · next metadata _ =>
                    have sent : ∀ world, Holds (updateAssetMetadata operation.operationId assetId
                        metadata) world fun _ _ => True :=
                      fun _ => holds_request fun _ _ => trivial
                    split
                    · exact completes_pure trivial
                    · exact settleEffect_completes key positive sent _ _
              refine updated.bind fun next _ => ?_
              obtain ⟨proceed, final⟩ := next
              cases proceed with
              | true => exact induction later final _
              | false => exact completes_pure trivial

/-- Once a run has read its state, it fails only with an error which staging or the journal has
reported, or because the plan has no order. -/
theorem applyEffects_completes {plan : UploadPlan} (accepted : plan.Accepted platform)
    (positive : 1 ≤ config.maxAttemptsPerOperation)
    (digests : ∀ bytes, isLowerSha256 (platform.sha256 bytes) = true)
    (lower : ∀ operation ∈ plan.operations, isLowerSha256 operation.operationId = true)
    {operations : List UploadOperation} (ordered : orderedOperations plan = .ok operations)
    (state : ImportState) :
    Completes (applyEffects platform config plan state) fun _ => True := by
  have scheduled : Completes (ofExcept (orderedOperations plan)) fun schedule =>
      schedule = operations := completes_ofExcept ordered rfl
  refine scheduled.bind ?_
  rintro _ rfl
  have inside := (orderedOperations_subperm accepted ordered).subset
  refine (applyOperationsLoop_completes positive state _
    (fun operation member => lower operation (inside member)) _ _).bind fun result _ => ?_
  obtain ⟨report, assetIds⟩ := result
  simp only
  split
  · exact applyAlbumsLoop_completes positive digests state _ report
  · exact completes_pure trivial

end

/-! ## The next run -/

/-- Collecting valid rows with different keys succeeds. -/
theorem exists_foldlM_stateRow {entries : List (String × StoredEffect)}
    (distinct : (entries.map Prod.fst).Nodup)
    (valid : ∀ entry ∈ entries, validateEffect entry.1 entry.2.outcome entry.2.remoteId = .ok ())
    (latest : ExtTreeMap String StoredEffect)
    (fresh : ∀ entry ∈ entries, latest.contains entry.1 = false) :
    ∃ result, entries.foldlM stateRow latest = .ok result := by
  induction entries generalizing latest with
  | nil => exact ⟨latest, rfl⟩
  | cons entry rest induction =>
      rw [List.map_cons, List.nodup_cons] at distinct
      obtain ⟨here, later⟩ := List.forall_mem_cons.mp valid
      obtain ⟨absent, others⟩ := List.forall_mem_cons.mp fresh
      have added : stateRow latest entry = .ok (latest.insert entry.1 entry.2) := by
        rw [stateRow, here, absent]
        rfl
      obtain ⟨result, collected⟩ := induction distinct.2 later (latest.insert entry.1 entry.2)
        fun other member => by
          rw [ExtTreeMap.contains_insert, others other member, Bool.or_false,
            beq_eq_false_iff_ne]
          intro same
          exact distinct.1 (List.mem_map.mpr
            ⟨other, member, (Std.LawfulEqCmp.eq_of_compare same).symm⟩)
      refine ⟨result, ?_⟩
      rw [List.foldlM_cons, added]
      exact collected

theorem mem_of_lastEffect {rows : List ImportEvent} {key : String} {effect : StoredEffect}
    (last : lastEffect rows key = some effect) :
    ∃ row ∈ rows, row.effectKey = key ∧ effect = ⟨row.outcome, row.remoteId⟩ := by
  rw [lastEffect, Option.map_eq_some_iff] at last
  obtain ⟨row, found, rfl⟩ := last
  obtain ⟨member, same⟩ := List.mem_filter.mp (List.mem_of_getLast? found)
  exact ⟨row, member, eq_of_beq same, rfl⟩

/-- A journal of valid rows can be read. -/
theorem exists_importState {rows : List ImportEvent}
    (valid : ∀ row ∈ rows, validateEffect row.effectKey row.outcome row.remoteId = .ok ()) :
    ∃ state, importState rows = .ok state := by
  have entries : ∀ entry ∈ (latestEffects rows).toList,
      validateEffect entry.1 entry.2.outcome entry.2.remoteId = .ok () := by
    rintro ⟨key, effect⟩ member
    rw [ExtTreeMap.mem_toList_iff_getElem?_eq_some, latestEffects_getElem?] at member
    obtain ⟨row, listed, rfl, rfl⟩ := mem_of_lastEffect member
    exact valid row listed
  have distinct : ((latestEffects rows).toList.map Prod.fst).Nodup := by
    rw [ExtTreeMap.map_fst_toList_eq_keys]
    exact ExtTreeMap.nodup_keys
  obtain ⟨latest, collected⟩ := exists_foldlM_stateRow distinct entries ∅ (by simp)
  refine ⟨⟨latest⟩, ?_⟩
  rw [importState, collected]
  rfl

/-- Every row of the journal is valid and belongs to an effect of the plan. -/
structure Legible (platform : Platform) (plan : UploadPlan) (rows : List ImportEvent) : Prop where
  valid : ∀ row ∈ rows, validateEffect row.effectKey row.outcome row.remoteId = .ok ()
  allowed : ∀ row ∈ rows, row.effectKey ∈ plan.operations.flatMap (allowedKeys platform)

theorem Runs.legible {platform : Platform} {plan : UploadPlan} {rows after : List ImportEvent}
    {later : List (List (Event Answer))} (runs : Runs platform plan rows later after)
    (legible : Legible platform plan rows) : Legible platform plan after := by
  induction runs with
  | refl => exact legible
  | run execution _ induction =>
      obtain ⟨scope, works⟩ := worksOn_of_execution execution
      obtain ⟨stored, rfl, inside⟩ := journal_grows execution
      refine induction ⟨fun row member => ?_, fun row member => ?_⟩
      · rcases List.mem_append.mp member with old | new
        · exact legible.valid row old
        · obtain ⟨key, rowOf⟩ := works.typed row (inside.subset new)
          exact rowOf.valid
      · rcases List.mem_append.mp member with old | new
        · exact legible.allowed row old
        · have listed := works.rows.subset (List.mem_map_of_mem (inside.subset new))
          obtain ⟨key, inScope, named⟩ := List.mem_map.mp listed
          rw [← named]
          exact works.allowed key inScope

/-- A legible journal passes the checks of the next run. -/
theorem Legible.accepted {platform : Platform} {plan : UploadPlan} {rows : List ImportEvent}
    (legible : Legible platform plan rows) :
    ∃ state, importState rows = .ok state ∧ state.validateForPlan platform plan = .ok () := by
  obtain ⟨state, read⟩ := exists_importState legible.valid
  refine ⟨state, read, ?_⟩
  rw [ImportState.validateForPlan, reject_eq_ok, Bool.not_eq_false', List.all_eq_true]
  intro key member
  rw [ExtTreeMap.mem_keys, ← ExtTreeMap.contains_iff_mem, ExtTreeMap.contains_eq_isSome_getElem?,
    (importState_ok read key).1, Option.isSome_iff_exists] at member
  obtain ⟨effect, last⟩ := member
  obtain ⟨row, member, rfl, _⟩ := mem_of_lastEffect last
  rw [ExtTreeSet.contains_ofList, List.contains_iff_mem]
  exact legible.allowed row member

/-- With lower-case digests, over any number of runs each cut off at any point: every row of the
journal passes `validate_effect` and the next run accepts the journal.  Moreover no run is stopped
by a row of its own, since it fails only with an error which staging or the journal reported. -/
theorem journal_acceptable {platform : Platform}
    (digests : ∀ bytes, isLowerSha256 (platform.sha256 bytes) = true) {plan : UploadPlan}
    (lower : ∀ operation ∈ plan.operations, isLowerSha256 operation.operationId = true) :
    (∀ history rows, Runs platform plan [] history rows →
      (∀ row ∈ rows, validateEffect row.effectKey row.outcome row.remoteId = .ok ()) ∧
        ∃ state, importState rows = .ok state ∧ state.validateForPlan platform plan = .ok ()) ∧
      ∀ (config : UploadExecutionConfig) (state : ImportState) (events : List (Event Answer))
        (error : ExecutorError) (last : Option ExecutorError),
        config.validate = .ok () → plan.validate platform = .ok () →
          Execution checkedEnvironment (applyEffects platform config plan state).run none events
            (.done (.error error)) last →
          last = some error ∨ orderedOperations plan = .error error := by
  refine ⟨fun history rows runs => ?_, ?_⟩
  · have legible := runs.legible ⟨by simp, by simp⟩
    exact ⟨legible.valid, legible.accepted⟩
  · intro config state events error last valid validated execution
    have accepted := (plan.validate_ok_iff platform).mp validated
    have positive := (UploadExecutionConfig.attempts_of_validate valid).1
    cases ordered : orderedOperations plan with
    | ok operations =>
        exact .inl (execution.result
          (applyEffects_completes accepted positive digests lower ordered state none))
    | error failure =>
        have failed : Holds (applyEffects platform config plan state).run none fun outcome _ =>
            outcome = .error failure := by
          refine (Program.ensures_exceptT_bind _ _ _ _).mpr ?_
          rw [ordered]
          exact rfl
        have same := execution.result failed
        rw [Except.error.inj same]
        exact .inr rfl

/-- The journal of a whole run of the album passes the checks of the next run. -/
theorem tripRows_acceptable :
    ∃ state, importState tripRows = .ok state ∧
      state.validateForPlan .reference tripPlan = .ok () := by
  have lower : ∀ operation ∈ tripPlan.operations,
      isLowerSha256 operation.operationId = true := by decide
  obtain ⟨readable, _⟩ := journal_acceptable
    (show ∀ bytes, isLowerSha256 (Platform.reference.sha256 bytes) = true from
      isLowerSha256_sha256Hex) lower
  exact (readable _ _ tripPlan_runs.1).2

end ImmichRs
