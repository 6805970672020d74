import ImmichRs.Executor.ImportJournal

/-!
# Import effects

Metadata updates, album convergence and album memberships.  Each effect is requested under the
retry policy and then journalled once.
-/

namespace ImmichRs

open Interaction
open Std (ExtTreeMap ExtTreeSet)

/-- Counters of one import apply.  They are bounded by the plan and by the retry budget, so the
saturating additions of the source never saturate. -/
structure ImportApplyReport where
  planned : UploadPlanSummary
  created : Nat
  duplicate : Nat
  metadataUpdated : Nat
  albumsCreated : Nat
  albumsReused : Nat
  albumMembershipsUpdated : Nat
  resumedEffects : Nat
  retried : Nat
  failed : Nat
  indeterminate : Nat
  cancelled : Bool
  deriving DecidableEq

namespace ImportApplyReport

/-- Count a resumed effect. -/
def resume (report : ImportApplyReport) : ImportApplyReport :=
  { report with resumedEffects := report.resumedEffects + 1 }

/-- Add the retries of one effect. -/
def addRetries (report : ImportApplyReport) (retries : Nat) : ImportApplyReport :=
  { report with retried := report.retried + retries }

/-- Count an effect which failed or whose outcome is not known. -/
def fail (report : ImportApplyReport) (indeterminate : Bool) : ImportApplyReport :=
  if indeterminate then { report with indeterminate := report.indeterminate + 1 }
  else { report with failed := report.failed + 1 }

/-- Record that cancellation stopped the run. -/
def cancel (report : ImportApplyReport) : ImportApplyReport :=
  { report with cancelled := true }

end ImportApplyReport

/-- `append`. -/
def append (key : String) (outcome : ImportOutcome) (remoteId : Option String) (retries : Nat) :
    FallibleExecutor Unit :=
  appendEffect { effectKey := key, outcome, remoteId, retries }

/-- `record_effect_failure`. -/
def recordEffectFailure (key : String) (indeterminate : Bool) (retries : Nat)
    (report : ImportApplyReport) : FallibleExecutor ImportApplyReport := do
  append key (if indeterminate then .indeterminate else .failed) none retries
  return (report.fail indeterminate).addRetries retries

section

variable (platform : Platform) (config : UploadExecutionConfig)

/-- `wait_retry`. -/
def waitRetry (key : String) (retries : Nat) (error : ClientError) : Executor Bool :=
  wait (retryDelay platform key (retries + 1) error config)

/-- One iteration of the loops of `apply_metadata` and `apply_membership`. -/
def effectAttempt (key : String) (request : Executor (Except ClientError Unit))
    (count : ImportApplyReport → ImportApplyReport) (report : ImportApplyReport) (retries : Nat) :
    Executor (Nat ⊕ Except ExecutorError (Bool × ImportApplyReport)) := do
  match ← request with
  | .ok () =>
      return .inr (← ExceptT.run do
        append key .completed none retries
        return (true, (count report).addRetries retries))
  | .error error =>
      let stopped := ExceptT.run do
        let report ← recordEffectFailure key true retries report
        return (false, report.cancel)
      if error.class_ = .cancelled then
        return .inr (← stopped)
      else if ← retryAllowed config error retries then
        if ← waitRetry platform config key retries error then
          return .inl (retries + 1)
        else
          return .inr (← stopped)
      else
        return .inr (← ExceptT.run do
          let report ← recordEffectFailure key (uncertain error) retries report
          return (true, report))

/-- The loops of `apply_metadata` and `apply_membership`: whether to go on, and the report. -/
def settleEffect (key : String) (request : Executor (Except ClientError Unit))
    (count : ImportApplyReport → ImportApplyReport) (report : ImportApplyReport) :
    FallibleExecutor (Bool × ImportApplyReport) :=
  ExceptT.mk (Program.loop (effectAttempt platform config key request count report)
    (fun _ => .error .invariant) (config.maxAttemptsPerOperation + 1) 0)

/-- `apply_metadata`. -/
def applyMetadata (state : ImportState) (operation : UploadOperation) (assetId : String)
    (report : ImportApplyReport) : FallibleExecutor (Bool × ImportApplyReport) :=
  match operation.normalizedMetadata.filter hasAssignment with
  | none => return (true, report)
  | some metadata =>
      if state.metadataDone operation.operationId then
        return (true, report.resume)
      else
        settleEffect platform config (metadataKey operation.operationId)
          (updateAssetMetadata operation.operationId assetId metadata)
          (fun report => { report with metadataUpdated := report.metadataUpdated + 1 }) report

/-- `apply_membership`. -/
def applyMembership (identity albumId : String) (memberIds : List String)
    (report : ImportApplyReport) : FallibleExecutor (Bool × ImportApplyReport) :=
  settleEffect platform config (membershipKey identity)
    (addAlbumAssets identity albumId memberIds)
    (fun report =>
      { report with albumMembershipsUpdated := report.albumMembershipsUpdated + 1 }) report

/-! ## Albums -/

/-- `albums.entry(album).or_default().insert(asset_id)`. -/
def addMember (assetId : String) (albums : ExtTreeMap String (ExtTreeSet String))
    (album : String) : ExtTreeMap String (ExtTreeSet String) :=
  albums.insert album ((albums[album]?.getD ∅).insert assetId)

/-- `album_members`: the albums of the plan with the asset ids of their members. -/
def albumMembers (plan : UploadPlan) (assetIds : ExtTreeMap String String) :
    ExtTreeMap String (ExtTreeSet String) :=
  plan.operations.foldl (fun albums operation =>
    match assetIds[operation.operationId]? with
    | none => albums
    | some assetId => operation.albums.foldl (addMember assetId) albums) ∅

/-- `EffectResult`. -/
inductive EffectResult (α : Type)
  | done (value : α) (outcome : ImportOutcome) (retries : Nat)
  | failed (indeterminate : Bool) (retries : Nat)
  | cancelled (indeterminate : Bool) (retries : Nat)

/-- The retries of an effect. -/
def EffectResult.retries {α : Type} : EffectResult α → Nat
  | .done _ _ retries | .failed _ retries | .cancelled _ retries => retries

/-- One iteration of `lookup_albums`. -/
def lookupAttempt (name : String) (retries : Nat) :
    Executor (Nat ⊕ Except (EffectResult String) (List RemoteAlbum) × Nat) := do
  match ← findOwnedAlbums name with
  | .ok albums => return .inr (.ok albums, retries)
  | .error error =>
      if error.class_ = .cancelled then
        return .inr (.error (.cancelled false retries), retries)
      else if ← retryAllowed config error retries then
        if ← waitRetry platform config name retries error then
          return .inl (retries + 1)
        else
          return .inr (.error (.cancelled false retries), retries)
      else
        return .inr (.error (.failed false retries), retries)

/-- `lookup_albums`, with the retry count which it leaves behind. -/
def lookupAlbums (name : String) (retries : Nat) :
    Executor (Except (EffectResult String) (List RemoteAlbum) × Nat) :=
  Program.loop (lookupAttempt platform config name)
    (fun retries => (.error (.failed false retries), retries))
    (config.maxAttemptsPerOperation + 1) retries

/-- What the lookup after a failed create decides: to return, or to try again. -/
def observedAlbums (retries : Nat) :
    Except (EffectResult String) (List RemoteAlbum) → Option (EffectResult String)
  | .ok [album] => some (.done album.id .created retries)
  | .ok [] => none
  | .ok _ => some (.failed true retries)
  | .error (.cancelled _ count) => some (.cancelled true count)
  | .error (.failed _ count) => some (.failed true count)
  | .error (.done _ _ _) => some (.failed true retries)

/-- One iteration of the create loop of `converge_album`. -/
def createAttempt (name : String) (retries : Nat) : Executor (Nat ⊕ EffectResult String) := do
  match ← createAlbum name with
  | .ok album => return .inr (.done album.id .created retries)
  | .error error =>
      if error.class_ = .cancelled then
        return .inr (.cancelled true retries)
      else if error.isRetryable then
        let (observed, retries) ← lookupAlbums platform config name retries
        match observedAlbums retries observed with
        | some result => return .inr result
        | none =>
            let stopped : Executor (Nat ⊕ EffectResult String) := do
              if ← isCancelled then
                return .inr (.cancelled true retries)
              else
                return .inr (.failed (uncertain error) retries)
            if ← retryAllowed config error retries then
              if ← waitRetry platform config name retries error then
                return .inl (retries + 1)
              else
                stopped
            else
              stopped
      else
        return .inr (.failed false retries)

/-- `converge_album`. -/
def convergeAlbum (name : String) : Executor (EffectResult String) := do
  match ← lookupAlbums platform config name 0 with
  | (.error result, _) => return result
  | (.ok [album], retries) => return .done album.id .reused retries
  | (.ok [], retries) =>
      Program.loop (createAttempt platform config name)
        (fun retries => .failed false retries) (config.maxAttemptsPerOperation + 1) retries
  | (.ok _, retries) => return .failed false retries

/-- Count a converged album. -/
def ImportApplyReport.countAlbum (report : ImportApplyReport) : ImportOutcome → ImportApplyReport
  | .created => { report with albumsCreated := report.albumsCreated + 1 }
  | .reused => { report with albumsReused := report.albumsReused + 1 }
  | _ => report

/-- `record_album`. -/
def recordAlbum (identity : String) (effect : EffectResult String) (report : ImportApplyReport) :
    FallibleExecutor (Option String × ImportApplyReport) :=
  match effect with
  | .done album outcome retries => do
      append (albumKey identity) outcome (some album) retries
      return (some album, (report.countAlbum outcome).addRetries retries)
  | .failed indeterminate retries => do
      let report ← recordEffectFailure (albumKey identity) indeterminate retries report
      return (none, report)
  | .cancelled indeterminate retries => do
      let report ← recordEffectFailure (albumKey identity) indeterminate retries report
      return (none, report.cancel)

/-- The album of one iteration of `apply_albums`: resumed, or converged and recorded. -/
def albumReference (state : ImportState) (name : String) (report : ImportApplyReport) :
    FallibleExecutor (Option String × ImportApplyReport) :=
  match state.album (albumIdentity platform name) with
  | some (_, albumId) => return (some albumId, report.resume)
  | none => do
      let effect ← (convergeAlbum platform config name : Executor (EffectResult String))
      recordAlbum (albumIdentity platform name) effect report

/-- The loop of `apply_albums`. -/
def applyAlbumsLoop (state : ImportState) :
    List (String × ExtTreeSet String) → ImportApplyReport → FallibleExecutor ImportApplyReport
  | [], report => return report
  | (name, members) :: rest, report => do
      if ← (isCancelled : Executor Bool) then
        return report.cancel
      else
        match ← albumReference platform config state name report with
        | (none, report) =>
            if report.cancelled then return report else applyAlbumsLoop state rest report
        | (some albumId, report) =>
            if state.membershipDone (albumIdentity platform name) then
              applyAlbumsLoop state rest report.resume
            else
              match ← applyMembership platform config (albumIdentity platform name) albumId
                members.toList report with
              | (true, report) => applyAlbumsLoop state rest report
              | (false, report) => return report

/-- `apply_albums`. -/
def applyAlbums (plan : UploadPlan) (assetIds : ExtTreeMap String String) (state : ImportState)
    (report : ImportApplyReport) : FallibleExecutor ImportApplyReport :=
  applyAlbumsLoop platform config state (albumMembers plan assetIds).toList report

end

end ImmichRs
