import ImmichRs.Collections.Keyed
import ImmichRs.Web.Grants

/-!
# The job manager

The table of jobs under the manager's lock, and what each operation does to it while it holds the
lock.  Subscribers are left out: they only read events.
-/

namespace ImmichRs.Web

open Collections

/-! ## Jobs -/

/-- Identifier of a job. -/
abbrev JobId := String

/-- State of a job. -/
inductive JobStatus
  | queued | running | completed | failed | cancelled
  deriving DecidableEq, Repr

/-- `JobStatus::terminal`. -/
def JobStatus.terminal : JobStatus → Bool
  | .completed | .failed | .cancelled => true
  | .queued | .running => false

/-- Stage of a scan. -/
inductive ProgressStage
  | discovery | contentIdentity | reconciliation | complete
  deriving DecidableEq, Repr

/-- The last progress which a job reported. -/
structure JobProgress where
  sequence : Nat
  stage : Option ProgressStage
  assetsObserved : Nat
  bytesRead : Nat
  deriving DecidableEq

/-- `JobProgress::default`. -/
def JobProgress.default : JobProgress :=
  { sequence := 0, stage := none, assetsObserved := 0, bytesRead := 0 }

/-- Aggregate result of a job. -/
structure JobSummary where
  schemaVersion : Nat
  assets : Nat
  sidecars : Nat
  bytesRead : Nat
  warnings : Nat
  errors : Nat
  deriving DecidableEq

/-- One event of a job. -/
structure JobEvent where
  sequence : Nat
  status : JobStatus
  cancellationRequested : Bool
  progress : JobProgress
  summary : Option JobSummary
  deriving DecidableEq

/-- What a job does. -/
inductive JobKind
  | scan (history : HistoryKind)
  | plan (serverId : String) (history : HistoryKind)
  | dryRun (reference : ArtifactRef) (history : HistoryKind)
  | apply (reference : ArtifactRef) (history : HistoryKind)
  deriving DecidableEq

/-- `JobKind::history_kind`. -/
def JobKind.historyKind : JobKind → HistoryKind
  | .scan history | .plan _ history | .dryRun _ history | .apply _ history => history

/-- The plan which an apply job applies. -/
def JobKind.applies : JobKind → Option ArtifactRef
  | .apply reference _ => some reference
  | _ => none

/-- A job of the table. -/
structure StoredJob where
  id : JobId
  owner : Owner
  sourceId : String
  sourceLabel : String
  kind : JobKind
  status : JobStatus
  cancellationRequested : Bool
  /-- Whether the job's cancellation token is cancelled. -/
  cancellation : Bool
  progress : JobProgress
  summary : Option JobSummary
  artifact : Option PlanArtifact
  receipt : Option ReceiptRef
  events : List JobEvent
  nextEventSequence : Nat
  deriving DecidableEq

/-- `StoredJob::new`. -/
def StoredJob.new (id : JobId) (owner : Owner) (sourceId sourceLabel : String) (kind : JobKind) :
    StoredJob :=
  { id
    owner
    sourceId
    sourceLabel
    kind
    status := .queued
    cancellationRequested := false
    cancellation := false
    progress := .default
    summary := none
    artifact := none
    receipt := none
    events := []
    nextEventSequence := 0 }

/-- `push_event`. -/
def pushEvent (job : StoredJob) (replayLimit : Nat) : StoredJob :=
  let sequence := saturatingAdd job.nextEventSequence 1
  let event : JobEvent :=
    { sequence
      status := job.status
      cancellationRequested := job.cancellationRequested
      progress := job.progress
      summary := job.summary }
  { job with
    nextEventSequence := sequence
    events := (if job.events.length = replayLimit then job.events.tail else job.events) ++ [event] }

section

variable (job : StoredJob) (replayLimit : Nat)

@[simp] theorem pushEvent_kind : (pushEvent job replayLimit).kind = job.kind := rfl

@[simp] theorem pushEvent_status : (pushEvent job replayLimit).status = job.status := rfl

@[simp] theorem pushEvent_cancellationRequested :
    (pushEvent job replayLimit).cancellationRequested = job.cancellationRequested := rfl

end

/-- What a client is shown of a job. -/
structure JobSnapshot where
  id : JobId
  sourceLabel : String
  status : JobStatus
  cancellationRequested : Bool
  progress : JobProgress
  summary : Option JobSummary
  artifact : Option PlanArtifact
  receipt : Option ReceiptRef
  deriving DecidableEq

/-- `snapshot_job`. -/
def snapshotJob (job : StoredJob) : JobSnapshot :=
  { id := job.id
    sourceLabel := job.sourceLabel
    status := job.status
    cancellationRequested := job.cancellationRequested
    progress := job.progress
    summary := job.summary
    artifact := job.artifact
    receipt := job.receipt }

/-! ## The table -/

/-- The state under the manager's lock.  A handle is the number of its thread. -/
structure JobsState where
  jobs : Keyed JobId StoredJob
  order : List JobId
  handles : List Nat
  running : Nat
  queued : Nat
  shuttingDown : Bool
  workerFailed : Bool
  applyCapabilities : Keyed JobId ApplyCapability
  activeCheckpoints : Finset ArtifactRef

/-- The state of `JobManager::new`. -/
def JobsState.empty : JobsState where
  jobs := ∅
  order := []
  handles := []
  running := 0
  queued := 0
  shuttingDown := false
  workerFailed := false
  applyCapabilities := ∅
  activeCheckpoints := ∅

/-- Adapter of a configured source. -/
inductive SourceKind
  | folder | googleTakeout | applePhotos | picasa
  deriving DecidableEq, Repr

/-- `scan_history`. -/
def scanHistory : SourceKind → HistoryKind
  | .folder => .folderScan
  | .googleTakeout => .googleTakeoutPlan
  | .applePhotos => .applePhotosPlan
  | .picasa => .picasaPlan

/-- `plan_history`. -/
def planHistory : SourceKind → HistoryKind
  | .folder => .folderPlan
  | .googleTakeout => .googleTakeoutPlan
  | .applePhotos => .applePhotosPlan
  | .picasa => .picasaPlan

/-- `dry_run_history`. -/
def dryRunHistory : SourceKind → HistoryKind
  | .folder => .folderDryRun
  | .googleTakeout => .googleTakeoutDryRun
  | .applePhotos => .applePhotosDryRun
  | .picasa => .picasaDryRun

/-- `apply_history`. -/
def applyHistory : SourceKind → HistoryKind
  | .folder => .folderApply
  | .googleTakeout => .googleTakeoutApply
  | .applePhotos => .applePhotosApply
  | .picasa => .picasaApply

/-- The parts of a source profile which the manager uses. -/
structure SourceProfile where
  label : String
  kind : SourceKind
  deriving DecidableEq

/-- What a manager is opened with. -/
structure JobManager where
  limits : WebLimits
  /-- `WebConfig::source`. -/
  source : String → Option SourceProfile
  /-- Whether `WebConfig::server` finds a profile. -/
  hasServer : String → Bool

/-- `reap_workers`, where no thread panicked. -/
def reapWorkers (finished : Nat → Bool) (state : JobsState) : JobsState :=
  { state with handles := state.handles.filter fun thread => !finished thread }

/-- Whether a job of the table has ended. -/
def JobsState.isTerminal (state : JobsState) (id : JobId) : Bool :=
  (state.jobs.lookup id).any fun job => job.status.terminal

/-- Whether a job of the table waits. -/
def JobsState.isQueued (state : JobsState) (id : JobId) : Bool :=
  (state.jobs.lookup id).any fun job => job.status == .queued

theorem JobsState.isTerminal_iff (state : JobsState) {id : JobId} :
    state.isTerminal id = true ↔
      ∃ job, state.jobs.lookup id = some job ∧ job.status.terminal = true := by
  unfold JobsState.isTerminal
  cases state.jobs.lookup id <;> simp

theorem JobsState.isQueued_iff (state : JobsState) {id : JobId} :
    state.isQueued id = true ↔
      ∃ job, state.jobs.lookup id = some job ∧ job.status = .queued := by
  unfold JobsState.isQueued
  cases state.jobs.lookup id <;> simp

/-- The loop of `evict_terminal`, each round of which shortens the order. -/
def evictRounds (retained : Nat) : Nat → JobsState → JobsState
  | 0, state => state
  | rounds + 1, state =>
      if retained ≤ state.jobs.keys.length then
        match state.order.find? state.isTerminal with
        | none => state
        | some id =>
            evictRounds retained rounds
              { state with order := state.order.erase id, jobs := state.jobs.erase id }
      else
        state

/-- `evict_terminal`. -/
def evictTerminal (retained : Nat) (state : JobsState) : JobsState :=
  evictRounds retained state.order.length state

/-! ## Outcomes -/

/-- How the work of a job ended. -/
inductive WorkerOutcome
  | completed (kind : HistoryKind) (summary : JobSummary) (artifact : Option PlanArtifact)
      (dryRun : Option DryRunBinding)
  | failed (kind : HistoryKind)
  | cancelled (kind : HistoryKind)
  deriving DecidableEq

/-- `WorkerOutcome::kind`. -/
def WorkerOutcome.kind : WorkerOutcome → HistoryKind
  | .completed kind _ _ _ | .failed kind | .cancelled kind => kind

/-- `WorkerOutcome::dry_run_binding`. -/
def WorkerOutcome.dryRunBinding : WorkerOutcome → Option DryRunBinding
  | .completed _ _ _ dryRun => dryRun
  | .failed _ | .cancelled _ => none

/-- The status which a terminal record names. -/
def WorkerOutcome.status : WorkerOutcome → TerminalStatus
  | .completed .. => .completed
  | .failed _ => .failed
  | .cancelled _ => .cancelled

/-- The status of a job with a terminal record. -/
def jobStatus : TerminalStatus → JobStatus
  | .completed => .completed
  | .failed => .failed
  | .cancelled => .cancelled

/-- `history_record`, with the clock if it could be read. -/
def historyRecord (outcome : WorkerOutcome) (clock : Option Int) : Option TerminalRecord :=
  let recordedUnix :=
    match outcome.dryRunBinding with
    | some binding => some binding.completedUnix
    | none => clock
  recordedUnix.map fun recordedUnix =>
    match outcome with
    | .completed kind summary artifact _ =>
        { recordedUnix
          kind
          status := .completed
          plan := artifact.map fun artifact => (artifact.reference, artifact.schemaVersion)
          counters :=
            { assets := summary.assets
              sidecars := summary.sidecars
              bytesRead := summary.bytesRead
              warnings := summary.warnings
              errors := summary.errors
              maxLogicalEffects :=
                match artifact with
                | some artifact => artifact.maxLogicalEffects
                | none => 0 } }
    | .failed kind => .mk recordedUnix kind .failed none .default
    | .cancelled kind => .mk recordedUnix kind .cancelled none .default

theorem historyRecord_kind {outcome : WorkerOutcome} {clock : Option Int} {record : TerminalRecord}
    (made : historyRecord outcome clock = some record) :
    record.kind = outcome.kind ∧ record.status = outcome.status := by
  unfold historyRecord at made
  obtain ⟨recordedUnix, -, rfl⟩ := Option.map_eq_some_iff.mp made
  cases outcome <;> exact ⟨rfl, rfl⟩

/-- The record which `cancel` writes for a job which was waiting. -/
def cancelledRecord (kind : HistoryKind) (recordedUnix : Int) : TerminalRecord :=
  { recordedUnix, kind, status := .cancelled, plan := none, counters := .default }

/-! ## Operations -/

namespace JobManager

variable (manager : JobManager)

/-- The worker limit of an admission. -/
def workerLimit : Nat :=
  saturatingAdd manager.limits.concurrentJobs manager.limits.queuedJobs

/-- The state after a refused thread: everything which the admission added is taken back. -/
def rollBack (state : JobsState) (id : JobId) : Option ArtifactRef → JobsState
  | none =>
      { state with
        jobs := state.jobs.erase id
        order := state.order.filter (· ≠ id)
        queued := state.queued - 1 }
  | some reference =>
      { state with
        jobs := state.jobs.erase id
        order := state.order.filter (· ≠ id)
        queued := state.queued - 1
        activeCheckpoints := state.activeCheckpoints.erase reference
        applyCapabilities := state.applyCapabilities.erase id }

/-- The state with a new job, and with the capability of an apply job. -/
def enqueue (state : JobsState) (job : StoredJob) :
    Option (ArtifactRef × ApplyCapability) → JobsState
  | none =>
      { state with
        jobs := state.jobs.insert job.id (pushEvent job manager.limits.sseReplayEvents)
        order := state.order ++ [job.id]
        queued := saturatingAdd state.queued 1 }
  | some (reference, capability) =>
      { state with
        jobs := state.jobs.insert job.id (pushEvent job manager.limits.sseReplayEvents)
        order := state.order ++ [job.id]
        queued := saturatingAdd state.queued 1
        applyCapabilities := state.applyCapabilities.insert job.id capability
        activeCheckpoints := insert reference state.activeCheckpoints }

/-- The state in which an admission looks for room. -/
def cleared (finished : Nat → Bool) (state : JobsState) : JobsState :=
  evictTerminal manager.limits.retainedJobs (reapWorkers finished state)

/-- The part of `admit_kind` and of `admit_apply` which holds the lock; `thread` is the new thread,
unless it could not be spawned. -/
def admitLocked (finished : Nat → Bool) (state : JobsState) (job : StoredJob)
    (apply : Option (ArtifactRef × ApplyCapability)) (thread : Option Nat) :
    JobsState × Except AdmissionError JobId :=
  let state := manager.cleared finished state
  if state.shuttingDown || state.workerFailed then
    (state, .error .unavailable)
  else if apply.any (fun admission => admission.1 ∈ state.activeCheckpoints) ||
      decide (job.id ∈ state.jobs) ||
      decide (manager.workerLimit ≤ saturatingAdd state.running state.queued) ||
      decide (manager.workerLimit ≤ state.handles.length) ||
      decide (manager.limits.retainedJobs ≤ state.jobs.keys.length) then
    (state, .error .full)
  else
    match thread with
    | none => (rollBack (manager.enqueue state job apply) job.id (apply.map Prod.fst),
        .error .unavailable)
    | some thread =>
        let state := manager.enqueue state job apply
        ({ state with handles := state.handles ++ [thread] }, .ok job.id)

/-- `JobManager::admit_kind`, with the random identifier or its failure. -/
def admitKind (finished : Nat → Bool) (state : JobsState) (owner : Owner) (sourceId : String)
    (kind : JobKind) (randomId : Option JobId) (thread : Option Nat) :
    JobsState × Except AdmissionError JobId :=
  match manager.source sourceId with
  | none => (state, .error .unknownProfile)
  | some profile =>
      match randomId with
      | none => (state, .error .unavailable)
      | some id =>
          manager.admitLocked finished state (.new id owner sourceId profile.label kind) none thread

/-- `JobManager::admit`. -/
def admitJob (finished : Nat → Bool) (state : JobsState) (owner : Owner) (sourceId : String)
    (randomId : Option JobId) (thread : Option Nat) : JobsState × Except AdmissionError JobId :=
  match manager.source sourceId with
  | none => (state, .error .unknownProfile)
  | some profile =>
      manager.admitKind finished state owner sourceId (.scan (scanHistory profile.kind)) randomId
        thread

/-- `JobManager::admit_plan`. -/
def admitPlan (finished : Nat → Bool) (state : JobsState) (owner : Owner)
    (sourceId serverId : String) (randomId : Option JobId) (thread : Option Nat) :
    JobsState × Except AdmissionError JobId :=
  if manager.hasServer serverId then
    match manager.source sourceId with
    | none => (state, .error .unknownProfile)
    | some profile =>
        manager.admitKind finished state owner sourceId (.plan serverId (planHistory profile.kind))
          randomId thread
  else
    (state, .error .unknownProfile)

/-- `JobManager::admit_dry_run`, with the stored plan if it could be loaded. -/
def admitDryRun (finished : Nat → Bool) (state : JobsState) (owner : Owner)
    (reference : ArtifactRef) (stored : Option StoredUploadPlan) (randomId : Option JobId)
    (thread : Option Nat) : JobsState × Except AdmissionError JobId :=
  match stored with
  | none => (state, .error .unknownProfile)
  | some stored =>
      if manager.hasServer stored.binding.serverProfileId then
        match manager.source stored.binding.sourceProfileId with
        | none => (state, .error .unknownProfile)
        | some profile =>
            manager.admitKind finished state owner stored.binding.sourceProfileId
              (.dryRun reference (dryRunHistory profile.kind)) randomId thread
      else
        (state, .error .unknownProfile)

/-- `JobManager::admit_apply`. -/
def admitApply (finished : Nat → Bool) (state : JobsState) (capability : ApplyCapability)
    (randomId : Option JobId) (thread : Option Nat) : JobsState × Except AdmissionError JobId :=
  let sourceId := capability.binding.sourceProfileId
  let reference := capability.binding.dryRun.planReference
  match manager.source sourceId with
  | none => (state, .error .unknownProfile)
  | some profile =>
      match randomId with
      | none => (state, .error .unavailable)
      | some id =>
          manager.admitLocked finished state
            (.new id capability.binding.owner sourceId profile.label
              (.apply reference (applyHistory profile.kind)))
            (some (reference, capability)) thread

/-- `JobManager::snapshot`. -/
def snapshot (finished : Nat → Bool) (state : JobsState) (id : JobId) (owner : Owner) :
    JobsState × Option JobSnapshot :=
  let state := reapWorkers finished state
  (state, ((state.jobs.lookup id).filter fun job => job.owner == owner).map snapshotJob)

/-- What `cancel` does after it released the lock, and what it returns. -/
structure CancelReply where
  snapshot : Option JobSnapshot
  /-- The kind of the job whose cancellation it records. -/
  record : Option HistoryKind
  /-- Whether it woke the sleeping workers. -/
  notifies : Bool

/-- The job with its cancellation requested, and ended if it was waiting. -/
def requestCancellation (job : StoredJob) : StoredJob :=
  pushEvent
    { job with
      cancellationRequested := true
      cancellation := true
      status := if job.status = .queued then .cancelled else job.status }
    manager.limits.sseReplayEvents

/-- What is released with a waiting job. -/
def release (state : JobsState) (id : JobId) (kind : JobKind) : JobsState :=
  { state with
    queued := state.queued - 1
    applyCapabilities := state.applyCapabilities.erase id
    activeCheckpoints :=
      match kind.applies with
      | some reference => state.activeCheckpoints.erase reference
      | none => state.activeCheckpoints }

/-- The part of `JobManager::cancel` which holds the lock. -/
def cancel (state : JobsState) (id : JobId) (owner : Owner) : JobsState × CancelReply :=
  match (state.jobs.lookup id).filter fun job => job.owner == owner with
  | none => (state, { snapshot := none, record := none, notifies := false })
  | some job =>
      let requests := !job.status.terminal && !job.cancellationRequested
      let updated := if requests then manager.requestCancellation job else job
      let next := { state with jobs := state.jobs.insert id updated }
      (if job.status = .queued then release next id job.kind else next,
        { snapshot := some (snapshotJob updated)
          record := if requests && job.status == .queued then some job.kind.historyKind else none
          notifies := requests })

/-! ## Workers -/

/-- What one round of the loop of `begin` decides. -/
inductive BeginReply
  | leave | started | wait
  deriving DecidableEq, Repr

/-- The job with another status, and the event which tells so. -/
def moveTo (status : JobStatus) (job : StoredJob) : StoredJob :=
  pushEvent { job with status } manager.limits.sseReplayEvents

@[simp] theorem moveTo_kind (status : JobStatus) (job : StoredJob) :
    (manager.moveTo status job).kind = job.kind := rfl

@[simp] theorem moveTo_status (status : JobStatus) (job : StoredJob) :
    (manager.moveTo status job).status = status := rfl

/-- One round of the loop of `begin`. -/
def begin (state : JobsState) (id : JobId) : JobsState × BeginReply :=
  if !state.isQueued id || state.shuttingDown then
    (state, .leave)
  else if state.order.find? state.isQueued = some id ∧
      state.running < manager.limits.concurrentJobs then
    ({ state with
        queued := state.queued - 1
        running := saturatingAdd state.running 1
        jobs := Keyed.modify id (manager.moveTo .running) state.jobs }, .started)
  else
    (state, .wait)

/-- `job_inputs`. -/
def jobInputs (state : JobsState) (id : JobId) :
    JobsState × Option (String × JobKind × Option ApplyCapability) :=
  match state.jobs.lookup id with
  | none => (state, none)
  | some job =>
      ({ state with applyCapabilities := state.applyCapabilities.erase id },
        some (job.sourceId, job.kind, state.applyCapabilities.lookup id))

/-- `JobObserver::observe`, for a scan event. -/
def observe (state : JobsState) (id : JobId) (progress : JobProgress) : JobsState :=
  { state with
    jobs := Keyed.modify id
      (fun job => pushEvent { job with progress } manager.limits.sseReplayEvents) state.jobs }

/-- The job with the outcome of its work. -/
def settle (outcome : WorkerOutcome) (receipt : Option ReceiptRef) (job : StoredJob) : StoredJob :=
  match outcome with
  | .completed _ summary artifact _ =>
      manager.moveTo .completed { job with summary := some summary, artifact, receipt }
  | .failed _ => manager.moveTo .failed job
  | .cancelled _ => manager.moveTo .cancelled job

/-- The part of `finish` which holds the lock, after the record was written or failed. -/
def finish (state : JobsState) (id : JobId) (outcome : WorkerOutcome)
    (receipt : Option ReceiptRef) (historyOk : Bool) : JobsState :=
  { state with
    activeCheckpoints :=
      match (state.jobs.lookup id).bind fun job => job.kind.applies with
      | some reference => state.activeCheckpoints.erase reference
      | none => state.activeCheckpoints
    applyCapabilities := state.applyCapabilities.erase id
    workerFailed := state.workerFailed || !historyOk
    running := state.running - 1
    jobs := Keyed.modify id (manager.settle outcome receipt) state.jobs }

/-- Whether `shutdown` cancels a job. -/
def shutdownCancels (job : StoredJob) : Bool :=
  !job.status.terminal && !job.cancellationRequested

/-- The job after `shutdown`. -/
def shutdownJob (job : StoredJob) : StoredJob :=
  if shutdownCancels job then manager.requestCancellation job else job

/-- The part of `JobManager::shutdown` which holds the lock; the rest joins the threads. -/
def shutdown (state : JobsState) : JobsState :=
  { state with
    shuttingDown := true
    jobs := Keyed.mapValues manager.shutdownJob state.jobs
    queued := state.queued -
      Keyed.count (fun job => shutdownCancels job && job.status == .queued) state.jobs
    handles := [] }

end JobManager

end ImmichRs.Web
