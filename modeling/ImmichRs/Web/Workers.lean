import ImmichRs.Web.Jobs

/-!
# Jobs and their workers

The job manager as a monitor: callers and worker threads take the lock one at a time, a worker may
sleep on the condition variable, and what a worker or a caller does outside the lock interleaves
with everything else.  Threads do not panic.
-/

namespace ImmichRs.Web

open Collections

/-! ## Workers -/

/-- Where a worker thread is. -/
inductive WorkerPhase
  /-- About to take the lock in `begin`: started, or woken. -/
  | arriving
  /-- In the wait of `begin`. -/
  | asleep
  /-- Past `begin`, before `job_inputs`. -/
  | begun
  | executing (sourceId : String) (kind : JobKind) (capability : Option ApplyCapability)
  /-- In `finish`, past its write to the history. -/
  | recorded (outcome : WorkerOutcome) (receipt : Option ReceiptRef) (historyOk : Bool)
  /-- Past the end of `run`. -/
  | returned
  /-- Seen as finished by a join handle. -/
  | exited
  deriving DecidableEq

/-- Whether a worker is between the start and the end of its job. -/
def WorkerPhase.active : WorkerPhase → Bool
  | .begun | .executing .. | .recorded .. => true
  | _ => false

/-- Whether a worker has nothing more to do. -/
def WorkerPhase.done : WorkerPhase → Bool
  | .returned | .exited => true
  | _ => false

/-- A worker thread. -/
structure Worker where
  job : JobId
  phase : WorkerPhase
  deriving DecidableEq

/-- What the scan, planner, dry run or executor of a job returned. -/
inductive Work
  | completed (summary : JobSummary) (artifact : Option PlanArtifact)
      (dryRun : Option DryRunBinding)
  | failed
  | cancelled
  deriving DecidableEq

/-- What a job makes of its work. -/
def JobKind.outcome (kind : JobKind) : Work → WorkerOutcome
  | .completed summary artifact binding =>
      match kind with
      | .scan history => .completed history summary none none
      | .plan _ history => .completed history summary artifact none
      | .dryRun _ history => .completed history summary artifact binding
      | .apply _ history => .completed history summary artifact none
  | .failed => .failed kind.historyKind
  | .cancelled => .cancelled kind.historyKind

/-- The part of `run` between `job_inputs` and `finish`. -/
def execute (kind : JobKind) (capability : Option ApplyCapability) (resolved cancelled : Bool)
    (work : Work) : WorkerOutcome :=
  if !resolved then .failed kind.historyKind
  else if cancelled then .cancelled kind.historyKind
  else if kind.applies.isSome && capability.isNone then .failed kind.historyKind
  else kind.outcome work

theorem execute_kind (kind : JobKind) (capability : Option ApplyCapability)
    (resolved cancelled : Bool) (work : Work) :
    (execute kind capability resolved cancelled work).kind = kind.historyKind := by
  have outcome : (kind.outcome work).kind = kind.historyKind := by
    cases work <;> cases kind <;> rfl
  unfold execute
  split_ifs <;> first | rfl | exact outcome

/-- Whether a job reports the progress of a scan. -/
def JobKind.observed : JobKind → Bool
  | .scan _ | .plan .. => true
  | .dryRun .. | .apply .. => false

/-- How a write to the history ended; a failed one may have stored its row. -/
inductive HistoryWrite
  | written
  | failed (stored : Bool)
  deriving DecidableEq, Repr

/-- Whether a write succeeded. -/
def HistoryWrite.ok : HistoryWrite → Bool
  | .written => true
  | .failed _ => false

/-- Whether a write stored its row. -/
def HistoryWrite.stored : HistoryWrite → Bool
  | .written => true
  | .failed stored => stored

/-! ## The world -/

/-- A `cancel` which has released the lock and must still record the cancellation. -/
structure PendingCancel where
  job : JobId
  kind : HistoryKind
  /-- Whether the write has failed, so that only the flag is left to set. -/
  failed : Bool
  deriving DecidableEq

/-- The end of a job: its kind, and the terminal status which it reached. -/
structure Ending where
  job : JobId
  kind : HistoryKind
  status : TerminalStatus
  deriving DecidableEq

/-- The manager, its threads and calls, the history, and the log of what happened to jobs. -/
structure World where
  state : JobsState
  /-- All worker threads; a thread is named by its position. -/
  workers : List Worker
  cancels : List PendingCancel
  /-- The rows of the history, each with the job which it records. -/
  history : List (JobId × TerminalRecord)
  /-- The jobs which were admitted, in that order. -/
  admitted : List JobId
  /-- The jobs which were started, in that order. -/
  started : List JobId
  /-- The jobs which reached a terminal status. -/
  ended : List Ending

/-- A manager which has just been created. -/
def World.initial : World where
  state := .empty
  workers := []
  cancels := []
  history := []
  admitted := []
  started := []
  ended := []

/-- One step of a caller or of a worker. -/
inductive Action
  | admitJob (owner : Owner) (sourceId : String) (randomId : Option JobId) (spawned : Bool)
  | admitPlan (owner : Owner) (sourceId serverId : String) (randomId : Option JobId)
      (spawned : Bool)
  | admitDryRun (owner : Owner) (reference : ArtifactRef) (stored : Option StoredUploadPlan)
      (randomId : Option JobId) (spawned : Bool)
  | admitApply (capability : ApplyCapability) (randomId : Option JobId) (spawned : Bool)
  | snapshot (job : JobId) (owner : Owner)
  | cancel (job : JobId) (owner : Owner)
  /-- A `cancel` writes its record. -/
  | recordCancel (position : Nat) (clock : Option Int) (write : HistoryWrite)
  /-- A `cancel` whose write failed sets the flag. -/
  | flagCancel (position : Nat)
  /-- A worker runs one round of the loop of `begin`. -/
  | begin (thread : Nat)
  /-- A worker leaves the wait of `begin` without having been notified. -/
  | wake (thread : Nat)
  | inputs (thread : Nat)
  | observe (thread : Nat) (progress : JobProgress)
  /-- A worker ends its work and writes its record. -/
  | record (thread : Nat) (resolved cancelled : Bool) (work : Work) (clock : Option Int)
      (receipt : ReceiptRef) (write : HistoryWrite)
  | finish (thread : Nat)
  | exit (thread : Nat)
  | shutdown

/-- Whether an action asks for an admission. -/
def Action.admits : Action → Bool
  | .admitJob .. | .admitPlan .. | .admitDryRun .. | .admitApply .. => true
  | _ => false

namespace World

variable (world : World)

/-- Whether a thread is seen as finished. -/
def finished (thread : Nat) : Bool :=
  world.workers[thread]?.any fun worker => worker.phase = .exited

/-- `notify_all`. -/
def notifyAll (workers : List Worker) : List Worker :=
  workers.map fun worker =>
    if worker.phase = .asleep then { worker with phase := .arriving } else worker

/-- A worker moves on. -/
def advance (thread : Nat) (phase : WorkerPhase) : List Worker :=
  world.workers.modify thread fun worker => { worker with phase }

/-- An admission adds a worker, or only changes the state. -/
def admission (outcome : JobsState × Except AdmissionError JobId) : World :=
  match outcome.2 with
  | .ok job =>
      { world with
        state := outcome.1
        workers := world.workers ++ [{ job, phase := .arriving }]
        admitted := world.admitted ++ [job] }
  | .error _ => { world with state := outcome.1 }

/-- The thread which an admission would spawn. -/
def nextThread (spawned : Bool) : Option Nat :=
  if spawned then some world.workers.length else none

/-- The end of a job of the table. -/
def ending (job : JobId) (status : TerminalStatus) : List Ending :=
  (world.state.jobs.lookup job).toList.map fun stored => .mk job stored.kind.historyKind status

/-- The jobs which `shutdown` ends without having run. -/
def dropped : List Ending :=
  (world.state.jobs.entries.filter fun entry =>
      JobManager.shutdownCancels entry.2 && entry.2.status == .queued).map fun entry =>
    .mk entry.1 entry.2.kind.historyKind .cancelled

end World

namespace JobManager

variable (manager : JobManager)

/-- A caller cancels a job. -/
def cancelStep (world : World) (job : JobId) (owner : Owner) : World :=
  let outcome := manager.cancel world.state job owner
  let workers := if outcome.2.notifies then World.notifyAll world.workers else world.workers
  match outcome.2.record with
  | none => { world with state := outcome.1, workers }
  | some kind =>
      { world with
        state := outcome.1
        workers
        cancels := world.cancels ++ [{ job, kind, failed := false }]
        ended := world.ended ++ world.ending job .cancelled }

/-- A `cancel` records the cancellation. -/
def recordCancelStep (world : World) (position : Nat) (clock : Option Int)
    (write : HistoryWrite) : Option World :=
  match world.cancels[position]? with
  | some { job, kind, failed := false } =>
      let rest := world.cancels.eraseIdx position
      match clock with
      | none => some { world with cancels := rest ++ [{ job, kind, failed := true }] }
      | some recordedUnix =>
          let row := (job, cancelledRecord kind recordedUnix)
          some { world with
            history := if write.stored then world.history ++ [row] else world.history
            cancels := if write.ok then rest else rest ++ [{ job, kind, failed := true }] }
  | _ => none

/-- A `cancel` whose write failed stops further admissions. -/
def flagCancelStep (world : World) (position : Nat) : Option World :=
  match world.cancels[position]? with
  | some { job := _, kind := _, failed := true } =>
      some { world with
        state := { world.state with workerFailed := true }
        cancels := world.cancels.eraseIdx position }
  | _ => none

/-- A worker runs one round of the loop of `begin`. -/
def beginStep (world : World) (thread : Nat) : Option World :=
  match world.workers[thread]? with
  | some { job, phase := .arriving } =>
      let outcome := manager.begin world.state job
      match outcome.2 with
      | .leave => some { world with state := outcome.1, workers := world.advance thread .returned }
      | .wait => some { world with state := outcome.1, workers := world.advance thread .asleep }
      | .started =>
          some { world with
            state := outcome.1
            workers := world.advance thread .begun
            started := world.started ++ [job] }
  | _ => none

/-- A worker reads the inputs of its job. -/
def inputsStep (world : World) (thread : Nat) : Option World :=
  match world.workers[thread]? with
  | some { job, phase := .begun } =>
      let outcome := jobInputs world.state job
      match outcome.2 with
      | none => some { world with state := outcome.1, workers := world.advance thread .returned }
      | some (sourceId, kind, capability) =>
          some { world with
            state := outcome.1
            workers := world.advance thread (.executing sourceId kind capability) }
  | _ => none

/-- A worker ends its work and writes its record. -/
def recordStep (world : World) (thread : Nat) (resolved cancelled : Bool) (work : Work)
    (clock : Option Int) (receipt : ReceiptRef) (write : HistoryWrite) : Option World :=
  match world.workers[thread]? with
  | some { job, phase := .executing _ kind capability } =>
      -- The token is only ever set, so a worker which saw it set still finds it set.
      if cancelled && !(world.state.jobs.lookup job).any fun stored => stored.cancellation then
        none
      else
        let outcome := execute kind capability resolved cancelled work
        match historyRecord outcome clock with
        | none =>
            some { world with
              workers := world.advance thread (.recorded (.failed outcome.kind) none false) }
        | some record =>
            let history :=
              if write.stored then world.history ++ [(job, record)] else world.history
            some { world with
              history
              workers := world.advance thread <|
                if write.ok then
                  .recorded outcome (outcome.dryRunBinding.map fun _ => receipt) true
                else
                  .recorded (.failed outcome.kind) none false }
  | _ => none

/-- A worker ends its job. -/
def finishStep (world : World) (thread : Nat) : Option World :=
  match world.workers[thread]? with
  | some { job, phase := .recorded outcome receipt historyOk } =>
      some { world with
        state := manager.finish world.state job outcome receipt historyOk
        workers := World.notifyAll (world.advance thread .returned)
        ended := world.ended ++ world.ending job outcome.status }
  | _ => none

/-- Whether a thread is in a phase. -/
def threadIn (world : World) (thread : Nat) (phase : WorkerPhase) : Bool :=
  world.workers[thread]?.any fun worker => worker.phase = phase

/-- One step of a caller or of a worker, if it can be taken. -/
def act (world : World) : Action → Option World
  | .admitJob owner sourceId randomId spawned =>
      some (world.admission (manager.admitJob world.finished world.state owner sourceId randomId
        (world.nextThread spawned)))
  | .admitPlan owner sourceId serverId randomId spawned =>
      some (world.admission (manager.admitPlan world.finished world.state owner sourceId serverId
        randomId (world.nextThread spawned)))
  | .admitDryRun owner reference stored randomId spawned =>
      some (world.admission (manager.admitDryRun world.finished world.state owner reference stored
        randomId (world.nextThread spawned)))
  | .admitApply capability randomId spawned =>
      some (world.admission (manager.admitApply world.finished world.state capability randomId
        (world.nextThread spawned)))
  | .snapshot job owner =>
      some { world with state := (snapshot world.finished world.state job owner).1 }
  | .cancel job owner => some (manager.cancelStep world job owner)
  | .recordCancel position clock write => recordCancelStep world position clock write
  | .flagCancel position => flagCancelStep world position
  | .begin thread => manager.beginStep world thread
  | .wake thread =>
      if threadIn world thread .asleep then
        some { world with workers := world.advance thread .arriving }
      else
        none
  | .inputs thread => inputsStep world thread
  | .observe thread progress =>
      match world.workers[thread]? with
      | some { job, phase := .executing _ kind _ } =>
          if kind.observed then
            some { world with state := manager.observe world.state job progress }
          else
            none
      | _ => none
  | .record thread resolved cancelled work clock receipt write =>
      recordStep world thread resolved cancelled work clock receipt write
  | .finish thread => manager.finishStep world thread
  | .exit thread =>
      if threadIn world thread .returned then
        some { world with workers := world.advance thread .exited }
      else
        none
  | .shutdown =>
      some { world with
        state := manager.shutdown world.state
        workers := World.notifyAll world.workers
        ended := world.ended ++ world.dropped }

end JobManager

/-- The actions lead from a new manager to a world. -/
inductive JobManager.RunsTo (manager : JobManager) : List Action → World → Prop
  | nil : manager.RunsTo [] .initial
  | step {actions : List Action} {world next : World} (run : manager.RunsTo actions world)
      {action : Action} (taken : manager.act world action = some next) :
      manager.RunsTo (actions ++ [action]) next

/-- The world to which actions lead from a world, if they can all be taken. -/
def JobManager.run (manager : JobManager) (world : World) (actions : List Action) : Option World :=
  actions.foldlM manager.act world

theorem JobManager.run_append (manager : JobManager) (world : World)
    (before later : List Action) :
    manager.run world (before ++ later) =
      (manager.run world before).bind fun passed => manager.run passed later :=
  List.foldlM_append

theorem JobManager.runsTo_iff {manager : JobManager} {actions : List Action} {world : World} :
    manager.RunsTo actions world ↔ manager.run .initial actions = some world := by
  constructor
  · intro runs
    induction runs with
    | nil => rfl
    | step run taken induction =>
        rw [manager.run_append, induction, Option.bind_some, JobManager.run, List.foldlM_cons,
          taken]
        rfl
  · intro taken
    induction actions using List.reverseRecOn generalizing world with
    | nil =>
        obtain rfl := Option.some.inj taken
        exact .nil
    | append_singleton before action induction =>
        rw [manager.run_append] at taken
        obtain ⟨passed, reached, last⟩ := Option.bind_eq_some_iff.mp taken
        obtain ⟨next, moved, ends⟩ := Option.bind_eq_some_iff.mp last
        obtain rfl := Option.some.inj ends
        exact (induction reached).step moved

/-- A run can be cut wherever one of its beginnings ends. -/
theorem JobManager.RunsTo.rest {manager : JobManager} {before later : List Action}
    {passed world : World} (run : manager.RunsTo (before ++ later) world)
    (reached : manager.RunsTo before passed) : manager.run passed later = some world := by
  have taken := JobManager.runsTo_iff.mp run
  rwa [manager.run_append, JobManager.runsTo_iff.mp reached] at taken

end ImmichRs.Web
