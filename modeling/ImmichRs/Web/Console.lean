import Mathlib.Logic.Function.Basic
import ImmichRs.Web.GrantRuns
import ImmichRs.Web.JobRuns

/-!
# The console

The job manager and the grants of one process, the checkpoints of its plans, and the system clock.
Apply jobs are only admitted through grants.  Confirming a receipt reads the clock and the plan's
checkpoint before it takes the lock of the grants.  Whatever else a call reads, the receipts of
completed dry runs among it, may differ from call to call.
-/

namespace ImmichRs.Web

open Collections

/-- What a console is opened with. -/
structure Console where
  manager : JobManager
  store : GrantStore

/-- A `confirm` which has read what it checks and has yet to take the lock. -/
structure PendingConfirm where
  owner : Owner
  request : GrantRequest
  environment : GrantEnvironment
  /-- How many writes to checkpoints came before it read the checkpoint. -/
  checked : Nat

/-- The state of a console, its checkpoints and the clock, with the log of writes to them. -/
structure ConsoleWorld where
  jobs : World
  grants : GrantState
  confirming : List PendingConfirm
  checkpoints : ArtifactRef → CheckpointFile
  /-- The threads which run against their checkpoint. -/
  opened : List Nat
  /-- Seconds since the epoch. -/
  clock : Nat
  /-- The plans whose checkpoints apply jobs created or modified, in that order. -/
  written : List ArtifactRef
  /-- For the grant of an owner, how many writes came before its confirmation read the
  checkpoint. -/
  grantChecked : Owner → Nat
  /-- The same for the grant under which a job was admitted. -/
  jobChecked : JobId → Nat

/-- A console which has just been started, over the checkpoints of earlier processes. -/
def ConsoleWorld.initial (checkpoints : ArtifactRef → CheckpointFile) (clock : Nat) :
    ConsoleWorld where
  jobs := .initial
  grants := .empty
  confirming := []
  checkpoints
  opened := []
  clock
  written := []
  grantChecked _ := 0
  jobChecked _ := 0

/-- One step of a caller, of a worker or of the clock. -/
inductive ConsoleAction
  /-- Anything of the job manager but the admission of an apply job. -/
  | job (action : Action)
  /-- A `confirm` reads what it checks; its checkpoints are the present ones. -/
  | read (owner : Owner) (request : GrantRequest) (environment : GrantEnvironment)
  /-- A `confirm` takes the lock. -/
  | confirm (position : Nat) (now : Instant) (randomKey : Option String)
  | admitJob (owner : Owner) (receipt : ReceiptRef) (idempotencyKey : String) (now : Instant)
      (environment : GrantEnvironment) (randomId : Option JobId) (spawned : Bool)
  | revoke (owner : Owner)
  /-- An apply job begins to run against its checkpoint. -/
  | run (thread : Nat) (environment : GrantEnvironment)
  /-- An apply job modifies its checkpoint. -/
  | write (thread : Nat)
  | tick (seconds : Nat)

namespace ConsoleWorld

variable (world : ConsoleWorld)

/-- A job creates or modifies the checkpoint of its plan. -/
def writes (reference : ArtifactRef) : ConsoleWorld :=
  { world with
    checkpoints := Function.update world.checkpoints reference (.privateFile (some world.clock))
    written := world.written ++ [reference] }

/-- The job and the capability of a worker which executes an apply job. -/
def applying (thread : Nat) : Option (JobId × ApplyCapability) :=
  match world.jobs.workers[thread]? with
  | some { job, phase := .executing _ (.apply _ _) (some capability) } => some (job, capability)
  | _ => none

end ConsoleWorld

namespace Console

variable (console : Console)

/-- What admitting an apply job does to the manager. -/
def admission (world : ConsoleWorld) (capability : ApplyCapability) (randomId : Option JobId)
    (spawned : Bool) : JobsState × Except AdmissionError JobId :=
  console.manager.admitApply world.jobs.finished world.jobs.state capability randomId
    (world.jobs.nextThread spawned)

/-- A step of the job manager. -/
def jobStep (world : ConsoleWorld) : Action → Option ConsoleWorld
  | .admitApply .. => none
  | action => (console.manager.act world.jobs action).map fun jobs => { world with jobs }

/-- A `confirm` reads what it checks. -/
def readStep (world : ConsoleWorld) (owner : Owner) (request : GrantRequest)
    (environment : GrantEnvironment) : Option ConsoleWorld :=
  if environment.nowUnix.all fun now => decide (now ≤ (world.clock : Int)) then
    some { world with
      confirming := world.confirming ++
        [{ owner
           request
           environment := { environment with checkpoint := world.checkpoints }
           checked := world.written.length }] }
  else
    none

/-- A `confirm` takes the lock. -/
def confirmStep (world : ConsoleWorld) (position : Nat) (now : Instant)
    (randomKey : Option String) : Option ConsoleWorld :=
  match world.confirming[position]? with
  | none => none
  | some pending =>
      let outcome := console.store.confirmAt world.grants pending.owner pending.request now
        pending.environment randomKey
      some { world with
        grants := outcome.1
        confirming := world.confirming.eraseIdx position
        grantChecked :=
          match outcome.2 with
          | .ok _ => Function.update world.grantChecked pending.owner pending.checked
          | .error _ => world.grantChecked }

/-- `admit_with`, with the admission of an apply job for its callback. -/
def admitStep (world : ConsoleWorld) (owner : Owner) (receipt : ReceiptRef)
    (idempotencyKey : String) (now : Instant) (environment : GrantEnvironment)
    (randomId : Option JobId) (spawned : Bool) : ConsoleWorld :=
  let outcome := console.store.admitLocked world.grants owner receipt idempotencyKey now environment
    fun capability => (console.admission world capability randomId spawned).2
  match outcome.2.handed with
  | none => { world with grants := outcome.1 }
  | some capability =>
      let admission := console.admission world capability randomId spawned
      { world with
        jobs := world.jobs.admission admission
        grants := outcome.1
        jobChecked :=
          match admission.2 with
          | .ok job => Function.update world.jobChecked job (world.grantChecked owner)
          | .error _ => world.jobChecked }

/-- An apply job begins to run against its checkpoint, which `apply_checkpoint` creates if there is
none. -/
def runStep (world : ConsoleWorld) (thread : Nat) (environment : GrantEnvironment) :
    Option ConsoleWorld :=
  match world.applying thread with
  | none => none
  | some (_, capability) =>
      if thread ∈ world.opened ∨
          bindingIsCurrent console.store.platform environment capability.binding = false then
        none
      else
        match world.checkpoints capability.binding.dryRun.planReference with
        | .invalid => none
        | .privateFile _ => some { world with opened := world.opened ++ [thread] }
        | .absent =>
            some { world.writes capability.binding.dryRun.planReference with
              opened := world.opened ++ [thread] }

/-- An apply job modifies its checkpoint. -/
def writeStep (world : ConsoleWorld) (thread : Nat) : Option ConsoleWorld :=
  match world.applying thread with
  | none => none
  | some (_, capability) =>
      if thread ∈ world.opened then
        some (world.writes capability.binding.dryRun.planReference)
      else
        none

/-- One step, if it can be taken. -/
def act (world : ConsoleWorld) : ConsoleAction → Option ConsoleWorld
  | .job action => console.jobStep world action
  | .read owner request environment => readStep world owner request environment
  | .confirm position now randomKey => console.confirmStep world position now randomKey
  | .admitJob owner receipt idempotencyKey now environment randomId spawned =>
      some (console.admitStep world owner receipt idempotencyKey now environment randomId spawned)
  | .revoke owner => some { world with grants := world.grants.revokeOwner owner }
  | .run thread environment => console.runStep world thread environment
  | .write thread => writeStep world thread
  | .tick seconds => some { world with clock := world.clock + seconds }

end Console

/-- The actions lead from a new console to a world. -/
inductive Console.RunsTo (console : Console) (checkpoints : ArtifactRef → CheckpointFile)
    (clock : Nat) : List ConsoleAction → ConsoleWorld → Prop
  | nil : console.RunsTo checkpoints clock [] (.initial checkpoints clock)
  | step {actions : List ConsoleAction} {world next : ConsoleWorld}
      (run : console.RunsTo checkpoints clock actions world) {action : ConsoleAction}
      (taken : console.act world action = some next) :
      console.RunsTo checkpoints clock (actions ++ [action]) next

end ImmichRs.Web
