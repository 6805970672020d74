import ImmichRs.Interaction.Broadcast
import ImmichRs.Web.JobRuns

/-!
# Event logs of jobs

Which jobs a step pushes an event of, and what it does to the events which a job keeps: a job which
has not ended gets one more event, and only a job which has ended leaves the table.
-/

namespace ImmichRs.Web

open Collections

variable {manager : JobManager} {world next : World}

/-- Whether a step calls `push_event` for a job of the table. -/
def JobManager.pushes (manager : JobManager) (world : World) : Action → JobId → Bool
  | .cancel job owner, id => id == job && (manager.cancel world.state job owner).2.notifies
  | .begin thread, id =>
      match world.workers[thread]? with
      | some { job, phase := .arriving } =>
          id == job && (manager.begin world.state job).2 == .started
      | _ => false
  | .observe thread _, id =>
      match world.workers[thread]? with
      | some { job, phase := .executing .. } => id == job
      | _ => false
  | .finish thread, id =>
      match world.workers[thread]? with
      | some { job, phase := .recorded .. } => id == job
      | _ => false
  | .shutdown, id => (world.state.jobs.lookup id).any JobManager.shutdownCancels
  | _, _ => false

/-- The job which a step has admitted. -/
def World.enrolled (world next : World) : Option JobId := next.admitted[world.admitted.length]?

/-- A job keeps its status and its events. -/
structure StoredJob.SameLog (before after : StoredJob) : Prop where
  status : after.status = before.status
  events : after.events = before.events
  sequence : after.nextEventSequence = before.nextEventSequence

theorem StoredJob.SameLog.refl (job : StoredJob) : job.SameLog job := ⟨rfl, rfl, rfl⟩

/-- A job as it is admitted. -/
structure StoredJob.Fresh (job : StoredJob) : Prop where
  waiting : job.status = .queued
  events : job.events = []
  sequence : job.nextEventSequence = 0

theorem StoredJob.fresh_new (id : JobId) (owner : Owner) (sourceId label : String)
    (kind : JobKind) : (StoredJob.new id owner sourceId label kind).Fresh := ⟨rfl, rfl, rfl⟩

/-- What a step does to an entry of the table, where it pushes an event of the job or admits it. -/
inductive LogChange (limit : Nat) (pushed enrolled : Bool) :
    Option StoredJob → Option StoredJob → Prop
  | absent (quiet : pushed = false) (old : enrolled = false) :
      LogChange limit pushed enrolled none none
  | keep {before after : StoredJob} (quiet : pushed = false) (old : enrolled = false)
      (same : before.SameLog after) : LogChange limit pushed enrolled (some before) (some after)
  | push {before changed : StoredJob} (pushes : pushed = true) (old : enrolled = false)
      (running : before.status.terminal = false) (events : changed.events = before.events)
      (sequence : changed.nextEventSequence = before.nextEventSequence) :
      LogChange limit pushed enrolled (some before) (some (pushEvent changed limit))
  | evict {before : StoredJob} (quiet : pushed = false) (old : enrolled = false)
      (ended : before.status.terminal = true) :
      LogChange limit pushed enrolled (some before) none
  | enrol {before : Option StoredJob} {job : StoredJob} (quiet : pushed = false)
      (new : enrolled = true) (ended : ∀ earlier ∈ before, earlier.status.terminal = true)
      (fresh : job.Fresh) : LogChange limit pushed enrolled before (some (pushEvent job limit))

/-- A step which neither pushes an event of a job nor admits it. -/
theorem LogChange.same {limit : Nat} {before after : Option StoredJob} (same : after = before) :
    LogChange limit false false before after := by
  subst same
  cases after with
  | none => exact .absent rfl rfl
  | some job => exact .keep rfl rfl (.refl job)

/-! ## Admissions -/

/-- What an admission does to the state: it admits a new job, if any. -/
def JobManager.Enrols (manager : JobManager) (world : World)
    (outcome : JobsState × Except AdmissionError JobId) : Prop :=
  (∃ error, outcome = (world.state, .error error)) ∨
    ∃ job apply thread, job.Fresh ∧
      outcome = manager.admitLocked world.finished world.state job apply thread

theorem JobManager.admitKind_enrols (manager : JobManager) (world : World) (owner : Owner)
    (sourceId : String) (kind : JobKind) (randomId : Option JobId) (thread : Option Nat) :
    manager.Enrols world
      (manager.admitKind world.finished world.state owner sourceId kind randomId thread) := by
  unfold JobManager.admitKind
  split
  · exact .inl ⟨_, rfl⟩
  · split
    · exact .inl ⟨_, rfl⟩
    · exact .inr ⟨_, none, thread, StoredJob.fresh_new .., rfl⟩

theorem JobManager.admitJob_enrols (manager : JobManager) (world : World) (owner : Owner)
    (sourceId : String) (randomId : Option JobId) (thread : Option Nat) :
    manager.Enrols world
      (manager.admitJob world.finished world.state owner sourceId randomId thread) := by
  unfold JobManager.admitJob
  split
  · exact .inl ⟨_, rfl⟩
  · exact manager.admitKind_enrols world owner sourceId _ randomId thread

theorem JobManager.admitPlan_enrols (manager : JobManager) (world : World) (owner : Owner)
    (sourceId serverId : String) (randomId : Option JobId) (thread : Option Nat) :
    manager.Enrols world
      (manager.admitPlan world.finished world.state owner sourceId serverId randomId thread) := by
  unfold JobManager.admitPlan
  split_ifs
  · split
    · exact .inl ⟨_, rfl⟩
    · exact manager.admitKind_enrols world owner sourceId _ randomId thread
  · exact .inl ⟨_, rfl⟩

theorem JobManager.admitDryRun_enrols (manager : JobManager) (world : World) (owner : Owner)
    (reference : ArtifactRef) (stored : Option StoredUploadPlan) (randomId : Option JobId)
    (thread : Option Nat) :
    manager.Enrols world
      (manager.admitDryRun world.finished world.state owner reference stored randomId thread) := by
  unfold JobManager.admitDryRun
  split
  · exact .inl ⟨_, rfl⟩
  · split_ifs
    · split
      · exact .inl ⟨_, rfl⟩
      · exact manager.admitKind_enrols world owner _ _ randomId thread
    · exact .inl ⟨_, rfl⟩

theorem JobManager.admitApply_enrols (manager : JobManager) (world : World)
    (capability : ApplyCapability) (randomId : Option JobId) (thread : Option Nat) :
    manager.Enrols world
      (manager.admitApply world.finished world.state capability randomId thread) := by
  unfold JobManager.admitApply
  simp only
  split
  · exact .inl ⟨_, rfl⟩
  · split
    · exact .inl ⟨_, rfl⟩
    · exact .inr ⟨_, some _, thread, StoredJob.fresh_new .., rfl⟩

theorem lookup_evictRounds (retained rounds : Nat) (state : JobsState) (id : JobId) :
    (evictRounds retained rounds state).jobs.lookup id = state.jobs.lookup id ∨
      (evictRounds retained rounds state).jobs.lookup id = none ∧ state.isTerminal id = true := by
  induction rounds generalizing state with
  | zero => exact .inl rfl
  | succ rounds induction =>
      unfold evictRounds
      split_ifs
      · split
        · exact .inl rfl
        · rename_i other found
          have ended := List.find?_some found
          rcases induction { state with
              order := state.order.erase other, jobs := state.jobs.erase other } with
            kept | ⟨gone, last⟩
          · by_cases same : id = other
            · subst same
              exact .inr ⟨kept.trans (AList.lookup_erase id state.jobs), ended⟩
            · exact .inl (kept.trans (AList.lookup_erase_ne same))
          · obtain ⟨job, held, terminal⟩ := JobsState.isTerminal_iff _ |>.mp last
            exact .inr ⟨gone, state.isTerminal_iff.mpr
              ⟨job, (Keyed.lookup_of_lookup_erase held).2, terminal⟩⟩
      · exact .inl rfl

theorem JobManager.lookup_cleared (manager : JobManager) (finished : Nat → Bool)
    (state : JobsState) (id : JobId) :
    (manager.cleared finished state).jobs.lookup id = state.jobs.lookup id ∨
      (manager.cleared finished state).jobs.lookup id = none ∧ state.isTerminal id = true :=
  lookup_evictRounds _ _ (reapWorkers finished state) id

/-- Looking for room evicts jobs which have ended. -/
theorem JobManager.logChange_cleared (manager : JobManager) (finished : Nat → Bool)
    (state : JobsState) (limit : Nat) (id : JobId) :
    LogChange limit false false (state.jobs.lookup id)
      ((manager.cleared finished state).jobs.lookup id) := by
  rcases manager.lookup_cleared finished state id with kept | ⟨gone, last⟩
  · exact .same kept
  · obtain ⟨job, held, terminal⟩ := state.isTerminal_iff.mp last
    rw [gone, held]
    exact .evict rfl rfl terminal

theorem JobManager.logChange_admission
    (coherent : world.state.shuttingDown = false → world.state.Coherent manager.limits)
    (bounds : manager.limits.BoundsJobs) {outcome : JobsState × Except AdmissionError JobId}
    (enrols : manager.Enrols world outcome) (id : JobId) :
    LogChange manager.limits.sseReplayEvents false
      (decide (world.enrolled (world.admission outcome) = some id))
      (world.state.jobs.lookup id) ((world.admission outcome).state.jobs.lookup id) := by
  have none_enrolled : world.admitted[world.admitted.length]? = none :=
    List.getElem?_eq_none (Nat.le_refl _)
  rcases enrols with ⟨error, rfl⟩ | ⟨job, apply, thread, fresh, rfl⟩
  · rw [World.admission, World.enrolled, none_enrolled]
    exact .same rfl
  · rcases manager.admitLocked_cases coherent bounds world.finished job apply thread with
      ⟨error, refused⟩ | ⟨number, room, admitted⟩
    · rw [refused, World.admission, World.enrolled, none_enrolled]
      exact manager.logChange_cleared _ _ _ id
    · rw [admitted, World.admission, World.enrolled, List.getElem?_concat_length]
      simp only [manager.enqueue_jobs]
      by_cases same : id = job.id
      · subst same
        rw [AList.lookup_insert, decide_eq_true rfl]
        refine .enrol rfl rfl (fun earlier held => ?_) fresh
        rcases manager.lookup_cleared world.finished world.state job.id with kept | ⟨-, last⟩
        · exact absurd (Keyed.mem_of_lookup (kept.trans held)) room.fresh
        · obtain ⟨found, present, terminal⟩ := world.state.isTerminal_iff.mp last
          rw [Option.mem_def, present, Option.some.injEq] at held
          exact held ▸ terminal
      · rw [AList.lookup_insert_ne same,
          decide_eq_false fun equal => same (Option.some.inj equal).symm]
        exact manager.logChange_cleared _ _ _ id

/-! ## Other steps -/

/-- One job of the table gets an event. -/
theorem LogChange.insert {limit : Nat} {before after : Keyed JobId StoredJob} {id : JobId}
    {old changed : StoredJob} (held : before.lookup id = some old)
    (jobs : after = before.insert id (pushEvent changed limit))
    (running : old.status.terminal = false) (events : changed.events = old.events)
    (sequence : changed.nextEventSequence = old.nextEventSequence) (other : JobId) :
    LogChange limit (other == id) false (before.lookup other) (after.lookup other) := by
  rw [jobs]
  by_cases same : other = id
  · subst same
    rw [AList.lookup_insert, held, beq_self_eq_true]
    exact .push rfl rfl running events sequence
  · rw [AList.lookup_insert_ne same, beq_eq_false_iff_ne.mpr same]
    exact .same rfl

theorem JobManager.logChange_cancel (manager : JobManager) (state : JobsState) (job : JobId)
    (owner : Owner) (id : JobId) :
    LogChange manager.limits.sseReplayEvents
      (id == job && (manager.cancel state job owner).2.notifies) false (state.jobs.lookup id)
      ((manager.cancel state job owner).1.jobs.lookup id) := by
  unfold JobManager.cancel
  split
  · rw [Bool.and_false]
    exact .same rfl
  · rename_i stored found
    have held := lookup_of_owned found
    have jobs : ∀ state' : JobsState, (if stored.status = .queued then
        release state' job stored.kind else state').jobs = state'.jobs := by
      intro state'
      split_ifs <;> rfl
    dsimp only
    rw [jobs]
    by_cases requests : (!stored.status.terminal && !stored.cancellationRequested) = true
    · rw [if_pos requests, requests, Bool.and_true]
      have running : stored.status.terminal = false := by
        rw [Bool.and_eq_true, Bool.not_eq_true'] at requests
        exact requests.1
      have pushed : state.jobs.insert job (manager.requestCancellation stored) =
          state.jobs.insert job (pushEvent
            { stored with
              cancellationRequested := true
              cancellation := true
              status := if stored.status = .queued then .cancelled else stored.status }
            manager.limits.sseReplayEvents) := rfl
      exact LogChange.insert held pushed running rfl rfl id
    · rw [if_neg requests, Bool.not_eq_true] at *
      rw [requests, Bool.and_false]
      apply LogChange.same
      by_cases same : id = job
      · subst same
        rw [AList.lookup_insert, held]
      · exact AList.lookup_insert_ne same

theorem JobManager.logChange_begin (manager : JobManager) (state : JobsState) (job id : JobId) :
    LogChange manager.limits.sseReplayEvents
      (id == job && (manager.begin state job).2 == .started) false (state.jobs.lookup id)
      ((manager.begin state job).1.jobs.lookup id) := by
  rcases manager.begin_cases state job with ⟨left, -⟩ | ⟨stored, started, held, waiting, -⟩ |
    ⟨waits, -⟩
  · rw [left, show (BeginReply.leave == BeginReply.started) = false from rfl, Bool.and_false]
    exact .same rfl
  · rw [started, beq_self_eq_true, Bool.and_true]
    have pushed : state.jobs.insert job (manager.moveTo .running stored) = state.jobs.insert job
        (pushEvent { stored with status := .running } manager.limits.sseReplayEvents) := rfl
    exact LogChange.insert held pushed (by rw [waiting]; rfl) rfl rfl id
  · rw [waits, show (BeginReply.wait == BeginReply.started) = false from rfl, Bool.and_false]
    exact .same rfl

theorem JobManager.logChange_observe (manager : JobManager) {state : JobsState} {job : JobId}
    {stored : StoredJob} (held : state.jobs.lookup job = some stored)
    (runs : stored.status = .running) (progress : JobProgress) (id : JobId) :
    LogChange manager.limits.sseReplayEvents (id == job) false (state.jobs.lookup id)
      ((manager.observe state job progress).jobs.lookup id) := by
  have jobs : (manager.observe state job progress).jobs = state.jobs.insert job
      (pushEvent { stored with progress } manager.limits.sseReplayEvents) :=
    Keyed.modify_of_lookup held
  exact LogChange.insert held jobs (by rw [runs]; rfl) rfl rfl id

/-- The outcome of a job is told by one event. -/
theorem JobManager.settle_pushes (manager : JobManager) (outcome : WorkerOutcome)
    (receipt : Option ReceiptRef) (job : StoredJob) : ∃ changed : StoredJob,
      manager.settle outcome receipt job = pushEvent changed manager.limits.sseReplayEvents ∧
        changed.events = job.events ∧ changed.nextEventSequence = job.nextEventSequence := by
  cases outcome <;> exact ⟨_, rfl, rfl, rfl⟩

theorem JobManager.logChange_finish (manager : JobManager) {state : JobsState} {job : JobId}
    {stored : StoredJob} (held : state.jobs.lookup job = some stored)
    (runs : stored.status = .running) (outcome : WorkerOutcome) (receipt : Option ReceiptRef)
    (historyOk : Bool) (id : JobId) :
    LogChange manager.limits.sseReplayEvents (id == job) false (state.jobs.lookup id)
      ((manager.finish state job outcome receipt historyOk).jobs.lookup id) := by
  obtain ⟨changed, settled, events, sequence⟩ := manager.settle_pushes outcome receipt stored
  have jobs : (manager.finish state job outcome receipt historyOk).jobs =
      state.jobs.insert job (pushEvent changed manager.limits.sseReplayEvents) := by
    rw [manager.finish_of_lookup held, settled]
  exact LogChange.insert held jobs (by rw [runs]; rfl) events sequence id

theorem JobManager.beginStep_state {thread : Nat}
    (taken : manager.beginStep world thread = some next) :
    ∃ job, world.workers[thread]? = some { job, phase := .arriving } ∧
      next.state = (manager.begin world.state job).1 := by
  unfold JobManager.beginStep at taken
  split at taken
  · rename_i job at_
    refine ⟨job, at_, ?_⟩
    dsimp only at taken
    split at taken <;> rw [← Option.some.inj taken]
  · cases taken

/-- A step which admits no job. -/
theorem World.enrolled_of_same (same : next.admitted = world.admitted) {id : JobId} :
    decide (world.enrolled next = some id) = false := by
  rw [World.enrolled, same, List.getElem?_eq_none (Nat.le_refl _)]
  rfl

theorem JobManager.cancelStep_admitted (manager : JobManager) (world : World) (job : JobId)
    (owner : Owner) : (manager.cancelStep world job owner).admitted = world.admitted := by
  unfold JobManager.cancelStep
  dsimp only
  split <;> rfl

/-- Only an admission admits. -/
theorem JobManager.Steps.admitted {action : Action} (steps : manager.Steps world action next)
    (other : action.admits = false) : next.admitted = world.admitted := by
  cases steps with
  | admission asks _ =>
      rw [other] at asks
      cases asks
  | cancel job owner => exact manager.cancelStep_admitted world job owner
  | _ => rfl

/-- What a step does to the log of a job. -/
theorem JobManager.logChange (invariant : manager.Invariant world)
    (bounds : manager.limits.BoundsJobs) {action : Action}
    (taken : manager.act world action = some next) (id : JobId) :
    LogChange manager.limits.sseReplayEvents (manager.pushes world action id)
      (decide (world.enrolled next = some id)) (world.state.jobs.lookup id)
      (next.state.jobs.lookup id) := by
  by_cases asks : action.admits = true
  · have enrols : ∃ outcome, next = world.admission outcome ∧ manager.Enrols world outcome ∧
        manager.pushes world action id = false := by
      cases action with
      | admitJob owner sourceId randomId spawned =>
          exact ⟨_, (Option.some.inj taken).symm,
            manager.admitJob_enrols world owner sourceId randomId _, rfl⟩
      | admitPlan owner sourceId serverId randomId spawned =>
          exact ⟨_, (Option.some.inj taken).symm,
            manager.admitPlan_enrols world owner sourceId serverId randomId _, rfl⟩
      | admitDryRun owner reference stored randomId spawned =>
          exact ⟨_, (Option.some.inj taken).symm,
            manager.admitDryRun_enrols world owner reference stored randomId _, rfl⟩
      | admitApply capability randomId spawned =>
          exact ⟨_, (Option.some.inj taken).symm,
            manager.admitApply_enrols world capability randomId _, rfl⟩
      | _ => cases asks
    obtain ⟨outcome, rfl, admits, quiet⟩ := enrols
    rw [quiet]
    exact JobManager.logChange_admission invariant.coherent bounds admits id
  · rw [Bool.not_eq_true] at asks
    have steps := JobManager.steps_of_act taken
    have linked := invariant.linked
    rw [World.enrolled_of_same (steps.admitted asks)]
    cases steps with
    | admission admits _ =>
        rw [asks] at admits
        cases admits
    | snapshot | recordCancel | flagCancel | wake | missing | inputs | record | exit =>
        exact .same rfl
    | cancel job owner =>
        rw [manager.cancelStep_state]
        exact manager.logChange_cancel world.state job owner id
    | leave | wait | start =>
        obtain ⟨job, at_, state⟩ := JobManager.beginStep_state taken
        have change := manager.logChange_begin world.state job id
        rw [← state] at change
        simp only [JobManager.pushes, at_]
        exact change
    | observe at_ =>
        obtain ⟨stored, held, runs, -⟩ := linked.busy _ _ at_ rfl
        simp only [JobManager.pushes, at_]
        exact manager.logChange_observe held runs _ id
    | finish at_ =>
        obtain ⟨stored, held, runs, -⟩ := linked.busy _ _ at_ rfl
        simp only [JobManager.pushes, at_]
        exact manager.logChange_finish held runs _ _ _ id
    | shutdown =>
        rw [JobManager.shutdown, Keyed.lookup_mapValues, JobManager.pushes]
        cases held : world.state.jobs.lookup id with
        | none => exact .absent rfl rfl
        | some job =>
            rw [Option.any_some, Option.map_some, JobManager.shutdownJob]
            split_ifs with cancels
            · rw [cancels]
              have running : job.status.terminal = false := by
                rw [JobManager.shutdownCancels, Bool.and_eq_true, Bool.not_eq_true'] at cancels
                exact cancels.1
              exact .push rfl rfl running rfl rfl
            · rw [Bool.not_eq_true] at cancels
              exact .keep cancels rfl (.refl job)

end ImmichRs.Web
