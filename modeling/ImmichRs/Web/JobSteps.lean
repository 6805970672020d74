import ImmichRs.Web.Coherence
import ImmichRs.Web.Workers

/-!
# Steps of the job manager

What one step of a caller or of a worker can do: one case for each kind of step.
-/

namespace ImmichRs.Web

open Collections

variable {manager : JobManager} {world next : World}

/-! ## Steps on the state -/

/-- What an admission call does to the state under the lock. -/
def JobManager.AdmitsTo (manager : JobManager) (world : World)
    (outcome : JobsState × Except AdmissionError JobId) : Prop :=
  (∃ error, outcome = (world.state, .error error)) ∨
    ∃ job apply thread, Admissible job apply ∧
      outcome = manager.admitLocked world.finished world.state job apply thread

theorem JobManager.admitKind_admitsTo (manager : JobManager) (world : World) (owner : Owner)
    (sourceId : String) {kind : JobKind} (plain : kind.applies = none) (randomId : Option JobId)
    (thread : Option Nat) :
    manager.AdmitsTo world
      (manager.admitKind world.finished world.state owner sourceId kind randomId thread) := by
  unfold JobManager.admitKind
  split
  · exact .inl ⟨_, rfl⟩
  · split
    · exact .inl ⟨_, rfl⟩
    · exact .inr ⟨_, none, thread, ⟨rfl, rfl, plain⟩, rfl⟩

theorem JobManager.admit_admitsTo (manager : JobManager) (world : World) (owner : Owner)
    (sourceId : String) (randomId : Option JobId) (thread : Option Nat) :
    manager.AdmitsTo world
      (manager.admitJob world.finished world.state owner sourceId randomId thread) := by
  unfold JobManager.admitJob
  split
  · exact .inl ⟨_, rfl⟩
  · exact manager.admitKind_admitsTo world owner sourceId rfl randomId thread

theorem JobManager.admitPlan_admitsTo (manager : JobManager) (world : World) (owner : Owner)
    (sourceId serverId : String) (randomId : Option JobId) (thread : Option Nat) :
    manager.AdmitsTo world
      (manager.admitPlan world.finished world.state owner sourceId serverId randomId thread) := by
  unfold JobManager.admitPlan
  split_ifs
  · split
    · exact .inl ⟨_, rfl⟩
    · exact manager.admitKind_admitsTo world owner sourceId rfl randomId thread
  · exact .inl ⟨_, rfl⟩

theorem JobManager.admitDryRun_admitsTo (manager : JobManager) (world : World) (owner : Owner)
    (reference : ArtifactRef) (stored : Option StoredUploadPlan) (randomId : Option JobId)
    (thread : Option Nat) :
    manager.AdmitsTo world
      (manager.admitDryRun world.finished world.state owner reference stored randomId thread) := by
  unfold JobManager.admitDryRun
  split
  · exact .inl ⟨_, rfl⟩
  · split_ifs
    · split
      · exact .inl ⟨_, rfl⟩
      · exact manager.admitKind_admitsTo world owner _ rfl randomId thread
    · exact .inl ⟨_, rfl⟩

theorem JobManager.admitApply_admitsTo (manager : JobManager) (world : World)
    (capability : ApplyCapability) (randomId : Option JobId) (thread : Option Nat) :
    manager.AdmitsTo world
      (manager.admitApply world.finished world.state capability randomId thread) := by
  unfold JobManager.admitApply
  simp only
  split
  · exact .inl ⟨_, rfl⟩
  · split
    · exact .inl ⟨_, rfl⟩
    · exact .inr ⟨_, some _, thread, ⟨rfl, rfl, rfl⟩, rfl⟩

/-! ## Steps of the world -/

/-- What a step can do: one case for each kind of step, the four admissions taken together. -/
inductive JobManager.Steps (manager : JobManager) (world : World) : Action → World → Prop
  | admission {action : Action} {outcome : JobsState × Except AdmissionError JobId}
      (asks : action.admits = true) (admits : manager.AdmitsTo world outcome) :
      manager.Steps world action (world.admission outcome)
  | snapshot (job : JobId) (owner : Owner) :
      manager.Steps world (.snapshot job owner)
        { world with state := reapWorkers world.finished world.state }
  | cancel (job : JobId) (owner : Owner) :
      manager.Steps world (.cancel job owner) (manager.cancelStep world job owner)
  | recordCancel {position : Nat} {job : JobId} {kind : HistoryKind} {clock : Option Int}
      {write : HistoryWrite} {history : List (JobId × TerminalRecord)}
      {cancels : List PendingCancel}
      (at_ : world.cancels[position]? = some { job, kind, failed := false })
      (written : clock.isSome = true → write.ok = true →
        cancels = world.cancels.eraseIdx position ∧
        ∃ recordedUnix, history = world.history ++ [(job, cancelledRecord kind recordedUnix)]) :
      manager.Steps world (.recordCancel position clock write) { world with history, cancels }
  | flagCancel {position : Nat} {job : JobId} {kind : HistoryKind}
      (at_ : world.cancels[position]? = some { job, kind, failed := true }) :
      manager.Steps world (.flagCancel position)
        { world with
          state := { world.state with workerFailed := true }
          cancels := world.cancels.eraseIdx position }
  | leave {thread : Nat} {job : JobId}
      (at_ : world.workers[thread]? = some { job, phase := .arriving })
      (ended : world.state.isQueued job = false ∨ world.state.shuttingDown = true) :
      manager.Steps world (.begin thread) { world with workers := world.advance thread .returned }
  | wait {thread : Nat} {job : JobId}
      (at_ : world.workers[thread]? = some { job, phase := .arriving })
      (queued : world.state.isQueued job = true)
      (blocked : ¬ (world.state.order.find? world.state.isQueued = some job ∧
        world.state.running < manager.limits.concurrentJobs)) :
      manager.Steps world (.begin thread) { world with workers := world.advance thread .asleep }
  | start {thread : Nat} {job : JobId} {stored : StoredJob}
      (at_ : world.workers[thread]? = some { job, phase := .arriving })
      (held : world.state.jobs.lookup job = some stored) (waiting : stored.status = .queued)
      (first : world.state.order.find? world.state.isQueued = some job)
      (free : world.state.running < manager.limits.concurrentJobs) :
      manager.Steps world (.begin thread)
        { world with
          state :=
            { world.state with
              queued := world.state.queued - 1
              running := saturatingAdd world.state.running 1
              jobs := world.state.jobs.insert job (manager.moveTo .running stored) }
          workers := world.advance thread .begun
          started := world.started ++ [job] }
  | wake {thread : Nat} {job : JobId}
      (at_ : world.workers[thread]? = some { job, phase := .asleep }) :
      manager.Steps world (.wake thread) { world with workers := world.advance thread .arriving }
  | missing {thread : Nat} {job : JobId}
      (at_ : world.workers[thread]? = some { job, phase := .begun })
      (absent : world.state.jobs.lookup job = none) :
      manager.Steps world (.inputs thread) { world with workers := world.advance thread .returned }
  | inputs {thread : Nat} {job : JobId} {stored : StoredJob}
      (at_ : world.workers[thread]? = some { job, phase := .begun })
      (held : world.state.jobs.lookup job = some stored) :
      manager.Steps world (.inputs thread)
        { world with
          state :=
            { world.state with applyCapabilities := world.state.applyCapabilities.erase job }
          workers := world.advance thread
            (.executing stored.sourceId stored.kind (world.state.applyCapabilities.lookup job)) }
  | observe {thread : Nat} {job : JobId} {sourceId : String} {kind : JobKind}
      {capability : Option ApplyCapability} {progress : JobProgress}
      (at_ : world.workers[thread]? =
        some { job, phase := .executing sourceId kind capability }) :
      manager.Steps world (.observe thread progress)
        { world with state := manager.observe world.state job progress }
  | record {thread : Nat} {job : JobId} {sourceId : String} {kind : JobKind}
      {capability : Option ApplyCapability} {resolved cancelled : Bool} {work : Work}
      {clock : Option Int} {reference : ReceiptRef} {write : HistoryWrite}
      {outcome : WorkerOutcome} {receipt : Option ReceiptRef} {historyOk : Bool}
      {history : List (JobId × TerminalRecord)}
      (at_ : world.workers[thread]? =
        some { job, phase := .executing sourceId kind capability })
      (settled : outcome.kind = kind.historyKind)
      (written : clock.isSome = true → write.ok = true → historyOk = true ∧
        ∃ record : TerminalRecord, record.kind = outcome.kind ∧ record.status = outcome.status ∧
          history = world.history ++ [(job, record)]) :
      manager.Steps world (.record thread resolved cancelled work clock reference write)
        { world with
          history
          workers := world.advance thread (.recorded outcome receipt historyOk) }
  | finish {thread : Nat} {job : JobId} {outcome : WorkerOutcome} {receipt : Option ReceiptRef}
      {historyOk : Bool}
      (at_ : world.workers[thread]? =
        some { job, phase := .recorded outcome receipt historyOk }) :
      manager.Steps world (.finish thread)
        { world with
          state := manager.finish world.state job outcome receipt historyOk
          workers := World.notifyAll (world.advance thread .returned)
          ended := world.ended ++ world.ending job outcome.status }
  | exit {thread : Nat} {job : JobId}
      (at_ : world.workers[thread]? = some { job, phase := .returned }) :
      manager.Steps world (.exit thread) { world with workers := world.advance thread .exited }
  | shutdown :
      manager.Steps world .shutdown
        { world with
          state := manager.shutdown world.state
          workers := World.notifyAll world.workers
          ended := world.ended ++ world.dropped }

theorem JobManager.threadIn_iff {thread : Nat} {phase : WorkerPhase} :
    threadIn world thread phase = true ↔ ∃ job, world.workers[thread]? = some { job, phase } := by
  unfold threadIn
  cases at_ : world.workers[thread]? with
  | none => simp
  | some worker =>
      rw [Option.any_some, decide_eq_true_iff]
      constructor
      · rintro rfl
        exact ⟨worker.job, rfl⟩
      · rintro ⟨job, same⟩
        rw [Option.some.inj same]

theorem JobManager.steps_of_act {action : Action} (taken : manager.act world action = some next) :
    manager.Steps world action next := by
  cases action with
  | admitJob owner sourceId randomId spawned =>
      obtain rfl := Option.some.inj taken
      exact .admission rfl (manager.admit_admitsTo world owner sourceId randomId _)
  | admitPlan owner sourceId serverId randomId spawned =>
      obtain rfl := Option.some.inj taken
      exact .admission rfl (manager.admitPlan_admitsTo world owner sourceId serverId randomId _)
  | admitDryRun owner reference stored randomId spawned =>
      obtain rfl := Option.some.inj taken
      exact .admission rfl (manager.admitDryRun_admitsTo world owner reference stored randomId _)
  | admitApply capability randomId spawned =>
      obtain rfl := Option.some.inj taken
      exact .admission rfl (manager.admitApply_admitsTo world capability randomId _)
  | snapshot job owner =>
      obtain rfl := Option.some.inj taken
      exact .snapshot job owner
  | cancel job owner =>
      obtain rfl := Option.some.inj taken
      exact .cancel job owner
  | recordCancel position clock write =>
      simp only [JobManager.act, JobManager.recordCancelStep] at taken
      split at taken
      case h_2 => cases taken
      case h_1 at_ =>
        cases clock with
        | none =>
            obtain rfl := Option.some.inj taken
            exact .recordCancel at_ fun known => nomatch known
        | some recordedUnix =>
            obtain rfl := Option.some.inj taken
            cases write with
            | written => exact .recordCancel at_ fun _ _ => ⟨rfl, recordedUnix, rfl⟩
            | failed stored => exact .recordCancel at_ fun _ succeeded => nomatch succeeded
  | flagCancel position =>
      simp only [JobManager.act, JobManager.flagCancelStep] at taken
      split at taken
      case h_2 => cases taken
      case h_1 at_ =>
        obtain rfl := Option.some.inj taken
        exact .flagCancel at_
  | begin thread =>
      simp only [JobManager.act, JobManager.beginStep] at taken
      split at taken
      case h_2 => cases taken
      case h_1 job at_ =>
        rcases manager.begin_cases world.state job with ⟨left, ended⟩ |
          ⟨stored, started, held, waiting, first, free⟩ | ⟨waits, queued, blocked⟩
        · simp only [left, Option.some.injEq] at taken
          subst taken
          exact .leave at_ ended
        · simp only [started, Option.some.injEq] at taken
          subst taken
          exact .start at_ held waiting first free
        · simp only [waits, Option.some.injEq] at taken
          subst taken
          exact .wait at_ queued blocked
  | wake thread =>
      simp only [JobManager.act] at taken
      split_ifs at taken with asleep
      obtain ⟨job, at_⟩ := JobManager.threadIn_iff.mp asleep
      obtain rfl := Option.some.inj taken
      exact .wake at_
  | inputs thread =>
      simp only [JobManager.act, JobManager.inputsStep, JobManager.jobInputs] at taken
      split at taken
      case h_2 => cases taken
      case h_1 job at_ =>
        cases held : world.state.jobs.lookup job with
        | none =>
            simp only [held, Option.some.injEq] at taken
            subst taken
            exact .missing at_ held
        | some stored =>
            simp only [held, Option.some.injEq] at taken
            subst taken
            exact .inputs at_ held
  | observe thread progress =>
      simp only [JobManager.act] at taken
      split at taken
      case h_2 => cases taken
      case h_1 at_ =>
        split_ifs at taken
        obtain rfl := Option.some.inj taken
        exact .observe at_
  | record thread resolved cancelled work clock receipt write =>
      simp only [JobManager.act, JobManager.recordStep] at taken
      split at taken
      case h_2 => cases taken
      case h_1 job sourceId kind capability at_ =>
        have settled := execute_kind kind capability resolved cancelled work
        cases made : historyRecord (execute kind capability resolved cancelled work) clock with
        | none =>
            simp only [made] at taken
            split_ifs at taken
            obtain rfl := Option.some.inj taken
            refine .record at_ settled fun known => ?_
            rw [historyRecord, Option.map_eq_none_iff] at made
            split at made
            · cases made
            · rw [made] at known
              cases known
        | some record =>
            obtain ⟨kinds, statuses⟩ := historyRecord_kind made
            cases write with
            | written =>
                simp only [made, HistoryWrite.ok, HistoryWrite.stored, if_true] at taken
                split_ifs at taken
                obtain rfl := Option.some.inj taken
                exact .record at_ settled fun _ _ => ⟨rfl, record, kinds, statuses, rfl⟩
            | failed stored =>
                simp only [made, HistoryWrite.ok, Bool.false_eq_true, if_false] at taken
                split at taken
                · cases taken
                · obtain rfl := Option.some.inj taken
                  exact .record at_ settled fun _ succeeded => nomatch succeeded
  | finish thread =>
      simp only [JobManager.act, JobManager.finishStep] at taken
      split at taken
      case h_2 => cases taken
      case h_1 at_ =>
        obtain rfl := Option.some.inj taken
        exact .finish at_
  | exit thread =>
      simp only [JobManager.act] at taken
      split_ifs at taken with returned
      obtain ⟨job, at_⟩ := JobManager.threadIn_iff.mp returned
      obtain rfl := Option.some.inj taken
      exact .exit at_
  | shutdown =>
      obtain rfl := Option.some.inj taken
      exact .shutdown

end ImmichRs.Web
