import Mathlib.Algebra.Order.Group.Multiset
import Mathlib.Tactic.Abel
import ImmichRs.Web.Wakeups

/-!
# The history of the jobs

A job ends in one of three ways: its worker finishes it, a caller cancels it while it waits, or a
shutdown finds it waiting.  The first two leave a record in the history; the third leaves none.
-/

namespace ImmichRs.Web

open Collections

variable {manager : JobManager} {world next : World}

/-! ## Shutdown and the queue -/

/-- After a shutdown no job waits. -/
def World.Closed (world : World) : Prop :=
  world.state.shuttingDown = true → ∀ id, world.state.isQueued id = false

theorem JobsState.Shrinks.idle {before after : JobsState} (less : before.Shrinks after)
    (idle : ∀ id, before.isQueued id = false) (id : JobId) : after.isQueued id = false := by
  rw [← Bool.not_eq_true]
  intro waiting
  exact Bool.false_ne_true ((idle id).symm.trans (less.queued id waiting))

/-- A job which waits has not been asked to stop. -/
theorem JobManager.Invariant.untouched (invariant : manager.Invariant world) (closed : world.Closed)
    {id : JobId} {job : StoredJob} (held : world.state.jobs.lookup id = some job)
    (waiting : job.status = .queued) : job.cancellationRequested = false := by
  cases serving : world.state.shuttingDown with
  | false => exact (invariant.coherent serving).untouched id job held waiting
  | true =>
      have queued := world.state.isQueued_iff.mpr ⟨job, held, waiting⟩
      exact absurd ((closed serving id).symm.trans queued) Bool.false_ne_true

/-- A shutdown cancels the jobs which wait, and no job ends otherwise. -/
theorem JobManager.shutdownJob_status (manager : JobManager) {job : StoredJob}
    (untouched : job.status = .queued → job.cancellationRequested = false) :
    (manager.shutdownJob job).status = if job.status = .queued then .cancelled else job.status := by
  by_cases waiting : job.status = .queued
  · simp [JobManager.shutdownJob, JobManager.shutdownCancels, waiting, JobStatus.terminal,
      untouched waiting, JobManager.requestCancellation]
  · rw [if_neg waiting]
    unfold JobManager.shutdownJob
    split_ifs
    · exact if_neg waiting
    · rfl

theorem JobManager.Invariant.closed (invariant : manager.Invariant world) (closed : world.Closed)
    (bounds : manager.limits.BoundsJobs) {action : Action}
    (steps : manager.Steps world action next) : next.Closed := by
  have shrinks : world.state.Shrinks next.state →
      next.state.shuttingDown = world.state.shuttingDown → next.Closed := fun less same shut =>
    less.idle (closed (same ▸ shut))
  cases steps with
  | admission _ admits =>
      rcases admits with ⟨error, rfl⟩ | ⟨job, apply, thread, -, rfl⟩
      · exact closed
      · have open_ := manager.cleared_shuttingDown world.finished world.state
        rcases manager.admitLocked_cases invariant.coherent bounds world.finished job apply
            thread with ⟨error, refused⟩ | ⟨number, room, admitted⟩
        · rw [refused]
          intro shut
          exact (manager.shrinks_cleared world.finished world.state).idle
            (closed (open_.symm.trans shut))
        · rw [admitted]
          intro shut
          have same : (manager.enqueue (manager.cleared world.finished world.state) job
              apply).shuttingDown = (manager.cleared world.finished world.state).shuttingDown := by
            cases apply <;> rfl
          exact absurd (room.serving.symm.trans (same.symm.trans shut)) Bool.false_ne_true
  | cancel job owner =>
      have state := manager.cancelStep_state world job owner
      exact shrinks (state ▸ manager.shrinks_cancel world.state job owner)
        (state ▸ manager.cancel_shuttingDown world.state job owner)
  | @start thread job stored at_ held waiting first free =>
      apply shrinks (JobsState.shrinks_insert rfl rfl fun queued => ?_) rfl
      cases queued
  | observe => exact shrinks (manager.shrinks_observe _ _ _) rfl
  | finish => exact shrinks (manager.shrinks_finish _ _ _ _ _) rfl
  | shutdown =>
      intro _ id
      rw [← Bool.not_eq_true]
      intro waiting
      obtain ⟨job, found, status⟩ := JobsState.isQueued_iff _ |>.mp waiting
      rw [JobManager.shutdown, Keyed.lookup_mapValues] at found
      obtain ⟨before, held, rfl⟩ := Option.map_eq_some_iff.mp found
      rw [manager.shutdownJob_status (invariant.untouched closed held)] at status
      split_ifs at status with waits
      exact waits status
  | _ => exact shrinks ⟨List.Sublist.refl _, fun _ waiting => waiting⟩ rfl

theorem JobManager.RunsTo.closed {actions : List Action} (run : manager.RunsTo actions world)
    (bounds : manager.limits.BoundsJobs) : world.Closed := by
  induction run with
  | nil => exact fun _ _ => rfl
  | step run taken induction =>
      exact (run.invariant bounds).closed induction bounds (JobManager.steps_of_act taken)

/-! ## The log of endings -/

/-- A job which had not ended before a step has ended after it. -/
structure World.Ends (world next : World) (ending : Ending) (job later : StoredJob) : Prop where
  held : world.state.jobs.lookup ending.job = some job
  going : job.status.terminal = false
  found : next.state.jobs.lookup ending.job = some later
  status : later.status = jobStatus ending.status
  kind : ending.kind = job.kind.historyKind

/-- The log of endings grows by the jobs which end. -/
def World.Logs (world next : World) (new : List Ending) : Prop :=
  next.ended = world.ended ++ new ∧ new.Nodup ∧
    ∀ ending, ending ∈ new ↔ ∃ job later, world.Ends next ending job later

/-- No job ends in a step after which every job which was going on still goes on. -/
theorem World.logs_nil (ended : next.ended = world.ended)
    (open_ : ∀ id job, world.state.jobs.lookup id = some job → job.status.terminal = false →
      ∃ kept, next.state.jobs.lookup id = some kept ∧ kept.status.terminal = false) :
    world.Logs next [] := by
  refine ⟨ended.trans (List.append_nil _).symm, List.nodup_nil, fun ending => ?_⟩
  refine ⟨fun member => (nomatch member), ?_⟩
  rintro ⟨job, later, ends⟩
  obtain ⟨kept, found, going⟩ := open_ ending.job job ends.held ends.going
  rw [ends.found, Option.some.injEq] at found
  subst found
  rw [ends.status, terminal_jobStatus] at going
  cases going

theorem jobStatus_injective {first second : TerminalStatus}
    (same : jobStatus first = jobStatus second) : first = second := by
  cases first <;> cases second <;> first | rfl | cases same

/-- One job ends. -/
theorem World.logs_singleton {id : JobId} {job new : StoredJob} {status : TerminalStatus}
    (held : world.state.jobs.lookup id = some job) (going : job.status.terminal = false)
    (jobs : next.state.jobs = world.state.jobs.insert id new)
    (ended : new.status = jobStatus status)
    (logged : next.ended = world.ended ++ [.mk id job.kind.historyKind status]) :
    world.Logs next [.mk id job.kind.historyKind status] := by
  refine ⟨logged, List.nodup_singleton _, fun ending => ?_⟩
  rw [List.mem_singleton]
  constructor
  · rintro rfl
    exact ⟨job, new, held, going, jobs ▸ AList.lookup_insert _, ended, rfl⟩
  · rintro ⟨old, later, ends⟩
    have found := ends.found
    rw [jobs] at found
    rcases Keyed.lookup_insert_cases found with ⟨same, rfl⟩ | ⟨-, kept⟩
    · have present := ends.held
      rw [same, held, Option.some.injEq] at present
      subst present
      have statuses := jobStatus_injective (ends.status.symm.trans ended)
      have kind := ends.kind
      cases ending
      simp only at same statuses kind
      rw [same, statuses, kind]
    · rw [ends.held, Option.some.injEq] at kept
      have going := ends.going
      rw [kept, ends.status, terminal_jobStatus] at going
      cases going

theorem World.logs_shutdown (closed : world.Closed) (invariant : manager.Invariant world) :
    world.Logs
      { world with
        state := manager.shutdown world.state
        workers := World.notifyAll world.workers
        ended := world.ended ++ world.dropped } world.dropped := by
  have member : ∀ ending, ending ∈ world.dropped ↔ ∃ job,
      world.state.jobs.lookup ending.job = some job ∧ job.status = .queued ∧
        ending = .mk ending.job job.kind.historyKind .cancelled := by
    intro ending
    rw [World.dropped, List.mem_map]
    constructor
    · rintro ⟨⟨id, job⟩, inside, rfl⟩
      obtain ⟨listed, holds⟩ := List.mem_filter.mp inside
      rw [Bool.and_eq_true] at holds
      exact ⟨job, AList.mem_lookup_iff.mpr listed, beq_iff_eq.mp holds.2, rfl⟩
    · rintro ⟨job, held, waiting, made⟩
      refine ⟨⟨ending.job, job⟩, List.mem_filter.mpr ⟨AList.mem_lookup_iff.mp held, ?_⟩, made.symm⟩
      simp [JobManager.shutdownCancels, waiting, JobStatus.terminal,
        invariant.untouched closed held waiting]
  refine ⟨rfl, ?_, fun ending => ?_⟩
  · apply List.Nodup.of_map Ending.job
    rw [World.dropped, List.map_map]
    exact (List.filter_sublist.map Sigma.fst).nodup world.state.jobs.nodupKeys
  · rw [member]
    constructor
    · rintro ⟨job, held, waiting, made⟩
      have later : (manager.shutdown world.state).jobs.lookup ending.job =
          some (manager.shutdownJob job) := by
        rw [JobManager.shutdown, Keyed.lookup_mapValues, held, Option.map_some]
      refine ⟨job, _, held, waiting ▸ rfl, later, ?_, congrArg Ending.kind made⟩
      rw [congrArg Ending.status made,
        manager.shutdownJob_status (invariant.untouched closed held), if_pos waiting]
      rfl
    · rintro ⟨job, later, ends⟩
      have found := ends.found
      rw [JobManager.shutdown, Keyed.lookup_mapValues, ends.held, Option.map_some,
        Option.some.injEq] at found
      have ended : (manager.shutdownJob job).status = jobStatus ending.status :=
        (congrArg StoredJob.status found).trans ends.status
      rw [manager.shutdownJob_status (invariant.untouched closed ends.held)] at ended
      split_ifs at ended with waiting
      case neg =>
        have going := ends.going
        rw [ended, terminal_jobStatus] at going
        cases going
      refine ⟨job, ends.held, waiting, ?_⟩
      have status : ending.status = .cancelled := jobStatus_injective ended.symm
      have kind := ends.kind
      cases ending
      simp only at status kind ⊢
      rw [status, kind]

/-- The log of endings names exactly the jobs which end, step by step. -/
theorem JobManager.Invariant.logs (invariant : manager.Invariant world) (closed : world.Closed)
    (bounds : manager.limits.BoundsJobs) {action : Action}
    (steps : manager.Steps world action next) : ∃ new, world.Logs next new := by
  have quiet : world.state.Undisturbed next.state → next.ended = world.ended →
      ∃ new, world.Logs next new := fun same ended => ⟨[], World.logs_nil ended same.open_⟩
  cases steps with
  | admission _ admits =>
      rcases admits with ⟨error, rfl⟩ | ⟨job, apply, thread, -, rfl⟩
      · exact quiet (.refl _) rfl
      · have cleared := manager.undisturbed_cleared world.finished world.state
        rcases manager.admitLocked_cases invariant.coherent bounds world.finished job apply
            thread with ⟨error, refused⟩ | ⟨number, room, admitted⟩
        · rw [refused]
          exact ⟨[], World.logs_nil rfl cleared.open_⟩
        · rw [admitted]
          refine ⟨[], World.logs_nil rfl fun id old held going => ?_⟩
          obtain ⟨kept, found, still⟩ := cleared.open_ id old held going
          have apart : id ≠ job.id := fun same =>
            room.fresh (same ▸ Keyed.mem_of_lookup found)
          refine ⟨kept, ?_, still⟩
          exact (congrArg (AList.lookup id) (manager.enqueue_jobs _ job apply)).trans
            ((AList.lookup_insert_ne apart).trans found)
  | cancel job owner =>
      have state := manager.cancelStep_state world job owner
      rcases manager.cancel_jobs world.state job owner with
        unknown | ⟨stored, new, held, -, jobs, status⟩
      · refine quiet (state ▸ unknown ▸ .refl _) ?_
        simp [JobManager.cancelStep, unknown]
      · rcases status with ⟨same, silent⟩ | ⟨waiting, ended, recorded, -⟩
        · have order := manager.cancel_order world.state job owner
          refine quiet (state ▸ JobsState.undisturbed_insert held same jobs order.1 order.2) ?_
          simp [JobManager.cancelStep, silent]
        · have cancelled : new.status = jobStatus .cancelled := ended
          refine ⟨_, World.logs_singleton held (waiting ▸ rfl) (state ▸ jobs) cancelled ?_⟩
          simp [JobManager.cancelStep, recorded, World.ending, held]
  | @start thread job stored at_ held waiting first free =>
      refine ⟨[], World.logs_nil rfl fun id old found going => ?_⟩
      by_cases same : id = job
      · subst same
        exact ⟨_, AList.lookup_insert _, rfl⟩
      · exact ⟨old, (AList.lookup_insert_ne same).trans found, going⟩
  | observe => exact quiet (manager.undisturbed_observe _ _ _) rfl
  | @finish thread job outcome receipt historyOk at_ =>
      obtain ⟨stored, held, runs, -⟩ := invariant.linked.busy thread _ at_ rfl
      have logged : world.ending job outcome.status =
          [.mk job stored.kind.historyKind outcome.status] := by
        rw [World.ending, held]
        rfl
      refine ⟨_, World.logs_singleton held (runs ▸ rfl)
        (congrArg JobsState.jobs (manager.finish_of_lookup held outcome receipt historyOk))
        (manager.settle_status outcome receipt stored) (congrArg _ logged)⟩
  | shutdown => exact ⟨_, World.logs_shutdown closed invariant⟩
  | _ => exact quiet (.of_jobs rfl rfl rfl) rfl

/-! ## Endings and records -/

/-- The ending of a job whose worker has recorded it and has not yet changed the job. -/
def Worker.ending (worker : Worker) : Option Ending :=
  match worker.phase with
  | .recorded outcome _ _ => some (.mk worker.job outcome.kind outcome.status)
  | _ => none

namespace World

variable (world : World)

/-- The endings which the history records. -/
def rows : List Ending :=
  world.history.map fun row => .mk row.1 row.2.kind row.2.status

/-- The endings which workers have recorded in advance. -/
def finishing : List Ending := world.workers.filterMap Worker.ending

/-- The endings which calls have still to record. -/
def owed : List Ending :=
  world.cancels.map fun pending => .mk pending.job pending.kind .cancelled

/-- All calls and workers have returned. -/
structure Quiet : Prop where
  workers : ∀ worker ∈ world.workers, worker.phase.done = true
  cancels : world.cancels = []

end World

/-- A step whose write to the history, if it makes one, succeeds. -/
def Action.Writes : Action → Prop
  | .recordCancel _ clock write => clock.isSome = true ∧ write.ok = true
  | .record _ _ _ _ clock _ write => clock.isSome = true ∧ write.ok = true
  | _ => True

/-- Every ending is recorded, or is still to be recorded, or is lost. -/
structure World.Accounted (world : World) (lost : Multiset Ending) : Prop where
  pending : ∀ pending ∈ world.cancels, pending.failed = false
  balance : (world.ended : Multiset Ending) + world.finishing = world.rows + world.owed + lost

/-- An element of a list beside the others. -/
theorem coe_eq_cons_eraseIdx {α : Type} {items : List α} {index : Nat} {item : α}
    (at_ : items[index]? = some item) :
    (items : Multiset α) = item ::ₘ (items.eraseIdx index : Multiset α) := by
  obtain ⟨inside, rfl⟩ := List.getElem?_eq_some_iff.mp at_
  exact (Multiset.coe_eq_coe.mpr (List.getElem_cons_eraseIdx_perm inside)).symm

theorem filterMap_cons_toList {α β : Type} (f : α → Option β) (item : α) (items : Multiset α) :
    Multiset.filterMap f (item ::ₘ items) =
      ((f item).toList : Multiset β) + Multiset.filterMap f items := by
  rw [Multiset.filterMap_cons]
  cases f item <;> rfl

theorem World.finishing_advance {thread : Nat} {worker : Worker}
    (at_ : world.workers[thread]? = some worker) {phase : WorkerPhase}
    (workers : next.workers = world.advance thread phase) :
    (next.finishing : Multiset Ending) + worker.ending.toList =
      world.finishing + (Worker.ending { worker with phase }).toList := by
  have moved : (world.advance thread phase)[thread]? = some { worker with phase } := by
    rw [World.getElem?_advance, if_pos rfl, at_, Option.map_some]
  have rest : (world.advance thread phase).eraseIdx thread = world.workers.eraseIdx thread :=
    List.eraseIdx_modify_of_eq ..
  have before := congrArg (Multiset.filterMap Worker.ending) (coe_eq_cons_eraseIdx at_)
  have after := congrArg (Multiset.filterMap Worker.ending) (coe_eq_cons_eraseIdx moved)
  rw [rest] at after
  rw [Multiset.filterMap_coe, filterMap_cons_toList] at before after
  rw [World.finishing, World.finishing, workers, before, after]
  abel

/-- A worker moves on without recording an ending. -/
theorem World.finishing_idle {thread : Nat} {worker : Worker}
    (at_ : world.workers[thread]? = some worker) {phase : WorkerPhase}
    (before : worker.ending = none) (after : Worker.ending { worker with phase } = none)
    (workers : next.workers = world.advance thread phase) :
    (next.finishing : Multiset Ending) = world.finishing := by
  have moved := World.finishing_advance at_ workers
  rw [before, after] at moved
  simpa using moved

theorem World.finishing_notifyAll (workers : List Worker) :
    (World.notifyAll workers).filterMap Worker.ending = workers.filterMap Worker.ending := by
  rw [World.notifyAll, List.filterMap_map]
  congr 1
  funext worker
  rw [Function.comp_apply]
  split_ifs with asleep
  · rw [Worker.ending, Worker.ending, asleep]
  · rfl

theorem World.finishing_admission (outcome : JobsState × Except AdmissionError JobId) :
    (world.admission outcome).finishing = world.finishing := by
  unfold World.admission
  split
  · exact (List.filterMap_append ..).trans (List.append_nil _)
  · rfl

/-- A step which changes neither the log, nor the history, nor what is still to be recorded. -/
theorem World.Accounted.transfer {lost : Multiset Ending} (accounted : world.Accounted lost)
    (ended : next.ended = world.ended) (history : next.history = world.history)
    (cancels : next.cancels = world.cancels)
    (finishing : (next.finishing : Multiset Ending) = world.finishing) : next.Accounted lost where
  pending := cancels ▸ accounted.pending
  balance := by
    have balance := accounted.balance
    rw [World.rows, World.owed] at balance ⊢
    rw [ended, finishing, history, cancels, balance]

/-- A cancellation logs the ending which it has then to record. -/
theorem World.Accounted.cancel {lost : Multiset Ending} (accounted : world.Accounted lost)
    (manager : JobManager) (job : JobId) (owner : Owner) :
    (manager.cancelStep world job owner).Accounted lost := by
  have finishing : (manager.cancelStep world job owner).finishing = world.finishing := by
    rw [World.finishing, manager.cancelStep_workers]
    split_ifs
    · exact World.finishing_notifyAll world.workers
    · rfl
  have balance := accounted.balance
  rcases manager.cancel_jobs world.state job owner with unknown | ⟨stored, new, held, -, -, status⟩
  · refine accounted.transfer ?_ ?_ ?_ (congrArg _ finishing) <;>
      simp [JobManager.cancelStep, unknown]
  · rcases status with ⟨-, silent⟩ | ⟨-, -, recorded, -⟩
    · refine accounted.transfer ?_ ?_ ?_ (congrArg _ finishing) <;>
        simp [JobManager.cancelStep, silent]
    · have ended : (manager.cancelStep world job owner).ended =
          world.ended ++ [.mk job stored.kind.historyKind .cancelled] := by
        simp [JobManager.cancelStep, recorded, World.ending, held]
      have cancels : (manager.cancelStep world job owner).cancels = world.cancels ++
          [{ job, kind := stored.kind.historyKind, failed := false }] := by
        simp [JobManager.cancelStep, recorded]
      have history : (manager.cancelStep world job owner).history = world.history := by
        simp [JobManager.cancelStep, recorded]
      constructor
      · intro pending member
        rw [cancels] at member
        rcases List.mem_append.mp member with earlier | last
        · exact accounted.pending pending earlier
        · rw [List.mem_singleton.mp last]
      · rw [World.rows, World.owed] at balance ⊢
        rw [ended, finishing, history, cancels, List.map_append, ← Multiset.coe_add,
          ← Multiset.coe_add, add_right_comm, balance]
        simp only [List.map_cons, List.map_nil]
        abel

/-- A step which is no shutdown loses no ending. -/
theorem World.Accounted.step {lost : Multiset Ending} (accounted : world.Accounted lost)
    (linked : world.Linked) {action : Action} (steps : manager.Steps world action next)
    (writes : action.Writes) (open_ : action ≠ .shutdown) : next.Accounted lost := by
  have balance := accounted.balance
  cases steps with
  | admission _ admits =>
      refine accounted.transfer ?_ ?_ ?_ (congrArg _ (World.finishing_admission _)) <;>
        · unfold World.admission
          split <;> rfl
  | snapshot | observe => exact accounted.transfer rfl rfl rfl rfl
  | cancel job owner => exact accounted.cancel manager job owner
  | @recordCancel position job kind clock write history cancels at_ written =>
      obtain ⟨rest, recordedUnix, row⟩ := written writes.1 writes.2
      subst rest row
      refine ⟨fun pending member => accounted.pending pending (List.mem_of_mem_eraseIdx member), ?_⟩
      have owed := congrArg (Multiset.map fun pending : PendingCancel =>
        Ending.mk pending.job pending.kind .cancelled) (coe_eq_cons_eraseIdx at_)
      rw [Multiset.map_coe, Multiset.map_cons, Multiset.map_coe] at owed
      rw [World.owed, owed] at balance
      rw [World.finishing] at balance ⊢
      rw [balance, World.rows, World.rows, World.owed, List.map_append, ← Multiset.coe_add,
        ← Multiset.singleton_add]
      simp only [List.map_cons, List.map_nil, cancelledRecord, Multiset.coe_singleton]
      abel
  | @flagCancel position job kind at_ =>
      cases accounted.pending _ (List.mem_of_getElem? at_)
  | leave at_ | wait at_ | start at_ | wake at_ | missing at_ | inputs at_ | exit at_ =>
      exact accounted.transfer rfl rfl rfl (World.finishing_idle at_ rfl rfl rfl)
  | @record thread job sourceId kind capability resolved cancelled work clock reference write
      outcome receipt historyOk history at_ settled written =>
      obtain ⟨-, record, recorded, status, row⟩ := written writes.1 writes.2
      subst row
      refine ⟨accounted.pending, ?_⟩
      have moved := World.finishing_advance at_ (show World.workers { world with
        history := world.history ++ [(job, record)]
        workers := world.advance thread (.recorded outcome receipt historyOk) } =
          world.advance thread (.recorded outcome receipt historyOk) from rfl)
      simp only [Worker.ending, Option.toList_none, Option.toList_some, Multiset.coe_nil,
        add_zero] at moved
      rw [World.rows, World.owed] at balance ⊢
      rw [moved, ← add_assoc, balance, List.map_append, ← Multiset.coe_add, List.map_singleton,
        recorded, status]
      abel
  | @finish thread job outcome receipt historyOk at_ =>
      refine ⟨accounted.pending, ?_⟩
      obtain ⟨stored, held, -, serves⟩ := linked.busy thread _ at_ rfl
      have same : outcome.kind = stored.kind.historyKind := serves
      have moved := World.finishing_advance at_ (show World.workers { world with
        workers := world.advance thread .returned } = world.advance thread .returned from rfl)
      simp only [Worker.ending, Option.toList_none, Option.toList_some, Multiset.coe_nil,
        add_zero] at moved
      have ended : world.ending job outcome.status =
          [.mk job outcome.kind outcome.status] := by
        rw [World.ending, held, same]
        rfl
      have finishing := World.finishing_notifyAll (world.advance thread .returned)
      rw [World.rows, World.owed] at balance ⊢
      rw [World.finishing, finishing, ended, ← Multiset.coe_add, ← balance, ← moved, World.finishing]
      abel
  | shutdown => exact absurd rfl open_

/-- A shutdown loses the endings of the jobs which waited. -/
theorem World.Accounted.shutdown {lost : Multiset Ending} (accounted : world.Accounted lost)
    (state : JobsState) :
    World.Accounted
      { world with
        state
        workers := World.notifyAll world.workers
        ended := world.ended ++ world.dropped } (lost + world.dropped) where
  pending := accounted.pending
  balance := by
    have balance := accounted.balance
    rw [World.rows, World.owed] at balance ⊢
    rw [World.finishing] at balance ⊢
    rw [World.finishing_notifyAll, ← Multiset.coe_add, ← add_assoc, ← balance]
    abel

/-- A shutdown drops nothing exactly if no job waits. -/
theorem JobManager.Invariant.dropped_eq_nil_iff (invariant : manager.Invariant world)
    (closed : world.Closed) :
    world.dropped = [] ↔ ∀ id, world.state.isQueued id = false := by
  rw [World.dropped, List.map_eq_nil_iff, List.filter_eq_nil_iff]
  constructor
  · intro none id
    rw [← Bool.not_eq_true]
    intro waiting
    obtain ⟨job, held, queued⟩ := world.state.isQueued_iff.mp waiting
    apply none ⟨id, job⟩ (AList.mem_lookup_iff.mp held)
    simp [JobManager.shutdownCancels, queued, JobStatus.terminal,
      invariant.untouched closed held queued]
  · rintro idle ⟨id, job⟩ member dropped
    have held := AList.mem_lookup_iff.mpr member
    have queued : job.status = .queued := by
      rw [Bool.and_eq_true] at dropped
      exact beq_iff_eq.mp dropped.2
    exact Bool.false_ne_true
      ((idle id).symm.trans (world.state.isQueued_iff.mpr ⟨job, held, queued⟩))

/-! ## Runs -/

/-- Every shutdown of a run finds no job waiting. -/
def JobManager.ShutsDownIdle (manager : JobManager) (actions : List Action) : Prop :=
  ∀ before later passed, actions = before ++ .shutdown :: later → manager.RunsTo before passed →
    ∀ id, passed.state.isQueued id = false

theorem JobManager.shutsDownIdle_of_notMem {actions : List Action}
    (serving : Action.shutdown ∉ actions) : manager.ShutsDownIdle actions := by
  rintro before later passed rfl
  exact absurd (List.mem_append_right _ List.mem_cons_self) serving

theorem JobManager.shutsDownIdle_append {actions : List Action} {action : Action}
    (run : manager.RunsTo actions world) :
    manager.ShutsDownIdle (actions ++ [action]) ↔ manager.ShutsDownIdle actions ∧
      (action = .shutdown → ∀ id, world.state.isQueued id = false) := by
  constructor
  · intro idle
    constructor
    · intro before later passed split reached
      exact idle before (later ++ [action]) passed (by rw [split]; simp) reached
    · intro last
      exact idle actions [] world (by rw [last]) run
  · rintro ⟨earlier, last⟩ before later passed split reached
    rcases List.eq_nil_or_concat later with rfl | ⟨rest, final, rfl⟩
    · obtain ⟨rfl, same⟩ := List.append_inj' split rfl
      have equal := (JobManager.runsTo_iff.mp run).symm.trans (JobManager.runsTo_iff.mp reached)
      obtain rfl := Option.some.inj equal
      exact last (List.singleton_inj.mp same)
    · rw [List.concat_eq_append, ← List.cons_append, ← List.append_assoc] at split
      obtain ⟨start, -⟩ := List.append_inj' split rfl
      exact earlier before rest passed start reached

theorem JobManager.RunsTo.accounted {actions : List Action} (run : manager.RunsTo actions world)
    (bounds : manager.limits.BoundsJobs) (writes : ∀ action ∈ actions, action.Writes) :
    ∃ lost, world.Accounted lost ∧ (lost = 0 ↔ manager.ShutsDownIdle actions) := by
  induction run with
  | nil =>
      refine ⟨0, ⟨fun _ member => (nomatch member), rfl⟩, ⟨fun _ => ?_, fun _ => rfl⟩⟩
      intro before later passed split
      cases before <;> cases split
  | @step actions world next run action taken induction =>
      obtain ⟨lost, accounted, idle⟩ := induction fun earlier member =>
        writes earlier (List.mem_append_left _ member)
      have invariant := run.invariant bounds
      rw [JobManager.shutsDownIdle_append run]
      by_cases closes : action = .shutdown
      · subst closes
        obtain rfl := Option.some.inj taken
        refine ⟨lost + world.dropped, accounted.shutdown _, ?_⟩
        rw [← Multiset.card_eq_zero, Multiset.card_add, Nat.add_eq_zero_iff, Multiset.card_eq_zero,
          Multiset.card_eq_zero, Multiset.coe_eq_zero, idle,
          invariant.dropped_eq_nil_iff (run.closed bounds)]
        exact ⟨fun ⟨earlier, now⟩ => ⟨earlier, fun _ => now⟩,
          fun ⟨earlier, now⟩ => ⟨earlier, now rfl⟩⟩
      · have written := writes action (List.mem_append_right _ List.mem_cons_self)
        exact ⟨lost, accounted.step invariant.linked (JobManager.steps_of_act taken) written closes,
          idle.trans ⟨fun earlier => ⟨earlier, fun same => absurd same closes⟩, And.left⟩⟩

/-- A job is cancelled while it waits, before a shutdown. -/
def sampleCancellation : List Action :=
  [.admitJob 0#256 "library" (some "first") true, .cancel "first" 0#256,
    .recordCancel 0 (some 7) .written, .begin 0]

end ImmichRs.Web
