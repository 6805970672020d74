import ImmichRs.Web.JobSteps

/-!
# Runs of the job manager

What holds of the manager and its threads after any interleaving of calls and workers: every worker
between the start and the end of its job has a running job of its own, and, until a shutdown, the
counters, sets and order of the manager agree with its table and jobs start in the order in which
they were admitted.
-/

namespace ImmichRs.Web

open Collections

variable {manager : JobManager} {world next : World}

/-! ## Workers and their jobs -/

/-- A worker's phase fits the kind of its job. -/
def WorkerPhase.Serves (kind : JobKind) : WorkerPhase → Prop
  | .executing _ served _ => served = kind
  | .recorded outcome _ _ => outcome.kind = kind.historyKind
  | _ => True

/-- Every worker between the start and the end of its job has a running job of its own. -/
structure World.Linked (world : World) : Prop where
  busy : ∀ (thread : Nat) (worker : Worker), world.workers[thread]? = some worker →
    worker.phase.active = true →
    ∃ job, world.state.jobs.lookup worker.job = some job ∧ job.status = .running ∧
      worker.phase.Serves job.kind
  unique : ∀ (first second : Nat) (worker other : Worker), world.workers[first]? = some worker →
    world.workers[second]? = some other → worker.phase.active = true →
      other.phase.active = true → worker.job = other.job → first = second

/-- Running jobs go on running, with their kind. -/
def JobsState.KeepsRunning (before after : JobsState) : Prop :=
  ∀ id job, before.jobs.lookup id = some job → job.status = .running →
    ∃ kept, after.jobs.lookup id = some kept ∧ kept.status = .running ∧ kept.kind = job.kind

theorem JobsState.KeepsRunning.refl (state : JobsState) : state.KeepsRunning state :=
  fun _ job held runs => ⟨job, held, runs, rfl⟩

theorem JobsState.KeepsRunning.trans {first second third : JobsState}
    (keeps : first.KeepsRunning second) (later : second.KeepsRunning third) :
    first.KeepsRunning third := by
  intro id job held runs
  obtain ⟨kept, found, going, kind⟩ := keeps id job held runs
  obtain ⟨last, seen, still, same⟩ := later id kept found going
  exact ⟨last, seen, still, same.trans kind⟩

/-- Replacing one job keeps the others, and keeps it if it goes on running. -/
theorem JobsState.keepsRunning_insert {state after : JobsState} {id : JobId} {new : StoredJob}
    (jobs : after.jobs = state.jobs.insert id new)
    (going : ∀ old, state.jobs.lookup id = some old → old.status = .running →
      new.status = .running ∧ new.kind = old.kind) : state.KeepsRunning after := by
  intro other job held runs
  rw [jobs]
  by_cases same : other = id
  · subst same
    exact ⟨new, AList.lookup_insert _, going job held runs⟩
  · exact ⟨job, (AList.lookup_insert_ne same).trans held, runs, rfl⟩

theorem keepsRunning_evictRounds (retained rounds : Nat) (state : JobsState) :
    state.KeepsRunning (evictRounds retained rounds state) := by
  induction rounds generalizing state with
  | zero => exact .refl state
  | succ rounds induction =>
      unfold evictRounds
      split_ifs
      · split
        · exact .refl state
        · rename_i id found
          refine JobsState.KeepsRunning.trans ?_ (induction _)
          intro other job held runs
          have apart : other ≠ id := by
            rintro rfl
            obtain ⟨old, seen, ended⟩ := state.isTerminal_iff.mp (List.find?_some found)
            rw [held, Option.some.injEq] at seen
            subst seen
            rw [runs] at ended
            cases ended
          exact ⟨job, (AList.lookup_erase_ne apart).trans held, runs, rfl⟩
      · exact .refl state

theorem JobManager.keepsRunning_cleared (manager : JobManager) (finished : Nat → Bool)
    (state : JobsState) : state.KeepsRunning (manager.cleared finished state) :=
  keepsRunning_evictRounds _ _ (reapWorkers finished state)

theorem JobManager.keepsRunning_enqueue (manager : JobManager) {state : JobsState}
    {job : StoredJob} (fresh : job.id ∉ state.jobs)
    (apply : Option (ArtifactRef × ApplyCapability)) :
    state.KeepsRunning (manager.enqueue state job apply) := by
  apply JobsState.keepsRunning_insert (manager.enqueue_jobs state job apply)
  intro old held
  rw [AList.lookup_eq_none.mpr fresh] at held
  cases held

/-- What a cancellation does to the table. -/
theorem JobManager.cancel_jobs (manager : JobManager) (state : JobsState) (id : JobId)
    (owner : Owner) :
    (manager.cancel state id owner = (state, .mk none none false)) ∨
      ∃ job new, state.jobs.lookup id = some job ∧ new.kind = job.kind ∧
        (manager.cancel state id owner).1.jobs = state.jobs.insert id new ∧
        (new.status = job.status ∧ (manager.cancel state id owner).2.record = none ∨
          job.status = .queued ∧ new.status = .cancelled ∧
            (manager.cancel state id owner).2.record = some job.kind.historyKind ∧
            (manager.cancel state id owner).2.notifies = true) := by
  unfold JobManager.cancel
  split
  · exact .inl rfl
  · rename_i job found
    have held := lookup_of_owned found
    refine .inr ⟨job, if !job.status.terminal && !job.cancellationRequested then
      manager.requestCancellation job else job, held, by split_ifs <;> rfl, ?_, ?_⟩
    · dsimp only
      split_ifs <;> rfl
    · dsimp only
      by_cases waiting : job.status = .queued
      · cases job.cancellationRequested <;>
          simp [waiting, JobStatus.terminal, requestCancellation]
      · simp only [beq_eq_false_iff_ne.mpr waiting, Bool.and_false, Bool.false_eq_true, if_false,
          and_true]
        refine .inl ?_
        split_ifs
        · exact if_neg waiting
        · rfl

theorem JobManager.keepsRunning_cancel (manager : JobManager) (state : JobsState) (id : JobId)
    (owner : Owner) : state.KeepsRunning (manager.cancel state id owner).1 := by
  rcases manager.cancel_jobs state id owner with unknown | ⟨job, new, held, kind, jobs, status⟩
  · rw [unknown]
    exact .refl state
  · apply JobsState.keepsRunning_insert jobs
    intro old found runs
    rw [held, Option.some.injEq] at found
    subst found
    rcases status with ⟨same, -⟩ | ⟨waiting, -⟩
    · exact ⟨same.trans runs, kind⟩
    · rw [runs] at waiting
      cases waiting

theorem JobManager.keepsRunning_observe (manager : JobManager) (state : JobsState) (id : JobId)
    (progress : JobProgress) : state.KeepsRunning (manager.observe state id progress) := by
  cases held : state.jobs.lookup id with
  | none =>
      intro other job found runs
      refine ⟨job, ?_, runs, rfl⟩
      rw [← found, JobManager.observe, Keyed.modify, held]
  | some job =>
      apply JobsState.keepsRunning_insert (Keyed.modify_of_lookup held)
      intro old found runs
      rw [held, Option.some.injEq] at found
      subst found
      exact ⟨runs, rfl⟩

theorem JobManager.keepsRunning_shutdown (manager : JobManager) (state : JobsState) :
    state.KeepsRunning (manager.shutdown state) := by
  intro id job held runs
  refine ⟨manager.shutdownJob job, ?_, ?_, ?_⟩
  · rw [JobManager.shutdown, Keyed.lookup_mapValues, held, Option.map_some]
  · unfold JobManager.shutdownJob
    split_ifs
    · simp [JobManager.requestCancellation, runs]
    · exact runs
  · unfold JobManager.shutdownJob
    split_ifs <;> rfl

theorem World.getElem?_advance (world : World) (thread other : Nat) (phase : WorkerPhase) :
    (world.advance thread phase)[other]? =
      if thread = other then world.workers[other]?.map fun worker => { worker with phase }
      else world.workers[other]? := by
  rw [World.advance, List.getElem?_modify]
  split_ifs with same
  · rfl
  · simp

/-- An active worker after `notify_all` was active before. -/
theorem World.active_of_notifyAll {workers : List Worker} {thread : Nat} {worker : Worker}
    (at_ : (World.notifyAll workers)[thread]? = some worker)
    (active : worker.phase.active = true) : workers[thread]? = some worker := by
  rw [World.notifyAll, List.getElem?_map] at at_
  obtain ⟨before, found, made⟩ := Option.map_eq_some_iff.mp at_
  split_ifs at made with asleep
  · subst made
    cases active
  · rw [found, made]

/-- An active worker which has not just moved to an inactive phase was active before. -/
theorem World.active_of_advance {thread other : Nat} {phase : WorkerPhase} {worker : Worker}
    (idle : phase.active = false)
    (at_ : (world.advance thread phase)[other]? = some worker)
    (active : worker.phase.active = true) :
    thread ≠ other ∧ world.workers[other]? = some worker := by
  rw [World.getElem?_advance] at at_
  split_ifs at at_ with same
  · obtain ⟨before, -, rfl⟩ := Option.map_eq_some_iff.mp at_
    rw [idle] at active
    cases active
  · exact ⟨same, at_⟩

/-- A new worker is not active. -/
theorem World.active_of_append {workers : List Worker} {thread : Nat} {worker : Worker}
    {job : JobId} (at_ : (workers ++ [{ job, phase := .arriving }])[thread]? = some worker)
    (active : worker.phase.active = true) : workers[thread]? = some worker := by
  rw [List.getElem?_append] at at_
  split_ifs at at_
  · exact at_
  · rw [List.mem_singleton.mp (List.mem_of_getElem? at_)] at active
    cases active

/-- Nothing new is active, and running jobs go on. -/
theorem World.Linked.transfer (linked : world.Linked)
    (keeps : world.state.KeepsRunning next.state)
    (before : ∀ (thread : Nat) (worker : Worker), next.workers[thread]? = some worker →
      worker.phase.active = true → world.workers[thread]? = some worker) : next.Linked where
  busy thread worker at_ active := by
    obtain ⟨job, held, runs, serves⟩ := linked.busy thread worker (before thread worker at_ active)
      active
    obtain ⟨kept, found, going, kind⟩ := keeps worker.job job held runs
    exact ⟨kept, found, going, kind ▸ serves⟩
  unique first second worker other at_ also active too same :=
    linked.unique first second worker other (before first worker at_ active)
      (before second other also too) active too same

/-- An active worker moves on with its job. -/
theorem World.Linked.proceed (linked : world.Linked) {thread : Nat} {job : JobId}
    {phase later : WorkerPhase} (at_ : world.workers[thread]? = some { job, phase })
    (active : phase.active = true) (keeps : world.state.KeepsRunning next.state)
    (workers : next.workers = world.advance thread later)
    (serves : ∀ kind, (∃ stored, world.state.jobs.lookup job = some stored ∧
      stored.kind = kind) → phase.Serves kind → later.Serves kind) : next.Linked := by
  have before : ∀ (other : Nat) (worker : Worker), next.workers[other]? = some worker →
      worker.phase.active = true → ∃ earlier, world.workers[other]? = some earlier ∧
        earlier.phase.active = true ∧ earlier.job = worker.job ∧
        (other ≠ thread ∧ earlier = worker ∨ other = thread ∧ worker.phase = later) := by
    intro other worker found busy
    rw [workers, World.getElem?_advance] at found
    split_ifs at found with same
    · subst same
      rw [at_, Option.map_some, Option.some.injEq] at found
      subst found
      exact ⟨_, at_, active, rfl, .inr ⟨rfl, rfl⟩⟩
    · exact ⟨worker, found, busy, rfl, .inl ⟨fun equal => same equal.symm, rfl⟩⟩
  constructor
  · intro other worker found busy
    obtain ⟨earlier, seen, was, same, moved⟩ := before other worker found busy
    obtain ⟨stored, held, runs, served⟩ := linked.busy other earlier seen was
    rw [same] at held
    obtain ⟨kept, kind⟩ := keeps worker.job stored held runs
    refine ⟨kept, kind.1, kind.2.1, ?_⟩
    rw [kind.2.2]
    rcases moved with ⟨-, rfl⟩ | ⟨rfl, now⟩
    · exact served
    · rw [at_, Option.some.injEq] at seen
      subst seen
      rw [now]
      exact serves stored.kind ⟨stored, (show job = worker.job from same).symm ▸ held, rfl⟩ served
  · intro first second worker other found also busy too same
    obtain ⟨earlier, seen, was, job, -⟩ := before first worker found busy
    obtain ⟨previous, observed, had, also, -⟩ := before second other also too
    exact linked.unique first second earlier previous seen observed was had
      (job.trans (same.trans also.symm))

/-! ## The queue -/

/-- The waiting jobs, in order. -/
def JobsState.queue (state : JobsState) : List JobId := state.order.filter state.isQueued

/-- No job is added to the order, and none begins to wait. -/
structure JobsState.Shrinks (before after : JobsState) : Prop where
  order : after.order.Sublist before.order
  queued : ∀ id, after.isQueued id = true → before.isQueued id = true

theorem JobsState.Shrinks.refl (state : JobsState) : state.Shrinks state :=
  ⟨List.Sublist.refl _, fun _ waiting => waiting⟩

theorem JobsState.Shrinks.trans {first second third : JobsState} (less : first.Shrinks second)
    (later : second.Shrinks third) : first.Shrinks third :=
  ⟨later.order.trans less.order, fun id waiting => less.queued id (later.queued id waiting)⟩

/-- The queue loses jobs, at most. -/
theorem JobsState.Shrinks.queue {before after : JobsState} (less : before.Shrinks after) :
    after.queue.Sublist before.queue :=
  (List.monotone_filter_right _ less.queued).trans (less.order.filter _)

theorem JobsState.shrinks_insert {before after : JobsState} {id : JobId} {new : StoredJob}
    (order : after.order = before.order) (jobs : after.jobs = before.jobs.insert id new)
    (queued : new.status = .queued → before.isQueued id = true) : before.Shrinks after := by
  refine ⟨order ▸ List.Sublist.refl _, fun other waiting => ?_⟩
  obtain ⟨job, found, status⟩ := after.isQueued_iff.mp waiting
  rw [jobs] at found
  rcases Keyed.lookup_insert_cases found with ⟨rfl, rfl⟩ | ⟨-, kept⟩
  · exact queued status
  · exact before.isQueued_iff.mpr ⟨job, kept, status⟩

theorem shrinks_evictRounds (retained rounds : Nat) (state : JobsState) :
    state.Shrinks (evictRounds retained rounds state) := by
  induction rounds generalizing state with
  | zero => exact .refl state
  | succ rounds induction =>
      unfold evictRounds
      split_ifs
      · split
        · exact .refl state
        · rename_i id found
          refine JobsState.Shrinks.trans ⟨List.erase_sublist .., ?_⟩ (induction _)
          intro other waiting
          obtain ⟨job, kept, status⟩ := JobsState.isQueued_iff _ |>.mp waiting
          exact state.isQueued_iff.mpr ⟨job, (Keyed.lookup_of_lookup_erase kept).2, status⟩
      · exact .refl state

theorem JobManager.shrinks_cleared (manager : JobManager) (finished : Nat → Bool)
    (state : JobsState) : state.Shrinks (manager.cleared finished state) :=
  have reaped : state.Shrinks (reapWorkers finished state) :=
    ⟨List.Sublist.refl _, fun _ waiting => waiting⟩
  reaped.trans (shrinks_evictRounds _ _ (reapWorkers finished state))

theorem JobManager.cancel_order (manager : JobManager) (state : JobsState) (id : JobId)
    (owner : Owner) : (manager.cancel state id owner).1.order = state.order ∧
      (manager.cancel state id owner).1.running = state.running := by
  unfold JobManager.cancel
  split
  · exact ⟨rfl, rfl⟩
  · dsimp only
    split_ifs <;> exact ⟨rfl, rfl⟩

theorem JobManager.cancelStep_state (manager : JobManager) (world : World) (job : JobId)
    (owner : Owner) : (manager.cancelStep world job owner).state =
      (manager.cancel world.state job owner).1 := by
  unfold JobManager.cancelStep
  dsimp only
  split <;> rfl

theorem JobManager.cancelStep_workers (manager : JobManager) (world : World) (job : JobId)
    (owner : Owner) : (manager.cancelStep world job owner).workers =
      if (manager.cancel world.state job owner).2.notifies then World.notifyAll world.workers
      else world.workers := by
  unfold JobManager.cancelStep
  dsimp only
  split <;> rfl

theorem JobManager.shrinks_cancel (manager : JobManager) (state : JobsState) (id : JobId)
    (owner : Owner) : state.Shrinks (manager.cancel state id owner).1 := by
  have order := (manager.cancel_order state id owner).1
  rcases manager.cancel_jobs state id owner with unknown | ⟨job, new, held, -, jobs, status⟩
  · rw [unknown]
    exact .refl state
  · apply JobsState.shrinks_insert order jobs
    intro waiting
    rcases status with ⟨same, -⟩ | ⟨-, ended, -⟩
    · exact state.isQueued_iff.mpr ⟨job, held, same ▸ waiting⟩
    · rw [waiting] at ended
      cases ended

theorem JobManager.shrinks_observe (manager : JobManager) (state : JobsState) (id : JobId)
    (progress : JobProgress) : state.Shrinks (manager.observe state id progress) := by
  cases held : state.jobs.lookup id with
  | none =>
      rw [JobManager.observe, Keyed.modify, held]
      exact .refl state
  | some job =>
      exact JobsState.shrinks_insert rfl (Keyed.modify_of_lookup held) fun waiting =>
        state.isQueued_iff.mpr ⟨job, held, waiting⟩

theorem JobManager.shrinks_finish (manager : JobManager) (state : JobsState) (id : JobId)
    (outcome : WorkerOutcome) (receipt : Option ReceiptRef) (historyOk : Bool) :
    state.Shrinks (manager.finish state id outcome receipt historyOk) := by
  have order : (manager.finish state id outcome receipt historyOk).order = state.order := rfl
  cases held : state.jobs.lookup id with
  | none =>
      refine ⟨order ▸ List.Sublist.refl _, fun other => ?_⟩
      rw [JobsState.isQueued, JobsState.isQueued, JobManager.finish, Keyed.modify, held]
      exact fun waiting => waiting
  | some job =>
      apply JobsState.shrinks_insert order
        (congrArg JobsState.jobs (manager.finish_of_lookup held outcome receipt historyOk))
      intro waiting
      have terminal := terminal_jobStatus outcome.status
      rw [← manager.settle_status outcome receipt job, waiting] at terminal
      cases terminal

theorem JobManager.shrinks_shutdown (manager : JobManager) (state : JobsState) :
    state.Shrinks (manager.shutdown state) := by
  have order : (manager.shutdown state).order.Sublist state.order := List.Sublist.refl _
  refine ⟨order, fun id waiting => ?_⟩
  obtain ⟨job, found, status⟩ := JobsState.isQueued_iff _ |>.mp waiting
  rw [JobManager.shutdown, Keyed.lookup_mapValues] at found
  obtain ⟨before, held, rfl⟩ := Option.map_eq_some_iff.mp found
  refine state.isQueued_iff.mpr ⟨before, held, ?_⟩
  unfold JobManager.shutdownJob at status
  split_ifs at status
  · by_contra running
    simp [JobManager.requestCancellation, running] at status
  · exact status

/-- An admission adds its job at the end of the queue. -/
theorem JobManager.queue_enqueue (manager : JobManager) {state : JobsState} {job : StoredJob}
    (unlisted : job.id ∉ state.order) (waiting : job.status = .queued)
    (apply : Option (ArtifactRef × ApplyCapability)) :
    (manager.enqueue state job apply).queue = state.queue ++ [job.id] := by
  rw [JobsState.queue, manager.enqueue_order, List.filter_append]
  congr 1
  · apply List.filter_congr
    intro other listed
    have apart : other ≠ job.id := fun same => unlisted (same ▸ listed)
    rw [JobsState.isQueued, JobsState.isQueued, manager.enqueue_jobs, AList.lookup_insert_ne apart]
  · rw [List.filter_singleton, JobsState.isQueued, manager.enqueue_jobs, AList.lookup_insert,
      Option.any_some, pushEvent_status, waiting]
    rfl

/-- Starting the first waiting job takes it from the head of the queue. -/
theorem JobManager.queue_sublist_start (manager : JobManager) {state : JobsState} {id : JobId}
    (first : state.order.find? state.isQueued = some id) (job : StoredJob) {after : JobsState}
    (order : after.order = state.order)
    (jobs : after.jobs = state.jobs.insert id (manager.moveTo .running job)) :
    (id :: after.queue).Sublist state.queue := by
  obtain ⟨waiting, before, later, split, skipped⟩ := List.find?_eq_some_iff_append.mp first
  have within : ∀ other, after.isQueued other = true → state.isQueued other = true ∧ other ≠ id := by
    intro other queued
    obtain ⟨found, present, status⟩ := after.isQueued_iff.mp queued
    rw [jobs] at present
    rcases Keyed.lookup_insert_cases present with ⟨-, rfl⟩ | ⟨apart, kept⟩
    · cases status
    · exact ⟨state.isQueued_iff.mpr ⟨found, kept, status⟩, apart⟩
  have none : (before ++ [id]).filter after.isQueued = [] := by
    rw [List.filter_eq_nil_iff]
    intro other member queued
    rcases List.mem_append.mp member with earlier | same
    · have idle := skipped other earlier
      rw [(within other queued).1] at idle
      cases idle
    · exact (within other queued).2 (List.mem_singleton.mp same)
  have rest : after.queue = later.filter after.isQueued := by
    rw [JobsState.queue, order, split, List.append_cons, List.filter_append, none,
      List.nil_append]
  rw [rest, JobsState.queue, split, List.filter_append, List.filter_cons_of_pos waiting]
  exact ((List.monotone_filter_right later fun other queued =>
    (within other queued).1).cons_cons id).trans (List.sublist_append_right _ _)

/-! ## The invariant -/

/-- What holds in every state of a run. -/
structure JobManager.Invariant (manager : JobManager) (world : World) : Prop where
  linked : world.Linked
  coherent : world.state.shuttingDown = false → world.state.Coherent manager.limits
  inOrder : (world.started ++ world.state.queue).Sublist world.admitted

theorem JobManager.invariant_initial (manager : JobManager) :
    manager.Invariant .initial where
  linked := ⟨by simp [World.initial], by simp [World.initial]⟩
  coherent _ := JobsState.coherent_empty _
  inOrder := List.Sublist.refl _

theorem JobManager.Invariant.admission (invariant : manager.Invariant world)
    (bounds : manager.limits.BoundsJobs) {outcome : JobsState × Except AdmissionError JobId}
    (admits : manager.AdmitsTo world outcome) : manager.Invariant (world.admission outcome) := by
  rcases admits with ⟨error, rfl⟩ | ⟨job, apply, thread, admissible, rfl⟩
  · exact ⟨invariant.linked, invariant.coherent, invariant.inOrder⟩
  · have keeps := manager.keepsRunning_cleared world.finished world.state
    have shorter := (manager.shrinks_cleared world.finished world.state).queue
    have open_ := manager.cleared_shuttingDown world.finished world.state
    rcases manager.admitLocked_cases invariant.coherent bounds world.finished job apply thread with
      ⟨error, refused⟩ | ⟨number, room, admitted⟩
    · rw [refused]
      refine ⟨invariant.linked.transfer keeps fun _ _ at_ _ => at_, ?_, ?_⟩
      · intro serving
        exact (invariant.coherent (open_.symm.trans serving)).cleared world.finished
      · exact (List.Sublist.append_left shorter _).trans invariant.inOrder
    · rw [admitted]
      have coherent := (invariant.coherent (open_.symm.trans room.serving)).cleared world.finished
      refine ⟨invariant.linked.transfer ?_ ?_, ?_, ?_⟩
      · exact keeps.trans (manager.keepsRunning_enqueue room.fresh apply)
      · exact fun _ _ at_ active => World.active_of_append at_ active
      · exact fun _ => { coherent.enqueue bounds admissible room with }
      · have unlisted : job.id ∉ (manager.cleared world.finished world.state).order := fun listed =>
          room.fresh ((coherent.listed _).mp listed)
        have queued := manager.queue_enqueue unlisted admissible.waiting apply
        have longer := queued ▸ shorter.append_right [job.id]
        calc
          (world.started ++ _ : List JobId).Sublist
              (world.started ++ (world.state.queue ++ [job.id])) := longer.append_left _
          _ = world.started ++ world.state.queue ++ [job.id] := (List.append_assoc ..).symm
          List.Sublist _ (world.admitted ++ [job.id]) := invariant.inOrder.append_right _

/-- A worker starts a job which waited. -/
theorem World.Linked.start (linked : world.Linked) {thread : Nat} {job : JobId}
    {stored new : StoredJob} (at_ : world.workers[thread]? = some { job, phase := .arriving })
    (held : world.state.jobs.lookup job = some stored) (waiting : stored.status = .queued)
    (runs : new.status = .running) (jobs : next.state.jobs = world.state.jobs.insert job new)
    (workers : next.workers = world.advance thread .begun) : next.Linked := by
  have before : ∀ (other : Nat) (worker : Worker), next.workers[other]? = some worker →
      worker.phase.active = true → other = thread ∧ worker = { job, phase := .begun } ∨
        other ≠ thread ∧ worker.job ≠ job ∧ world.workers[other]? = some worker := by
    intro other worker found active
    rw [workers, World.getElem?_advance] at found
    split_ifs at found with same
    · subst same
      rw [at_, Option.map_some, Option.some.injEq] at found
      exact .inl ⟨rfl, found.symm⟩
    · refine .inr ⟨fun equal => same equal.symm, ?_, found⟩
      intro mine
      obtain ⟨running, present, going, -⟩ := linked.busy other worker found active
      rw [mine, held, Option.some.injEq] at present
      subst present
      rw [waiting] at going
      cases going
  constructor
  · intro other worker found active
    rcases before other worker found active with ⟨-, rfl⟩ | ⟨-, apart, was⟩
    · exact ⟨new, jobs ▸ AList.lookup_insert _, runs, trivial⟩
    · obtain ⟨running, present, going, serves⟩ := linked.busy other worker was active
      exact ⟨running, jobs ▸ (AList.lookup_insert_ne apart).trans present, going, serves⟩
  · intro first second worker other found also active too same
    rcases before first worker found active with ⟨rfl, rfl⟩ | ⟨-, apart, was⟩ <;>
      rcases before second other also too with ⟨rfl, rfl⟩ | ⟨-, different, had⟩
    · rfl
    · exact absurd same.symm different
    · exact absurd same apart
    · exact linked.unique first second worker other was had active too same

/-- A worker ends its job. -/
theorem World.Linked.finish (linked : world.Linked) {thread : Nat} {job : JobId}
    {outcome : WorkerOutcome} {receipt : Option ReceiptRef} {historyOk : Bool} {new : StoredJob}
    (at_ : world.workers[thread]? = some { job, phase := .recorded outcome receipt historyOk })
    (jobs : next.state.jobs = world.state.jobs.insert job new)
    (workers : next.workers = World.notifyAll (world.advance thread .returned)) :
    next.Linked := by
  have before : ∀ (other : Nat) (worker : Worker), next.workers[other]? = some worker →
      worker.phase.active = true →
        worker.job ≠ job ∧ world.workers[other]? = some worker := by
    intro other worker found active
    rw [workers] at found
    obtain ⟨apart, was⟩ :=
      world.active_of_advance rfl (World.active_of_notifyAll found active) active
    exact ⟨fun same => apart (linked.unique thread other _ worker at_ was rfl active same.symm),
      was⟩
  constructor
  · intro other worker found active
    obtain ⟨apart, was⟩ := before other worker found active
    obtain ⟨running, present, going, serves⟩ := linked.busy other worker was active
    exact ⟨running, jobs ▸ (AList.lookup_insert_ne apart).trans present, going, serves⟩
  · intro first second worker other found also active too same
    exact linked.unique first second worker other (before first worker found active).2
      (before second other also too).2 active too same

/-- A worker which is not active moves to a phase which is not active. -/
theorem JobManager.Invariant.idle (invariant : manager.Invariant world) (thread : Nat)
    {phase : WorkerPhase} (idle : phase.active = false) :
    manager.Invariant { world with workers := world.advance thread phase } where
  linked := invariant.linked.transfer (.refl _) fun _ _ at_ active =>
    (world.active_of_advance idle at_ active).2
  coherent := invariant.coherent
  inOrder := invariant.inOrder

theorem JobManager.Invariant.finish (invariant : manager.Invariant world) {thread : Nat}
    {job : JobId} {outcome : WorkerOutcome} {receipt : Option ReceiptRef} {historyOk : Bool}
    (at_ : world.workers[thread]? =
      some { job, phase := .recorded outcome receipt historyOk }) :
    manager.Invariant
      { world with
        state := manager.finish world.state job outcome receipt historyOk
        workers := World.notifyAll (world.advance thread .returned)
        ended := world.ended ++ world.ending job outcome.status } := by
  obtain ⟨stored, held, runs, -⟩ := invariant.linked.busy thread _ at_ rfl
  refine ⟨?_, ?_, ?_⟩
  · exact invariant.linked.finish at_
      (congrArg JobsState.jobs (manager.finish_of_lookup held outcome receipt historyOk)) rfl
  · intro open_
    exact (invariant.coherent open_).finish held runs outcome receipt historyOk
  · exact (List.Sublist.append_left (manager.shrinks_finish _ _ _ _ _).queue _).trans
      invariant.inOrder

theorem JobManager.Invariant.cancel (invariant : manager.Invariant world) (job : JobId)
    (owner : Owner) : manager.Invariant (manager.cancelStep world job owner) := by
  have keeps := manager.keepsRunning_cancel world.state job owner
  have shorter := (manager.shrinks_cancel world.state job owner).queue
  have same := manager.cancel_shuttingDown world.state job owner
  have woken : ∀ (notifies : Bool) (thread : Nat) (worker : Worker),
      (if notifies then World.notifyAll world.workers else world.workers)[thread]? = some worker →
        worker.phase.active = true → world.workers[thread]? = some worker := by
    intro notifies thread worker at_ active
    split_ifs at at_
    · exact World.active_of_notifyAll at_ active
    · exact at_
  have coherent : (manager.cancel world.state job owner).1.shuttingDown = false →
      (manager.cancel world.state job owner).1.Coherent manager.limits := fun open_ =>
    (invariant.coherent (same ▸ open_)).cancel job owner
  have inOrder := (List.Sublist.append_left shorter world.started).trans invariant.inOrder
  unfold JobManager.cancelStep
  dsimp only
  split
  · exact ⟨invariant.linked.transfer keeps (woken _), coherent, inOrder⟩
  · exact ⟨invariant.linked.transfer keeps (woken _), coherent, inOrder⟩

theorem JobManager.Invariant.step (invariant : manager.Invariant world)
    (bounds : manager.limits.BoundsJobs) {action : Action}
    (steps : manager.Steps world action next) : manager.Invariant next := by
  have linked := invariant.linked
  cases steps with
  | admission _ admits => exact invariant.admission bounds admits
  | snapshot job owner =>
      exact ⟨⟨linked.busy, linked.unique⟩, fun open_ => { invariant.coherent open_ with },
        invariant.inOrder⟩
  | cancel job owner => exact invariant.cancel job owner
  | recordCancel =>
      exact ⟨⟨linked.busy, linked.unique⟩, invariant.coherent, invariant.inOrder⟩
  | flagCancel =>
      exact ⟨⟨linked.busy, linked.unique⟩, fun open_ => { invariant.coherent open_ with },
        invariant.inOrder⟩
  | @leave thread | @wait thread | @wake thread | @missing thread | @exit thread =>
      exact invariant.idle thread rfl
  | @start thread job stored at_ held waiting first free =>
      refine ⟨linked.start at_ held waiting rfl rfl rfl, ?_, ?_⟩
      · exact fun open_ => (invariant.coherent open_).start bounds held waiting free
      · have taken : (job :: JobsState.queue
            { world.state with
              queued := world.state.queued - 1
              running := saturatingAdd world.state.running 1
              jobs := world.state.jobs.insert job (manager.moveTo .running stored) }).Sublist
            world.state.queue := manager.queue_sublist_start first stored rfl rfl
        rw [List.append_assoc]
        exact (List.Sublist.append_left taken _).trans invariant.inOrder
  | @inputs thread job stored at_ held =>
      refine ⟨linked.proceed at_ rfl (.refl _) rfl ?_, ?_, invariant.inOrder⟩
      · rintro kind ⟨found, present, rfl⟩ -
        rw [held, Option.some.injEq] at present
        exact congrArg StoredJob.kind present
      · exact fun open_ => (invariant.coherent open_).withoutCapability job
  | observe at_ =>
      refine ⟨linked.transfer (manager.keepsRunning_observe _ _ _) fun _ _ at_ _ => at_, ?_, ?_⟩
      · exact fun open_ => (invariant.coherent open_).observe _ _
      · exact (List.Sublist.append_left (manager.shrinks_observe _ _ _).queue _).trans
          invariant.inOrder
  | record at_ settled written =>
      refine ⟨linked.proceed at_ rfl (.refl _) rfl ?_, invariant.coherent, invariant.inOrder⟩
      rintro kind - rfl
      exact settled
  | finish at_ => exact invariant.finish at_
  | shutdown =>
      refine ⟨linked.transfer (manager.keepsRunning_shutdown _) fun _ _ at_ active =>
        World.active_of_notifyAll at_ active, ?_, ?_⟩
      · exact fun open_ => nomatch open_
      · exact (List.Sublist.append_left (manager.shrinks_shutdown _).queue _).trans
          invariant.inOrder

theorem JobManager.RunsTo.invariant {actions : List Action} (run : manager.RunsTo actions world)
    (bounds : manager.limits.BoundsJobs) : manager.Invariant world := by
  induction run with
  | nil => exact manager.invariant_initial
  | step run taken induction => exact induction.step bounds (JobManager.steps_of_act taken)

/-- Only a shutdown closes the manager. -/
theorem JobManager.Steps.open_ {action : Action} (steps : manager.Steps world action next)
    (other : action ≠ .shutdown) :
    next.state.shuttingDown = world.state.shuttingDown := by
  cases steps with
  | admission _ admits =>
      rcases admits with ⟨error, rfl⟩ | ⟨job, apply, thread, -, rfl⟩
      · rfl
      · have same :=
          manager.admitLocked_shuttingDown world.finished world.state job apply thread
        unfold World.admission
        split <;> exact same
  | cancel job owner =>
      have same := manager.cancel_shuttingDown world.state job owner
      unfold JobManager.cancelStep
      dsimp only
      split <;> exact same
  | shutdown => exact absurd rfl other
  | _ => rfl

theorem JobManager.RunsTo.open_ {actions : List Action} (run : manager.RunsTo actions world)
    (serving : Action.shutdown ∉ actions) : world.state.shuttingDown = false := by
  induction run with
  | nil => rfl
  | @step actions world next run action taken induction =>
      have other : action ≠ .shutdown := fun same =>
        serving (List.mem_append_right _ (same ▸ List.mem_cons_self))
      rw [(JobManager.steps_of_act taken).open_ other]
      exact induction fun member => serving (List.mem_append_left _ member)

/-- The manager's counters, sets and order agree with its table, and jobs start in order. -/
structure World.Consistent (limits : WebLimits) (world : World) : Prop
    extends world.state.Coherent limits where
  /-- Jobs start in the order in which they were admitted. -/
  inOrder : world.started.Sublist world.admitted

/-- Whatever callers and workers do before a shutdown, the manager stays consistent. -/
theorem JobManager.consistent (manager : JobManager) (accepted : manager.limits.Accepted)
    {actions : List Action} (run : manager.RunsTo actions world)
    (serving : Action.shutdown ∉ actions) : world.Consistent manager.limits :=
  have invariant := run.invariant accepted.boundsJobs
  { invariant.coherent (run.open_ serving) with
    inOrder := (List.sublist_append_left _ _).trans invariant.inOrder }

/-- A console with one folder and one server. -/
def sampleManager (limits : WebLimits) : JobManager where
  limits := limits
  source _ := some { label := "Photos", kind := .folder }
  hasServer _ := true

theorem sampleManager_consistent :
    ∃ world, (sampleManager .default).RunsTo
        [.admitJob 0#256 "library" (some "first") true,
          .admitJob 0#256 "library" (some "second") true, .begin 0] world ∧
      world.started = ["first"] ∧ world.state.order = ["first", "second"] ∧
      world.Consistent WebLimits.default := by
  have runs : ∃ world, (sampleManager .default).run .initial
        [.admitJob 0#256 "library" (some "first") true,
          .admitJob 0#256 "library" (some "second") true, .begin 0] = some world ∧
      world.started = ["first"] ∧ world.state.order = ["first", "second"] := ⟨_, rfl, rfl, rfl⟩
  obtain ⟨world, taken, started, order⟩ := runs
  have run := JobManager.runsTo_iff.mpr taken
  exact ⟨world, run, started, order,
    (sampleManager .default).consistent WebLimits.default_accepted run (by simp)⟩

end ImmichRs.Web
