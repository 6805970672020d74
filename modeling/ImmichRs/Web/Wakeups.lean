import ImmichRs.Web.JobRuns

/-!
# Wake-ups

A worker whose job waits sleeps until it is notified.  A cancellation and the end of a job notify
every sleeping worker.  The start of a job notifies none, although it brings another job to the
head of the queue; a free slot is then overslept.
-/

namespace ImmichRs.Web

open Collections

variable {manager : JobManager} {world next : World}

/-- A worker sleeps without having been notified. -/
def World.Sleeps (world : World) (thread : Nat) (job : JobId) : Prop :=
  world.workers[thread]? = some { job, phase := .asleep }

/-- A worker sleeps although its job is the first to wait and a slot is free. -/
def World.LostWakeUp (limits : WebLimits) (world : World) : Prop :=
  ∃ thread job, world.Sleeps thread job ∧
    world.state.order.find? world.state.isQueued = some job ∧
    world.state.running < limits.concurrentJobs

/-! ## States with the same queue -/

theorem JobsState.isQueued_congr {before after : JobsState} (jobs : after.jobs = before.jobs) :
    after.isQueued = before.isQueued := by
  funext id
  rw [JobsState.isQueued, JobsState.isQueued, jobs]

/-- The queue and the number of running jobs stay, and no job ends. -/
structure JobsState.Undisturbed (before after : JobsState) : Prop where
  queue : after.queue = before.queue
  running : after.running = before.running
  open_ : ∀ id job, before.jobs.lookup id = some job → job.status.terminal = false →
    ∃ kept, after.jobs.lookup id = some kept ∧ kept.status.terminal = false

theorem JobsState.Undisturbed.refl (state : JobsState) : state.Undisturbed state :=
  ⟨rfl, rfl, fun _ job held open_ => ⟨job, held, open_⟩⟩

theorem JobsState.Undisturbed.of_jobs {before after : JobsState} (jobs : after.jobs = before.jobs)
    (order : after.order = before.order) (running : after.running = before.running) :
    before.Undisturbed after where
  queue := by rw [JobsState.queue, JobsState.queue, order, JobsState.isQueued_congr jobs]
  running := running
  open_ _ job held open_ := ⟨job, jobs ▸ held, open_⟩

theorem JobsState.Undisturbed.trans {first second third : JobsState}
    (same : first.Undisturbed second) (later : second.Undisturbed third) :
    first.Undisturbed third where
  queue := later.queue.trans same.queue
  running := later.running.trans same.running
  open_ := by
    intro id job held open_
    obtain ⟨kept, found, still⟩ := same.open_ id job held open_
    exact later.open_ id kept found still

/-- Replacing a job by one with its status disturbs nothing. -/
theorem JobsState.undisturbed_insert {before after : JobsState} {id : JobId} {old new : StoredJob}
    (held : before.jobs.lookup id = some old) (status : new.status = old.status)
    (jobs : after.jobs = before.jobs.insert id new) (order : after.order = before.order)
    (running : after.running = before.running) : before.Undisturbed after := by
  have queued : after.isQueued = before.isQueued := by
    funext other
    rw [JobsState.isQueued, JobsState.isQueued, jobs]
    by_cases same : other = id
    · subst same
      rw [AList.lookup_insert, held, Option.any_some, Option.any_some, status]
    · rw [AList.lookup_insert_ne same]
  refine ⟨?_, running, ?_⟩
  · rw [JobsState.queue, JobsState.queue, order, queued]
  · intro other job found open_
    rw [jobs]
    by_cases same : other = id
    · subst same
      rw [held, Option.some.injEq] at found
      subst found
      exact ⟨new, AList.lookup_insert _, status ▸ open_⟩
    · exact ⟨job, (AList.lookup_insert_ne same).trans found, open_⟩

/-- Erasing a job which has ended disturbs nothing. -/
theorem JobsState.undisturbed_evict {state : JobsState} {id : JobId}
    (ended : state.isTerminal id = true) :
    state.Undisturbed { state with order := state.order.erase id, jobs := state.jobs.erase id } := by
  obtain ⟨old, held, terminal⟩ := state.isTerminal_iff.mp ended
  have idle : state.isQueued id = false := by
    rw [JobsState.isQueued, held, Option.any_some, beq_eq_false_iff_ne]
    intro waiting
    rw [waiting] at terminal
    cases terminal
  have queued : JobsState.isQueued
      { state with order := state.order.erase id, jobs := state.jobs.erase id } =
        state.isQueued := by
    funext other
    by_cases same : other = id
    · subst same
      rw [idle, JobsState.isQueued, AList.lookup_erase, Option.any_none]
    · rw [JobsState.isQueued, JobsState.isQueued, AList.lookup_erase_ne same]
  refine ⟨?_, rfl, ?_⟩
  · have absent : id ∉ state.order.filter state.isQueued := fun member =>
      Bool.false_ne_true (idle.symm.trans (List.mem_filter.mp member).2)
    calc
      (state.order.erase id).filter _ = (state.order.erase id).filter state.isQueued :=
        congrArg (List.filter · (state.order.erase id)) queued
      _ = (state.order.filter state.isQueued).erase id := List.erase_filter.symm
      _ = state.queue := List.erase_of_not_mem absent
  · intro other job found open_
    have apart : other ≠ id := by
      rintro rfl
      rw [held, Option.some.injEq] at found
      subst found
      rw [open_] at terminal
      cases terminal
    exact ⟨job, (AList.lookup_erase_ne apart).trans found, open_⟩

theorem undisturbed_evictRounds (retained rounds : Nat) (state : JobsState) :
    state.Undisturbed (evictRounds retained rounds state) := by
  induction rounds generalizing state with
  | zero => exact .refl state
  | succ rounds induction =>
      unfold evictRounds
      split_ifs
      · split
        · exact .refl state
        · rename_i id found
          exact (JobsState.undisturbed_evict (List.find?_some found)).trans (induction _)
      · exact .refl state

theorem JobManager.undisturbed_cleared (manager : JobManager) (finished : Nat → Bool)
    (state : JobsState) : state.Undisturbed (manager.cleared finished state) :=
  have reaped : state.Undisturbed (reapWorkers finished state) := .of_jobs rfl rfl rfl
  reaped.trans (undisturbed_evictRounds _ _ (reapWorkers finished state))

theorem JobManager.undisturbed_observe (manager : JobManager) (state : JobsState) (id : JobId)
    (progress : JobProgress) : state.Undisturbed (manager.observe state id progress) := by
  cases held : state.jobs.lookup id with
  | none =>
      have same : manager.observe state id progress = state := by
        rw [JobManager.observe, Keyed.modify, held]
      rw [same]
      exact .refl state
  | some job =>
      let shown := pushEvent { job with progress } manager.limits.sseReplayEvents
      have status : shown.status = job.status := rfl
      exact JobsState.undisturbed_insert held status (Keyed.modify_of_lookup held) rfl rfl

/-- A cancellation which wakes nobody disturbs nothing. -/
theorem JobManager.undisturbed_cancel (manager : JobManager) (state : JobsState) (id : JobId)
    (owner : Owner) (quiet : (manager.cancel state id owner).2.notifies = false) :
    state.Undisturbed (manager.cancel state id owner).1 := by
  have fields := manager.cancel_order state id owner
  rcases manager.cancel_jobs state id owner with unknown | ⟨job, new, held, -, jobs, status⟩
  · rw [unknown]
    exact .refl state
  · rcases status with ⟨same, -⟩ | ⟨-, -, -, notifies⟩
    · exact JobsState.undisturbed_insert held same jobs fields.1 fields.2
    · rw [quiet] at notifies
      cases notifies

/-! ## Sleepers -/

/-- The job of every sleeping worker has not ended. -/
def World.Rested (world : World) : Prop :=
  ∀ thread job, world.Sleeps thread job →
    ∃ stored, world.state.jobs.lookup job = some stored ∧ stored.status.terminal = false

/-- Nobody sleeps after `notify_all`. -/
theorem World.not_sleeps_notifyAll {workers : List Worker} {thread : Nat} {job : JobId} :
    (World.notifyAll workers)[thread]? ≠ some { job, phase := .asleep } := by
  intro at_
  rw [World.notifyAll, List.getElem?_map] at at_
  obtain ⟨before, -, made⟩ := Option.map_eq_some_iff.mp at_
  split_ifs at made with asleep
  · cases made
  · subst made
    exact asleep rfl

/-- A worker which moved on to another phase does not sleep. -/
theorem World.sleeps_of_advance {thread sleeper : Nat} {phase : WorkerPhase} {job : JobId}
    (sleeps : (world.advance thread phase)[sleeper]? = some { job, phase := .asleep })
    (awake : phase ≠ .asleep) :
    world.Sleeps sleeper job := by
  rw [World.getElem?_advance] at sleeps
  split_ifs at sleeps with same
  · obtain ⟨before, -, made⟩ := Option.map_eq_some_iff.mp sleeps
    exact absurd (congrArg Worker.phase made) awake
  · exact sleeps

/-- A step which disturbs nothing and puts nobody to sleep. -/
theorem World.Rested.undisturbed (rested : world.Rested)
    (same : world.state.Undisturbed next.state)
    (before : ∀ thread job, next.Sleeps thread job → world.Sleeps thread job) : next.Rested := by
  intro thread job sleeps
  obtain ⟨stored, held, open_⟩ := rested thread job (before thread job sleeps)
  exact same.open_ job stored held open_

theorem World.lostWakeUp_iff {limits : WebLimits} : world.LostWakeUp limits ↔
    ∃ thread job, world.Sleeps thread job ∧ world.state.queue.head? = some job ∧
      world.state.running < limits.concurrentJobs := by
  unfold World.LostWakeUp JobsState.queue
  simp only [List.head?_filter]

theorem World.LostWakeUp.undisturbed {limits : WebLimits} (lost : next.LostWakeUp limits)
    (same : world.state.Undisturbed next.state)
    (before : ∀ thread job, next.Sleeps thread job → world.Sleeps thread job) :
    world.LostWakeUp limits := by
  obtain ⟨thread, job, sleeps, first, free⟩ := World.lostWakeUp_iff.mp lost
  exact World.lostWakeUp_iff.mpr ⟨thread, job, before thread job sleeps, same.queue ▸ first,
    same.running ▸ free⟩

/-- After an admission, a lost wake-up is an old one. -/
theorem JobManager.Invariant.lostWakeUp_admission (invariant : manager.Invariant world)
    (bounds : manager.limits.BoundsJobs) (rested : world.Rested)
    {outcome : JobsState × Except AdmissionError JobId} (admits : manager.AdmitsTo world outcome) :
    (world.admission outcome).Rested ∧
      ((world.admission outcome).LostWakeUp manager.limits → world.LostWakeUp manager.limits) := by
  rcases admits with ⟨error, rfl⟩ | ⟨job, apply, thread, admissible, rfl⟩
  · exact ⟨rested, id⟩
  · have same := manager.undisturbed_cleared world.finished world.state
    have open_ := manager.cleared_shuttingDown world.finished world.state
    rcases manager.admitLocked_cases invariant.coherent bounds world.finished job apply thread with
      ⟨error, refused⟩ | ⟨number, room, admitted⟩
    · rw [refused]
      exact ⟨rested.undisturbed same fun _ _ sleeps => sleeps,
        fun lost => lost.undisturbed same fun _ _ sleeps => sleeps⟩
    · rw [admitted]
      have coherent := (invariant.coherent (open_.symm.trans room.serving)).cleared world.finished
      have unlisted : job.id ∉ (manager.cleared world.finished world.state).order := fun listed =>
        room.fresh ((coherent.listed _).mp listed)
      have before : ∀ sleeper other,
          (world.workers ++ [{ job := job.id, phase := .arriving }])[sleeper]? =
            some { job := other, phase := .asleep } → world.Sleeps sleeper other := by
        intro sleeper other sleeps
        rw [List.getElem?_append] at sleeps
        split_ifs at sleeps
        · exact sleeps
        · cases List.mem_singleton.mp (List.mem_of_getElem? sleeps)
      have kept : ∀ sleeper other, world.Sleeps sleeper other → other ≠ job.id ∧
          ∃ stored, (manager.cleared world.finished world.state).jobs.lookup other = some stored ∧
            stored.status.terminal = false := by
        intro sleeper other sleeps
        obtain ⟨stored, held, going⟩ := rested sleeper other sleeps
        obtain ⟨found, present, still⟩ := same.open_ other stored held going
        exact ⟨fun equal => room.fresh (equal ▸ Keyed.mem_of_lookup present), found, present, still⟩
      constructor
      · intro sleeper other sleeps
        obtain ⟨apart, found, present, still⟩ := kept sleeper other (before sleeper other sleeps)
        refine ⟨found, ?_, still⟩
        exact (congrArg (AList.lookup other) (manager.enqueue_jobs _ job apply)).trans
          ((AList.lookup_insert_ne apart).trans present)
      · intro lost
        obtain ⟨sleeper, other, sleeps, first, free⟩ := World.lostWakeUp_iff.mp lost
        have slept := before sleeper other sleeps
        have queue := manager.queue_enqueue unlisted admissible.waiting apply
        rw [same.queue] at queue
        have first : (world.state.queue ++ [job.id]).head? = some other := queue ▸ first
        refine World.lostWakeUp_iff.mpr ⟨sleeper, other, slept, ?_, ?_⟩
        · rw [List.head?_append] at first
          cases head : world.state.queue.head? with
          | some earlier => rw [head] at first; exact first
          | none =>
              rw [head] at first
              exact absurd (Option.some.inj first).symm (kept sleeper other slept).1
        · rw [← same.running]
          exact (congrArg (· < _) (manager.enqueue_running _ job apply)).mp free

/-- A start with a free slot left while a worker of the next waiting job sleeps. -/
def World.Oversleeps (limits : WebLimits) (world : World) : Action → Prop
  | .begin thread =>
      ∃ job later rest sleeper, world.workers[thread]? = some { job, phase := .arriving } ∧
        world.state.order.filter world.state.isQueued = job :: later :: rest ∧
        world.Sleeps sleeper later ∧ world.state.running + 1 < limits.concurrentJobs
  | _ => False

/-- Starting the first waiting job takes exactly this job from the queue. -/
theorem JobManager.queue_start (manager : JobManager) {state : JobsState} {id : JobId}
    (ordered : state.order.Nodup) (first : state.order.find? state.isQueued = some id)
    (job : StoredJob) {after : JobsState} (order : after.order = state.order)
    (jobs : after.jobs = state.jobs.insert id (manager.moveTo .running job)) :
    state.queue = id :: after.queue := by
  have queued : after.isQueued = fun other => decide (other ≠ id) && state.isQueued other := by
    funext other
    rw [JobsState.isQueued, JobsState.isQueued, jobs]
    by_cases same : other = id
    · subst same
      rw [AList.lookup_insert, Option.any_some, moveTo_status]
      simp
    · simp [AList.lookup_insert_ne same, same]
  rw [← List.head?_filter] at first
  obtain ⟨rest, queue⟩ := List.head?_eq_some_iff.mp first
  have distinct : (id :: rest).Nodup := queue ▸ ordered.filter _
  have others : rest.filter (fun other => decide (other ≠ id)) = rest := by
    rw [List.filter_eq_self]
    intro other member
    exact decide_eq_true fun same => (List.nodup_cons.mp distinct).1 (same ▸ member)
  have left : after.queue = rest := by
    rw [JobsState.queue, order, queued, ← List.filter_filter, queue]
    simpa using others
  rw [JobsState.queue, queue, left]

/-- A step which disturbs nothing loses no wake-up. -/
theorem World.Rested.quiet (rested : world.Rested) {limits : WebLimits} {action : Action}
    (same : world.state.Undisturbed next.state)
    (before : ∀ thread job, next.Sleeps thread job → world.Sleeps thread job) :
    next.Rested ∧
      (next.LostWakeUp limits → world.LostWakeUp limits ∨ world.Oversleeps limits action) :=
  ⟨rested.undisturbed same before, fun lost => .inl (lost.undisturbed same before)⟩

/-- A step which notifies every worker loses no wake-up. -/
theorem World.notified {limits : WebLimits} {action : Action}
    (awake : ∀ thread job, ¬ next.Sleeps thread job) :
    next.Rested ∧
      (next.LostWakeUp limits → world.LostWakeUp limits ∨ world.Oversleeps limits action) :=
  ⟨fun thread job sleeps => absurd sleeps (awake thread job),
    fun ⟨thread, job, sleeps, _⟩ => absurd sleeps (awake thread job)⟩

/-- Only a start loses a wake-up. -/
theorem JobManager.Invariant.oversleeps (invariant : manager.Invariant world)
    (bounds : manager.limits.BoundsJobs) (serving : world.state.shuttingDown = false)
    (rested : world.Rested) {action : Action} (steps : manager.Steps world action next)
    (notified : ∀ thread, action ≠ .wake thread) (open_ : action ≠ .shutdown) :
    next.Rested ∧ (next.LostWakeUp manager.limits →
      world.LostWakeUp manager.limits ∨ world.Oversleeps manager.limits action) := by
  have coherent := invariant.coherent serving
  cases steps with
  | admission _ admits =>
      obtain ⟨rests, old⟩ := invariant.lostWakeUp_admission bounds rested admits
      exact ⟨rests, fun lost => .inl (old lost)⟩
  | snapshot | recordCancel | flagCancel =>
      exact rested.quiet (.of_jobs rfl rfl rfl) fun _ _ sleeps => sleeps
  | cancel job owner =>
      have state := manager.cancelStep_state world job owner
      have workers := manager.cancelStep_workers world job owner
      cases notifies : (manager.cancel world.state job owner).2.notifies with
      | true =>
          apply World.notified
          intro thread other sleeps
          rw [World.Sleeps, workers, notifies, if_pos rfl] at sleeps
          exact World.not_sleeps_notifyAll sleeps
      | false =>
          apply rested.quiet (state ▸ manager.undisturbed_cancel world.state job owner notifies)
          intro thread other sleeps
          rw [World.Sleeps, workers, notifies, if_neg Bool.false_ne_true] at sleeps
          exact sleeps
  | leave | missing | exit =>
      exact rested.quiet (.refl _) fun _ _ sleeps => World.sleeps_of_advance sleeps (by simp)
  | @wait thread job at_ queued blocked =>
      have before : ∀ sleeper other,
          (world.advance thread .asleep)[sleeper]? = some { job := other, phase := .asleep } →
            other = job ∨ world.Sleeps sleeper other := by
        intro sleeper other sleeps
        rw [World.getElem?_advance] at sleeps
        split_ifs at sleeps with same
        · subst same
          rw [at_, Option.map_some, Option.some.injEq] at sleeps
          exact .inl (congrArg Worker.job sleeps).symm
        · exact .inr sleeps
      constructor
      · intro sleeper other sleeps
        rcases before sleeper other sleeps with rfl | slept
        · obtain ⟨stored, held, waits⟩ := world.state.isQueued_iff.mp queued
          exact ⟨stored, held, by rw [waits]; rfl⟩
        · exact rested sleeper other slept
      · rintro ⟨sleeper, other, sleeps, first, free⟩
        rcases before sleeper other sleeps with rfl | slept
        · exact absurd ⟨first, free⟩ blocked
        · exact .inl ⟨sleeper, other, slept, first, free⟩
  | @start thread job stored at_ held waiting first free =>
      have before : ∀ sleeper other,
          (world.advance thread .begun)[sleeper]? = some { job := other, phase := .asleep } →
            world.Sleeps sleeper other := fun _ _ sleeps =>
        World.sleeps_of_advance sleeps (by simp)
      constructor
      · intro sleeper other sleeps
        by_cases same : other = job
        · subst same
          exact ⟨_, AList.lookup_insert _, rfl⟩
        · obtain ⟨found, present, going⟩ := rested sleeper other (before sleeper other sleeps)
          exact ⟨found, (AList.lookup_insert_ne same).trans present, going⟩
      · intro lost
        obtain ⟨sleeper, other, sleeps, head, slot⟩ := World.lostWakeUp_iff.mp lost
        obtain ⟨rest, queue⟩ := List.head?_eq_some_iff.mp head
        have taken : world.state.queue = job :: JobsState.queue
            { world.state with
              queued := world.state.queued - 1
              running := saturatingAdd world.state.running 1
              jobs := world.state.jobs.insert job (manager.moveTo .running stored) } :=
          manager.queue_start coherent.ordered first stored rfl rfl
        have small : world.state.running + 1 ≤ maxWord := by
          obtain ⟨⟨-, four⟩, -⟩ := bounds
          unfold maxWord
          omega
        have more : world.state.running + 1 < manager.limits.concurrentJobs :=
          saturatingAdd_of_le small ▸ slot
        exact .inr ⟨job, other, rest, sleeper, at_, queue ▸ taken, before sleeper other sleeps,
          more⟩
  | @wake thread => exact absurd rfl (notified thread)
  | inputs =>
      exact rested.quiet (.of_jobs rfl rfl rfl) fun _ _ sleeps =>
        World.sleeps_of_advance sleeps (by simp)
  | observe => exact rested.quiet (manager.undisturbed_observe _ _ _) fun _ _ sleeps => sleeps
  | record =>
      exact rested.quiet (.refl _) fun _ _ sleeps =>
        World.sleeps_of_advance sleeps (by simp)
  | finish => exact World.notified fun _ _ sleeps => World.not_sleeps_notifyAll sleeps
  | shutdown => exact absurd rfl open_

/-- A start which leaves a slot free while the next worker sleeps loses its wake-up. -/
theorem JobManager.Invariant.lostWakeUp (invariant : manager.Invariant world)
    (serving : world.state.shuttingDown = false) {action : Action}
    (oversleeps : world.Oversleeps manager.limits action) (bounds : manager.limits.BoundsJobs)
    (taken : manager.act world action = some next) : next.LostWakeUp manager.limits := by
  cases action with
  | begin thread =>
      obtain ⟨job, later, rest, sleeper, at_, queue, sleeps, free⟩ := oversleeps
      have coherent := invariant.coherent serving
      have first : world.state.order.find? world.state.isQueued = some job := by
        rw [← List.head?_filter, queue, List.head?_cons]
      obtain ⟨stored, held, waiting⟩ := world.state.isQueued_iff.mp (List.find?_some first)
      have small : world.state.running + 1 ≤ maxWord := by
        obtain ⟨⟨-, four⟩, -⟩ := bounds
        unfold maxWord
        omega
      have slot : world.state.running < manager.limits.concurrentJobs := by omega
      have stays : ¬ (!world.state.isQueued job || world.state.shuttingDown) = true := by
        rw [List.find?_some first, serving]
        exact Bool.false_ne_true
      rw [JobManager.act, JobManager.beginStep, at_] at taken
      dsimp only at taken
      rw [JobManager.begin, if_neg stays, if_pos ⟨first, slot⟩] at taken
      obtain rfl := Option.some.inj taken
      have apart : thread ≠ sleeper := by
        rintro rfl
        rw [World.Sleeps, at_] at sleeps
        cases sleeps
      have left : world.state.queue = job :: JobsState.queue
          { world.state with
            queued := world.state.queued - 1
            running := saturatingAdd world.state.running 1
            jobs := Keyed.modify job (manager.moveTo .running) world.state.jobs } :=
        manager.queue_start coherent.ordered first stored rfl (Keyed.modify_of_lookup held)
      rw [JobsState.queue, queue] at left
      refine World.lostWakeUp_iff.mpr ⟨sleeper, later, ?_, ?_, ?_⟩
      · rw [World.Sleeps, World.getElem?_advance, if_neg apart]
        exact sleeps
      · exact List.head?_eq_some_iff.mpr ⟨rest, (List.cons.inj left).2.symm⟩
      · exact (saturatingAdd_of_le small).symm ▸ free
  | _ => exact oversleeps.elim

theorem World.rested_initial : World.initial.Rested := by
  intro thread job sleeps
  cases sleeps

/-- No wake-up is lost in a run exactly if no start leaves a slot free while a worker of the next
waiting job sleeps. -/
theorem JobManager.noLostWakeUp_iff (manager : JobManager) (accepted : manager.limits.Accepted)
    {actions : List Action} (run : manager.RunsTo actions world)
    (notified : ∀ thread, Action.wake thread ∉ actions) (serving : Action.shutdown ∉ actions) :
    (∀ before later passed, actions = before ++ later → manager.RunsTo before passed →
        ¬ passed.LostWakeUp manager.limits) ↔
      ∀ before action later passed, actions = before ++ action :: later →
        manager.RunsTo before passed → ¬ passed.Oversleeps manager.limits action := by
  have bounds := accepted.boundsJobs
  constructor
  · rintro none before action later passed rfl reached oversleeps
    have open_ := reached.open_ fun member => serving (List.mem_append_left _ member)
    obtain ⟨next, taken, -⟩ := Option.bind_eq_some_iff.mp (run.rest reached)
    exact none (before ++ [action]) later next (List.append_cons ..) (reached.step taken)
      ((reached.invariant bounds).lostWakeUp open_ oversleeps bounds taken)
  · intro none before later passed split reached
    suffices passed.Rested ∧ ¬ passed.LostWakeUp manager.limits from this.2
    induction reached generalizing later with
    | nil => exact ⟨World.rested_initial, fun ⟨_, _, sleeps, _⟩ => nomatch sleeps⟩
    | @step before passed next reached action taken induction =>
        have whole : actions = before ++ action :: later := by
          rw [split, List.append_assoc, List.singleton_append]
        obtain ⟨rested, old⟩ := induction _ whole
        have member : action ∈ actions := whole ▸ List.mem_append_right _ List.mem_cons_self
        have open_ := reached.open_ fun earlier =>
          serving (whole ▸ List.mem_append_left _ earlier)
        obtain ⟨rests, lost⟩ := (reached.invariant bounds).oversleeps bounds open_ rested
          (JobManager.steps_of_act taken) (fun thread same => notified thread (same ▸ member))
          fun same => serving (same ▸ member)
        refine ⟨rests, fun now => ?_⟩
        rcases lost now with before_ | oversleeps
        · exact old before_
        · exact none before action later passed whole reached oversleeps

/-- With one slot no wake-up is lost. -/
theorem World.not_oversleeps {limits : WebLimits} (single : limits.concurrentJobs = 1)
    (action : Action) : ¬ world.Oversleeps limits action := by
  cases action with
  | begin thread =>
      rintro ⟨-, -, -, -, -, -, -, free⟩
      omega
  | _ => exact id

/-- Two workers: the second goes to sleep before the first starts. -/
def sampleNap : List Action :=
  [.admitJob 0#256 "library" (some "first") true, .admitJob 0#256 "library" (some "second") true,
    .begin 1, .begin 0]

theorem sampleNap_notified : (∀ thread, Action.wake thread ∉ sampleNap) ∧
    Action.shutdown ∉ sampleNap := by
  simp [sampleNap]

/-- With one slot the second worker sleeps until it is notified. -/
theorem sampleNap_noLostWakeUp :
    ∃ world, (sampleManager .default).RunsTo sampleNap world ∧ world.Sleeps 1 "second" ∧
      ∀ before later passed, sampleNap = before ++ later →
        (sampleManager .default).RunsTo before passed → ¬ passed.LostWakeUp WebLimits.default := by
  have runs : ∃ world, (sampleManager .default).run .initial sampleNap = some world ∧
      world.Sleeps 1 "second" := ⟨_, rfl, rfl⟩
  obtain ⟨world, taken, sleeps⟩ := runs
  have run := JobManager.runsTo_iff.mpr taken
  have lossless := (sampleManager .default).noLostWakeUp_iff WebLimits.default_accepted run
    sampleNap_notified.1 sampleNap_notified.2
  exact ⟨world, run, sleeps, lossless.mpr fun _ action _ passed _ _ =>
    World.not_oversleeps rfl action⟩

/-- The default limits with two slots. -/
def twoSlots : WebLimits := { WebLimits.default with concurrentJobs := 2 }

/-- With two slots the first worker starts and leaves the second asleep. -/
theorem sampleNap_lostWakeUp :
    twoSlots.Accepted ∧ (∀ thread, Action.wake thread ∉ sampleNap) ∧
      Action.shutdown ∉ sampleNap ∧
      ∃ world, (sampleManager twoSlots).RunsTo sampleNap world ∧ world.LostWakeUp twoSlots := by
  have runs : ∃ world, (sampleManager twoSlots).run .initial sampleNap = some world ∧
      world.Sleeps 1 "second" ∧ world.state.order.find? world.state.isQueued = some "second" ∧
      world.state.running = 1 := ⟨_, rfl, rfl, rfl, rfl⟩
  obtain ⟨world, taken, sleeps, first, running⟩ := runs
  refine ⟨rfl, sampleNap_notified.1, sampleNap_notified.2, world,
    JobManager.runsTo_iff.mpr taken, 1, "second", sleeps, first, ?_⟩
  rw [running]
  decide

end ImmichRs.Web
