import ImmichRs.Web.Jobs

/-!
# Coherence of the job table

The counters, the order, the capabilities and the active checkpoints which the manager keeps beside
its table of jobs agree with the table.
-/

namespace ImmichRs.Web

open Collections

/-- A job which has not ended and applies the plan `reference`. -/
def StoredJob.Applying (job : StoredJob) (reference : ArtifactRef) : Prop :=
  job.kind.applies = some reference ∧ job.status.terminal = false

/-- Whether a job has a status. -/
def StoredJob.has (status : JobStatus) (job : StoredJob) : Bool := job.status == status

/-- What the manager keeps beside its table agrees with the table. -/
structure JobsState.Coherent (limits : WebLimits) (state : JobsState) : Prop where
  queued : state.queued = Keyed.count (StoredJob.has .queued) state.jobs
  running : state.running = Keyed.count (StoredJob.has .running) state.jobs
  concurrent : state.running ≤ limits.concurrentJobs
  capacity : state.running + state.queued ≤ limits.concurrentJobs + limits.queuedJobs
  retained : state.jobs.keys.length ≤ limits.retainedJobs
  ordered : state.order.Nodup
  listed : ∀ id, id ∈ state.order ↔ id ∈ state.jobs
  untouched : ∀ id job, state.jobs.lookup id = some job → job.status = .queued →
    job.cancellationRequested = false
  checkpoints : ∀ reference, reference ∈ state.activeCheckpoints ↔
    ∃ id job, state.jobs.lookup id = some job ∧ job.Applying reference
  single : ∀ first second job other reference, state.jobs.lookup first = some job →
    state.jobs.lookup second = some other → job.Applying reference → other.Applying reference →
      first = second
  capabilities : ∀ id, id ∈ state.applyCapabilities →
    ∃ job reference, state.jobs.lookup id = some job ∧ job.Applying reference

theorem JobsState.coherent_empty (limits : WebLimits) : JobsState.empty.Coherent limits := by
  constructor <;> simp [JobsState.empty, Keyed.count_empty]

variable {limits : WebLimits} {state : JobsState}

/-! ## One job changes -/

/-- A job keeps whether it has ended. -/
theorem JobsState.Coherent.keep (coherent : state.Coherent limits) {id : JobId}
    {old new : StoredJob} (held : state.jobs.lookup id = some old) (kind : new.kind = old.kind)
    (open_ : new.status.terminal = old.status.terminal) {running queued : Nat}
    (runs : running + (if old.has .running then 1 else 0) =
      state.running + if new.has .running then 1 else 0)
    (waits : queued + (if old.has .queued then 1 else 0) =
      state.queued + if new.has .queued then 1 else 0)
    (concurrent : running ≤ limits.concurrentJobs)
    (capacity : running + queued ≤ limits.concurrentJobs + limits.queuedJobs)
    (untouched : new.status = .queued → new.cancellationRequested = false) :
    ({ state with jobs := state.jobs.insert id new, running, queued } : JobsState).Coherent
      limits := by
  have member := Keyed.mem_of_lookup held
  have applying : ∀ reference, new.Applying reference ↔ old.Applying reference := by
    intro reference
    rw [StoredJob.Applying, StoredJob.Applying, kind, open_]
  have lookup : ∀ {other job}, (state.jobs.insert id new).lookup other = some job →
      ∃ before, state.jobs.lookup other = some before ∧
        ∀ reference, job.Applying reference ↔ before.Applying reference := by
    intro other job inserted
    rcases Keyed.lookup_insert_cases inserted with ⟨rfl, rfl⟩ | ⟨-, before⟩
    · exact ⟨old, held, applying⟩
    · exact ⟨job, before, fun _ => Iff.rfl⟩
  have relookup : ∀ {other before}, state.jobs.lookup other = some before →
      ∃ job, (state.jobs.insert id new).lookup other = some job ∧
        ∀ reference, job.Applying reference ↔ before.Applying reference := by
    intro other before found
    by_cases same : other = id
    · subst same
      rw [held, Option.some.injEq] at found
      subst found
      exact ⟨new, AList.lookup_insert _, applying⟩
    · exact ⟨before, (AList.lookup_insert_ne same).trans found, fun _ => Iff.rfl⟩
  refine ⟨?_, ?_, concurrent, capacity, ?_, coherent.ordered, ?_, ?_, ?_, ?_, ?_⟩
  · have counted := Keyed.count_insert_of_lookup (StoredJob.has .queued) held new
    rw [← coherent.queued, ← waits] at counted
    exact (Nat.add_right_cancel counted).symm
  · have counted := Keyed.count_insert_of_lookup (StoredJob.has .running) held new
    rw [← coherent.running, ← runs] at counted
    exact (Nat.add_right_cancel counted).symm
  · exact (Keyed.length_keys_insert_of_mem member).trans_le coherent.retained
  · intro other
    rw [coherent.listed, AList.mem_insert, iff_or_self]
    rintro rfl
    exact member
  · intro other job inserted waiting
    rcases Keyed.lookup_insert_cases inserted with ⟨rfl, rfl⟩ | ⟨-, before⟩
    · exact untouched waiting
    · exact coherent.untouched other job before waiting
  · intro reference
    rw [coherent.checkpoints]
    constructor
    · rintro ⟨other, before, found, active⟩
      obtain ⟨job, inserted, same⟩ := relookup found
      exact ⟨other, job, inserted, (same reference).mpr active⟩
    · rintro ⟨other, job, inserted, active⟩
      obtain ⟨before, found, same⟩ := lookup inserted
      exact ⟨other, before, found, (same reference).mp active⟩
  · intro first second job other reference inserted also active too
    obtain ⟨before, found, same⟩ := lookup inserted
    obtain ⟨previous, seen, equal⟩ := lookup also
    exact coherent.single first second before previous reference found seen
      ((same reference).mp active) ((equal reference).mp too)
  · intro other holding
    obtain ⟨before, reference, found, active⟩ := coherent.capabilities other holding
    obtain ⟨job, inserted, same⟩ := relookup found
    exact ⟨job, reference, inserted, (same reference).mpr active⟩

/-- What is left of the active checkpoints when a job ends. -/
def JobsState.checkpointsWithout (state : JobsState) (kind : JobKind) : Finset ArtifactRef :=
  match kind.applies with
  | some reference => state.activeCheckpoints.erase reference
  | none => state.activeCheckpoints

theorem JobsState.mem_checkpointsWithout {kind : JobKind} {reference : ArtifactRef} :
    reference ∈ state.checkpointsWithout kind ↔
      kind.applies ≠ some reference ∧ reference ∈ state.activeCheckpoints := by
  unfold JobsState.checkpointsWithout
  cases kind.applies with
  | none => simp
  | some other => simp [Finset.mem_erase, eq_comm]

/-- A job ends. -/
theorem JobsState.Coherent.terminate (coherent : state.Coherent limits) {id : JobId}
    {old new : StoredJob} (held : state.jobs.lookup id = some old)
    (open_ : old.status.terminal = false) (ended : new.status.terminal = true)
    {running queued : Nat} (runs : running + (if old.has .running then 1 else 0) = state.running)
    (waits : queued + (if old.has .queued then 1 else 0) = state.queued) :
    ({ state with
        jobs := state.jobs.insert id new
        running
        queued
        applyCapabilities := state.applyCapabilities.erase id
        activeCheckpoints := state.checkpointsWithout old.kind } : JobsState).Coherent limits := by
  have member := Keyed.mem_of_lookup held
  have closed : ∀ {status}, status.terminal = false → new.has status = false := by
    intro status waiting
    rw [StoredJob.has, beq_eq_false_iff_ne]
    rintro rfl
    rw [waiting] at ended
    cases ended
  have idle : ∀ reference, ¬ new.Applying reference := by
    intro reference active
    rw [StoredJob.Applying, ended] at active
    cases active.2
  have other_of_applying : ∀ {other job reference},
      (state.jobs.insert id new).lookup other = some job → job.Applying reference →
        other ≠ id ∧ state.jobs.lookup other = some job := by
    intro other job reference inserted active
    rcases Keyed.lookup_insert_cases inserted with ⟨rfl, rfl⟩ | found
    · exact absurd active (idle reference)
    · exact found
  refine ⟨?_, ?_, ?_, ?_, ?_, coherent.ordered, ?_, ?_, ?_, ?_, ?_⟩
  · have counted := Keyed.count_insert_of_lookup (StoredJob.has .queued) held new
    rw [← coherent.queued, closed rfl, ← waits] at counted
    exact (Nat.add_right_cancel counted).symm
  · have counted := Keyed.count_insert_of_lookup (StoredJob.has .running) held new
    rw [← coherent.running, closed rfl, ← runs] at counted
    exact (Nat.add_right_cancel counted).symm
  · exact (Nat.le_add_right _ _).trans (runs.le.trans coherent.concurrent)
  · have capacity := coherent.capacity
    show running + queued ≤ _
    omega
  · exact (Keyed.length_keys_insert_of_mem member).trans_le coherent.retained
  · intro other
    rw [coherent.listed, AList.mem_insert, iff_or_self]
    rintro rfl
    exact member
  · intro other job inserted waiting
    rcases Keyed.lookup_insert_cases inserted with ⟨rfl, rfl⟩ | ⟨-, before⟩
    · rw [waiting] at ended
      cases ended
    · exact coherent.untouched other job before waiting
  · intro reference
    rw [JobsState.mem_checkpointsWithout, coherent.checkpoints]
    constructor
    · rintro ⟨different, other, job, found, active⟩
      have apart : other ≠ id := by
        rintro rfl
        rw [held, Option.some.injEq] at found
        subst found
        exact different active.1
      exact ⟨other, job, (AList.lookup_insert_ne apart).trans found, active⟩
    · rintro ⟨other, job, inserted, active⟩
      obtain ⟨apart, found⟩ := other_of_applying inserted active
      refine ⟨fun same => ?_, other, job, found, active⟩
      exact apart (coherent.single other id job old reference found held active ⟨same, open_⟩)
  · intro first second job other reference inserted also active too
    exact coherent.single first second job other reference (other_of_applying inserted active).2
      (other_of_applying also too).2 active too
  · intro other holding
    obtain ⟨apart, holding⟩ := AList.mem_erase.mp holding
    obtain ⟨job, reference, found, active⟩ := coherent.capabilities other holding
    exact ⟨job, reference, (AList.lookup_insert_ne apart).trans found, active⟩

/-! ## Jobs come and go -/

/-- A job which has ended leaves the table. -/
theorem JobsState.Coherent.evict (coherent : state.Coherent limits) {id : JobId}
    (ended : state.isTerminal id = true) :
    ({ state with order := state.order.erase id, jobs := state.jobs.erase id } :
      JobsState).Coherent limits := by
  obtain ⟨old, held, terminal⟩ := state.isTerminal_iff.mp ended
  have closed : ∀ {status}, status.terminal = false → old.has status = false := by
    intro status waiting
    rw [StoredJob.has, beq_eq_false_iff_ne]
    rintro rfl
    rw [waiting] at terminal
    cases terminal
  have kept : ∀ {other job reference}, state.jobs.lookup other = some job →
      job.Applying reference → (state.jobs.erase id).lookup other = some job := by
    intro other job reference found active
    have apart : other ≠ id := by
      rintro rfl
      rw [held, Option.some.injEq] at found
      subst found
      rw [StoredJob.Applying, terminal] at active
      cases active.2
    exact (AList.lookup_erase_ne apart).trans found
  refine ⟨?_, ?_, coherent.concurrent, coherent.capacity, ?_, coherent.ordered.erase id, ?_, ?_,
    ?_, ?_, ?_⟩
  · have counted := Keyed.count_erase_add (StoredJob.has .queued) held
    rw [closed rfl] at counted
    exact coherent.queued.trans counted.symm
  · have counted := Keyed.count_erase_add (StoredJob.has .running) held
    rw [closed rfl] at counted
    exact coherent.running.trans counted.symm
  · have shorter := Keyed.length_keys_erase_of_mem (Keyed.mem_of_lookup held)
    have retained := coherent.retained
    show (state.jobs.erase id).keys.length ≤ _
    omega
  · intro other
    rw [coherent.ordered.mem_erase_iff, AList.mem_erase, coherent.listed]
  · intro other job found
    exact coherent.untouched other job (Keyed.lookup_of_lookup_erase found).2
  · intro reference
    rw [coherent.checkpoints]
    constructor
    · rintro ⟨other, job, found, active⟩
      exact ⟨other, job, kept found active, active⟩
    · rintro ⟨other, job, found, active⟩
      exact ⟨other, job, (Keyed.lookup_of_lookup_erase found).2, active⟩
  · intro first second job other reference found also
    exact coherent.single first second job other reference (Keyed.lookup_of_lookup_erase found).2
      (Keyed.lookup_of_lookup_erase also).2
  · intro other holding
    obtain ⟨job, reference, found, active⟩ := coherent.capabilities other holding
    exact ⟨job, reference, kept found active, active⟩

theorem JobsState.Coherent.evictRounds {retained rounds : Nat} (coherent : state.Coherent limits) :
    (evictRounds retained rounds state).Coherent limits := by
  induction rounds generalizing state with
  | zero => exact coherent
  | succ rounds induction =>
      unfold Web.evictRounds
      split_ifs
      · split
        · exact coherent
        · rename_i id found
          exact induction (coherent.evict (List.find?_some found))
      · exact coherent

theorem JobManager.cleared_shuttingDown (manager : JobManager) (finished : Nat → Bool)
    (state : JobsState) :
    (manager.cleared finished state).shuttingDown = state.shuttingDown := by
  have rounds : ∀ (retained rounds : Nat) (state : JobsState),
      (Web.evictRounds retained rounds state).shuttingDown = state.shuttingDown := by
    intro retained rounds
    induction rounds with
    | zero => exact fun _ => rfl
    | succ rounds induction =>
        intro state
        unfold Web.evictRounds
        split_ifs
        · split
          · rfl
          · exact induction _
        · rfl
  exact rounds _ _ _

theorem JobsState.Coherent.cleared {manager : JobManager}
    (coherent : state.Coherent manager.limits) (finished : Nat → Bool) :
    (manager.cleared finished state).Coherent manager.limits :=
  JobsState.Coherent.evictRounds { coherent with }

/-- A job which may be admitted, with the plan and capability of an apply job. -/
structure Admissible (job : StoredJob) (apply : Option (ArtifactRef × ApplyCapability)) :
    Prop where
  waiting : job.status = .queued
  untouched : job.cancellationRequested = false
  applies : job.kind.applies = apply.map Prod.fst

/-- There is room for a job. -/
structure JobManager.HasRoom (manager : JobManager) (state : JobsState) (job : StoredJob)
    (apply : Option (ArtifactRef × ApplyCapability)) : Prop where
  serving : state.shuttingDown = false
  unclaimed : ∀ admission ∈ apply, admission.1 ∉ state.activeCheckpoints
  fresh : job.id ∉ state.jobs
  slot : saturatingAdd state.running state.queued < manager.workerLimit
  kept : state.jobs.keys.length < manager.limits.retainedJobs

variable {manager : JobManager} {job : StoredJob}
  {apply : Option (ArtifactRef × ApplyCapability)}

/-- A refused thread leaves no trace. -/
theorem JobManager.rollBack_enqueue (coherent : state.Coherent manager.limits)
    (room : manager.HasRoom state job apply) (small : state.queued < maxWord) :
    rollBack (manager.enqueue state job apply) job.id (apply.map Prod.fst) = state := by
  have absent : state.jobs.lookup job.id = none := AList.lookup_eq_none.mpr room.fresh
  have jobs : (state.jobs.insert job.id (pushEvent job manager.limits.sseReplayEvents)).erase
      job.id = state.jobs := by
    apply AList.ext
    rw [AList.insert_of_notMem room.fresh]
    exact List.kerase_cons_eq rfl
  have order : (state.order ++ [job.id]).filter (· ≠ job.id) = state.order := by
    have unlisted : job.id ∉ state.order := fun listed => room.fresh ((coherent.listed _).mp listed)
    rw [List.filter_append, List.filter_eq_self.mpr]
    · simp
    · intro id member
      rw [decide_eq_true_iff]
      rintro rfl
      exact unlisted member
  have queued : saturatingAdd state.queued 1 - 1 = state.queued := by
    rw [saturatingAdd_of_le small]
    exact Nat.add_sub_cancel _ _
  cases apply with
  | none => simp only [Option.map_none, rollBack, enqueue, jobs, order, queued]
  | some admission =>
      obtain ⟨reference, capability⟩ := admission
      have checkpoints : (insert reference state.activeCheckpoints).erase reference =
          state.activeCheckpoints := Finset.erase_insert (room.unclaimed _ rfl)
      have unheld : job.id ∉ state.applyCapabilities := by
        intro holding
        obtain ⟨other, -, found, -⟩ := coherent.capabilities _ holding
        exact room.fresh (Keyed.mem_of_lookup found)
      have capabilities : (state.applyCapabilities.insert job.id capability).erase job.id =
          state.applyCapabilities := by
        apply AList.ext
        rw [AList.insert_of_notMem unheld]
        exact List.kerase_cons_eq rfl
      simp only [Option.map_some, rollBack, enqueue, jobs, order, queued, checkpoints,
        capabilities]

section

variable (manager state job apply)

@[simp] theorem JobManager.enqueue_jobs : (manager.enqueue state job apply).jobs =
    state.jobs.insert job.id (pushEvent job manager.limits.sseReplayEvents) := by
  cases apply <;> rfl

@[simp] theorem JobManager.enqueue_order :
    (manager.enqueue state job apply).order = state.order ++ [job.id] := by
  cases apply <;> rfl

@[simp] theorem JobManager.enqueue_running :
    (manager.enqueue state job apply).running = state.running := by
  cases apply <;> rfl

@[simp] theorem JobManager.enqueue_queued :
    (manager.enqueue state job apply).queued = saturatingAdd state.queued 1 := by
  cases apply <;> rfl

@[simp] theorem JobManager.enqueue_shuttingDown :
    (manager.enqueue state job apply).shuttingDown = state.shuttingDown := by
  cases apply <;> rfl

end

theorem JobManager.mem_enqueue_activeCheckpoints {reference : ArtifactRef} :
    reference ∈ (manager.enqueue state job apply).activeCheckpoints ↔
      apply.map Prod.fst = some reference ∨ reference ∈ state.activeCheckpoints := by
  cases apply with
  | none => simp [enqueue]
  | some admission => simp [enqueue, eq_comm]

theorem JobManager.mem_enqueue_applyCapabilities {id : JobId}
    (holding : id ∈ (manager.enqueue state job apply).applyCapabilities) :
    (∃ reference, id = job.id ∧ apply.map Prod.fst = some reference) ∨
      id ∈ state.applyCapabilities := by
  cases apply with
  | none => exact .inr holding
  | some admission =>
      rcases (AList.mem_insert _).mp holding with same | before
      · exact .inl ⟨admission.1, same, rfl⟩
      · exact .inr before

/-- A job is admitted. -/
theorem JobsState.Coherent.enqueue (coherent : state.Coherent manager.limits)
    (bounds : manager.limits.BoundsJobs) (admissible : Admissible job apply)
    (room : manager.HasRoom state job apply) :
    (manager.enqueue state job apply).Coherent manager.limits := by
  have absent : state.jobs.lookup job.id = none := AList.lookup_eq_none.mpr room.fresh
  have inserted : (manager.enqueue state job apply).jobs.lookup job.id =
      some (pushEvent job manager.limits.sseReplayEvents) := by
    rw [JobManager.enqueue_jobs, AList.lookup_insert]
  have kept : ∀ {other found}, state.jobs.lookup other = some found →
      (manager.enqueue state job apply).jobs.lookup other = some found := by
    intro other found before
    have apart : other ≠ job.id := by
      rintro rfl
      rw [absent] at before
      cases before
    rw [JobManager.enqueue_jobs, AList.lookup_insert_ne apart, before]
  have lookup : ∀ {other found},
      (manager.enqueue state job apply).jobs.lookup other = some found →
        other = job.id ∧ found = pushEvent job manager.limits.sseReplayEvents ∨
          other ≠ job.id ∧ state.jobs.lookup other = some found := by
    intro other found present
    rw [JobManager.enqueue_jobs] at present
    exact Keyed.lookup_insert_cases present
  have applying : ∀ {reference}, apply.map Prod.fst = some reference ↔
      (pushEvent job manager.limits.sseReplayEvents).Applying reference := by
    intro reference
    simp [StoredJob.Applying, admissible.applies, admissible.waiting, JobStatus.terminal]
  have unclaimed : ∀ {reference}, apply.map Prod.fst = some reference →
      reference ∉ state.activeCheckpoints := by
    intro reference claims
    obtain ⟨admission, member, rfl⟩ := Option.map_eq_some_iff.mp claims
    exact room.unclaimed admission member
  obtain ⟨⟨-, four⟩, ⟨-, eight⟩, -, -, -⟩ := bounds
  have concurrent := coherent.concurrent
  have capacity := coherent.capacity
  have slot := room.slot
  rw [JobManager.workerLimit, saturatingAdd_of_le (by unfold maxWord; omega),
    saturatingAdd_of_le (by unfold maxWord; omega)] at slot
  have queued : saturatingAdd state.queued 1 = state.queued + 1 :=
    saturatingAdd_of_le (by unfold maxWord; omega)
  refine ⟨?_, ?_, ?_, ?_, ?_, ?_, ?_, ?_, ?_, ?_, ?_⟩
  · rw [JobManager.enqueue_queued, JobManager.enqueue_jobs, queued,
      Keyed.count_insert_of_lookup_none _ absent, ← coherent.queued]
    simp [StoredJob.has, admissible.waiting]
  · rw [JobManager.enqueue_running, JobManager.enqueue_jobs,
      Keyed.count_insert_of_lookup_none _ absent, ← coherent.running]
    simp [StoredJob.has, admissible.waiting]
  · rw [JobManager.enqueue_running]
    exact concurrent
  · rw [JobManager.enqueue_running, JobManager.enqueue_queued, queued]
    omega
  · rw [JobManager.enqueue_jobs, Keyed.length_keys_insert_of_notMem room.fresh]
    exact room.kept
  · rw [JobManager.enqueue_order, List.nodup_append_comm]
    exact List.nodup_cons.mpr
      ⟨fun listed => room.fresh ((coherent.listed _).mp listed), coherent.ordered⟩
  · intro other
    rw [JobManager.enqueue_order, JobManager.enqueue_jobs, List.mem_append, List.mem_singleton,
      AList.mem_insert, coherent.listed, or_comm]
  · intro other found present waiting
    rcases lookup present with ⟨-, rfl⟩ | ⟨-, before⟩
    · exact admissible.untouched
    · exact coherent.untouched other found before waiting
  · intro reference
    rw [JobManager.mem_enqueue_activeCheckpoints, coherent.checkpoints]
    constructor
    · rintro (claims | ⟨other, found, before, active⟩)
      · exact ⟨job.id, _, inserted, applying.mp claims⟩
      · exact ⟨other, found, kept before, active⟩
    · rintro ⟨other, found, present, active⟩
      rcases lookup present with ⟨-, rfl⟩ | ⟨-, before⟩
      · exact .inl (applying.mpr active)
      · exact .inr ⟨other, found, before, active⟩
  · intro first second found other reference present also active too
    rcases lookup present with ⟨rfl, rfl⟩ | ⟨-, before⟩ <;>
      rcases lookup also with ⟨rfl, rfl⟩ | ⟨-, seen⟩
    · rfl
    · exact absurd ((coherent.checkpoints reference).mpr ⟨second, other, seen, too⟩)
        (unclaimed (applying.mpr active))
    · exact absurd ((coherent.checkpoints reference).mpr ⟨first, found, before, active⟩)
        (unclaimed (applying.mpr too))
    · exact coherent.single first second found other reference before seen active too
  · intro other holding
    rcases JobManager.mem_enqueue_applyCapabilities holding with ⟨reference, rfl, claims⟩ | before
    · exact ⟨_, reference, inserted, applying.mp claims⟩
    · obtain ⟨found, reference, held, active⟩ := coherent.capabilities other before
      exact ⟨found, reference, kept held, active⟩

/-! ## Operations -/

/-- An admission clears the table and either refuses the job or adds it. -/
theorem JobManager.admitLocked_cases
    (coherent : state.shuttingDown = false → state.Coherent manager.limits)
    (bounds : manager.limits.BoundsJobs) (finished : Nat → Bool) (job : StoredJob)
    (apply : Option (ArtifactRef × ApplyCapability)) (thread : Option Nat) :
    (∃ error, manager.admitLocked finished state job apply thread =
        (manager.cleared finished state, .error error)) ∨
      ∃ number, manager.HasRoom (manager.cleared finished state) job apply ∧
        manager.admitLocked finished state job apply thread =
          ({ manager.enqueue (manager.cleared finished state) job apply with
              handles := (manager.enqueue (manager.cleared finished state) job apply).handles ++
                [number] }, .ok job.id) := by
  unfold JobManager.admitLocked
  simp only
  split_ifs with closed full
  · exact .inl ⟨.unavailable, rfl⟩
  · exact .inl ⟨.full, rfl⟩
  · have room : manager.HasRoom (manager.cleared finished state) job apply := by
      simp only [Bool.or_eq_true, decide_eq_true_eq, not_or, not_le, Option.any_eq_true,
        Bool.not_eq_true] at closed full
      refine ⟨closed.1, fun admission member claims => ?_, full.1.1.1.2, full.1.1.2, full.2⟩
      exact full.1.1.1.1 ⟨admission, member, claims⟩
    cases thread with
    | none =>
        refine .inl ⟨.unavailable, ?_⟩
        have cleared := (coherent
          ((manager.cleared_shuttingDown finished state).symm.trans room.serving)).cleared finished
        have capacity := cleared.capacity
        obtain ⟨⟨-, four⟩, ⟨-, eight⟩, -, -, -⟩ := bounds
        have small : (manager.cleared finished state).queued < maxWord := by
          unfold maxWord
          omega
        exact congrArg (·, _) (JobManager.rollBack_enqueue cleared room small)
    | some number => exact .inr ⟨number, room, rfl⟩

theorem JobManager.admitLocked_shuttingDown (manager : JobManager) (finished : Nat → Bool)
    (state : JobsState) (job : StoredJob) (apply : Option (ArtifactRef × ApplyCapability))
    (thread : Option Nat) :
    (manager.admitLocked finished state job apply thread).1.shuttingDown =
      state.shuttingDown := by
  have cleared := manager.cleared_shuttingDown finished state
  unfold JobManager.admitLocked
  dsimp only
  split_ifs
  · exact cleared
  · exact cleared
  · cases thread <;> cases apply <;> exact cleared

theorem JobManager.cancel_shuttingDown (manager : JobManager) (state : JobsState) (id : JobId)
    (owner : Owner) : (manager.cancel state id owner).1.shuttingDown = state.shuttingDown := by
  unfold JobManager.cancel
  split
  · rfl
  · dsimp only
    split_ifs <;> rfl

theorem JobsState.Coherent.queued_pos (coherent : state.Coherent limits) {id : JobId}
    (held : state.jobs.lookup id = some job) (waiting : job.status = .queued) :
    1 ≤ state.queued := by
  rw [coherent.queued]
  exact Keyed.count_pos_of_lookup held (by simp [StoredJob.has, waiting])

theorem JobsState.Coherent.running_pos (coherent : state.Coherent limits) {id : JobId}
    (held : state.jobs.lookup id = some job) (runs : job.status = .running) :
    1 ≤ state.running := by
  rw [coherent.running]
  exact Keyed.count_pos_of_lookup held (by simp [StoredJob.has, runs])

/-- A job changes in nothing which the manager counts. -/
theorem JobsState.Coherent.touch (coherent : state.Coherent limits) {id : JobId}
    {old new : StoredJob} (held : state.jobs.lookup id = some old) (kind : new.kind = old.kind)
    (status : new.status = old.status)
    (untouched : new.status = .queued → new.cancellationRequested = false) :
    ({ state with jobs := state.jobs.insert id new } : JobsState).Coherent limits := by
  have same : ∀ other, new.has other = old.has other := fun other => by
    rw [StoredJob.has, StoredJob.has, status]
  exact coherent.keep held kind (by rw [status]) (by rw [same]) (by rw [same])
    coherent.concurrent coherent.capacity untouched

/-- What a cancellation does to a job of its owner. -/
theorem JobManager.cancel_of_lookup (manager : JobManager) {id : JobId} {owner : Owner}
    (found : (state.jobs.lookup id).filter (fun job => job.owner == owner) = some job)
    (untouched : job.status = .queued → job.cancellationRequested = false) :
    (job.status = .queued ∧
        manager.cancel state id owner =
          ({ state with
              jobs := state.jobs.insert id (manager.requestCancellation job)
              queued := state.queued - 1
              applyCapabilities := state.applyCapabilities.erase id
              activeCheckpoints := state.checkpointsWithout job.kind },
            { snapshot := some (snapshotJob (manager.requestCancellation job))
              record := some job.kind.historyKind
              notifies := true })) ∨
      job.status ≠ .queued ∧ ∃ new notifies, new.kind = job.kind ∧ new.status = job.status ∧
        manager.cancel state id owner =
          ({ state with jobs := state.jobs.insert id new },
            { snapshot := some (snapshotJob new), record := none, notifies }) := by
  unfold JobManager.cancel
  rw [found]
  by_cases waiting : job.status = .queued
  · refine .inl ⟨waiting, ?_⟩
    simp only [waiting, untouched waiting, JobStatus.terminal, Bool.not_false, Bool.and_self,
      if_true, beq_self_eq_true]
    rfl
  · refine .inr ⟨waiting, if !job.status.terminal && !job.cancellationRequested then
      manager.requestCancellation job else job, !job.status.terminal && !job.cancellationRequested,
      ?_, ?_, ?_⟩
    · split_ifs <;> rfl
    · split_ifs
      · exact if_neg waiting
      · rfl
    · simp only [if_neg waiting, beq_eq_false_iff_ne.mpr waiting, Bool.and_false,
        Bool.false_eq_true, if_false]

theorem JobManager.lookup_of_owned {id : JobId} {owner : Owner}
    (found : (state.jobs.lookup id).filter (fun job => job.owner == owner) = some job) :
    state.jobs.lookup id = some job :=
  (Option.filter_eq_some_iff.mp found).1

theorem JobsState.Coherent.cancel (coherent : state.Coherent manager.limits) (id : JobId)
    (owner : Owner) : (manager.cancel state id owner).1.Coherent manager.limits := by
  cases found : (state.jobs.lookup id).filter fun job => job.owner == owner with
  | none =>
      unfold JobManager.cancel
      rw [found]
      exact coherent
  | some job =>
      have held := JobManager.lookup_of_owned found
      rcases manager.cancel_of_lookup found (coherent.untouched id job held) with
        ⟨waiting, done⟩ | ⟨waiting, new, notifies, kind, status, done⟩
      · rw [done]
        have positive := coherent.queued_pos held waiting
        apply coherent.terminate held
        · rw [waiting]
          rfl
        · simp [JobManager.requestCancellation, waiting, JobStatus.terminal]
        · simp [StoredJob.has, waiting]
        · simp only [StoredJob.has, waiting, beq_self_eq_true, if_true]
          omega
      · rw [done]
        exact coherent.touch held kind status fun queued => absurd (status ▸ queued) waiting

/-- What one round of the loop of `begin` does. -/
theorem JobManager.begin_cases (manager : JobManager) (state : JobsState) (id : JobId) :
    (manager.begin state id = (state, .leave) ∧
        (state.isQueued id = false ∨ state.shuttingDown = true)) ∨
      (∃ job, manager.begin state id =
          ({ state with
              queued := state.queued - 1
              running := saturatingAdd state.running 1
              jobs := state.jobs.insert id (manager.moveTo .running job) }, .started) ∧
        state.jobs.lookup id = some job ∧ job.status = .queued ∧
        state.order.find? state.isQueued = some id ∧
        state.running < manager.limits.concurrentJobs) ∨
      (manager.begin state id = (state, .wait) ∧ state.isQueued id = true ∧
        ¬ (state.order.find? state.isQueued = some id ∧
          state.running < manager.limits.concurrentJobs)) := by
  unfold JobManager.begin
  split_ifs with leaves first
  · refine .inl ⟨rfl, ?_⟩
    simpa using leaves
  · simp only [Bool.or_eq_true, not_or, Bool.not_eq_true', Bool.not_eq_false] at leaves
    obtain ⟨job, held, waiting⟩ := state.isQueued_iff.mp leaves.1
    refine .inr (.inl ⟨job, ?_, held, waiting, first⟩)
    rw [Keyed.modify_of_lookup held]
  · simp only [Bool.or_eq_true, not_or, Bool.not_eq_true', Bool.not_eq_false] at leaves
    exact .inr (.inr ⟨rfl, leaves.1, first⟩)

/-- A waiting job starts. -/
theorem JobsState.Coherent.start (coherent : state.Coherent manager.limits)
    (bounds : manager.limits.BoundsJobs) {id : JobId} (held : state.jobs.lookup id = some job)
    (waiting : job.status = .queued) (free : state.running < manager.limits.concurrentJobs) :
    ({ state with
        queued := state.queued - 1
        running := saturatingAdd state.running 1
        jobs := state.jobs.insert id (manager.moveTo .running job) } : JobsState).Coherent
      manager.limits := by
  have positive := coherent.queued_pos held waiting
  have capacity := coherent.capacity
  obtain ⟨⟨-, four⟩, -, -, -, -⟩ := bounds
  have next : saturatingAdd state.running 1 = state.running + 1 :=
    saturatingAdd_of_le (by unfold maxWord; omega)
  apply coherent.keep held (manager.moveTo_kind .running job)
  · rw [waiting]
    rfl
  · simp [StoredJob.has, waiting, next]
  · simp only [StoredJob.has, waiting, JobManager.moveTo_status, beq_self_eq_true, if_true,
      beq_eq_false_iff_ne.mpr (show JobStatus.running ≠ .queued by decide),
      Bool.false_eq_true, if_false]
    omega
  · rw [next]
    exact free
  · rw [next]
    omega
  · intro queued
    simp at queued

theorem JobsState.Coherent.withoutCapability (coherent : state.Coherent limits) (id : JobId) :
    ({ state with applyCapabilities := state.applyCapabilities.erase id } :
      JobsState).Coherent limits :=
  { coherent with
    capabilities := fun other holding =>
      coherent.capabilities other (AList.mem_erase.mp holding).2 }

theorem JobsState.Coherent.jobInputs (coherent : state.Coherent limits) (id : JobId) :
    (JobManager.jobInputs state id).1.Coherent limits := by
  unfold JobManager.jobInputs
  split
  · exact coherent
  · exact coherent.withoutCapability id

theorem JobsState.Coherent.observe (coherent : state.Coherent limits) (id : JobId)
    (progress : JobProgress) : (manager.observe state id progress).Coherent limits := by
  unfold JobManager.observe Keyed.modify
  cases held : state.jobs.lookup id with
  | none => exact coherent
  | some job => exact coherent.touch held rfl rfl (coherent.untouched id job held)

theorem JobManager.settle_kind (manager : JobManager) (outcome : WorkerOutcome)
    (receipt : Option ReceiptRef) (job : StoredJob) :
    (manager.settle outcome receipt job).kind = job.kind := by
  cases outcome <;> rfl

theorem JobManager.settle_status (manager : JobManager) (outcome : WorkerOutcome)
    (receipt : Option ReceiptRef) (job : StoredJob) :
    (manager.settle outcome receipt job).status = jobStatus outcome.status := by
  cases outcome <;> rfl

theorem terminal_jobStatus (status : TerminalStatus) : (jobStatus status).terminal = true := by
  cases status <;> rfl

/-- What `finish` does to a job of the table. -/
theorem JobManager.finish_of_lookup (manager : JobManager) {id : JobId}
    (held : state.jobs.lookup id = some job) (outcome : WorkerOutcome)
    (receipt : Option ReceiptRef) (historyOk : Bool) :
    manager.finish state id outcome receipt historyOk =
      { state with
        workerFailed := state.workerFailed || !historyOk
        jobs := state.jobs.insert id (manager.settle outcome receipt job)
        running := state.running - 1
        applyCapabilities := state.applyCapabilities.erase id
        activeCheckpoints := state.checkpointsWithout job.kind } := by
  unfold JobManager.finish
  rw [Keyed.modify_of_lookup held, held]
  rfl

theorem JobsState.Coherent.finish (coherent : state.Coherent limits) {id : JobId}
    (held : state.jobs.lookup id = some job) (runs : job.status = .running)
    (outcome : WorkerOutcome) (receipt : Option ReceiptRef) (historyOk : Bool) :
    (manager.finish state id outcome receipt historyOk).Coherent limits := by
  rw [manager.finish_of_lookup held]
  have positive := coherent.running_pos held runs
  have ended : (manager.settle outcome receipt job).status.terminal = true := by
    rw [manager.settle_status]
    exact terminal_jobStatus _
  have left : state.running - 1 + (if job.has .running then 1 else 0) = state.running := by
    simp only [StoredJob.has, runs, beq_self_eq_true, if_true]
    omega
  have waits : state.queued + (if job.has .queued then 1 else 0) = state.queued := by
    simp [StoredJob.has, runs]
  exact { coherent.terminate held (by rw [runs]; rfl) ended left waits with }

end ImmichRs.Web
