import ImmichRs.Web.Console

/-!
# Resuming an apply job

A confirmation checks that its receipt is newer than the checkpoint of the plan; admitting the
grant and running the job do not check this again.  So a job runs against a checkpoint older than
its receipt exactly if no apply job wrote this checkpoint since the confirmation read it.
-/

namespace ImmichRs.Web

open Collections

variable {console : Console} {world next : ConsoleWorld}

/-- What is known of a dry run whose age was checked when the log of writes had length `checked`:
its checkpoint is older unless it was written since, and then it is not older. -/
structure ConsoleWorld.Checked (world : ConsoleWorld) (dryRun : DryRunBinding) (checked : Nat) :
    Prop where
  within : checked ≤ world.written.length
  past : dryRun.completedUnix ≤ world.clock
  verdict :
    dryRun.planReference ∉ world.written.drop checked ∧
        receiptIsNewerThanCheckpoint (world.checkpoints dryRun.planReference)
          dryRun.completedUnix = .ok true ∨
      dryRun.planReference ∈ world.written.drop checked ∧
        ∃ modified : Nat, world.checkpoints dryRun.planReference = .privateFile (some modified) ∧
          dryRun.completedUnix ≤ modified

/-- The checkpoint of a plan, if there is one, was last modified before the dry run completed. -/
def ConsoleWorld.Older (world : ConsoleWorld) (dryRun : DryRunBinding) : Prop :=
  ∀ modified : Nat, world.checkpoints dryRun.planReference = .privateFile (some modified) →
    (modified : Int) < dryRun.completedUnix

theorem ConsoleWorld.Checked.older_iff {dryRun : DryRunBinding} {checked : Nat}
    (known : world.Checked dryRun checked) :
    world.Older dryRun ↔ dryRun.planReference ∉ world.written.drop checked := by
  rcases known.verdict with ⟨unwritten, newer⟩ | ⟨written, modified, present, late⟩
  · refine ⟨fun _ => unwritten, fun _ modified present => ?_⟩
    rcases receiptIsNewerThanCheckpoint_eq_true.mp newer with absent | ⟨before, found, earlier⟩
    · rw [absent] at present
      cases present
    · rw [found] at present
      cases present
      exact earlier
  · refine ⟨fun older => ?_, fun unwritten => absurd written unwritten⟩
    exact absurd (older modified present) (not_lt.mpr late)

/-- Time passes, and nothing is written. -/
theorem ConsoleWorld.Checked.later {dryRun : DryRunBinding} {checked : Nat}
    (known : world.Checked dryRun checked) (checkpoints : next.checkpoints = world.checkpoints)
    (written : next.written = world.written) (clock : world.clock ≤ next.clock) :
    next.Checked dryRun checked where
  within := written ▸ known.within
  past := known.past.trans (Int.ofNat_le.mpr clock)
  verdict := by
    rw [written, checkpoints]
    exact known.verdict

/-- A job writes a checkpoint now, not before the dry run completed. -/
theorem ConsoleWorld.Checked.writes {dryRun : DryRunBinding} {checked : Nat}
    (known : world.Checked dryRun checked) (reference : ArtifactRef) :
    (world.writes reference).Checked dryRun checked where
  within := known.within.trans (List.length_append ▸ Nat.le_add_right ..)
  past := known.past
  verdict := by
    have log : (world.writes reference).written.drop checked =
        world.written.drop checked ++ [reference] := List.drop_append_of_le_length known.within
    rw [log, List.mem_append, List.mem_singleton]
    by_cases same : dryRun.planReference = reference
    · refine .inr ⟨.inr same, world.clock, ?_, known.past⟩
      rw [same]
      exact Function.update_self reference _ _
    · have kept : (world.writes reference).checkpoints dryRun.planReference =
          world.checkpoints dryRun.planReference := Function.update_of_ne same _ _
      rw [kept]
      rcases known.verdict with ⟨unwritten, newer⟩ | ⟨written, found⟩
      · exact .inl ⟨not_or.mpr ⟨unwritten, same⟩, newer⟩
      · exact .inr ⟨.inl written, found⟩

/-! ## The capabilities of the job manager -/

theorem evictRounds_applyCapabilities (retained rounds : Nat) (state : JobsState) :
    (evictRounds retained rounds state).applyCapabilities = state.applyCapabilities := by
  induction rounds generalizing state with
  | zero => rfl
  | succ rounds induction =>
      unfold evictRounds
      split_ifs
      · split
        · rfl
        · exact induction _
      · rfl

theorem JobManager.cleared_applyCapabilities (manager : JobManager) (finished : Nat → Bool)
    (state : JobsState) :
    (manager.cleared finished state).applyCapabilities = state.applyCapabilities :=
  evictRounds_applyCapabilities _ _ (reapWorkers finished state)

/-- Other admissions than that of an apply job leave the capabilities. -/
theorem JobManager.admitKind_applyCapabilities (manager : JobManager) (finished : Nat → Bool)
    (state : JobsState) (owner : Owner) (sourceId : String) (kind : JobKind)
    (randomId : Option JobId) (thread : Option Nat) :
    (manager.admitKind finished state owner sourceId kind randomId thread).1.applyCapabilities =
      state.applyCapabilities := by
  have cleared := manager.cleared_applyCapabilities finished state
  unfold JobManager.admitKind
  split
  · rfl
  · split
    · rfl
    · unfold JobManager.admitLocked
      dsimp only
      split_ifs
      · exact cleared
      · exact cleared
      · cases thread <;> exact cleared

/-- A worker executes an apply job with a capability. -/
def World.Executes (world : World) (thread : Nat) (job : JobId) (capability : ApplyCapability) :
    Prop :=
  ∃ sourceId kind, world.workers[thread]? =
    some (.mk job (.executing sourceId kind (some capability)))

/-- No capability is added, and a worker executes with a capability which it had or which the
manager held for its job. -/
structure World.Passes (world next : World) : Prop where
  held : ∀ job capability, next.state.applyCapabilities.lookup job = some capability →
    world.state.applyCapabilities.lookup job = some capability
  executing : ∀ thread job capability, next.Executes thread job capability →
    world.Executes thread job capability ∨
      world.state.applyCapabilities.lookup job = some capability

section

variable {before after : World}

theorem World.Passes.of_workers
    (held : ∀ job capability, after.state.applyCapabilities.lookup job = some capability →
      before.state.applyCapabilities.lookup job = some capability)
    (workers : ∀ (thread : Nat) (worker : Worker), after.workers[thread]? = some worker →
      worker.phase.active = true → before.workers[thread]? = some worker) :
    before.Passes after where
  held := held
  executing thread job capability := by
    rintro ⟨sourceId, kind, at_⟩
    exact .inl ⟨sourceId, kind, workers thread _ at_ rfl⟩

/-- A worker moves on to a phase in which it does not execute. -/
theorem World.Passes.advance {thread : Nat} {phase : WorkerPhase}
    (held : ∀ job capability, after.state.applyCapabilities.lookup job = some capability →
      before.state.applyCapabilities.lookup job = some capability)
    (workers : after.workers = before.advance thread phase)
    (idle : ∀ sourceId kind capability, phase ≠ .executing sourceId kind capability) :
    before.Passes after where
  held := held
  executing := by
    rintro other job capability ⟨sourceId, kind, at_⟩
    rw [workers, World.getElem?_advance] at at_
    split_ifs at at_
    · obtain ⟨_, -, made⟩ := Option.map_eq_some_iff.mp at_
      exact absurd (congrArg Worker.phase made) (idle _ _ _)
    · exact .inl ⟨sourceId, kind, at_⟩

theorem World.Passes.admission {outcome : JobsState × Except AdmissionError JobId}
    (same : outcome.1.applyCapabilities = before.state.applyCapabilities) :
    before.Passes (before.admission outcome) := by
  unfold World.admission
  split
  · exact .of_workers (fun _ _ found => same ▸ found) fun _ _ at_ active =>
      World.active_of_append at_ active
  · exact .of_workers (fun _ _ found => same ▸ found) fun _ _ at_ _ => at_

end

theorem JobManager.cancel_applyCapabilities (manager : JobManager) (state : JobsState) (id : JobId)
    (owner : Owner) {job : JobId} {capability : ApplyCapability}
    (found : (manager.cancel state id owner).1.applyCapabilities.lookup job = some capability) :
    state.applyCapabilities.lookup job = some capability := by
  unfold JobManager.cancel at found
  split at found
  · exact found
  · rename_i stored owned
    dsimp only at found
    by_cases waiting : stored.status = .queued
    · rw [if_pos waiting] at found
      exact (Keyed.lookup_of_lookup_erase found).2
    · rw [if_neg waiting] at found
      exact found

/-- Any step of the job manager but the admission of an apply job adds no capability. -/
theorem JobManager.passes_of_act {manager : JobManager} {before after : World} {action : Action}
    (plain : ∀ capability randomId spawned, action ≠ .admitApply capability randomId spawned)
    (taken : manager.act before action = some after) : before.Passes after := by
  have kept : ∀ job capability, before.state.applyCapabilities.lookup job = some capability →
      before.state.applyCapabilities.lookup job = some capability := fun _ _ found => found
  cases JobManager.steps_of_act taken with
  | admission asks _ =>
      cases action with
      | admitJob owner sourceId randomId spawned =>
          rw [← Option.some.inj taken]
          apply World.Passes.admission
          unfold JobManager.admitJob
          split
          · rfl
          · exact manager.admitKind_applyCapabilities ..
      | admitPlan owner sourceId serverId randomId spawned =>
          rw [← Option.some.inj taken]
          apply World.Passes.admission
          unfold JobManager.admitPlan
          split_ifs
          · split
            · rfl
            · exact manager.admitKind_applyCapabilities ..
          · rfl
      | admitDryRun owner reference stored randomId spawned =>
          rw [← Option.some.inj taken]
          apply World.Passes.admission
          unfold JobManager.admitDryRun
          split
          · rfl
          · split_ifs
            · split
              · rfl
              · exact manager.admitKind_applyCapabilities ..
            · rfl
      | admitApply capability randomId spawned =>
          exact absurd rfl (plain capability randomId spawned)
      | _ => cases asks
  | snapshot | recordCancel | flagCancel | observe => exact .of_workers kept fun _ _ at_ _ => at_
  | cancel job owner =>
      refine .of_workers (fun other capability found => ?_) fun thread worker at_ active => ?_
      · rw [manager.cancelStep_state] at found
        exact manager.cancel_applyCapabilities _ _ _ found
      · rw [manager.cancelStep_workers] at at_
        split_ifs at at_
        · exact World.active_of_notifyAll at_ active
        · exact at_
  | leave | wait | start | wake | missing | record | exit =>
      exact .advance kept rfl fun _ _ _ same => by cases same
  | @inputs thread job stored at_ held =>
      refine ⟨fun _ _ found => (Keyed.lookup_of_lookup_erase found).2, ?_⟩
      rintro other name capability ⟨sourceId, kind, found⟩
      rw [World.getElem?_advance] at found
      split_ifs at found with same
      · subst same
        rw [at_, Option.map_some, Option.some.injEq] at found
        have held := congrArg Worker.phase found
        have name := congrArg Worker.job found
        simp only [WorkerPhase.executing.injEq] at held name
        exact .inr (name ▸ held.2.2)
      · exact .inl ⟨sourceId, kind, found⟩
  | finish =>
      exact .of_workers (fun _ _ found => (Keyed.lookup_of_lookup_erase found).2)
        fun _ _ at_ active =>
          (World.active_of_advance rfl (World.active_of_notifyAll at_ active) active).2
  | shutdown =>
      exact .of_workers kept fun _ _ at_ active => World.active_of_notifyAll at_ active

/-! ## The invariant -/

/-- Everything which may lead to an apply job has been checked against its checkpoint. -/
structure ConsoleWorld.Sound (console : Console) (world : ConsoleWorld) : Prop where
  confirming : ∀ pending ∈ world.confirming, ∀ capability production,
    prepare console.store.platform console.store.limits pending.environment pending.owner
        pending.request = .ok (capability, production) →
      world.Checked capability.binding.dryRun pending.checked
  granted : ∀ owner entry capability, world.grants.entries.lookup owner = some entry →
    entry.status = .pending (some capability) →
      world.Checked capability.binding.dryRun (world.grantChecked owner)
  held : ∀ job capability, world.jobs.state.applyCapabilities.lookup job = some capability →
    world.Checked capability.binding.dryRun (world.jobChecked job)
  executing : ∀ thread job capability, world.jobs.Executes thread job capability →
    world.Checked capability.binding.dryRun (world.jobChecked job)

theorem ConsoleWorld.sound_initial (console : Console) (checkpoints : ArtifactRef → CheckpointFile)
    (clock : Nat) : (ConsoleWorld.initial checkpoints clock).Sound console where
  confirming _ member := nomatch member
  granted _ _ _ found := nomatch found
  held _ _ found := nomatch found
  executing _ _ _ executes := nomatch executes

/-- A step which adds nothing to check. -/
theorem ConsoleWorld.Sound.transfer (sound : world.Sound console)
    (known : ∀ dryRun checked, world.Checked dryRun checked → next.Checked dryRun checked)
    (confirming : ∀ pending ∈ next.confirming, pending ∈ world.confirming)
    (granted : ∀ owner entry inner, next.grants.entries.lookup owner = some entry →
      entry.status = .pending (some inner) → world.grants.entries.lookup owner = some entry)
    (grantChecked : next.grantChecked = world.grantChecked)
    (jobChecked : next.jobChecked = world.jobChecked) (passes : world.jobs.Passes next.jobs) :
    next.Sound console where
  confirming pending member capability production prepared :=
    known _ _ (sound.confirming pending (confirming pending member) capability production prepared)
  granted owner entry capability found pending := by
    rw [grantChecked]
    have before := granted owner entry capability found pending
    exact known _ _ (sound.granted owner entry capability before pending)
  held job capability found := by
    rw [jobChecked]
    exact known _ _ (sound.held job capability (passes.held job capability found))
  executing thread job capability executes := by
    rw [jobChecked]
    rcases passes.executing thread job capability executes with before | found
    · exact known _ _ (sound.executing thread job capability before)
    · exact known _ _ (sound.held job capability found)

theorem World.Passes.refl (world : World) : world.Passes world :=
  ⟨fun _ _ found => found, fun _ _ _ executes => .inl executes⟩

theorem GrantState.lookup_of_lookup_revokeOwner {grants : GrantState} {owner other : Owner}
    {entry : GrantEntry} (found : (grants.revokeOwner owner).entries.lookup other = some entry) :
    grants.entries.lookup other = some entry :=
  (Keyed.lookup_of_lookup_erase found).2

/-- A confirmation which is prepared now has been checked against the present checkpoint. -/
theorem ConsoleWorld.Sound.read (sound : world.Sound console) {owner : Owner}
    {request : GrantRequest} {environment : GrantEnvironment}
    (taken : Console.readStep world owner request environment = some next) :
    next.Sound console := by
  unfold Console.readStep at taken
  split_ifs at taken with clock
  obtain rfl := Option.some.inj taken
  have known : ∀ dryRun checked, world.Checked dryRun checked →
      ConsoleWorld.Checked
        { world with
          confirming := world.confirming ++
            [{ owner
               request
               environment := { environment with checkpoint := world.checkpoints }
               checked := world.written.length }] } dryRun checked :=
    fun _ _ checked => checked.later rfl rfl le_rfl
  refine ⟨?_, fun owner entry capability found pending =>
    known _ _ (sound.granted owner entry capability found pending), fun job capability found =>
    known _ _ (sound.held job capability found), fun thread job capability executes =>
    known _ _ (sound.executing thread job capability executes)⟩
  intro pending member capability production prepared
  rcases List.mem_append.mp member with earlier | last
  · exact known _ _ (sound.confirming pending earlier capability production prepared)
  · obtain rfl := List.mem_singleton.mp last
    have facts := prepare_eq_ok prepared
    obtain ⟨now, read, past⟩ := facts.aged
    rw [read, Option.all_some, decide_eq_true_eq] at clock
    refine ⟨le_rfl, past.trans clock, .inl ⟨?_, facts.newer⟩⟩
    rw [List.drop_length]
    exact List.not_mem_nil

theorem ConsoleWorld.Sound.confirm (sound : world.Sound console) {position : Nat} {now : Instant}
    {randomKey : Option String}
    (taken : console.confirmStep world position now randomKey = some next) :
    next.Sound console := by
  unfold Console.confirmStep at taken
  split at taken
  · cases taken
  · rename_i pending at_
    obtain rfl := Option.some.inj taken
    have rest : ∀ other ∈ world.confirming.eraseIdx position, other ∈ world.confirming :=
      fun _ member => List.mem_of_mem_eraseIdx member
    rcases console.store.confirmAt_cases world.grants pending.owner pending.request now
        pending.environment randomKey with ⟨error, refused⟩ |
      ⟨capability, production, idempotencyKey, prepared, -, -, confirmed⟩
    · simp only [refused]
      exact sound.transfer (fun _ _ checked => checked.later rfl rfl le_rfl) rest
        (fun _ _ _ found _ => found) rfl rfl (.refl _)
    · have checked := sound.confirming pending (List.mem_of_getElem? at_) capability production
        prepared
      simp only [confirmed]
      refine ⟨fun other member capability production prepared => ?_, ?_, ?_, ?_⟩
      · exact (sound.confirming other (rest other member) capability production prepared).later
          rfl rfl le_rfl
      · intro owner entry other found waiting
        rcases Keyed.lookup_insert_cases found with ⟨rfl, rfl⟩ | ⟨apart, kept⟩
        · obtain rfl := Option.some.inj (GrantStatus.pending.inj waiting)
          simp only [Function.update_self]
          exact checked.later rfl rfl le_rfl
        · simp only [Function.update_of_ne apart]
          exact (sound.granted owner entry other kept waiting).later rfl rfl le_rfl
      · exact fun job capability found => (sound.held job capability found).later rfl rfl le_rfl
      · exact fun thread job capability executes =>
          (sound.executing thread job capability executes).later rfl rfl le_rfl

/-- The admission of an apply job adds its capability, or leaves the capabilities. -/
theorem JobManager.admitApply_cases {manager : JobManager} {state : JobsState}
    (coherent : state.shuttingDown = false → state.Coherent manager.limits)
    (bounds : manager.limits.BoundsJobs) (finished : Nat → Bool) (capability : ApplyCapability)
    (randomId : Option JobId) (thread : Option Nat) :
    (∃ error, (manager.admitApply finished state capability randomId thread).2 = .error error ∧
        (manager.admitApply finished state capability randomId thread).1.applyCapabilities =
          state.applyCapabilities) ∨
      ∃ job, (manager.admitApply finished state capability randomId thread).2 = .ok job ∧
        job ∉ (manager.cleared finished state).jobs ∧
        (manager.admitApply finished state capability randomId thread).1.applyCapabilities =
          state.applyCapabilities.insert job capability := by
  unfold JobManager.admitApply
  dsimp only
  split
  · exact .inl ⟨_, rfl, rfl⟩
  · split
    · exact .inl ⟨_, rfl, rfl⟩
    · rename_i id
      rcases manager.admitLocked_cases coherent bounds finished _ _ thread with
        ⟨error, refused⟩ | ⟨number, room, admitted⟩
      · rw [refused]
        exact .inl ⟨error, rfl, manager.cleared_applyCapabilities finished state⟩
      · rw [admitted]
        refine .inr ⟨id, rfl, room.fresh, ?_⟩
        rw [← manager.cleared_applyCapabilities finished state]
        rfl

/-- The admitted job inherits the check of its grant. -/
theorem ConsoleWorld.Sound.admission (sound : world.Sound console)
    (invariant : console.manager.Invariant world.jobs)
    (bounds : console.manager.limits.BoundsJobs) {capability : ApplyCapability} {checked : Nat}
    (known : world.Checked capability.binding.dryRun checked) (randomId : Option JobId)
    (spawned : Bool) {grants : GrantState}
    (granted : ∀ owner entry inner, grants.entries.lookup owner = some entry →
      entry.status = .pending (some inner) → world.grants.entries.lookup owner = some entry) :
    ConsoleWorld.Sound console
      { world with
        jobs := world.jobs.admission (console.admission world capability randomId spawned)
        grants
        jobChecked :=
          match (console.admission world capability randomId spawned).2 with
          | .ok job => Function.update world.jobChecked job checked
          | .error _ => world.jobChecked } := by
  rcases JobManager.admitApply_cases invariant.coherent bounds world.jobs.finished capability
      randomId (world.jobs.nextThread spawned) with ⟨error, refused, same⟩ |
    ⟨job, admitted, fresh, added⟩
  · rw [← Console.admission] at refused same
    simp only [refused]
    exact sound.transfer (fun _ _ checked => checked.later rfl rfl le_rfl) (fun _ member => member)
      granted rfl rfl (.admission same)
  · rw [← Console.admission] at admitted added
    simp only [admitted]
    have later : ∀ dryRun position, world.Checked dryRun position → ConsoleWorld.Checked
        { world with
          jobs := world.jobs.admission (console.admission world capability randomId spawned)
          grants
          jobChecked := Function.update world.jobChecked job checked } dryRun position :=
      fun _ _ checked => checked.later rfl rfl le_rfl
    have state : (world.jobs.admission
        (console.admission world capability randomId spawned)).state =
          (console.admission world capability randomId spawned).1 := by
      rw [World.admission, admitted]
    have workers : (world.jobs.admission
        (console.admission world capability randomId spawned)).workers =
          world.jobs.workers ++ [{ job, phase := .arriving }] := by
      rw [World.admission, admitted]
    refine ⟨fun pending member inner production prepared =>
      later _ _ (sound.confirming pending member inner production prepared),
      fun owner entry inner found pending => later _ _ (sound.granted owner entry inner
        (granted owner entry inner found pending) pending), ?_, ?_⟩
    · intro other inner found
      rw [state, added] at found
      rcases Keyed.lookup_insert_cases found with ⟨rfl, rfl⟩ | ⟨apart, kept⟩
      · simp only [Function.update_self]
        exact later _ _ known
      · simp only [Function.update_of_ne apart]
        exact later _ _ (sound.held other inner kept)
    · rintro thread other inner ⟨sourceId, kind, at_⟩
      rw [workers] at at_
      have before := World.active_of_append at_ rfl
      -- A job which is executed is kept, and so it is not the admitted one.
      have apart : other ≠ job := by
        rintro rfl
        obtain ⟨stored, held, runs, -⟩ := invariant.linked.busy thread _ before rfl
        obtain ⟨kept, found, -⟩ :=
          console.manager.keepsRunning_cleared world.jobs.finished world.jobs.state _ stored held runs
        exact fresh (Keyed.mem_of_lookup found)
      simp only [Function.update_of_ne apart]
      exact later _ _ (sound.executing thread other inner ⟨sourceId, kind, before⟩)

theorem ConsoleWorld.Sound.admitJob (sound : world.Sound console)
    (invariant : console.manager.Invariant world.jobs)
    (bounds : console.manager.limits.BoundsJobs) (owner : Owner) (receipt : ReceiptRef)
    (idempotencyKey : String) (now : Instant) (environment : GrantEnvironment)
    (randomId : Option JobId) (spawned : Bool) :
    (console.admitStep world owner receipt idempotencyKey now environment randomId
      spawned).Sound console := by
  have admits := console.store.admits_admitLocked world.grants owner receipt idempotencyKey now
    environment fun capability => (console.admission world capability randomId spawned).2
  unfold Console.admitStep
  generalize console.store.admitLocked world.grants owner receipt idempotencyKey now environment
    (fun capability => (console.admission world capability randomId spawned).2) = outcome at admits
  cases admits with
  | refused | existing =>
      exact sound.transfer (fun _ _ checked => checked.later rfl rfl le_rfl)
        (fun _ member => member) (fun _ _ _ found _ => found) rfl rfl (.refl _)
  | dropped =>
      exact sound.transfer (fun _ _ checked => checked.later rfl rfl le_rfl)
        (fun _ member => member)
        (fun _ _ _ found _ => GrantState.lookup_of_lookup_revokeOwner found) rfl rfl (.refl _)
  | failed held named early pending unspent answer =>
      exact sound.admission invariant bounds (sound.granted owner _ _ held pending) randomId spawned
        fun _ _ _ found _ => GrantState.lookup_of_lookup_revokeOwner found
  | admitted held named early pending unspent answer =>
      refine sound.admission invariant bounds (sound.granted owner _ _ held pending) randomId
        spawned fun other entry inner found waiting => ?_
      rcases Keyed.lookup_insert_cases found with ⟨rfl, rfl⟩ | ⟨-, kept⟩
      · cases waiting
      · exact kept

/-- Running an apply job against its checkpoint. -/
theorem ConsoleWorld.Sound.writes (sound : world.Sound console) (reference : ArtifactRef)
    (opened : List Nat) :
    ConsoleWorld.Sound console { world.writes reference with opened } :=
  sound.transfer (fun _ _ checked => (checked.writes reference).later rfl rfl le_rfl)
    (fun _ member => member) (fun _ _ _ found _ => found) rfl rfl (.refl _)

theorem Console.jobStep_eq_some {action : Action}
    (taken : console.jobStep world action = some next) :
    ∃ jobs, console.manager.act world.jobs action = some jobs ∧ { world with jobs } = next ∧
      ∀ capability randomId spawned, action ≠ .admitApply capability randomId spawned := by
  unfold Console.jobStep at taken
  split at taken
  · cases taken
  · rename_i plain
    obtain ⟨jobs, moved, made⟩ := Option.map_eq_some_iff.mp taken
    exact ⟨jobs, moved, made, fun capability randomId spawned same =>
      plain capability randomId spawned same⟩

/-- What holds of a console in every state of a run. -/
structure Console.Invariant (console : Console) (world : ConsoleWorld) : Prop where
  jobs : console.manager.Invariant world.jobs
  sound : world.Sound console

theorem Console.Invariant.step (invariant : console.Invariant world)
    (bounds : console.manager.limits.BoundsJobs) {action : ConsoleAction}
    (taken : console.act world action = some next) : console.Invariant next := by
  have sound := invariant.sound
  cases action with
  | job action =>
      obtain ⟨jobs, moved, rfl, plain⟩ := Console.jobStep_eq_some taken
      exact ⟨invariant.jobs.step bounds (JobManager.steps_of_act moved),
        sound.transfer (fun _ _ checked => checked.later rfl rfl le_rfl) (fun _ member => member)
          (fun _ _ _ found _ => found) rfl rfl (JobManager.passes_of_act plain moved)⟩
  | read owner request environment =>
      have same : next.jobs = world.jobs := by
        simp only [Console.act, Console.readStep] at taken
        split_ifs at taken
        rw [← Option.some.inj taken]
      exact ⟨same ▸ invariant.jobs, sound.read taken⟩
  | confirm position now randomKey =>
      have same : next.jobs = world.jobs := by
        simp only [Console.act, Console.confirmStep] at taken
        split at taken
        · cases taken
        · rw [← Option.some.inj taken]
      exact ⟨same ▸ invariant.jobs, sound.confirm taken⟩
  | admitJob owner receipt idempotencyKey now environment randomId spawned =>
      obtain rfl := Option.some.inj taken
      refine ⟨?_, sound.admitJob invariant.jobs bounds owner receipt idempotencyKey now environment
        randomId spawned⟩
      unfold Console.admitStep
      dsimp only
      split
      · exact invariant.jobs
      · rename_i capability _
        have moved : console.manager.act world.jobs (.admitApply capability randomId spawned) =
            some (world.jobs.admission (console.admission world capability randomId spawned)) := rfl
        exact invariant.jobs.step bounds (JobManager.steps_of_act moved)
  | revoke owner =>
      obtain rfl := Option.some.inj taken
      exact ⟨invariant.jobs, sound.transfer (fun _ _ checked => checked.later rfl rfl le_rfl)
        (fun _ member => member)
        (fun _ _ _ found _ => GrantState.lookup_of_lookup_revokeOwner found) rfl rfl (.refl _)⟩
  | run thread environment =>
      simp only [Console.act, Console.runStep] at taken
      split at taken
      · cases taken
      · split_ifs at taken
        split at taken
        · cases taken
        · obtain rfl := Option.some.inj taken
          exact ⟨invariant.jobs, sound.transfer (fun _ _ checked => checked.later rfl rfl le_rfl)
            (fun _ member => member) (fun _ _ _ found _ => found) rfl rfl (.refl _)⟩
        · obtain rfl := Option.some.inj taken
          exact ⟨invariant.jobs, sound.writes _ _⟩
  | write thread =>
      simp only [Console.act, Console.writeStep] at taken
      split at taken
      · cases taken
      · split_ifs at taken
        obtain rfl := Option.some.inj taken
        exact ⟨invariant.jobs, sound.writes _ world.opened⟩
  | tick seconds =>
      obtain rfl := Option.some.inj taken
      exact ⟨invariant.jobs, sound.transfer
        (fun _ _ checked => checked.later rfl rfl (Nat.le_add_right ..)) (fun _ member => member)
        (fun _ _ _ found _ => found) rfl rfl (.refl _)⟩

theorem Console.RunsTo.invariant {checkpoints : ArtifactRef → CheckpointFile} {clock : Nat}
    {actions : List ConsoleAction} (run : console.RunsTo checkpoints clock actions world)
    (bounds : console.manager.limits.BoundsJobs) : console.Invariant world := by
  induction run with
  | nil => exact ⟨console.manager.invariant_initial,
      ConsoleWorld.sound_initial console checkpoints clock⟩
  | step run taken induction => exact induction.step bounds taken

theorem ConsoleWorld.executes_of_applying {thread : Nat} {job : JobId}
    {capability : ApplyCapability} (applies : world.applying thread = some (job, capability)) :
    world.jobs.Executes thread job capability := by
  unfold ConsoleWorld.applying at applies
  split at applies
  · rename_i at_
    cases applies
    exact ⟨_, _, at_⟩
  · cases applies

/-- An apply job begins to run against its checkpoint. -/
structure Console.Begins (console : Console) (world : ConsoleWorld) (thread : Nat) (job : JobId)
    (capability : ApplyCapability) : Prop where
  applies : world.applying thread = some (job, capability)
  taken : ∃ environment next, console.act world (.run thread environment) = some next

/-- An apply job which begins to run finds a checkpoint older than its receipt, if it finds one,
exactly if no apply job wrote the checkpoint since the confirmation of its grant read it. -/
theorem Console.resumes_iff (console : Console) (accepted : console.manager.limits.Accepted)
    {checkpoints : ArtifactRef → CheckpointFile} {clock : Nat} {actions : List ConsoleAction}
    (run : console.RunsTo checkpoints clock actions world) {thread : Nat} {job : JobId}
    {capability : ApplyCapability} (begins : console.Begins world thread job capability) :
    world.Older capability.binding.dryRun ↔
      capability.binding.dryRun.planReference ∉ world.written.drop (world.jobChecked job) := by
  have invariant := run.invariant accepted.boundsJobs
  have executes := ConsoleWorld.executes_of_applying begins.applies
  exact (invariant.sound.executing thread job capability executes).older_iff

/-! ## Two receipts of one plan -/

/-- A console with one folder and one server. -/
def sampleWeb : Console where
  manager := sampleManager .default
  store := sampleStore .reference

/-- What its calls read: two dry runs of one plan completed a hundred seconds after the epoch. -/
def sampleReading (checkpoint : ArtifactRef → CheckpointFile) : GrantEnvironment :=
  sampleEnvironment .reference (samplePlan .folder []) 100 (fun _ => 100) checkpoint

/-- The capability which confirming one of them prepares. -/
def sampleResume (owner : Owner) (receipt : ReceiptRef) : ApplyCapability :=
  sampleCapability .reference (samplePlan .folder []) owner receipt 100

theorem sampleResume_current (owner : Owner) (receipt : ReceiptRef) :
    bindingIsCurrent .reference (sampleReading fun _ => .absent)
      (sampleResume owner receipt).binding = true :=
  sampleCapability_current .reference _ owner receipt 100 (fun _ => 100) fun _ => .absent

/-- The grant of an owner for one of them. -/
def sampleGrant (receipt : ReceiptRef) (status : GrantStatus) : GrantEntry where
  receipt
  idempotencyKey := "key"
  deadline := 0 + (sampleStore .reference).lifetime
  status

variable {actions : List ConsoleAction}

/-- An owner confirms a receipt while there is no checkpoint. -/
theorem Console.RunsTo.sampleConfirm
    (run : sampleWeb.RunsTo (fun _ => .absent) 100 actions world)
    (absent : world.checkpoints = fun _ => .absent) (clock : world.clock = 100)
    (idle : world.confirming = []) (owner : Owner) (receipt : ReceiptRef)
    (unspent : receipt ∉ world.grants.spentReceipts) :
    sampleWeb.RunsTo (fun _ => .absent) 100
      (actions ++ [.read owner (sampleRequest receipt) (sampleReading fun _ => .absent)] ++
        [.confirm 0 0 (some "key")])
      { world with
        grants := { world.grants with
          entries := world.grants.entries.insert owner
            (sampleGrant receipt (.pending (some (sampleResume owner receipt)))) }
        grantChecked := Function.update world.grantChecked owner world.written.length } := by
  obtain ⟨jobs, grants, confirming, checkpoints, opened, seconds, written, grantChecked,
    jobChecked⟩ := world
  obtain rfl : checkpoints = fun _ => .absent := absent
  obtain rfl : seconds = 100 := clock
  obtain rfl : confirming = [] := idle
  have prepared : prepare (sampleStore .reference).platform (sampleStore .reference).limits
      (sampleReading fun _ => .absent) owner (sampleRequest receipt) =
        .ok (sampleResume owner receipt, false) :=
    prepare_sample .reference rfl owner receipt (le_refl (100 : Int)) (by decide) rfl
  have deadline : (sampleStore .reference).deadline 0 =
      some (0 + (sampleStore .reference).lifetime) := by decide
  have confirmed : (sampleStore .reference).confirmAt grants owner (sampleRequest receipt) 0
      (sampleReading fun _ => .absent) (some "key") =
        ({ grants with
            entries := grants.entries.insert owner
              (sampleGrant receipt (.pending (some (sampleResume owner receipt)))) },
          .ok { idempotencyKey := "key", production := false }) := by
    rw [GrantStore.confirmAt, prepared, deadline]
    exact if_neg unspent
  have reads : sampleWeb.act
      (.mk jobs grants [] (fun _ => .absent) opened 100 written grantChecked jobChecked)
      (.read owner (sampleRequest receipt) (sampleReading fun _ => .absent)) =
        some (.mk jobs grants
          [.mk owner (sampleRequest receipt) (sampleReading fun _ => .absent) written.length]
          (fun _ => .absent) opened 100 written grantChecked jobChecked) := rfl
  refine (run.step reads).step ?_
  simp only [Console.act, Console.confirmStep, sampleWeb, List.getElem?_cons_zero, confirmed]
  rfl

/-- The owner of a grant has its job admitted. -/
theorem Console.RunsTo.sampleAdmit
    (run : sampleWeb.RunsTo (fun _ => .absent) 100 actions world) (owner : Owner)
    (receipt : ReceiptRef) (id : JobId)
    (held : world.grants.entries.lookup owner =
      some (sampleGrant receipt (.pending (some (sampleResume owner receipt)))))
    (unspent : receipt ∉ world.grants.spentReceipts) (room : world.grants.spentReceipts.card < 5000)
    (admits : (sampleWeb.admission world (sampleResume owner receipt) (some id) true).2 = .ok id) :
    sampleWeb.RunsTo (fun _ => .absent) 100
      (actions ++ [.admitJob owner receipt "key" 0 (sampleReading fun _ => .absent) (some id) true])
      { world with
        jobs := world.jobs.admission
          (sampleWeb.admission world (sampleResume owner receipt) (some id) true)
        grants :=
          { entries := world.grants.entries.insert owner (sampleGrant receipt (.consumed id))
            spentReceipts := insert receipt world.grants.spentReceipts }
        jobChecked := Function.update world.jobChecked id (world.grantChecked owner) } := by
  have early : ¬ 0 + (sampleStore .reference).lifetime ≤ 0 := by decide
  have free : ¬ (receipt ∈ world.grants.spentReceipts ∨
      (sampleStore .reference).limits.historyRetainedRows ≤ world.grants.spentReceipts.card) :=
    not_or.mpr ⟨unspent, not_le.mpr room⟩
  have usable : ¬ ((sampleResume owner receipt).prepared.isProduction ≠
      (sampleResume owner receipt).binding.backupReferenceSha256.isSome ∨
      bindingIsCurrent (sampleStore .reference).platform (sampleReading fun _ => .absent)
        (sampleResume owner receipt).binding = false) := by
    rintro (production | stale)
    · exact production rfl
    · exact Bool.false_ne_true (stale.symm.trans (sampleResume_current owner receipt))
  have admitted : (sampleStore .reference).admitLocked world.grants owner receipt "key" 0
      (sampleReading fun _ => .absent)
      (fun capability => (sampleWeb.admission world capability (some id) true).2) =
        ({ entries := world.grants.entries.insert owner (sampleGrant receipt (.consumed id))
           spentReceipts := insert receipt world.grants.spentReceipts },
          { result := .ok (.admitted id), handed := some (sampleResume owner receipt) }) := by
    rw [GrantStore.admitLocked, held]
    simp only [sampleGrant, ne_eq, not_true_eq_false, or_self, if_false, early, if_neg free,
      if_neg usable, admits]
  apply run.step
  rw [Console.act, Console.admitStep, show sampleWeb.store = sampleStore .reference from rfl,
    admitted]
  simp only [admits]

section

variable {thread : Nat} {job : JobId} {owner : Owner} {receipt : ReceiptRef}
  (applies : world.applying thread = some (job, sampleResume owner receipt))
  (closed : thread ∉ world.opened)

include applies closed

theorem sampleWeb_runStep :
    sampleWeb.act world (.run thread (sampleReading fun _ => .absent)) =
      match world.checkpoints ⟨0#128⟩ with
      | .invalid => none
      | .privateFile _ => some { world with opened := world.opened ++ [thread] }
      | .absent => some { world.writes ⟨0#128⟩ with opened := world.opened ++ [thread] } := by
  have current := sampleResume_current owner receipt
  have stays : ¬ (thread ∈ world.opened ∨
      bindingIsCurrent sampleWeb.store.platform (sampleReading fun _ => .absent)
        (sampleResume owner receipt).binding = false) := by
    rintro (opened | stale)
    · exact closed opened
    · exact Bool.false_ne_true (stale.symm.trans current)
  have place : (sampleResume owner receipt).binding.dryRun.planReference = ⟨0#128⟩ := rfl
  rw [Console.act, Console.runStep, applies]
  cases found : world.checkpoints ⟨0#128⟩ <;> simp only [if_neg stays, place, found]

theorem sampleWeb_begins (modified : Option Nat)
    (usable : world.checkpoints ⟨0#128⟩ = .absent ∨
      world.checkpoints ⟨0#128⟩ = .privateFile modified) :
    sampleWeb.Begins world thread job (sampleResume owner receipt) := by
  refine ⟨applies, sampleReading fun _ => .absent, ?_⟩
  rw [sampleWeb_runStep applies closed]
  rcases usable with absent | present
  · rw [absent]
    exact ⟨_, rfl⟩
  · rw [present]
    exact ⟨_, rfl⟩

end

/-- A worker begins to run against a checkpoint which it creates. -/
theorem Console.RunsTo.sampleRun (run : sampleWeb.RunsTo (fun _ => .absent) 100 actions world)
    (thread : Nat) (owner : Owner) (receipt : ReceiptRef) {job : JobId}
    (applies : world.applying thread = some (job, sampleResume owner receipt))
    (closed : thread ∉ world.opened) (absent : world.checkpoints ⟨0#128⟩ = .absent) :
    sampleWeb.RunsTo (fun _ => .absent) 100
      (actions ++ [.run thread (sampleReading fun _ => .absent)])
      { world.writes ⟨0#128⟩ with opened := world.opened ++ [thread] } := by
  apply run.step
  rw [sampleWeb_runStep applies closed, absent]

/-- The first owner's job begins to run before any checkpoint was written. -/
theorem sampleWeb_fresh :
    ∃ actions world, sampleWeb.RunsTo (fun _ => .absent) 100 actions world ∧
      sampleWeb.Begins world 0 "first" (sampleResume 0#256 ⟨0#128⟩) ∧
      world.Older (sampleResume 0#256 ⟨0#128⟩).binding.dryRun := by
  have start : sampleWeb.RunsTo (fun _ => .absent) 100 [] _ := .nil
  have first := start.sampleConfirm rfl rfl rfl 0#256 ⟨0#128⟩ (Finset.notMem_empty _)
  have admitted := first.sampleAdmit 0#256 ⟨0#128⟩ "first" (AList.lookup_insert _)
    (Finset.notMem_empty _) (by decide) rfl
  have begun := admitted.step (show sampleWeb.act _ (.job (.begin 0)) = some _ from rfl)
  have executing := begun.step (show sampleWeb.act _ (.job (.inputs 0)) = some _ from rfl)
  have reached : ∃ actions world, sampleWeb.RunsTo (fun _ => .absent) 100 actions world ∧
      world.applying 0 = some ("first", sampleResume 0#256 ⟨0#128⟩) ∧ world.opened = [] ∧
      world.written = [] ∧ world.checkpoints ⟨0#128⟩ = .absent :=
    ⟨_, _, executing, rfl, rfl, rfl, rfl⟩
  obtain ⟨actions, world, run, applies, opened, written, absent⟩ := reached
  have closed : 0 ∉ world.opened := opened ▸ List.not_mem_nil
  have begins := sampleWeb_begins applies closed none (.inl absent)
  refine ⟨actions, world, run, begins,
    (sampleWeb.resumes_iff WebLimits.default_accepted run begins).mpr ?_⟩
  rw [written, List.drop_nil]
  exact List.not_mem_nil

/-- Two owners confirm receipts of one plan; the first applies it, and then the second does. -/
theorem sampleWeb_stale :
    ∃ actions world, sampleWeb.RunsTo (fun _ => .absent) 100 actions world ∧
      sampleWeb.Begins world 1 "second" (sampleResume 1#256 ⟨1#128⟩) ∧
      ¬ world.Older (sampleResume 1#256 ⟨1#128⟩).binding.dryRun := by
  have start : sampleWeb.RunsTo (fun _ => .absent) 100 [] _ := .nil
  have first := start.sampleConfirm rfl rfl rfl 0#256 ⟨0#128⟩ (Finset.notMem_empty _)
  have second := first.sampleConfirm rfl rfl rfl 1#256 ⟨1#128⟩ (Finset.notMem_empty _)
  have admitted := second.sampleAdmit 0#256 ⟨0#128⟩ "first"
    ((AList.lookup_insert_ne (by decide)).trans (AList.lookup_insert _)) (Finset.notMem_empty _)
    (by decide) rfl
  have begun := admitted.step (show sampleWeb.act _ (.job (.begin 0)) = some _ from rfl)
  have executing := begun.step (show sampleWeb.act _ (.job (.inputs 0)) = some _ from rfl)
  have running := executing.sampleRun 0 0#256 ⟨0#128⟩ rfl List.not_mem_nil rfl
  have recorded := running.step (show sampleWeb.act _
    (.job (.record 0 true false .failed (some 100) ⟨0#128⟩ .written)) = some _ from rfl)
  have finished := recorded.step (show sampleWeb.act _ (.job (.finish 0)) = some _ from rfl)
  have again := finished.sampleAdmit 1#256 ⟨1#128⟩ "second"
    ((AList.lookup_insert_ne (by decide)).trans (AList.lookup_insert _)) (by decide) (by decide) rfl
  have resumed := again.step (show sampleWeb.act _ (.job (.begin 1)) = some _ from rfl)
  have late := resumed.step (show sampleWeb.act _ (.job (.inputs 1)) = some _ from rfl)
  have reached : ∃ actions world, sampleWeb.RunsTo (fun _ => .absent) 100 actions world ∧
      world.applying 1 = some ("second", sampleResume 1#256 ⟨1#128⟩) ∧ world.opened = [0] ∧
      world.checkpoints ⟨0#128⟩ = .privateFile (some 100) :=
    ⟨_, _, late, rfl, rfl, rfl⟩
  obtain ⟨actions, world, run, applies, opened, present⟩ := reached
  have closed : 1 ∉ world.opened := by simp [opened]
  refine ⟨actions, world, run, sampleWeb_begins applies closed _ (.inr present), fun older => ?_⟩
  exact absurd (older 100 present) (lt_irrefl _)

end ImmichRs.Web
