import ImmichRs.Executor.ImportOutcome

/-!
# Resuming an import

Runs of one plan over one journal, each cut off at any point.  A run reads the journal once and
works only on the effects which have no success there, so no effect succeeds twice.
-/

namespace ImmichRs

open Interaction
open Std (ExtTreeMap ExtTreeSet)

/-! ## The journal as an environment -/

/-- The journal answers with its rows and stores the rows which it confirms.  A row whose append
fails may have been stored or not.  All other answers are arbitrary. -/
def journalEnvironment : Environment Answer (List ImportEvent)
  | rows, ⟨.readEffects, .ok read⟩, after => read = rows ∧ after = rows
  | rows, ⟨.appendEffect row, .ok ()⟩, after => after = rows ++ [row]
  | rows, ⟨.appendEffect row, .error _⟩, after => after = rows ∨ after = rows ++ [row]
  | rows, _, after => after = rows

/-- One event stores the row which it tries to append, or nothing. -/
theorem journalEnvironment_step {before after : List ImportEvent} {event : Event Answer}
    (step : journalEnvironment before event after) :
    ∃ stored, after = before ++ stored ∧ stored.Sublist (attempted event).toList := by
  have same : after = before → ∃ stored, after = before ++ stored ∧
      stored.Sublist (attempted event).toList :=
    fun same => ⟨[], by simp [same], List.nil_sublist _⟩
  obtain ⟨call, answer⟩ := event
  cases call with
  | appendEffect row =>
      cases answer with
      | ok stored => exact ⟨[row], step, List.Sublist.refl _⟩
      | error error =>
          rcases step with unchanged | grown
          · exact same unchanged
          · exact ⟨[row], grown, List.Sublist.refl _⟩
  | readEffects =>
      cases answer with
      | ok read => exact same step.2
      | error error => exact same step
  | _ => exact same step

section

variable {α : Type} {program final : Executor α} {before after : List ImportEvent}
  {events : List (Event Answer)}

/-- A run only appends, and only rows which it tries to append. -/
theorem journal_grows (execution : Execution journalEnvironment program before events final after) :
    ∃ stored, after = before ++ stored ∧ stored.Sublist (attemptedRows events) := by
  induction execution with
  | refl => exact ⟨[], by simp, List.nil_sublist _⟩
  | head step _ induction =>
      obtain ⟨first, rfl, one⟩ := journalEnvironment_step step
      obtain ⟨rest, rfl, more⟩ := induction
      refine ⟨first ++ rest, by simp, ?_⟩
      rw [attemptedRows, List.filterMap_cons]
      cases attempt : attempted _ with
      | none =>
          rw [attempt, Option.toList_none, List.sublist_nil] at one
          rw [one]
          exact more
      | some row =>
          rw [attempt, Option.toList_some] at one
          exact one.append more

/-- Before the first row a run reads the journal as it found it. -/
theorem journal_read {opening rest : List (Event Answer)} {rows : List ImportEvent}
    (execution : Execution journalEnvironment program before (opening ++ rest) final after)
    (silent : attemptedRows opening = [])
    (read : (⟨.readEffects, .ok rows⟩ : Event Answer) ∈ opening) : rows = before := by
  induction opening generalizing program before with
  | nil => cases read
  | cons event opening induction =>
      cases execution with
      | head step execution =>
          rcases List.mem_cons.mp read with same | later
          · cases same
            exact step.1
          · obtain ⟨stored, rfl, one⟩ := journalEnvironment_step step
            rw [attemptedRows, List.filterMap_cons] at silent
            cases attempt : attempted _ with
            | none =>
                rw [attempt, Option.toList_none, List.sublist_nil] at one
                rw [attempt] at silent
                have earlier := induction execution silent later
                rw [earlier, one, List.append_nil]
            | some row =>
                rw [attempt] at silent
                cases silent

end

/-- Runs of one plan, one after the other, from one state of the journal to another.  Each of them
is cut off at any point and has its own configuration, client and scope. -/
inductive Runs (platform : Platform) (plan : UploadPlan) :
    List ImportEvent → List (List (Event Answer)) → List ImportEvent → Prop
  | refl (rows : List ImportEvent) : Runs platform plan rows [] rows
  | run {before middle after : List ImportEvent} {events : List (Event Answer)}
      {later : List (List (Event Answer))} {config : ImportConfig} {client : ClientBinding}
      {backupReferenceSha256 : Option String}
      {final : Executor (Except ExecutorError ImportApplyReport)} :
      Execution journalEnvironment
        (applyImportInner platform plan config client backupReferenceSha256).run before events final
        middle →
      Runs platform plan middle later after →
      Runs platform plan before (events :: later) after

/-! ## One run -/

/-- Rows which the journal accepts, where a success is the last row of its effect. -/
structure Resumable (rows : List ImportEvent) : Prop where
  typed : ∀ row ∈ rows, ∃ key, row.RowOf key
  last : rows.Pairwise fun earlier later =>
    earlier.effectKey = later.effectKey → earlier.outcome.isSuccess = false

theorem resumable_nil : Resumable [] :=
  ⟨by simp, List.Pairwise.nil⟩

/-- A success is the last row of its effect. -/
theorem Resumable.lastEffect {rows : List ImportEvent} (resumable : Resumable rows)
    {row : ImportEvent} (member : row ∈ rows) (success : row.outcome.isSuccess = true) :
    lastEffect rows row.effectKey = some ⟨row.outcome, row.remoteId⟩ := by
  obtain ⟨front, back, rfl⟩ := List.append_of_mem member
  have later : back.filter (fun other => other.effectKey == row.effectKey) = [] := by
    refine List.filter_eq_nil_iff.mpr fun other inside same => ?_
    obtain ⟨_, tail, _⟩ := List.pairwise_append.mp resumable.last
    have failed := (List.pairwise_cons.mp tail).1 other inside (eq_of_beq same).symm
    rw [success] at failed
    cases failed
  rw [ImmichRs.lastEffect, List.filter_append, List.filter_cons_of_pos (by simp), later,
    List.getLast?_append_of_ne_nil _ (by simp)]
  rfl

/-- An effect with a success is not open. -/
theorem Resumable.closed {rows : List ImportEvent} (resumable : Resumable rows)
    {state : ImportState} (read : importState rows = .ok state) {row : ImportEvent}
    (member : row ∈ rows) (success : row.outcome.isSuccess = true) {key : EffectKey}
    (named : row.effectKey = key.render) : state.isOpen key = false := by
  have latest := (importState_ok read row.effectKey).1
  rw [resumable.lastEffect member success, named] at latest
  obtain ⟨other, rowOf⟩ := resumable.typed row member
  obtain rfl : other = key := EffectKey.render_injective (rowOf.key_eq.symm.trans named)
  have outcome := rowOf.outcome
  have identified : row.outcome.expectsId = true → row.remoteId.isSome = true := by
    intro expects
    have valid := rowOf.valid
    rw [validateEffect, reject_eq_ok, Bool.not_eq_false', Bool.and_eq_true, expects,
      beq_iff_eq] at valid
    cases id : row.remoteId with
    | none => simp [id] at valid
    | some id => rfl
  cases other with
  | asset operationId =>
      simp only [EffectKey.render] at latest
      rw [ImportState.isOpen, ImportState.assetId, ImportState.remoteId, latest]
      cases kind : row.outcome <;>
        simp_all [EffectKey.outcomes, ImportOutcome.isSuccess, ImportOutcome.expectsId,
          Option.isSome_iff_ne_none]
  | metadata operationId =>
      simp only [EffectKey.render] at latest
      rw [ImportState.isOpen, ImportState.metadataDone, ImportState.completed, latest]
      cases kind : row.outcome <;> simp_all [EffectKey.outcomes, ImportOutcome.isSuccess]
  | album identity =>
      simp only [EffectKey.render] at latest
      rw [ImportState.isOpen, ImportState.album, latest]
      cases kind : row.outcome <;>
        simp_all [EffectKey.outcomes, ImportOutcome.isSuccess, ImportOutcome.expectsId,
          Option.isSome_iff_ne_none]
  | membership identity =>
      simp only [EffectKey.render] at latest
      rw [ImportState.isOpen, ImportState.membershipDone, ImportState.completed, latest]
      cases kind : row.outcome <;> simp_all [EffectKey.outcomes, ImportOutcome.isSuccess]

/-- What a run from a given state of the journal requests and appends. -/
structure WorksOn (platform : Platform) (plan : UploadPlan) (before : List ImportEvent)
    (scope : List EffectKey) (events : List (Event Answer)) : Prop where
  requests : ∀ key ∈ requestedKeys platform events, key ∈ scope
  rows : ((attemptedRows events).map ImportEvent.effectKey).Sublist (scope.map EffectKey.render)
  typed : ∀ row ∈ attemptedRows events, ∃ key, row.RowOf key
  distinct : AlbumsDistinct platform plan → scope.Nodup
  allowed : ∀ key ∈ scope, key.render ∈ plan.operations.flatMap (allowedKeys platform)
  unfinished : ∀ key ∈ scope, ∃ state, importState before = .ok state ∧ state.isOpen key = true

section

variable {platform : Platform} {plan : UploadPlan} {before after : List ImportEvent}
  {events : List (Event Answer)}

/-- A run works on effects which are open in the journal it starts from. -/
theorem worksOn_of_execution {config : ImportConfig} {client : ClientBinding}
    {backupReferenceSha256 : Option String}
    {final : Executor (Except ExecutorError ImportApplyReport)}
    (execution : Execution journalEnvironment
      (applyImportInner platform plan config client backupReferenceSha256).run before events final
      after) :
    ∃ scope, WorksOn platform plan before scope events := by
  obtain ⟨opening, first, second, rfl, run⟩ := applyImportInner_events execution
  obtain ⟨scope, runScope, members, part⟩ := run.scoped
  have silent : attemptedRows opening = [] :=
    List.map_eq_nil_iff.mp (List.sublist_nil.mp run.start.rows)
  refine ⟨scope, part.requests, part.rows, part.typed, runScope.distinct, runScope.allowed,
    fun key member => ?_⟩
  rcases runScope.opened with rfl | ⟨state, opened, unfinished⟩
  · cases member
  · obtain ⟨rows, read, stored⟩ := opened.journal
    obtain rfl := journal_read execution silent read
    exact ⟨state, stored, unfinished key member⟩

/-- A run keeps the journal resumable, and does not request effects which have succeeded. -/
theorem Resumable.step (resumable : Resumable before) (distinct : AlbumsDistinct platform plan)
    {scope : List EffectKey} (works : WorksOn platform plan before scope events)
    {stored : List ImportEvent} (inside : stored.Sublist (attemptedRows events)) :
    Resumable (before ++ stored) ∧
      ∀ row ∈ before, row.outcome.isSuccess = true → ∀ key : EffectKey,
        row.effectKey = key.render → key ∉ scope := by
  have fresh : ∀ row ∈ before, row.outcome.isSuccess = true → ∀ key : EffectKey,
      row.effectKey = key.render → key ∉ scope := by
    intro row member success key named listed
    obtain ⟨state, read, unfinished⟩ := works.unfinished key listed
    rw [resumable.closed read member success named] at unfinished
    cases unfinished
  have keys := (inside.map ImportEvent.effectKey).trans works.rows
  have once : (stored.map ImportEvent.effectKey).Nodup :=
    ((works.distinct distinct).map EffectKey.render_injective).sublist keys
  refine ⟨⟨fun row member => ?_, List.pairwise_append.mpr ⟨resumable.last, ?_, ?_⟩⟩, fresh⟩
  · rcases List.mem_append.mp member with old | new
    · exact resumable.typed row old
    · exact works.typed row (inside.subset new)
  · refine (List.pairwise_map.mp once).imp fun different same => absurd same different
  · intro row old other new same
    obtain ⟨key, listed, named⟩ :=
      List.mem_map.mp (keys.subset (List.mem_map_of_mem new))
    refine Bool.eq_false_iff.mpr fun success => ?_
    exact fresh row old success key (same.trans named.symm) listed

end

/-! ## Any number of runs -/

section

variable {platform : Platform} {plan : UploadPlan} {rows after : List ImportEvent}
  {later : List (List (Event Answer))}

theorem Runs.grows (runs : Runs platform plan rows later after) : rows <+: after := by
  induction runs with
  | refl => exact List.prefix_refl _
  | run execution _ induction =>
      obtain ⟨stored, rfl, _⟩ := journal_grows execution
      exact (List.prefix_append _ _).trans induction

theorem Runs.resumable (runs : Runs platform plan rows later after)
    (distinct : AlbumsDistinct platform plan) (resumable : Resumable rows) :
    Resumable after := by
  induction runs with
  | refl => exact resumable
  | run execution _ induction =>
      obtain ⟨scope, works⟩ := worksOn_of_execution execution
      obtain ⟨stored, rfl, inside⟩ := journal_grows execution
      exact induction (resumable.step distinct works inside).1

/-- No later run requests an effect which has succeeded. -/
theorem Runs.unrequested (runs : Runs platform plan rows later after)
    (distinct : AlbumsDistinct platform plan) (resumable : Resumable rows)
    {row : ImportEvent} (member : row ∈ rows) (success : row.outcome.isSuccess = true)
    {key : EffectKey} (named : row.effectKey = key.render) :
    ∀ events ∈ later, key ∉ requestedKeys platform events := by
  induction runs with
  | refl => simp
  | run execution _ induction =>
      obtain ⟨scope, works⟩ := worksOn_of_execution execution
      obtain ⟨stored, rfl, inside⟩ := journal_grows execution
      obtain ⟨next, fresh⟩ := resumable.step distinct works inside
      refine List.forall_mem_cons.mpr ⟨fun requested => ?_, ?_⟩
      · exact fresh row member success key named (works.requests key requested)
      · exact induction next (List.mem_append_left _ member)

end

/-- The row which a journal stores for an effect with a success stays the last one. -/
theorem Resumable.stable {start rows : List ImportEvent} (resumable : Resumable rows)
    (grown : start <+: rows) {state final : ImportState} (read : importState start = .ok state)
    (reread : importState rows = .ok final) {key : String} {effect : StoredEffect}
    (latest : state.latest[key]? = some effect) (success : effect.outcome.isSuccess = true) :
    final.latest[key]? = some effect := by
  rw [(importState_ok read key).1, ImmichRs.lastEffect, Option.map_eq_some_iff] at latest
  obtain ⟨row, found, rfl⟩ := latest
  obtain ⟨member, same⟩ := List.mem_filter.mp (List.mem_of_getLast? found)
  obtain rfl : row.effectKey = key := eq_of_beq same
  rw [(importState_ok reread row.effectKey).1]
  exact resumable.lastEffect (grown.subset member) success

/-- Identifiers which the state of a journal reports do not change. -/
theorem Resumable.identifiers {start rows : List ImportEvent} (resumable : Resumable rows)
    (grown : start <+: rows) {state final : ImportState} (read : importState start = .ok state)
    (reread : importState rows = .ok final) :
    (∀ operationId assetId, state.assetId operationId = some assetId →
        final.assetId operationId = some assetId) ∧
      ∀ identity album, state.album identity = some album → final.album identity = some album := by
  constructor
  · intro operationId assetId known
    rw [ImportState.assetId, ImportState.remoteId] at known ⊢
    cases latest : state.latest[assetKey operationId]? with
    | none =>
        rw [latest] at known
        cases known
    | some effect =>
        simp only [latest] at known
        split at known
        · next listed =>
            have success : effect.outcome.isSuccess = true := by
              rcases List.mem_pair.mp (List.contains_iff_mem.mp listed) with kind | kind <;>
                rw [kind] <;> rfl
            rw [resumable.stable grown read reread latest success]
            simp only [if_pos listed]
            exact known
        · cases known
  · intro identity album known
    rw [ImportState.album] at known ⊢
    cases latest : state.latest[albumKey identity]? with
    | none =>
        rw [latest] at known
        cases known
    | some effect =>
        simp only [latest] at known
        split at known
        · next listed =>
            have success : effect.outcome.isSuccess = true := by
              rcases listed with kind | kind <;> rw [kind] <;> rfl
            rw [resumable.stable grown read reread latest success]
            simp only [if_pos listed]
            exact known
        · cases known

/-- No key has two successes. -/
theorem Resumable.once {rows : List ImportEvent} (resumable : Resumable rows) (key : String) :
    (rows.filter fun row => row.effectKey == key && row.outcome.isSuccess).length ≤ 1 := by
  have apart : (rows.filter fun row => row.effectKey == key && row.outcome.isSuccess).Pairwise
      fun _ _ => False := by
    refine (resumable.last.filter _).imp_of_mem fun firstMember secondMember rule => ?_
    obtain ⟨_, first⟩ := List.mem_filter.mp firstMember
    obtain ⟨_, second⟩ := List.mem_filter.mp secondMember
    rw [Bool.and_eq_true, beq_iff_eq] at first second
    rw [rule (first.1.trans second.1.symm)] at first
    cases first.2
  match kept : rows.filter fun row => row.effectKey == key && row.outcome.isSuccess with
  | [] =>
      rw [kept]
      simp
  | [_] =>
      rw [kept]
      simp
  | first :: second :: rest =>
      rw [kept, List.pairwise_cons] at apart
      exact (apart.1 second List.mem_cons_self).elim

/-- Over any number of runs of one plan, each cut off at any point: an effect succeeds at most
once, its success is its last row, no later run sends a request for it, and the identifiers which
the journal reports never change. -/
theorem runs_resume {platform : Platform} {plan : UploadPlan}
    (distinct : AlbumsDistinct platform plan) {earlier later : List (List (Event Answer))}
    {rows after : List ImportEvent} (first : Runs platform plan [] earlier rows)
    (second : Runs platform plan rows later after) :
    (∀ key, (after.filter fun row => row.effectKey == key && row.outcome.isSuccess).length ≤ 1) ∧
      (∀ front row back, after = front ++ row :: back → row.outcome.isSuccess = true →
        ∀ other ∈ back, other.effectKey ≠ row.effectKey) ∧
      (∀ row ∈ rows, row.outcome.isSuccess = true → ∃ key : EffectKey,
        row.effectKey = key.render ∧ ∀ events ∈ later, key ∉ requestedKeys platform events) ∧
      ∀ start middle, start <+: middle → middle <+: after → ∀ state final,
        importState start = .ok state → importState middle = .ok final →
          (∀ operationId assetId, state.assetId operationId = some assetId →
            final.assetId operationId = some assetId) ∧
          ∀ identity album, state.album identity = some album →
            final.album identity = some album := by
  have started := first.resumable distinct resumable_nil
  have resumable := second.resumable distinct started
  refine ⟨resumable.once, ?_, fun row member success => ?_, ?_⟩
  · rintro front row back rfl success other member same
    obtain ⟨_, tail, _⟩ := List.pairwise_append.mp resumable.last
    have failed := (List.pairwise_cons.mp tail).1 other member same.symm
    rw [success] at failed
    cases failed
  · obtain ⟨key, rowOf⟩ := started.typed row member
    exact ⟨key, rowOf.key_eq, second.unrequested distinct started member success rowOf.key_eq⟩
  · intro start middle grown inside state final read reread
    have shorter : Resumable middle :=
      ⟨fun row member => resumable.typed row (inside.subset member),
        resumable.last.sublist inside.sublist⟩
    exact shorter.identifiers grown read reread

/-! ## A run which succeeds -/

/-- The default import of an export of Google Takeout. -/
def takeoutConfig : ImportConfig := .takeout .default .default

/-- The identity of the default import. -/
def takeoutIdentity : String :=
  match takeoutConfig.identity .reference with
  | .ok identity => identity
  | .error _ => ""

theorem takeoutIdentity_eq : takeoutConfig.identity .reference = .ok takeoutIdentity := rfl

/-- The upload of one image which belongs to an album. -/
def tripOperation : UploadOperation :=
  namedOperation 'a' "a.jpg" .image .standalone (some { NormalizedMetadata.empty with
    albums := ["Trip"] })

/-- SHA-1 of the image. -/
def tripSha1 (_ : String) : String := "Vs7rkFwtMHDNnya01gzn7x6G4m0="

/-- An export with one image in one album. -/
def tripPlan : UploadPlan :=
  namedPlan .googleTakeout [tripOperation] tripSha1 takeoutIdentity

/-- The scan of the export. -/
def tripResolved : ResolvedFolderPlan := namedResolved .googleTakeout [tripOperation] tripSha1

/-- The client of the server which the plan was made for. -/
def tripClient : ClientBinding := { compatibility := tripPlan.server, isProduction := false }

theorem tripPlan_sample :
    (samplePlan .googleTakeout [tripOperation]).validate .reference = .ok () := by
  refine samplePlan_validate _ _ _ ?_ (by decide) (by decide) ?_ ?_
  · simp only [List.forall_mem_cons, List.not_mem_nil, false_imp_iff, implies_true, and_true]
    refine namedOperation_valid _ _ _ _ ?_
    rintro _ ⟨⟩
    decide
  · simp [tripOperation, namedOperation, sampleOperation]
  · simp [tripOperation, namedOperation, sampleOperation]

theorem tripPlan_validate : tripPlan.validate .reference = .ok () :=
  namedPlan_validate tripSha1 tripPlan_sample (isSha256_compactSha256 _)

theorem tripPlan_created :
    createImportUploadPlan .reference tripResolved tripPlan.server takeoutConfig = .ok tripPlan := by
  refine createImportUploadPlan_named tripSha1 rfl (by decide) takeoutIdentity_eq
    (namedResolved_validate tripSha1 (by decide) tripPlan_sample) tripPlan_validate ?_
  simp only [List.forall_mem_cons, List.not_mem_nil, false_imp_iff, implies_true, and_true]
  exact ⟨rfl, rfl, rfl, rfl, rfl⟩

/-- The identifier which the server gives to the image. -/
def tripAssetId : String := "6f1c2a4e-8b3d-4c5f-9a7e-1d2b3c4d5e6f"

/-- The identifier which the server gives to the album. -/
def tripAlbumId : String := "0a9b8c7d-6e5f-4a3b-8c1d-2e3f4a5b6c7d"

/-- The file which the run uploads. -/
def tripSource : VerifiedAsset :=
  { mediaPath := "a.jpg", fileName := "a.jpg", sha1Base64 := tripSha1 "a.jpg", xmp := none }

/-- The events of the start of the run. -/
def tripOpening : List (Event Answer) :=
  [⟨.scanResolved tripPlan.source.label, .ok tripResolved⟩, ⟨.openJournal none, .ok ()⟩,
    ⟨.readEffects, .ok []⟩, ⟨.openStaging, .ok ()⟩]

theorem tripPlan_context :
    validateContext .reference tripPlan takeoutConfig tripClient false = .ok () := by
  have valid : takeoutConfig.validateImport = .ok () := by decide
  have accepted : requireValidPlan .reference tripPlan = .ok () := by
    rw [requireValidPlan, tripPlan_validate]
  simp only [validateContext, bind_eq_ok]
  refine ⟨(), valid, (), accepted, takeoutIdentity, takeoutIdentity_eq, ?_⟩
  rw [reject_eq_ok, Bool.not_eq_false']
  simp only [Bool.and_eq_true, beq_iff_eq]
  exact ⟨⟨⟨⟨rfl, rfl⟩, rfl⟩, rfl⟩, rfl⟩

theorem tripPlan_starts :
    Returns (importStart .reference tripPlan takeoutConfig tripClient none) tripOpening ⟨∅⟩ := by
  have scanned : Returns (rescan .reference tripPlan takeoutConfig)
      [⟨.scanResolved tripPlan.source.label, .ok tripResolved⟩] tripResolved := by
    refine (returns_ask (.scanResolved _) (.ok tripResolved) _ rfl).bind ?_
    refine (returns_ofExcept tripPlan_created).bind ?_
    exact (returns_ofExcept ((reject_eq_ok _ _).mpr (bne_self_eq_false _))).bind (returns_pure _)
  have accepted : requireValidPlan .reference tripPlan = .ok () := by
    rw [requireValidPlan, tripPlan_validate]
  have opened : Returns (openImportJournal .reference tripPlan none)
      [⟨.openJournal none, .ok ()⟩] () := by
    refine (returns_ofExcept rfl).bind ?_
    refine (returns_ofExcept accepted).bind ?_
    exact (returns_ofExcept rfl).bind (returns_ask (.openJournal none) (.ok ()) _ rfl)
  have allowed : ImportState.validateForPlan .reference tripPlan ⟨∅⟩ = .ok () := by
    simp [ImportState.validateForPlan]
  refine (returns_ofExcept tripPlan_context).bind ?_
  refine scanned.bind ?_
  refine opened.bind ?_
  refine (returns_ask .readEffects (.ok []) _ rfl).bind ?_
  refine (returns_ofExcept rfl).bind ?_
  refine (returns_ofExcept allowed).bind ?_
  exact (returns_ask .openStaging (.ok ()) _ rfl).bind (returns_pure _)

/-- The identity of the album. -/
def tripIdentity : String := albumIdentity .reference "Trip"

theorem isLowerSha256_tripIdentity : isLowerSha256 tripIdentity = true :=
  isLowerSha256_sha256Hex _

/-- The rows of the run. -/
def tripRows : List ImportEvent :=
  [⟨assetKey tripOperation.operationId, .duplicate, some tripAssetId, 0⟩,
    ⟨albumKey tripIdentity, .created, some tripAlbumId, 0⟩,
    ⟨membershipKey tripIdentity, .completed, none, 0⟩]

/-- The events of the effects: the server knows the image, and has no album. -/
def tripEffects : List (Event Answer) :=
  [⟨.isCancelled, false⟩, ⟨.prepare tripOperation, .ok tripSource⟩,
    ⟨.duplicateCheck tripOperation.operationId tripSource.sha1Base64, .ok (.duplicate tripAssetId)⟩,
    ⟨.appendEffect ⟨assetKey tripOperation.operationId, .duplicate, some tripAssetId, 0⟩, .ok ()⟩,
    ⟨.isCancelled, false⟩, ⟨.findOwnedAlbums "Trip", .ok []⟩,
    ⟨.createAlbum "Trip", .ok ⟨tripAlbumId, "Trip"⟩⟩,
    ⟨.appendEffect ⟨albumKey tripIdentity, .created, some tripAlbumId, 0⟩, .ok ()⟩,
    ⟨.addAlbumAssets tripIdentity tripAlbumId [tripAssetId], .ok ()⟩,
    ⟨.appendEffect ⟨membershipKey tripIdentity, .completed, none, 0⟩, .ok ()⟩]

/-- The report of the run. -/
def tripReport : ImportApplyReport :=
  { applyReport tripPlan with duplicate := 1, albumsCreated := 1, albumMembershipsUpdated := 1 }

theorem returns_append (key : EffectKey) (lower : isLowerSha256 key.digest = true)
    {outcome : ImportOutcome} {remoteId : Option String} (retries : Nat)
    (identified : outcome.expectsId = remoteId.any fun id => !id.isEmpty && byteLen id ≤ 4096) :
    Returns (append key.render outcome remoteId retries)
      [⟨.appendEffect ⟨key.render, outcome, remoteId, retries⟩, .ok ()⟩] () := by
  refine (returns_ofExcept (validateEffect_render lower identified)).bind ?_
  exact returns_ask (.appendEffect _) (.ok ()) _ rfl

theorem running :
    Execution arbitrary isCancelled () [⟨.isCancelled, false⟩] (.done false) () :=
  .head (show arbitrary () _ () from trivial) (.refl _ _)

theorem tripPlan_operations :
    Returns (applyOperationsLoop .reference .default ⟨∅⟩ [tripOperation] (applyReport tripPlan) ∅)
      (tripEffects.take 4)
      ({ applyReport tripPlan with duplicate := 1 },
        (∅ : ExtTreeMap String String).insert tripOperation.operationId tripAssetId) := by
  have lower : isLowerSha256 tripOperation.operationId = true := by decide
  have known : Execution arbitrary
      (applyOperation .reference .default tripOperation tripSource none) ()
      [⟨.duplicateCheck tripOperation.operationId tripSource.sha1Base64, .ok (.duplicate tripAssetId)⟩]
      (.done (.completed (successful tripOperation .duplicate tripAssetId 0))) () :=
    .head trivial (.refl _ _)
  have asset : Returns
      (assetReference .reference .default ⟨∅⟩ ∅ tripOperation (applyReport tripPlan))
      ((tripEffects.take 4).tail) (some tripAssetId, { applyReport tripPlan with duplicate := 1 }) := by
    refine (returns_ask (.prepare tripOperation) (.ok tripSource) _ rfl).bind ?_
    refine returns_lift known ?_
    exact (returns_append (.asset tripOperation.operationId) lower 0 (by decide)).bind
      (returns_pure _)
  refine returns_lift running ?_
  refine asset.bind ?_
  exact (returns_pure _).bind (returns_pure _)

theorem tripPlan_albums (members : ExtTreeSet String) (single : members.toList = [tripAssetId]) :
    Returns (applyAlbumsLoop .reference .default ⟨∅⟩ [("Trip", members)]
        { applyReport tripPlan with duplicate := 1 })
      (tripEffects.drop 4) tripReport := by
  have converged : Execution arbitrary (convergeAlbum .reference .default "Trip") ()
      [⟨.findOwnedAlbums "Trip", .ok []⟩, ⟨.createAlbum "Trip", .ok ⟨tripAlbumId, "Trip"⟩⟩]
      (.done (.done tripAlbumId .created 0)) () :=
    .head (show arbitrary () _ () from trivial)
      (.head (show arbitrary () _ () from trivial) (.refl _ _))
  have album : Returns (albumReference .reference .default ⟨∅⟩ "Trip"
        { applyReport tripPlan with duplicate := 1 })
      ((tripEffects.drop 5).take 3)
      (some tripAlbumId, { applyReport tripPlan with duplicate := 1, albumsCreated := 1 }) := by
    refine returns_lift converged ?_
    exact (returns_append (.album tripIdentity) isLowerSha256_tripIdentity 0 (by decide)).bind
      (returns_pure _)
  have membership : Returns (applyMembership .reference .default tripIdentity tripAlbumId [tripAssetId]
        { applyReport tripPlan with duplicate := 1, albumsCreated := 1 })
      (tripEffects.drop 8) (true, tripReport) := by
    have stored : Returns (do
          append (membershipKey tripIdentity) .completed none 0
          return (true, tripReport))
        (tripEffects.drop 9) (true, tripReport) :=
      (returns_append (.membership tripIdentity) isLowerSha256_tripIdentity 0 (by decide)).bind
        (returns_pure _)
    have sent : Execution arbitrary (addAlbumAssets tripIdentity tripAlbumId [tripAssetId]) ()
        [⟨.addAlbumAssets tripIdentity tripAlbumId [tripAssetId], .ok ()⟩] (.done (.ok ())) () :=
      .head (show arbitrary () _ () from trivial) (.refl _ _)
    have attempted : Execution arbitrary (effectAttempt .reference .default
          (membershipKey tripIdentity) (addAlbumAssets tripIdentity tripAlbumId [tripAssetId])
          (fun report =>
            { report with albumMembershipsUpdated := report.albumMembershipsUpdated + 1 })
          { applyReport tripPlan with duplicate := 1, albumsCreated := 1 } 0) ()
        (tripEffects.drop 8) (.done (.inr (.ok (true, tripReport)))) () :=
      sent.bind (stored.execution.bind (.refl _ _))
    exact ⟨attempted.bind (.refl _ _)⟩
  refine returns_lift running ?_
  refine album.bind ?_
  rw [← single] at membership
  exact membership.bind (returns_pure _)

theorem tripPlan_members :
    ∃ members, (albumMembers tripPlan
        ((∅ : ExtTreeMap String String).insert tripOperation.operationId tripAssetId)).toList =
      [("Trip", members)] ∧ members.toList = [tripAssetId] :=
  ⟨(∅ : ExtTreeSet String).insert tripAssetId, by decide, by decide⟩

/-- The run works on the image, the album and its membership. -/
theorem tripPlan_returns :
    Returns (applyImportInner .reference tripPlan takeoutConfig tripClient none)
      (tripOpening ++ tripEffects) tripReport := by
  obtain ⟨members, listed, single⟩ := tripPlan_members
  have albums : Returns (applyAlbums .reference .default tripPlan
        ((∅ : ExtTreeMap String String).insert tripOperation.operationId tripAssetId) ⟨∅⟩
        { applyReport tripPlan with duplicate := 1 }) (tripEffects.drop 4) tripReport := by
    rw [applyAlbums, listed]
    exact tripPlan_albums members single
  refine tripPlan_starts.bind ?_
  refine (returns_ofExcept (show orderedOperations tripPlan = .ok [tripOperation] from rfl)).bind ?_
  exact tripPlan_operations.bind albums

/-- The journal over the run. -/
theorem tripPlan_journal :
    Execution.Path journalEnvironment [] (tripOpening ++ tripEffects) tripRows := by
  repeat first
    | exact .nil _
    | refine .cons (show journalEnvironment _ _ _ from rfl) ?_
    | refine .cons (show journalEnvironment _ _ _ from ⟨rfl, rfl⟩) ?_

/-- A whole run of the plan, and a second one which is cut off after its first request. -/
theorem tripPlan_runs :
    Runs .reference tripPlan [] [tripOpening ++ tripEffects] tripRows ∧
      Runs .reference tripPlan tripRows [tripOpening.take 1] tripRows := by
  have first := tripPlan_returns.execution.retrace tripPlan_journal
  obtain ⟨residual, _, cut⟩ := tripPlan_returns.execution.cut (tripOpening.take 1)
    (tripOpening.drop 1 ++ tripEffects)
  have second := cut.retrace (.cons (show journalEnvironment tripRows _ tripRows from rfl) (.nil _))
  exact ⟨.run first (.refl _), .run second (.refl _)⟩

theorem tripPlan_albums_distinct : AlbumsDistinct .reference tripPlan := by
  intro first firstMember second secondMember _
  have single : (albumNames tripPlan.operations).toList = ["Trip"] := by decide
  rw [single, List.mem_singleton] at firstMember secondMember
  rw [firstMember, secondMember]

/-- The image, the album and the membership succeed once. -/
theorem tripPlan_resumes :
    (∀ key, (tripRows.filter fun row =>
        row.effectKey == key && row.outcome.isSuccess).length ≤ 1) ∧
      ∃ key : EffectKey, assetKey tripOperation.operationId = key.render ∧
        key ∉ requestedKeys .reference (tripOpening.take 1) := by
  obtain ⟨first, second⟩ := tripPlan_runs
  obtain ⟨once, _, unrequested, _⟩ := runs_resume tripPlan_albums_distinct first second
  obtain ⟨key, named, absent⟩ := unrequested _ List.mem_cons_self rfl
  exact ⟨once, key, named, absent _ List.mem_cons_self⟩

end ImmichRs
