import ImmichRs.Executor.ImportRun

/-!
# What a whole import run does

The loop over the albums, and the whole run: its effects in their order, the asset ids which are
durable before the first album request, and its report.
-/

namespace ImmichRs

open Interaction
open Std (ExtTreeMap ExtTreeSet)

/-! ## The loop over the albums -/

/-- The effects of one album. -/
def albumKeys (platform : Platform) (name : String) : List EffectKey :=
  [.album (albumIdentity platform name), .membership (albumIdentity platform name)]

section

variable {platform : Platform} {members : String → List String → Prop}
  {config : UploadExecutionConfig}

theorem counts_albumsCreated :
    Counts fun report => { report with albumsCreated := report.albumsCreated + 1 } where
  total report := by simp only [ImportApplyReport.total]; omega
  unsettled _ := rfl
  retried _ := rfl
  cancelled _ := rfl

theorem counts_albumsReused :
    Counts fun report => { report with albumsReused := report.albumsReused + 1 } where
  total report := by simp only [ImportApplyReport.total]; omega
  unsettled _ := rfl
  retried _ := rfl
  cancelled _ := rfl

/-- What the album of one name leaves behind. -/
structure AlbumReferred (report : ImportApplyReport) (events : List (Event Answer))
    (found : Option String × ImportApplyReport) : Prop where
  tally : Tally report found.2 1 (events.countP granted)
  missing : found.1 = none → found.2.cancelled = true ∨ report.unsettled < found.2.unsettled

/-- Recording the album ends its segment. -/
theorem recordAlbum_rule {name : String} {effect : EffectResult String}
    {past : List (Event Answer)} (report : ImportApplyReport)
    (spent : ConvergeSpent platform members config name past effect) :
    (recordAlbum (albumIdentity platform name) effect report).run.Traces fun events outcome =>
      Scoped platform members config.maxAttemptsPerOperation [albumEffect platform name]
          (past ++ events) ∧
        ∀ found, outcome = .ok found → AlbumReferred report (past ++ events) found := by
  obtain ⟨below, segment, kinds⟩ := spent
  have claims : ∀ events, effect.retries ≤ (past ++ events).countP granted := by
    intro events
    rw [granted_append]
    exact segment.grants.trans (Nat.le_add_right _ _)
  cases effect with
  | done album outcome retries =>
      have allowed : outcome ∈ (albumEffect platform name).outcomes := by
        rcases kinds album outcome retries rfl with rfl | rfl <;> simp [EffectKey.outcomes]
      have row := append_return segment (some album) retries allowed (by simp)
        (some album, (report.countAlbum outcome).addRetries retries)
      refine row.mono fun events stored reached => ⟨reached.1.toScoped below, fun found same => ?_⟩
      rw [(reached.2 found same).1]
      refine ⟨Tally.mono ?_ (claims events), by simp⟩
      rcases kinds album outcome retries rfl with rfl | rfl
      · exact counts_albumsCreated.tally report retries
      · exact counts_albumsReused.tally report retries
  | failed indeterminate retries =>
      obtain ⟨tally, more⟩ := tally_fail report indeterminate retries
      rw [recordAlbum, Program.traces_exceptT_bind]
      refine (recordEffectFailure_rule segment indeterminate retries report).mono
        fun events stored reached => ?_
      cases stored with
      | error error => exact ⟨reached.1.toScoped below, by simp⟩
      | ok after =>
          refine ⟨by simpa using reached.1.toScoped below, ?_⟩
          rintro found ⟨⟩
          rw [reached.2 after rfl]
          exact ⟨tally.mono (claims _), fun _ => .inr more⟩
  | cancelled indeterminate retries =>
      obtain ⟨tally, more⟩ := tally_fail report indeterminate retries
      rw [recordAlbum.eq_def]
      refine (Program.traces_exceptT_bind _ _ _).mpr ?_
      refine (recordEffectFailure_rule segment indeterminate retries report).mono
        fun events stored reached => ?_
      cases stored with
      | error error => exact ⟨reached.1.toScoped below, by simp⟩
      | ok after =>
          refine ⟨by simpa using reached.1.toScoped below, ?_⟩
          rintro found ⟨⟩
          rw [reached.2 after rfl]
          exact ⟨(tally.trans (tally_cancel _)).mono (claims _), fun _ => .inl rfl⟩

theorem albumReference_performs (positive : 1 ≤ config.maxAttemptsPerOperation)
    (state : ImportState) (name : String) (report : ImportApplyReport) :
    Performs platform members config.maxAttemptsPerOperation
      ([albumEffect platform name].filter state.isOpen)
      (albumReference platform config state name report) (AlbumReferred report) := by
  rw [albumReference]
  cases known : state.album (albumIdentity platform name) with
  | some album =>
      refine (performs_pure ?_).mono (List.nil_sublist _) fun _ _ => id
      exact ⟨tally_resume report, by simp⟩
  | none =>
      have scope : [albumEffect platform name].filter state.isOpen =
          [albumEffect platform name] := by
        simp [ImportState.isOpen, known]
      rw [scope, Performs]
      refine (Program.traces_lift_bind _ _ _).mpr ?_
      have converged : (convergeAlbum platform config name).Traces
          (ConvergeSpent platform members config name) := convergeAlbum_spent positive
      refine converged.mono fun events effect spent => ?_
      exact recordAlbum_rule report spent

/-- What the membership of one album leaves behind. -/
theorem applyMembership_performs (positive : 1 ≤ config.maxAttemptsPerOperation)
    {identity : String} (albumId : String) {assetIds : List String}
    (listed : members identity assetIds) (report : ImportApplyReport) :
    Performs platform members config.maxAttemptsPerOperation [.membership identity]
      (applyMembership platform config identity albumId assetIds report) fun events next =>
        Tally report next.2 1 (events.countP granted) ∧ (next.1 = false → next.2.cancelled = true) := by
  refine (settleEffect_rule positive (requests_addAlbumAssets platform albumId listed)
    (by simp [EffectKey.outcomes]) counts_albumMembershipsUpdated report).mono
      fun events outcome settled => ?_
  obtain ⟨retries, below, closed, counted⟩ := settled
  refine ⟨closed.toScoped below, fun next returned => ?_⟩
  obtain ⟨tally, stopped⟩ := counted next.1 next.2 returned
  exact ⟨tally.mono closed.grants, stopped⟩

theorem applyAlbumsLoop_performs (positive : 1 ≤ config.maxAttemptsPerOperation)
    (state : ImportState) (albums : List (String × ExtTreeSet String))
    (listed : ∀ album ∈ albums, members (albumIdentity platform album.1) album.2.toList)
    (report : ImportApplyReport) :
    Performs platform members config.maxAttemptsPerOperation
      ((albums.flatMap fun album => albumKeys platform album.1).filter state.isOpen)
      (applyAlbumsLoop platform config state albums report) fun events result =>
        Tally report result (2 * albums.length) (events.countP granted) := by
  induction albums generalizing report with
  | nil => exact performs_pure (tally_refl report)
  | cons album rest induction =>
      obtain ⟨name, set⟩ := album
      obtain ⟨here, later⟩ := List.forall_mem_cons.mp listed
      rw [List.flatMap_cons, albumKeys, ← List.singleton_append, List.append_assoc,
        List.filter_append, List.filter_append, List.length_cons]
      refine performs_request rfl fun stopped => ?_
      cases stopped with
      | true =>
          refine (performs_pure ?_).mono (List.nil_sublist _) fun _ _ => id
          exact ((tally_cancel report).widen (Nat.zero_le _) (.inl rfl)).mono (Nat.zero_le _)
      | false =>
          refine Performs.bind (albumReference_performs positive state name report)
            fun first found referred => ?_
          obtain ⟨album, after⟩ := found
          have tally : Tally report after 1
              ((⟨.isCancelled, false⟩ :: first : List (Event Answer)).countP granted) := by
            refine referred.tally.mono ?_
            rw [List.countP_cons]
            exact Nat.le_add_right _ _
          have effects : 2 * (rest.length + 1) = 1 + 1 + 2 * rest.length := by omega
          have goOn : ∀ (past : List (Event Answer)) (before : ImportApplyReport),
              Tally report before (1 + 1) (past.countP granted) →
                Performs platform members config.maxAttemptsPerOperation
                  ((rest.flatMap fun album => albumKeys platform album.1).filter state.isOpen)
                  (applyAlbumsLoop platform config state rest before) fun events result =>
                    Tally report result (2 * (rest.length + 1))
                      ((past ++ events).countP granted) := by
            intro past before counted
            refine (induction later before).mono (List.Sublist.refl _) fun events result tail => ?_
            rw [effects, granted_append]
            exact counted.trans tail
          cases album with
          | none =>
              simp only
              by_cases ended : after.cancelled = true
              · rw [if_pos ended]
                refine (performs_pure ?_).mono (List.nil_sublist _) fun _ _ => id
                rw [List.append_nil]
                exact tally.widen (by omega) (.inl ended)
              · rw [if_neg ended]
                have widened := tally.widen (Nat.le_add_right 1 1) (referred.missing rfl)
                exact (goOn _ after widened).mono (List.sublist_append_right _ _) fun _ _ => id
          | some albumId =>
              simp only
              cases done : state.membershipDone (albumIdentity platform name) with
              | true =>
                  rw [if_pos rfl]
                  have resumed := tally.trans (tally_resume after)
                  exact (goOn _ after.resume resumed).mono (List.sublist_append_right _ _)
                    fun _ _ => id
              | false =>
                  have scope : [EffectKey.membership (albumIdentity platform name)].filter
                      state.isOpen = [.membership (albumIdentity platform name)] := by
                    simp [ImportState.isOpen, done]
                  rw [scope, if_neg Bool.false_ne_true]
                  refine Performs.bind (applyMembership_performs positive albumId here after)
                    fun second next counted => ?_
                  obtain ⟨proceed, final⟩ := next
                  have both := tally.trans counted.1
                  rw [← granted_append, List.cons_append] at both
                  cases proceed with
                  | true =>
                      refine (goOn _ final both).mono (List.Sublist.refl _) fun third result whole => ?_
                      simpa using whole
                  | false =>
                      refine (performs_pure ?_).mono (List.nil_sublist _) fun _ _ => id
                      rw [List.append_nil]
                      exact both.widen (by omega) (.inl (counted.2 rfl))

end

/-! ## The members of the albums -/

/-- Adding one asset to several albums. -/
theorem foldl_addMember (assetId : String) (names : List String)
    (albums : ExtTreeMap String (ExtTreeSet String)) (name : String) :
    (∀ id, id ∈ (names.foldl (addMember assetId) albums)[name]?.getD ∅ ↔
        id ∈ albums[name]?.getD ∅ ∨ name ∈ names ∧ id = assetId) ∧
      ((names.foldl (addMember assetId) albums).contains name = true ↔
        albums.contains name = true ∨ name ∈ names) := by
  induction names generalizing albums with
  | nil => simp
  | cons album names induction =>
      obtain ⟨members, known⟩ := induction (addMember assetId albums album)
      rw [List.foldl_cons]
      constructor
      · intro id
        rw [members, addMember, ExtTreeMap.getElem?_insert]
        by_cases same : album = name
        · subst same
          simp
          grind
        · simp [same, Ne.symm same]
      · rw [known, addMember, ExtTreeMap.contains_insert]
        simp
        grind

/-- The members of an album are the assets of the operations which list it. -/
theorem albumMembers_spec (plan : UploadPlan) (assetIds : ExtTreeMap String String)
    (name : String) :
    (∀ id, id ∈ (albumMembers plan assetIds)[name]?.getD ∅ ↔
        ∃ operation ∈ plan.operations, name ∈ operation.albums ∧
          assetIds[operation.operationId]? = some id) ∧
      ((albumMembers plan assetIds).contains name = true ↔
        ∃ operation ∈ plan.operations, name ∈ operation.albums ∧
          assetIds.contains operation.operationId = true) := by
  rw [albumMembers]
  induction plan.operations using List.reverseRecOn with
  | nil => simp
  | append_singleton operations operation induction =>
      obtain ⟨members, known⟩ := induction
      rw [List.foldl_append, List.foldl_cons, List.foldl_nil]
      cases found : assetIds[operation.operationId]? with
      | none =>
          have absent : assetIds.contains operation.operationId = false := by
            rw [ExtTreeMap.contains_eq_isSome_getElem?, found]
            rfl
          simp only [members, known, List.mem_append, List.mem_singleton, or_and_right, exists_or,
            exists_eq_left, found, absent, reduceCtorEq, Bool.false_eq_true, and_false, or_false,
            implies_true, and_self]
      | some assetId =>
          have present : assetIds.contains operation.operationId = true := by
            rw [ExtTreeMap.contains_eq_isSome_getElem?, found]
            rfl
          have last : ∀ id, assetIds[operation.operationId]? = some id ↔ id = assetId := by
            intro id
            rw [found, Option.some.injEq, eq_comm]
          refine ⟨fun id => ?_, ?_⟩
          · rw [(foldl_addMember assetId operation.albums _ name).1 id, members]
            simp only [List.mem_append, List.mem_singleton, or_and_right, exists_or,
              exists_eq_left, last]
          · rw [(foldl_addMember assetId operation.albums _ name).2, known]
            simp only [List.mem_append, List.mem_singleton, or_and_right, exists_or,
              exists_eq_left, present, and_true]

/-- Every album with members is an album of the plan. -/
theorem keys_albumMembers_subset (plan : UploadPlan) (assetIds : ExtTreeMap String String) :
    (albumMembers plan assetIds).keys.Subperm (albumNames plan.operations).toList := by
  refine ExtTreeMap.nodup_keys.subperm fun name member => ?_
  rw [ExtTreeMap.mem_keys, ← ExtTreeMap.contains_iff_mem,
    (albumMembers_spec plan assetIds name).2] at member
  obtain ⟨operation, listed, lists, _⟩ := member
  exact mem_albumNames.mpr ⟨operation, listed, lists⟩

/-- With an asset for every operation, every album of the plan has members. -/
theorem keys_albumMembers_perm (plan : UploadPlan) (assetIds : ExtTreeMap String String)
    (covered : ∀ operation ∈ plan.operations, assetIds.contains operation.operationId = true) :
    (albumMembers plan assetIds).keys.Perm (albumNames plan.operations).toList := by
  refine (List.perm_ext_iff_of_nodup ExtTreeMap.nodup_keys (nodup_albumNames _)).mpr fun name => ?_
  rw [ExtTreeMap.mem_keys, ← ExtTreeMap.contains_iff_mem,
    (albumMembers_spec plan assetIds name).2, mem_albumNames]
  constructor
  · rintro ⟨operation, listed, lists, _⟩
    exact ⟨operation, listed, lists⟩
  · rintro ⟨operation, listed, lists⟩
    exact ⟨operation, listed, lists, covered operation listed⟩

/-! ## Resumed assets -/

theorem initialAssetIds_getElem? (plan : UploadPlan) (state : ImportState)
    (operationId : String) :
    (initialAssetIds plan state)[operationId]? =
      if operationId ∈ plan.operations.map UploadOperation.operationId then
        state.assetId operationId
      else none := by
  rw [initialAssetIds]
  induction plan.operations using List.reverseRecOn with
  | nil => simp
  | append_singleton operations operation induction =>
      rw [List.foldl_append, List.foldl_cons, List.foldl_nil, List.map_append, List.map_singleton]
      by_cases same : operation.operationId = operationId
      · subst same
        cases known : state.assetId operation.operationId with
        | none =>
            rw [induction, known]
            simp
        | some assetId => simp
      · have different : operationId ≠ operation.operationId := Ne.symm same
        cases known : state.assetId operation.operationId with
        | none =>
            rw [induction]
            simp [different]
        | some assetId =>
            rw [ExtTreeMap.getElem?_insert, induction]
            simp [same, different]

theorem operationEffects_eq (operations : List UploadOperation) :
    operationEffects operations =
      operations.length + operations.countP UploadOperation.assignsMetadata := by
  induction operations with
  | nil => rfl
  | cons operation rest induction =>
      rw [operationEffects_cons, induction, List.length_cons, List.countP_cons]
      cases operation.assignsMetadata <;> simp <;> omega

theorem operationEffects_subperm {first second : List UploadOperation}
    (subperm : first.Subperm second) : operationEffects first ≤ operationEffects second := by
  rw [operationEffects_eq, operationEffects_eq]
  exact Nat.add_le_add subperm.length_le (subperm.countP_le _)

/-- The mutations of an import plan: its operations, its metadata updates, and a create and a
membership update for each album. -/
theorem UploadPlan.Accepted.maxMutations {platform : Platform} {plan : UploadPlan}
    (accepted : plan.Accepted platform) (schema : plan.schemaVersion = uploadPlanSchemaVersionV2) :
    plan.summary.maxMutations =
      operationEffects plan.operations + 2 * (albumNames plan.operations).toList.length := by
  rw [← accepted.summary, schema, operationEffects_eq, ExtTreeSet.length_toList]
  simp only [expectedSummary, beq_self_eq_true, if_true]
  omega

/-! ## The whole run -/

/-- The schedule of an accepted plan holds operations of the plan, each at most once. -/
theorem orderedOperations_subperm {platform : Platform} {plan : UploadPlan}
    {operations : List UploadOperation} (accepted : plan.Accepted platform)
    (ordered : orderedOperations plan = .ok operations) :
    operations.Subperm plan.operations := by
  obtain ⟨named, rfl⟩ := (orderedOperations_ok_iff plan operations).mp ordered
  have sorted : ((sortGroups (plan.operations.filterMap (groupOf plan))).flatten).Perm
      (plan.operations.filterMap (groupOf plan)).flatten := (perm_sortGroups _).flatten
  refine sorted.subperm.trans ((nodup_flatten_groups accepted).subperm fun operation member => ?_)
  rcases (mem_flatten_groups_iff named operation).mp member with ⟨listed, _⟩ | ⟨_, _, _, found⟩
  · exact listed
  · exact (imageOf_some found).1

/-- The schedule is complete when no two images name one video. -/
theorem orderedOperations_perm {platform : Platform} {plan : UploadPlan}
    {operations : List UploadOperation} (accepted : plan.Accepted platform)
    (separate : ImagesSeparate plan) (ordered : orderedOperations plan = .ok operations) :
    operations.Perm plan.operations := by
  obtain ⟨named, rfl⟩ := (orderedOperations_ok_iff plan operations).mp ordered
  exact (completeGroups_iff accepted named (perm_sortGroups _)).1.mpr separate

/-- Every operation of the plan has an asset id, which the journal held at the start of the run or
has stored since. -/
def Durable (plan : UploadPlan) (state : ImportState) (events : List (Event Answer))
    (assetIds : ExtTreeMap String String) : Prop :=
  ∀ operation ∈ plan.operations, ∃ assetId, assetIds[operation.operationId]? = some assetId ∧
    (state.assetId operation.operationId = some assetId ∨
      StoredAsset events operation.operationId assetId)

/-- The asset ids of the album with the given identity. -/
def MemberIds (platform : Platform) (plan : UploadPlan) (assetIds : ExtTreeMap String String)
    (identity : String) (ids : List String) : Prop :=
  ∃ name members, (albumMembers plan assetIds)[name]? = some members ∧
    albumIdentity platform name = identity ∧ members.toList = ids

/-- The events of the effects of a run: those of the operations, and then those of the albums,
which start when every operation has a durable asset id. -/
structure EffectEvents (platform : Platform) (attempts : Nat) (plan : UploadPlan)
    (state : ImportState) (first second : List (Event Answer)) : Prop where
  operations : ∃ operations : List UploadOperation, operations.Subperm plan.operations ∧
    Scoped platform (fun _ _ => False) attempts
      ((operations.flatMap operationKeys).filter state.isOpen) first
  albums : second = [] ∨ ∃ assetIds, Durable plan state first assetIds ∧
    Scoped platform (MemberIds platform plan assetIds) attempts
      (((albumMembers plan assetIds).keys.flatMap (albumKeys platform)).filter state.isOpen) second

/-- What the report of a run says about the plan. -/
structure ReportOf (plan : UploadPlan) (events : List (Event Answer))
    (report : ImportApplyReport) : Prop where
  retried : report.retried ≤ events.countP granted
  total_le : report.total ≤ plan.summary.maxMutations
  complete : ImagesSeparate plan → report.cancelled = false → report.unsettled = 0 →
    report.total = plan.summary.maxMutations

section

variable {platform : Platform} {config : UploadExecutionConfig} {plan : UploadPlan}
  {state : ImportState}

/-- The asset ids which the loop over the operations leaves behind. -/
theorem OperationsApplied.durable_initial {operations : List UploadOperation}
    {report : ImportApplyReport} {events : List (Event Answer)}
    {result : ImportApplyReport × ExtTreeMap String String}
    (applied : OperationsApplied state operations report (initialAssetIds plan state) events result)
    {operationId assetId : String} (found : result.2[operationId]? = some assetId) :
    state.assetId operationId = some assetId ∨ StoredAsset events operationId assetId := by
  refine (applied.durable operationId assetId found).imp_left fun initial => ?_
  rw [initialAssetIds_getElem?] at initial
  split at initial
  · exact initial
  · cases initial

theorem OperationsApplied.known_initial {operations : List UploadOperation}
    {report : ImportApplyReport} {events : List (Event Answer)}
    {result : ImportApplyReport × ExtTreeMap String String}
    (subperm : operations.Subperm plan.operations)
    (applied : OperationsApplied state operations report (initialAssetIds plan state) events result)
    {operationId : String} (found : result.2.contains operationId = true) :
    operationId ∈ plan.operations.map UploadOperation.operationId := by
  rcases applied.known operationId found with initial | scheduled
  · rw [ExtTreeMap.contains_eq_isSome_getElem?, initialAssetIds_getElem?] at initial
    split at initial
    · assumption
    · cases initial
  · exact List.map_subset _ subperm.subset scheduled

/-- The gate in front of the albums: as many asset ids as operations means one for each. -/
theorem covered_iff_size (accepted : plan.Accepted platform)
    {assetIds : ExtTreeMap String String}
    (known : ∀ operationId, assetIds.contains operationId = true →
      operationId ∈ plan.operations.map UploadOperation.operationId) :
    assetIds.size = plan.operations.length ↔
      ∀ operation ∈ plan.operations, assetIds.contains operation.operationId = true := by
  rw [size_eq_countP accepted.unique known, ← List.length_map UploadOperation.operationId,
    List.countP_eq_length, List.forall_mem_map]

/-- A run which ends without its albums has counted everything only if it skipped none. -/
theorem reportOf_operations (accepted : plan.Accepted platform)
    (schema : plan.schemaVersion = uploadPlanSchemaVersionV2)
    {operations : List UploadOperation} (ordered : orderedOperations plan = .ok operations)
    {events : List (Event Answer)} {report : ImportApplyReport}
    {assetIds : ExtTreeMap String String}
    (applied : OperationsApplied state operations (applyReport plan) (initialAssetIds plan state)
      events (report, assetIds))
    (closed : ¬(!report.cancelled && assetIds.size == plan.operations.length) = true) :
    ReportOf plan events report := by
  have subperm := orderedOperations_subperm accepted ordered
  have fewer := operationEffects_subperm subperm
  have total := applied.tally.total_le
  have retried := applied.tally.retried
  rw [show (applyReport plan).total = 0 from rfl, Nat.zero_add] at total
  rw [show (applyReport plan).retried = 0 from rfl, Nat.zero_add] at retried
  refine ⟨retried, ?_, fun separate running settled => absurd ?_ closed⟩
  · rw [accepted.maxMutations schema]
    exact total.trans (fewer.trans (Nat.le_add_right _ _))
  · have complete := orderedOperations_perm accepted separate ordered
    have covered := applied.covered running settled
    rw [running, Bool.not_false, Bool.true_and, beq_iff_eq,
      covered_iff_size accepted fun _ => applied.known_initial subperm]
    exact fun operation member => covered operation (complete.mem_iff.mpr member)

/-- A run with its albums. -/
theorem reportOf_albums (accepted : plan.Accepted platform)
    (schema : plan.schemaVersion = uploadPlanSchemaVersionV2)
    {operations : List UploadOperation} (ordered : orderedOperations plan = .ok operations)
    {first second : List (Event Answer)} {report result : ImportApplyReport}
    {assetIds : ExtTreeMap String String}
    (applied : OperationsApplied state operations (applyReport plan) (initialAssetIds plan state)
      first (report, assetIds))
    (covered : ∀ operation ∈ plan.operations, assetIds.contains operation.operationId = true)
    (tally : Tally report result (2 * (albumMembers plan assetIds).keys.length)
      (second.countP granted)) :
    ReportOf plan (first ++ second) result := by
  have whole := applied.tally.trans tally
  rw [← granted_append, (keys_albumMembers_perm plan assetIds covered).length_eq] at whole
  have fewer := operationEffects_subperm (orderedOperations_subperm accepted ordered)
  have total := whole.total_le
  have retried := whole.retried
  rw [show (applyReport plan).total = 0 from rfl, Nat.zero_add] at total
  rw [show (applyReport plan).retried = 0 from rfl, Nat.zero_add] at retried
  refine ⟨retried, ?_, fun separate running settled => ?_⟩
  · rw [accepted.maxMutations schema]
    omega
  · have complete := orderedOperations_perm accepted separate ordered
    have same : operationEffects operations = operationEffects plan.operations :=
      (complete.flatMap_right operationKeys).length_eq
    have counted := whole.complete running settled
    rw [show (applyReport plan).total = 0 from rfl, Nat.zero_add, same] at counted
    rw [counted, accepted.maxMutations schema]

/-- The effects of a run: the operations in their order, and then the albums. -/
theorem applyEffects_traces (positive : 1 ≤ config.maxAttemptsPerOperation)
    (accepted : plan.Accepted platform)
    (schema : plan.schemaVersion = uploadPlanSchemaVersionV2) :
    (applyEffects platform config plan state).run.Traces fun events outcome =>
      ∃ first second, events = first ++ second ∧
        EffectEvents platform config.maxAttemptsPerOperation plan state first second ∧
        ∀ report, outcome = .ok report → ReportOf plan events report := by
  rw [applyEffects, traces_ofExcept_bind]
  cases ordered : orderedOperations plan with
  | error error =>
      refine ⟨[], [], rfl, ⟨⟨[], List.nil_subperm, scoped_nil⟩, .inl rfl⟩, ?_⟩
      rintro _ ⟨⟩
  | ok operations =>
      have subperm := orderedOperations_subperm accepted ordered
      have distinct : (operations.map UploadOperation.operationId).Nodup := by
        obtain ⟨listed, perm, inside⟩ := subperm
        exact (perm.map _).nodup_iff.mp (accepted.unique.sublist (inside.map _))
      have resumed : ∀ operation ∈ operations, ∀ assetId,
          state.assetId operation.operationId = some assetId →
            (initialAssetIds plan state)[operation.operationId]? = some assetId := by
        intro operation member assetId known
        rw [initialAssetIds_getElem?, if_pos, known]
        exact List.mem_map_of_mem (subperm.subset member)
      simp only
      rw [Program.traces_exceptT_bind]
      have loop : Performs platform (fun _ _ => False) _ _ _ _ :=
        applyOperationsLoop_performs positive state operations distinct (applyReport plan)
          (initialAssetIds plan state) resumed
      refine Program.Traces.mono loop fun first outcome reached => ?_
      obtain ⟨part, applied⟩ := reached
      cases outcome with
      | error error =>
          refine ⟨first, [], by simp, ⟨⟨operations, subperm, part⟩, .inl rfl⟩, ?_⟩
          rintro _ ⟨⟩
      | ok result =>
          obtain ⟨report, assetIds⟩ := result
          have applied := applied _ rfl
          simp only
          split
          · next opened =>
              rw [Bool.and_eq_true, beq_iff_eq,
                covered_iff_size accepted fun _ => applied.known_initial subperm] at opened
              obtain ⟨_, covered⟩ := opened
              have listed : ∀ album ∈ (albumMembers plan assetIds).toList,
                  MemberIds platform plan assetIds (albumIdentity platform album.1)
                    album.2.toList := by
                intro album member
                have found := ExtTreeMap.mem_toList_iff_getElem?_eq_some.mp member
                exact ⟨album.1, album.2, found, rfl, rfl⟩
              refine Program.Traces.mono (applyAlbumsLoop_performs positive state _ listed report)
                fun second result reached => ?_
              have names : (albumMembers plan assetIds).toList.map Prod.fst =
                  (albumMembers plan assetIds).keys := ExtTreeMap.map_fst_toList_eq_keys
              obtain ⟨albums, counted⟩ := reached
              refine ⟨first, second, rfl, ⟨⟨operations, subperm, part⟩,
                .inr ⟨assetIds, fun operation member => ?_, ?_⟩⟩, fun final returned => ?_⟩
              · have present := covered operation member
                rw [ExtTreeMap.contains_eq_isSome_getElem?, Option.isSome_iff_exists] at present
                obtain ⟨assetId, found⟩ := present
                exact ⟨assetId, found, applied.durable_initial found⟩
              · rw [← names, List.flatMap_map]
                exact albums
              · have tally := counted final returned
                rw [← List.length_map Prod.fst, names] at tally
                exact reportOf_albums accepted schema ordered applied covered tally
          · next closed =>
              refine ⟨first, [], by simp, ⟨⟨operations, subperm, part⟩, .inl rfl⟩, ?_⟩
              rintro _ ⟨⟩
              rw [List.append_nil]
              exact reportOf_operations accepted schema ordered applied closed

end

/-! ## Runs which are cut off -/

/-- The start of a run has succeeded and read `state` from the journal. -/
structure Opened (platform : Platform) (plan : UploadPlan) (config : ImportConfig)
    (events : List (Event Answer)) (state : ImportState) : Prop where
  journal : ∃ rows, (⟨.readEffects, .ok rows⟩ : Event Answer) ∈ events ∧
    importState rows = .ok state
  allowed : state.validateForPlan platform plan = .ok ()
  created : ∃ resolved,
    (⟨.scanResolved plan.source.label, .ok resolved⟩ : Event Answer) ∈ events ∧
      createImportUploadPlan platform resolved plan.server config = .ok plan

section

variable {platform : Platform} {plan : UploadPlan} {config : ImportConfig}

theorem rescan_performs {members : String → List String → Prop} {attempts : Nat} :
    Performs platform members attempts [] (rescan platform plan config) fun events resolved =>
      (⟨.scanResolved plan.source.label, .ok resolved⟩ : Event Answer) ∈ events ∧
        createImportUploadPlan platform resolved plan.server config = .ok plan := by
  refine Performs.before (performs_ask rfl _) fun scanned resolved found => ?_
  obtain ⟨answer, rfl, answered⟩ := found
  obtain rfl : answer = .ok resolved := by
    cases answer with
    | error error => cases answered
    | ok result => exact congrArg _ (Except.ok.inj answered)
  refine Performs.before (performs_ofExcept _) fun _ observed created => ?_
  refine Performs.before (performs_ofExcept _) fun _ _ same => ?_
  rw [reject_eq_ok, bne_eq_false_iff_eq] at same
  refine performs_pure ⟨List.mem_append_left _ (List.mem_singleton_self _), ?_⟩
  rw [created, same]

theorem importStart_performs {members : String → List String → Prop} {attempts : Nat}
    (client : ClientBinding) (backupReferenceSha256 : Option String) :
    Performs platform members attempts []
      (importStart platform plan config client backupReferenceSha256)
      (Opened platform plan config) := by
  have journal : Performs platform members attempts []
      (openImportJournal platform plan backupReferenceSha256) fun _ _ => True := by
    refine Performs.before (performs_ofExcept _) fun _ _ _ => ?_
    refine Performs.before (performs_ofExcept _) fun _ _ _ => ?_
    refine Performs.before (performs_ofExcept _) fun _ _ _ => ?_
    exact (performs_ask rfl _).mono (List.Sublist.refl _) fun _ _ _ => trivial
  refine Performs.before (performs_ofExcept _) fun _ _ _ => ?_
  refine Performs.before rescan_performs fun scan resolved created => ?_
  refine Performs.before journal fun _ _ _ => ?_
  refine Performs.before (performs_ask rfl _) fun read rows found => ?_
  obtain ⟨answer, rfl, rfl⟩ := found
  refine Performs.before (performs_ofExcept _) fun _ state stored => ?_
  refine Performs.before (performs_ofExcept _) fun _ _ allowed => ?_
  refine Performs.before (performs_ask rfl _) fun _ _ _ => performs_pure ?_
  exact
    { journal := ⟨rows, by simp, stored⟩
      allowed
      created := ⟨resolved, by simp [created.1], created.2⟩ }

/-- The events of a run, finished or not: its start, the effects of its operations, and the effects
of its albums. -/
structure RunEvents (platform : Platform) (plan : UploadPlan) (config : ImportConfig)
    (opening first second : List (Event Answer)) : Prop where
  start : Scoped platform (fun _ _ => False) config.upload.maxAttemptsPerOperation [] opening
  effects : first = [] ∧ second = [] ∨ ∃ state, Opened platform plan config opening state ∧
    EffectEvents platform config.upload.maxAttemptsPerOperation plan state first second

theorem CreatedFrom.positive {resolved : ResolvedFolderPlan} {server : ServerCompatibility}
    (created : CreatedFrom platform resolved server config plan) :
    1 ≤ config.upload.maxAttemptsPerOperation := by
  have valid := created.valid
  simp only [ImportConfig.validateImport, bind_eq_ok] at valid
  obtain ⟨⟨⟩, valid, _⟩ := valid
  exact (UploadExecutionConfig.attempts_of_validate valid).1

theorem applyImportInner_traces (client : ClientBinding) (backupReferenceSha256 : Option String) :
    (applyImportInner platform plan config client backupReferenceSha256).run.Traces
      fun events outcome => ∃ opening first second, events = opening ++ (first ++ second) ∧
        RunEvents platform plan config opening first second ∧
        ∀ report, outcome = .ok report → ReportOf plan events report := by
  rw [applyImportInner, Program.traces_exceptT_bind]
  have start : Performs platform (fun _ _ => False) config.upload.maxAttemptsPerOperation []
      (importStart platform plan config client backupReferenceSha256)
      (Opened platform plan config) := importStart_performs client backupReferenceSha256
  refine Program.Traces.mono start fun opening outcome reached => ?_
  obtain ⟨quiet, opened⟩ := reached
  cases outcome with
  | error error =>
      refine ⟨opening, [], [], by simp, ⟨quiet, .inl ⟨rfl, rfl⟩⟩, ?_⟩
      rintro _ ⟨⟩
  | ok state =>
      have opened := opened state rfl
      obtain ⟨resolved, _, created⟩ := opened.created
      have created := createImportUploadPlan_ok created
      refine Program.Traces.mono
        (applyEffects_traces created.positive created.accepted created.schema)
        fun events outcome reached => ?_
      obtain ⟨first, second, rfl, effects, reported⟩ := reached
      refine ⟨opening, first, second, rfl, ⟨quiet, .inr ⟨state, opened, effects⟩⟩,
        fun report returned => ?_⟩
      have last := reported report returned
      refine { last with retried := last.retried.trans ?_ }
      rw [granted_append opening]
      exact Nat.le_add_left _ _

/-- What is known about a part of a run holds of its beginning, if no retry is granted after it. -/
theorem Scoped.of_append {members : String → List String → Prop} {attempts : Nat}
    {scope : List EffectKey} {first second : List (Event Answer)}
    (whole : Scoped platform members attempts scope (first ++ second))
    (refused : second.countP granted = 0) : Scoped platform members attempts scope first where
  requests key member := by
    refine whole.requests key ?_
    rw [requestedKeys_append]
    exact List.mem_append_left _ member
  rows := by
    have rows := whole.rows
    rw [attemptedRows_append, List.map_append] at rows
    exact (List.sublist_append_left _ _).trans rows
  typed row member := by
    refine whole.typed row ?_
    rw [attemptedRows_append]
    exact List.mem_append_left _ member
  cost := by
    have cost := whole.cost
    rw [List.countP_append, granted_append, refused] at cost
    omega
  each distinct key := by
    have each := whole.each distinct key
    rw [mutationsFor_append] at each
    omega
  justified := whole.justified.of_append

/-- The beginning of a run consists of the beginnings of its parts. -/
theorem RunEvents.of_append {opening first second events rest : List (Event Answer)}
    (run : RunEvents platform plan config opening first second)
    (split : events ++ rest = opening ++ (first ++ second))
    (refused : rest.countP granted = 0) :
    ∃ opening first second, events = opening ++ (first ++ second) ∧
      RunEvents platform plan config opening first second := by
  have none : ∀ {front back : List (Event Answer)}, rest = front ++ back →
      front.countP granted = 0 := by
    intro front back same
    rw [same, granted_append] at refused
    omega
  rcases List.append_eq_append_iff.mp split with ⟨front, rfl, same⟩ | ⟨middle, rfl, same⟩
  · exact ⟨events, [], [], by simp, run.start.of_append (none same), .inl ⟨rfl, rfl⟩⟩
  · rcases List.append_eq_append_iff.mp same with ⟨front, rfl, tail⟩ | ⟨front, rfl, tail⟩
    · refine ⟨opening, first, front, rfl, run.start, ?_⟩
      rcases run.effects with ⟨empty, nothing⟩ | ⟨state, opened, effects⟩
      · rw [tail, List.append_eq_nil_iff] at nothing
        exact .inl ⟨empty, nothing.1⟩
      · refine .inr ⟨state, opened, effects.operations, ?_⟩
        rcases effects.albums with nothing | ⟨assetIds, durable, albums⟩
        · rw [tail, List.append_eq_nil_iff] at nothing
          exact .inl nothing.1
        · rw [tail] at albums
          exact .inr ⟨assetIds, durable, albums.of_append refused⟩
    · refine ⟨opening, middle, [], by simp, run.start, ?_⟩
      rcases run.effects with ⟨empty, _⟩ | ⟨state, opened, effects⟩
      · rw [List.append_eq_nil_iff] at empty
        exact .inl ⟨empty.1, rfl⟩
      · obtain ⟨operations, subperm, part⟩ := effects.operations
        exact .inr ⟨state, opened, ⟨operations, subperm, part.of_append (none tail)⟩, .inl rfl⟩

end

theorem granted_refuse (event : Event Answer) (same : event.2 = refuse event.1) :
    granted event = false := by
  obtain ⟨call, answer⟩ := event
  cases call <;> first
    | rfl
    | exact same

/-- Every run, finished or cut off at any point in any environment, consists of its parts. -/
theorem applyImportInner_events {World : Type} {environment : Environment Answer World}
    {platform : Platform} {plan : UploadPlan} {config : ImportConfig} {client : ClientBinding}
    {backupReferenceSha256 : Option String} {before after : World}
    {events : List (Event Answer)} {final : Executor (Except ExecutorError ImportApplyReport)}
    (execution : Execution environment
      (applyImportInner platform plan config client backupReferenceSha256).run before events final
      after) :
    ∃ opening first second, events = opening ++ (first ++ second) ∧
      RunEvents platform plan config opening first second := by
  obtain ⟨rest, value, ⟨opening, first, second, split, run, _⟩, answered⟩ :=
    execution.traces_extend refuse (applyImportInner_traces client backupReferenceSha256)
  refine run.of_append split (List.countP_eq_zero.mpr fun event member => ?_)
  simp [granted_refuse event (answered event member)]

/-! ## The effects of a plan -/

/-- The digests of the album names of a plan differ. -/
def AlbumsDistinct (platform : Platform) (plan : UploadPlan) : Prop :=
  ∀ first ∈ (albumNames plan.operations).toList, ∀ second ∈ (albumNames plan.operations).toList,
    albumIdentity platform first = albumIdentity platform second → first = second

theorem nodup_albumKeys {platform : Platform} {names : List String} (distinct : names.Nodup)
    (injective : ∀ first ∈ names, ∀ second ∈ names,
      albumIdentity platform first = albumIdentity platform second → first = second) :
    (names.flatMap (albumKeys platform)).Nodup := by
  refine List.nodup_flatMap.mpr ⟨fun name _ => by simp [albumKeys], ?_⟩
  refine distinct.imp_of_mem fun {first second} firstMember secondMember different => ?_
  intro key inFirst inSecond
  refine different (injective first firstMember second secondMember ?_)
  simp only [albumKeys, List.mem_cons, List.not_mem_nil, or_false] at inFirst inSecond
  rcases inFirst with rfl | rfl <;> simpa using inSecond

/-- The effects of a whole run, in their order. -/
structure RunScope (platform : Platform) (plan : UploadPlan) (config : ImportConfig)
    (opening : List (Event Answer)) (scope : List EffectKey) : Prop where
  opened : scope = [] ∨ ∃ state, Opened platform plan config opening state ∧
    ∀ key ∈ scope, state.isOpen key = true
  distinct : AlbumsDistinct platform plan → scope.Nodup
  length_le : scope.length ≤ plan.summary.maxMutations
  allowed : ∀ key ∈ scope, key.render ∈ plan.operations.flatMap (allowedKeys platform)

theorem length_albumKeys (platform : Platform) (names : List String) :
    (names.flatMap (albumKeys platform)).length = 2 * names.length := by
  induction names with
  | nil => rfl
  | cons name names induction =>
      rw [List.flatMap_cons, List.length_append, induction, albumKeys, List.length_cons]
      simp only [List.length_cons, List.length_nil]
      omega

theorem allowed_operationKeys (platform : Platform) {operations : List UploadOperation}
    {operation : UploadOperation} (member : operation ∈ operations) {key : EffectKey}
    (listed : key ∈ operationKeys operation) :
    key.render ∈ operations.flatMap (allowedKeys platform) := by
  refine List.mem_flatMap.mpr ⟨operation, member, ?_⟩
  rw [operationKeys, List.mem_cons] at listed
  rw [allowedKeys, List.mem_cons, List.mem_append]
  rcases listed with rfl | listed
  · exact .inl rfl
  · refine .inr (.inl ?_)
    split at listed
    · next assigns =>
        rw [List.mem_singleton.mp listed, if_pos assigns]
        exact List.mem_singleton_self _
    · cases listed

theorem allowed_albumKeys (platform : Platform) {operations : List UploadOperation}
    {operation : UploadOperation} (member : operation ∈ operations) {name : String}
    (lists : name ∈ operation.albums) {key : EffectKey} (listed : key ∈ albumKeys platform name) :
    key.render ∈ operations.flatMap (allowedKeys platform) := by
  refine List.mem_flatMap.mpr ⟨operation, member, ?_⟩
  rw [allowedKeys, List.mem_cons, List.mem_append]
  refine .inr (.inr (List.mem_flatMap.mpr ⟨name, lists, ?_⟩))
  simp only [albumKeys, List.mem_cons, List.not_mem_nil, or_false] at listed
  rcases listed with rfl | rfl <;> simp [EffectKey.render]

section

variable {platform : Platform} {plan : UploadPlan} {config : ImportConfig}
  {opening first second : List (Event Answer)}

/-- The operations and albums of a run have different effects, all of them of the plan. -/
theorem runScope_append {state : ImportState} (opened : Opened platform plan config opening state)
    {operations : List UploadOperation} (subperm : operations.Subperm plan.operations)
    {names : List String} (inside : names.Subperm (albumNames plan.operations).toList) :
    RunScope platform plan config opening
      ((operations.flatMap operationKeys).filter state.isOpen ++
        (names.flatMap (albumKeys platform)).filter state.isOpen) := by
  obtain ⟨resolved, _, created⟩ := opened.created
  have created := createImportUploadPlan_ok created
  rw [← List.filter_append]
  refine ⟨.inr ⟨state, opened, fun key member => (List.mem_filter.mp member).2⟩, ?_, ?_, ?_⟩
  · intro distinct
    have ids : (operations.map UploadOperation.operationId).Nodup := by
      obtain ⟨listed, perm, inside⟩ := subperm
      exact (perm.map _).nodup_iff.mp (created.accepted.unique.sublist (inside.map _))
    have unique : names.Nodup := by
      obtain ⟨listed, perm, sublist⟩ := inside
      exact perm.nodup_iff.mp ((nodup_albumNames _).sublist sublist)
    refine (List.nodup_append'.mpr ⟨nodup_operationKeys ids, nodup_albumKeys unique ?_, ?_⟩).filter _
    · exact fun left leftMember right rightMember =>
        distinct left (inside.subset leftMember) right (inside.subset rightMember)
    · intro key inOperations inAlbums
      obtain ⟨operation, _, listed⟩ := List.mem_flatMap.mp inOperations
      obtain ⟨name, _, album⟩ := List.mem_flatMap.mp inAlbums
      rcases mem_operationKeys listed with rfl | rfl <;> simp [albumKeys] at album
  · have fewer := operationEffects_subperm subperm
    have names := inside.length_le
    rw [created.accepted.maxMutations created.schema]
    refine (List.length_filter_le _ _).trans ?_
    rw [List.length_append, length_albumKeys, ← operationEffects]
    omega
  · intro key member
    rcases List.mem_append.mp (List.mem_filter.mp member).1 with inOperations | inAlbums
    · obtain ⟨operation, member, listed⟩ := List.mem_flatMap.mp inOperations
      exact allowed_operationKeys platform (subperm.subset member) listed
    · obtain ⟨name, member, listed⟩ := List.mem_flatMap.mp inAlbums
      obtain ⟨operation, member, lists⟩ := mem_albumNames.mp (inside.subset member)
      exact allowed_albumKeys platform member lists listed

/-- A whole run works on effects of the plan which are open in the journal it has read. -/
theorem RunEvents.scoped (run : RunEvents platform plan config opening first second) :
    ∃ scope, RunScope platform plan config opening scope ∧
      ∃ members, Scoped platform members config.upload.maxAttemptsPerOperation scope
        (opening ++ (first ++ second)) := by
  rcases run.effects with ⟨rfl, rfl⟩ | ⟨state, opened, effects⟩
  · refine ⟨[], ⟨.inl rfl, fun _ => List.nodup_nil, Nat.zero_le _, by simp⟩, fun _ _ => False, ?_⟩
    rw [List.append_nil, List.append_nil]
    exact run.start
  · obtain ⟨operations, subperm, part⟩ := effects.operations
    rcases effects.albums with rfl | ⟨assetIds, _, albums⟩
    · refine ⟨_, runScope_append opened subperm List.nil_subperm, fun _ _ => False, ?_⟩
      rw [List.flatMap_nil, List.filter_nil]
      exact run.start.append (part.append scoped_nil)
    · refine ⟨_, runScope_append opened subperm (keys_albumMembers_subset plan assetIds),
        MemberIds platform plan assetIds, ?_⟩
      exact (run.start.weaken fun _ _ => False.elim).append
        ((part.weaken fun _ _ => False.elim).append albums)

end

end ImmichRs
