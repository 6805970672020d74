import ImmichRs.Executor.Accounting
import Mathlib.Data.List.Flatten

/-!
# Which operations a folder apply accounts for

The local runs of the groups and the run of the main loop are put together: the rows written by a
finished run are the accounted operations of all groups.
-/

namespace ImmichRs

open Interaction
open Std (ExtTreeMap ExtTreeSet)

/-- A local run of one group which finished without cancellation. -/
def GroupRun (completed : ExtTreeMap String String) (group : List UploadOperation)
    (run : LocalRun Answer GroupResult) : Prop :=
  ∃ result, run.residual = .done result ∧ result.cancelled = false ∧
    GroupTrace completed group [] run.events result

/-- The operations whose outcomes a program has returned. -/
def outcomeIds : Executor GroupResult → List String
  | .done result => result.outcomes.map OperationOutcome.operationId
  | .request _ _ => []

theorem localCount_cons (predicate : Event Answer → Bool) (run : LocalRun Answer GroupResult)
    (runs : List (LocalRun Answer GroupResult)) :
    localCount predicate (run :: runs) =
      run.events.countP predicate + localCount predicate runs := by
  rw [localCount, List.map_cons, List.sum_cons, localCount]

/-- Groups leave the journal to the main loop. -/
theorem groupRuns_silent {completed : ExtTreeMap String String}
    {groups : List (List UploadOperation)} {runs : List (LocalRun Answer GroupResult)}
    (aligned : List.Forall₂ (GroupRun completed) groups runs) (operationId : String) :
    localCount (journals operationId) runs = 0 := by
  induction aligned with
  | nil => rfl
  | cons head _ induction =>
      obtain ⟨_, _, _, trace⟩ := head
      rw [localCount_cons, trace.silent, induction]

/-- Runs of groups with different members account for their groups separately. -/
theorem groupRuns_account {completed : ExtTreeMap String String}
    {groups : List (List UploadOperation)} {runs : List (LocalRun Answer GroupResult)}
    (aligned : List.Forall₂ (GroupRun completed) groups runs)
    (distinct : (groups.flatten.map UploadOperation.operationId).Nodup) :
    (∀ operationId, operationId ∉ groups.flatten.map UploadOperation.operationId →
      localCount (settles operationId) runs = 0) ∧
      runs.flatMap (fun run => outcomeIds run.residual) =
        groups.flatMap (accountedIds completed fun operationId =>
          decide (0 < localCount (settles operationId) runs)) := by
  induction aligned with
  | nil => exact ⟨fun _ _ => rfl, rfl⟩
  | @cons group run groups runs head _ induction =>
      obtain ⟨result, returned, running, trace⟩ := head
      rw [List.flatten_cons, List.map_append, List.nodup_append'] at distinct
      obtain ⟨_, restDistinct, apart⟩ := distinct
      obtain ⟨outside, accounted⟩ := induction restDistinct
      refine ⟨fun operationId absent => ?_, ?_⟩
      · rw [List.flatten_cons, List.map_append, List.mem_append, not_or] at absent
        rw [localCount_cons, trace.own _ absent.1, outside _ absent.2]
      · rw [List.flatMap_cons, List.flatMap_cons, accounted]
        congr 1
        · rw [returned, outcomeIds, trace.outcomes running, List.map_nil, List.nil_append]
          refine accountedIds_congr fun operation member => ?_
          have away := outside operation.operationId
            (apart (List.mem_map_of_mem member))
          rw [settledIn, localCount_cons, away, Nat.add_zero]
        · refine List.flatMap_congr fun other listed => accountedIds_congr fun operation member => ?_
          have elsewhere : operation.operationId ∉ group.map UploadOperation.operationId := by
            intro here
            refine apart here (List.mem_map_of_mem ?_)
            exact List.mem_flatten.mpr ⟨other, listed, member⟩
          rw [localCount_cons, trace.own _ elsewhere, Nat.zero_add]

/-- Accounted operations are pending members of the group, in order. -/
theorem accountedIds_sublist (completed : ExtTreeMap String String) (settled : String → Bool)
    (group : List UploadOperation) :
    (accountedIds completed settled group).Sublist
      ((group.filter fun operation => !completed.contains operation.operationId).map
        UploadOperation.operationId) := by
  induction group with
  | nil => exact .refl _
  | cons operation rest induction =>
      cases known : completed.contains operation.operationId with
      | true => simpa [accountedIds, known] using induction
      | false =>
          simp only [accountedIds, known, Bool.false_eq_true, if_false, List.filter_cons,
            Bool.not_false, if_true, List.map_cons]
          refine List.Sublist.cons_cons _ ?_
          split
          · exact List.nil_sublist _
          · exact induction

theorem accountedIds_of_not_groupPending {completed : ExtTreeMap String String}
    (settled : String → Bool) {group : List UploadOperation}
    (finished : groupPending completed group = false) :
    accountedIds completed settled group = [] := by
  refine List.sublist_nil.mp ((accountedIds_sublist completed settled group).trans ?_)
  rw [groupPending, List.any_eq_false] at finished
  rw [List.filter_eq_nil_iff.mpr finished, List.map_nil]

theorem flatMap_filter_groupPending (completed : ExtTreeMap String String)
    (settled : String → Bool) (groups : List (List UploadOperation)) :
    (groups.filter (groupPending completed)).flatMap (accountedIds completed settled) =
      groups.flatMap (accountedIds completed settled) := by
  induction groups with
  | nil => rfl
  | cons group rest induction =>
      cases pending : groupPending completed group with
      | true => rw [List.filter_cons_of_pos pending, List.flatMap_cons, List.flatMap_cons, induction]
      | false =>
          rw [List.filter_cons_of_neg (by simp [pending]), List.flatMap_cons,
            accountedIds_of_not_groupPending settled pending, List.nil_append, induction]

/-- Rows of the groups never repeat an operation and only concern pending ones. -/
theorem accounted_sublist (plan : UploadPlan) (completed : ExtTreeMap String String)
    (settled : String → Bool) :
    ((plan.operations.filterMap (groupOf plan)).flatMap (accountedIds completed settled)).Sublist
      (((plan.operations.filterMap (groupOf plan)).flatten.filter fun operation =>
        !completed.contains operation.operationId).map UploadOperation.operationId) := by
  generalize plan.operations.filterMap (groupOf plan) = groups
  induction groups with
  | nil => exact .refl _
  | cons group rest induction =>
      rw [List.flatMap_cons, List.flatten_cons, List.filter_append, List.map_append]
      exact (accountedIds_sublist completed settled group).append induction

/-- An image is left out exactly when its video is pending and was not settled. -/
def Answered (plan : UploadPlan) (completed : ExtTreeMap String String) (settled : String → Bool)
    (image : UploadOperation) : Prop :=
  ∀ video ∈ plan.operations, image.dependsOn video.operationId = true →
    completed.contains video.operationId = false → settled video.operationId = true

section

variable {platform : Platform} {plan : UploadPlan} (accepted : plan.Accepted platform)
  {completed : ExtTreeMap String String} {settled : String → Bool}

include accepted

theorem mem_of_mem_accountedIds {operation opener : UploadOperation}
    {group : List UploadOperation} (openerMember : opener ∈ plan.operations)
    (opened : groupOf plan opener = some group) (member : operation ∈ plan.operations)
    (accounted : operation.operationId ∈ accountedIds completed settled group) :
    operation ∈ group := by
  have listed := (accountedIds_sublist completed settled group).subset accounted
  obtain ⟨other, kept, same⟩ := List.mem_map.mp listed
  have inside := (List.mem_filter.mp kept).1
  have otherMember : other ∈ plan.operations := by
    rcases (mem_group_cases opened inside).2 with rfl | ⟨_, found⟩
    · exact openerMember
    · exact (imageOf_some found).1
  rwa [← accepted.eq_of_operationId otherMember member same]

/-- Membership in the accounted operations of all groups. -/
theorem mem_accounted_iff {operation : UploadOperation} (member : operation ∈ plan.operations)
    (pending : completed.contains operation.operationId = false)
    (named : VideosNamed plan plan.operations) (separate : ImagesSeparate plan) :
    operation.operationId ∈
        (plan.operations.filterMap (groupOf plan)).flatMap (accountedIds completed settled) ↔
      Answered plan completed settled operation := by
  rw [List.mem_flatMap]
  constructor
  · rintro ⟨group, grouped, accounted⟩ video videoMember names waiting
    obtain ⟨opener, openerMember, opened⟩ := List.mem_filterMap.mp grouped
    have inside := mem_of_mem_accountedIds accepted openerMember opened member accounted
    rcases (groupOf_eq_some_iff plan opener group).mp opened with
      ⟨role, rfl⟩ | ⟨role, image, found, rfl⟩
    · rw [List.mem_singleton.mp inside] at names
      simp [UploadOperation.dependsOn, role] at names
    · have different : operation ≠ opener := by
        rintro rfl
        have image := isLivePhotoImage_of_dependsOn names
        rw [isLivePhotoImage_of_isLivePhotoVideo role] at image
        exact Bool.false_ne_true image
      obtain rfl : operation = image := by
        simpa [different] using inside
      obtain rfl := accepted.eq_of_operationId openerMember videoMember
        (dependsOn_unique (imageOf_some found).2 names)
      by_contra unsettled
      rw [Bool.not_eq_true] at unsettled
      have ids : operation.operationId ≠ opener.operationId := fun same =>
        different (accepted.eq_of_operationId member openerMember same)
      simp [accountedIds, waiting, role, unsettled, ids] at accounted
  · intro answered
    cases image : operation.role.isLivePhotoImage with
    | false =>
        have scheduled := (mem_flatten_groups_iff named operation).mpr (.inl ⟨member, image⟩)
        obtain ⟨group, grouped, inside⟩ := List.mem_flatten.mp scheduled
        refine ⟨group, grouped, ?_⟩
        obtain ⟨opener, openerMember, opened⟩ := List.mem_filterMap.mp grouped
        rcases (groupOf_eq_some_iff plan opener group).mp opened with
          ⟨role, rfl⟩ | ⟨role, selected, found, rfl⟩
        · obtain rfl := List.mem_singleton.mp inside
          simp [accountedIds, pending]
        · have notSelected : operation ≠ selected := by
            rintro rfl
            rw [isLivePhotoImage_of_dependsOn (imageOf_some found).2] at image
            cases image
          obtain rfl : operation = opener := by
            simpa [notSelected] using inside
          simp [accountedIds, pending]
    | true =>
        obtain ⟨video, videoMember, role, names⟩ := accepted.video member image
        have found := separate.imageOf videoMember member names
        refine ⟨[video, operation], List.mem_filterMap.mpr ⟨video, videoMember, ?_⟩, ?_⟩
        · exact (groupOf_eq_some_iff plan video _).mpr (.inr ⟨role, operation, found, rfl⟩)
        · cases waiting : completed.contains video.operationId with
          | true => simp [accountedIds, waiting, pending]
          | false =>
              simp [accountedIds, waiting, pending, answered video videoMember names waiting]

end

/-! ## Finished runs -/

/-- Programs of groups which all finished without cancellation ran their groups. -/
theorem forall₂_groupRun {platform : Platform} {config : UploadExecutionConfig}
    {verified : ExtTreeMap String VerifiedAsset} {completed : ExtTreeMap String String}
    {groups : List (List UploadOperation)} {runs : List (LocalRun Answer GroupResult)}
    (programs : runs.map LocalRun.program =
      groups.map (applyGroup platform config verified completed))
    (finished : ∀ run ∈ runs, ∃ result, run.residual = .done result ∧ result.cancelled = false)
    (present : ∀ operation ∈ groups.flatten, verified.contains operation.operationId = true)
    (distinct : (groups.flatten.map UploadOperation.operationId).Nodup) :
    List.Forall₂ (GroupRun completed) groups runs := by
  induction groups generalizing runs with
  | nil =>
      rw [List.map_nil, List.map_eq_nil_iff] at programs
      rw [programs]
      exact .nil
  | cons group groups induction =>
      obtain ⟨run, rest, rfl, program, tail⟩ := List.map_eq_cons_iff.mp programs
      rw [List.flatten_cons, List.map_append, List.nodup_append'] at distinct
      rw [List.flatten_cons] at present
      refine .cons ?_ (induction tail (fun other member => finished other (.tail _ member))
        (fun operation member => present operation (List.mem_append_right _ member))
        distinct.2.1)
      obtain ⟨result, returned, running⟩ := finished run List.mem_cons_self
      refine ⟨result, returned, running, ?_⟩
      have traces := applyGroupLoop_traces platform config verified completed group
        (fun operation member => present operation (List.mem_append_left _ member))
        distinct.1 [] none
      have valid := run.valid
      rw [program] at valid
      exact valid.traces returned traces

/-- What a finished run has recorded: the rows of all groups, and a report which counts them. -/
structure Recorded (platform : Platform) (plan : UploadPlan) (completed : ExtTreeMap String String)
    (events : List (Event Answer)) (report : ApplyReport) (rows : List String) : Prop where
  accepted : plan.Accepted platform
  known : ∀ operationId, completed.contains operationId = true →
    operationId ∈ plan.operations.map UploadOperation.operationId
  named : VideosNamed plan plan.operations
  listed : rows.Perm ((plan.operations.filterMap (groupOf plan)).flatMap
    (accountedIds completed (settledIn events)))
  planned : report.planned = plan.operations.length
  resumed : report.resumed = completed.size
  counted : report.counted = rows.length
  stored : ∀ operationId, events.countP (journals operationId) = rows.count operationId

section

variable {World : Type} {environment : Environment Answer World} {platform : Platform}
  {plan : UploadPlan} {config : UploadExecutionConfig} {compatibility : ServerCompatibility}
  {backupReferenceSha256 : Option String} {before after : World} {events : List (Event Answer)}
  {start : UploadStart} {report : ApplyReport}

/-- The groups which a started run schedules. -/
theorem Started.groups_perm (started : Started platform plan start) :
    VideosNamed plan plan.operations ∧
      start.groups.Perm
        ((plan.operations.filterMap (groupOf plan)).filter (groupPending start.completed)) := by
  obtain ⟨named, groups⟩ := (pendingGroups_ok_iff started.accepted _ _).mp started.groups
  rw [groups]
  exact ⟨named, perm_sortGroups _⟩

theorem mem_operations_of_mem_groups {operation : UploadOperation}
    (scheduled : operation ∈ (plan.operations.filterMap (groupOf plan)).flatten) :
    operation ∈ plan.operations := by
  obtain ⟨group, grouped, inside⟩ := List.mem_flatten.mp scheduled
  obtain ⟨opener, openerMember, opened⟩ := List.mem_filterMap.mp grouped
  rcases (mem_group_cases opened inside).2 with rfl | ⟨_, found⟩
  · exact openerMember
  · exact (imageOf_some found).1

theorem UploadPlan.Accepted.nodup_groupIds (accepted : plan.Accepted platform) :
    ((plan.operations.filterMap (groupOf plan)).flatten.map
      UploadOperation.operationId).Nodup := by
  refine (nodup_flatten_groups accepted).map_on fun first firstMember second secondMember same => ?_
  exact accepted.eq_of_operationId (mem_operations_of_mem_groups firstMember)
    (mem_operations_of_mem_groups secondMember) same

/-- The members of the scheduled groups are verified operations with different identifiers. -/
theorem Started.groups_valid (started : Started platform plan start) :
    (∀ operation ∈ start.groups.flatten,
        start.verified.contains operation.operationId = true) ∧
      (start.groups.flatten.map UploadOperation.operationId).Nodup := by
  have permuted := started.groups_perm.2.flatten
  have selected : ((plan.operations.filterMap (groupOf plan)).filter
      (groupPending start.completed)).flatten.Sublist
        (plan.operations.filterMap (groupOf plan)).flatten := List.filter_sublist.flatten
  refine ⟨fun operation member => ?_, ?_⟩
  · have scheduled := selected.subset (permuted.subset member)
    exact started.verified operation (mem_operations_of_mem_groups scheduled)
  · refine (permuted.map _).nodup_iff.mpr ?_
    exact started.accepted.nodup_groupIds.sublist (selected.map _)

/-- A run which finished without cancellation records the rows of all its groups. -/
theorem UploadRun.recorded
    (run : UploadRun environment platform plan config compatibility backupReferenceSha256 before
      events start ⟨[], []⟩ report after)
    (running : report.cancelled = false) :
    ∃ rows, Recorded platform plan start.completed events report rows := by
  obtain @⟨opening, draining, _, values, _, _, _, _, opened, drained⟩ := run
  obtain ⟨quiet, started⟩ := started_of_execution opened
  obtain ⟨named, permuted⟩ := started.groups_perm
  obtain ⟨present, distinct⟩ := started.groups_valid
  obtain ⟨runs, consumed, programs, residuals, taken, split⟩ := drained.split
  obtain ⟨journalled, cancelled⟩ := consumed_takeGroup taken
  rw [Pool.programs, List.append_nil, List.nil_append] at residuals
  have calm : values.any GroupResult.cancelled = false := by
    rw [running] at cancelled
    exact (Bool.or_eq_false_iff.mp cancelled.symm).2
  have finished : ∀ run ∈ runs, ∃ result, run.residual = .done result ∧
      result.cancelled = false := by
    intro run member
    obtain ⟨value, taken, same⟩ := List.mem_map.mp
      (residuals.subset (List.mem_map_of_mem member))
    exact ⟨value, same.symm, by simpa using List.any_eq_false.mp calm value taken⟩
  have aligned := forall₂_groupRun (by simpa [UploadStart.pool, Pool.programs] using programs)
    finished present distinct
  obtain ⟨_, accounted⟩ := groupRuns_account aligned distinct
  have settled : settledIn (opening ++ draining) = fun operationId =>
      decide (0 < localCount (settles operationId) runs) := by
    funext operationId
    rw [settledIn, List.countP_append, (quiet operationId).1, split, journalled.unsettled]
    simp
  have rows : ((values.flatMap GroupResult.outcomes).map OperationOutcome.operationId).Perm
      (runs.flatMap fun run => outcomeIds run.residual) := by
    have taken := (residuals.flatMap_right outcomeIds).symm
    rw [List.flatMap_map, List.flatMap_map] at taken
    rwa [List.map_flatMap]
  refine ⟨(values.flatMap GroupResult.outcomes).map OperationOutcome.operationId,
    { accepted := started.accepted
      known := started.completed
      named := named
      listed := ?_
      planned := ?_
      resumed := ?_
      counted := ?_
      stored := fun operationId => ?_ }⟩
  · rw [settled, ← flatMap_filter_groupPending]
    rw [accounted] at rows
    exact rows.trans (permuted.flatMap_right _)
  · rw [journalled.planned, started.report, ← started.accepted.summary]
    rfl
  · rw [journalled.resumed, started.report]
  · rw [journalled.counted, started.report, List.length_map]
    exact Nat.zero_add _
  · rw [List.countP_append, (quiet operationId).2, split, journalled.stored,
      groupRuns_silent aligned, Nat.zero_add, Nat.zero_add]

/-- Every operation is accounted for: the counters add up to the plan, and each operation which was
not completed before has exactly one new row. -/
def AccountsForAll (plan : UploadPlan) (completed : ExtTreeMap String String)
    (events : List (Event Answer)) (report : ApplyReport) : Prop :=
  report.resumed + report.created + report.duplicate + report.failed + report.indeterminate =
      report.planned ∧
    ∀ operation ∈ plan.operations, completed.contains operation.operationId = false →
      events.countP (journals operation.operationId) = 1

/-- Every motion video of a pair with neither half completed is answered with an asset: by a
duplicate check or by an upload. -/
def PairsAnswered (plan : UploadPlan) (completed : ExtTreeMap String String)
    (events : List (Event Answer)) : Prop :=
  ∀ video ∈ plan.operations, ∀ image ∈ plan.operations,
    image.dependsOn video.operationId = true →
      completed.contains video.operationId = false →
      completed.contains image.operationId = false →
        settledIn events video.operationId = true

theorem Recorded.nodup_rows {completed : ExtTreeMap String String} {rows : List String}
    (recorded : Recorded platform plan completed events report rows) : rows.Nodup := by
  refine recorded.listed.nodup_iff.mpr ?_
  refine List.Nodup.sublist (accounted_sublist plan completed (settledIn events)) ?_
  exact recorded.accepted.nodup_groupIds.sublist (List.filter_sublist.map _)

/-- An operation which was not completed has one row exactly when its video was answered. -/
theorem Recorded.row_iff {completed : ExtTreeMap String String} {rows : List String}
    (recorded : Recorded platform plan completed events report rows)
    (separate : ImagesSeparate plan) {operation : UploadOperation}
    (member : operation ∈ plan.operations)
    (pending : completed.contains operation.operationId = false) :
    events.countP (journals operation.operationId) = 1 ↔
      Answered plan completed (settledIn events) operation := by
  have row : operation.operationId ∈ rows ↔ Answered plan completed (settledIn events) operation := by
    rw [recorded.listed.mem_iff]
    exact mem_accounted_iff recorded.accepted member pending recorded.named separate
  rw [recorded.stored, ← row, recorded.nodup_rows.count]
  simp

/-- When every pair is answered, the rows are those of the operations not completed before. -/
theorem Recorded.rows_perm {completed : ExtTreeMap String String} {rows : List String}
    (recorded : Recorded platform plan completed events report rows)
    (answered : ∀ operation ∈ plan.operations,
      completed.contains operation.operationId = false →
        events.countP (journals operation.operationId) = 1) :
    rows.Perm ((plan.operations.map UploadOperation.operationId).filter fun operationId =>
      !completed.contains operationId) := by
  refine (List.perm_ext_iff_of_nodup recorded.nodup_rows
    (recorded.accepted.unique.filter _)).mpr fun operationId => ?_
  rw [List.mem_filter, List.mem_map, Bool.not_eq_true']
  constructor
  · intro row
    have listed := (accounted_sublist plan completed (settledIn events)).subset
      (recorded.listed.subset row)
    obtain ⟨operation, kept, rfl⟩ := List.mem_map.mp listed
    obtain ⟨scheduled, pending⟩ := List.mem_filter.mp kept
    exact ⟨⟨operation, mem_operations_of_mem_groups scheduled, rfl⟩,
      by simpa using pending⟩
  · rintro ⟨⟨operation, member, rfl⟩, pending⟩
    have stored := answered operation member pending
    rw [recorded.stored] at stored
    exact List.count_pos_iff.mp (by omega)

/-- A finished run of a plan in which every motion video is named by exactly one image accounts for
all operations exactly when every pair is answered.  Otherwise `apply_group` leaves its loop after
the video, and the image gets neither a row nor a counter. -/
theorem accountsForAll_iff
    (run : UploadRun environment platform plan config compatibility backupReferenceSha256 before
      events start ⟨[], []⟩ report after)
    (running : report.cancelled = false) (separate : ImagesSeparate plan) :
    AccountsForAll plan start.completed events report ↔
      PairsAnswered plan start.completed events := by
  obtain ⟨rows, recorded⟩ := run.recorded running
  constructor
  · rintro ⟨_, stored⟩ video videoMember image imageMember names videoPending imagePending
    have answered := (recorded.row_iff separate imageMember imagePending).mp
      (stored image imageMember imagePending)
    exact answered video videoMember names videoPending
  · intro answered
    have stored : ∀ operation ∈ plan.operations,
        start.completed.contains operation.operationId = false →
          events.countP (journals operation.operationId) = 1 := by
      intro operation member pending
      refine (recorded.row_iff separate member pending).mpr fun video videoMember names waiting => ?_
      exact answered video videoMember operation member names waiting pending
    refine ⟨?_, stored⟩
    have counted := recorded.counted
    rw [(recorded.rows_perm stored).length_eq, ← List.countP_eq_length_filter] at counted
    have resumed := recorded.resumed
    rw [size_eq_countP recorded.accepted.unique recorded.known] at resumed
    have total := List.length_eq_countP_add_countP (fun operationId =>
      start.completed.contains operationId) (l := plan.operations.map UploadOperation.operationId)
    rw [List.length_map] at total
    rw [ApplyReport.counted] at counted
    rw [recorded.planned]
    simp only [Bool.not_eq_true, Bool.decide_eq_false] at total
    omega

end

/-! ## A live photo whose motion video is refused -/

/-- The motion video of one live photo. -/
def motionVideo : UploadOperation :=
  namedOperation 'c' "c.mov" .video (.livePhotoVideo (digestOf '1')) none

/-- The still image of one live photo. -/
def stillImage : UploadOperation :=
  namedOperation 'a' "a.heic" .image (.livePhotoImage (digestOf '1') (digestOf 'c')) none

/-- SHA-1 of the two files. -/
def livePhotoSha1 (relativePath : String) : String :=
  if relativePath == "a.heic" then "b2Dz8JoFu5O3EzytBzAjSqRY6S8=" else
    "UZ/q4HJXLTLg7Qv11YCkybjAbsQ="

/-- A folder with one live photo. -/
def livePhotoPlan : UploadPlan :=
  namedPlan .folder [stillImage, motionVideo] livePhotoSha1 defaultIdentity

theorem livePhotoPlan_validate : livePhotoPlan.validate .reference = .ok () := by
  refine namedPlan_validate livePhotoSha1 ?_ isSha256_defaultIdentity
  refine samplePlan_validate _ _ _ ?_ ?_ (by decide) ?_ ?_
  · simp only [List.forall_mem_cons, List.not_mem_nil, false_imp_iff, implies_true, and_true]
    exact ⟨namedOperation_valid _ _ _ _ (by simp), namedOperation_valid _ _ _ _ (by simp)⟩
  · simp [stillImage, motionVideo, namedOperation, sampleOperation]
  · simp [stillImage, motionVideo, namedOperation, sampleOperation]
  · simp [stillImage, motionVideo, namedOperation, sampleOperation]

theorem livePhotoPlan_separate : ImagesSeparate livePhotoPlan := by
  simp [ImagesSeparate, livePhotoPlan, namedPlan, samplePlan, stillImage, motionVideo,
    namedOperation, sampleOperation, UploadOperation.dependsOn]

theorem completedAssets_nil : completedAssets [] = .ok ∅ := rfl

theorem validateCompleted_empty (plan : UploadPlan) : validateCompleted plan ∅ = .ok () := by
  simp [validateCompleted, reject_eq_ok]

/-- The events in which a first apply of the live photo opens. -/
def livePhotoOpening : List (Event Answer) :=
  (⟨.scanResolved livePhotoPlan.source.label,
      .ok (namedResolved .folder [stillImage, motionVideo] livePhotoSha1)⟩ ::
    [stillImage, motionVideo].flatMap (namedChecks livePhotoSha1)) ++
      [⟨.openJournal none, .ok ()⟩, ⟨.readEvents, .ok []⟩]

/-- A first apply of the live photo starts one group. -/
theorem livePhotoPlan_starts :
    ∃ start, Returns
        (uploadStart .reference livePhotoPlan .default livePhotoPlan.server none) livePhotoOpening
        start ∧
      start.completed = ∅ ∧ start.groups = [[motionVideo, stillImage]] := by
  have plain : ∀ operation ∈ [stillImage, motionVideo], operation.xmpSidecar = none := by
    simp [stillImage, motionVideo, namedOperation, sampleOperation]
  obtain ⟨verified, checked⟩ := returns_verifySource [stillImage, motionVideo] livePhotoSha1
    .default defaultIdentity livePhotoPlan_validate defaultIdentity_eq plain
  have scheduled : pendingGroups livePhotoPlan ∅ = .ok [[motionVideo, stillImage]] := by
    rfl
  have opened : Returns (openJournal none) [⟨.openJournal none, .ok ()⟩] () :=
    (returns_ofExcept rfl).bind (returns_ask (.openJournal none) (.ok ()) _ rfl)
  refine ⟨{ verified, completed := ∅, groups := [[motionVideo, stillImage]]
            report := ApplyReport.new livePhotoPlan.summary.operations }, ?_, rfl, rfl⟩
  refine (returns_ofExcept rfl).bind ?_
  refine (returns_ofExcept ((reject_eq_ok _ _).mpr (bne_self_eq_false _))).bind ?_
  refine checked.bind (opened.bind ?_)
  refine (returns_ask .readEvents (.ok []) _ rfl).bind ?_
  refine (returns_ofExcept completedAssets_nil).bind ?_
  refine (returns_ofExcept (validateCompleted_empty _)).bind ?_
  exact (returns_ofExcept scheduled).bind (returns_pure _)

/-- A run of the live photo in which its group ends with the given result. -/
theorem livePhotoPlan_runs {World : Type} {environment : Environment Answer World}
    {before opened ended after : World} {result : GroupResult} {second : List (Event Answer)}
    {report : ApplyReport} {post : List (Event Answer) → Prop}
    (path : Execution.Path environment before livePhotoOpening opened)
    (group : ∀ (verified : ExtTreeMap String VerifiedAsset) (video image : VerifiedAsset),
      verified[motionVideo.operationId]? = some video →
      verified[stillImage.operationId]? = some image →
        (applyGroup .reference .default verified ∅ [motionVideo, stillImage]).Reaches environment
          opened fun events value world => value = result ∧ world = ended ∧ post events)
    (journal : Execution environment (takeGroup (ApplyReport.new 2) result) ended second
      (.done (.ok report)) after) :
    ∃ first start, UploadRun environment .reference livePhotoPlan .default
        livePhotoPlan.server none before (livePhotoOpening ++ (first ++ second)) start ⟨[], []⟩
        report after ∧
      start.completed = ∅ ∧ post first := by
  obtain ⟨start, returns, fresh, groups⟩ := livePhotoPlan_starts
  have execution := returns.execution.retrace path
  obtain ⟨_, started⟩ := started_of_execution execution
  have known := started.verified
  simp only [ExtTreeMap.contains_eq_isSome_getElem?, Option.isSome_iff_exists] at known
  obtain ⟨image, imageVerified⟩ := known stillImage List.mem_cons_self
  obtain ⟨video, videoVerified⟩ := known motionVideo (List.mem_cons_of_mem _ List.mem_cons_self)
  obtain ⟨first, value, world, played, same, stands, holds⟩ :=
    (group start.verified video image videoVerified imageVerified).execution
  rw [same, stands] at played
  have counters : start.report = ApplyReport.new 2 := by
    rw [started.report, fresh]
    rfl
  have drain : Drain environment 1 takeGroup (start.pool .reference .default) start.report
      opened (first ++ (second ++ [])) [result] ⟨[], []⟩ report after := by
    rw [UploadStart.pool, groups, fresh, counters]
    refine .start (by decide) (Drain.run [] [] played ?_)
    exact .yield journal (.refl _ _ _)
  refine ⟨first, start, ?_, fresh, holds⟩
  rw [← List.append_nil second]
  exact .intro execution drain

/-- When the duplicate check of the motion video is refused, the run finishes with one failure and
no trace of the still image. -/
theorem livePhotoPlan_refused :
    ∃ events start report, UploadRun arbitrary .reference livePhotoPlan .default
        livePhotoPlan.server none () events start ⟨[], []⟩ report () ∧
      report.cancelled = false ∧ VideosNamed livePhotoPlan livePhotoPlan.operations ∧
      ImagesSeparate livePhotoPlan ∧
      ¬AccountsForAll livePhotoPlan start.completed events report := by
  have group : ∀ (verified : ExtTreeMap String VerifiedAsset) (video image : VerifiedAsset),
      verified[motionVideo.operationId]? = some video →
      verified[stillImage.operationId]? = some image →
        (applyGroup .reference .default verified ∅ [motionVideo, stillImage]).Reaches arbitrary ()
          fun _ value world => value = ⟨[failed motionVideo 0], false⟩ ∧ world = () ∧ True := by
    intro verified video image videoVerified imageVerified
    refine ⟨false, (), trivial, ?_⟩
    simp only [Program.bind_done]
    rw [videoVerified]
    exact ⟨.error (.new .authentication), (), trivial, rfl, trivial, trivial⟩
  have journal : Execution arbitrary
      (takeGroup (ApplyReport.new 2) ⟨[failed motionVideo 0], false⟩) ()
      [⟨.appendEvent (failed motionVideo 0).event, .ok ()⟩]
      (.done (.ok (recordReport (ApplyReport.new 2) (failed motionVideo 0)))) () :=
    .head trivial (.refl _ _)
  obtain ⟨_, start, run, _, _⟩ :=
    livePhotoPlan_runs (Execution.path_arbitrary livePhotoOpening) group journal
  refine ⟨_, start, _, run, rfl, ?_, livePhotoPlan_separate, fun accounts => ?_⟩
  · simp [VideosNamed, livePhotoPlan, namedPlan, samplePlan, stillImage, motionVideo,
      namedOperation, sampleOperation, UploadOperation.dependsOn, UploadRole.isLivePhotoVideo]
  · have total := accounts.1
    exact absurd total (by decide)

/-- The group of the live photo when the server knows both files. -/
theorem livePhotoGroup_known {World : Type} {environment : Environment Answer World}
    {world : World} (running : environment world ⟨.isCancelled, false⟩ world)
    (known : ∀ operationId sha1Base64 assetId,
      environment world ⟨.duplicateCheck operationId sha1Base64, .ok (.duplicate assetId)⟩ world)
    (verified : ExtTreeMap String VerifiedAsset) (video image : VerifiedAsset)
    (videoVerified : verified[motionVideo.operationId]? = some video)
    (imageVerified : verified[stillImage.operationId]? = some image) :
    (applyGroup .reference .default verified ∅ [motionVideo, stillImage]).Reaches environment world
      fun events value after =>
        value = ⟨[successful motionVideo .duplicate "v" 0,
          successful stillImage .duplicate "i" 0], false⟩ ∧
        after = world ∧ settledIn events motionVideo.operationId = true := by
  refine ⟨false, world, running, ?_⟩
  simp only [Program.bind_done]
  rw [videoVerified]
  refine ⟨.ok (.duplicate "v"), world, known _ _ _, false, world, running, ?_⟩
  simp only [Program.bind_done]
  rw [imageVerified]
  exact ⟨.ok (.duplicate "i"), world, known _ _ _, rfl, rfl, rfl⟩

/-- When the server knows both files, every operation of the live photo is accounted for. -/
theorem livePhotoPlan_accounted :
    ∃ events start report, UploadRun arbitrary .reference livePhotoPlan .default
        livePhotoPlan.server none () events start ⟨[], []⟩ report () ∧
      report.cancelled = false ∧ AccountsForAll livePhotoPlan start.completed events report := by
  have group := @livePhotoGroup_known Unit arbitrary () trivial fun _ _ _ => trivial
  have journal : Execution arbitrary
      (takeGroup (ApplyReport.new 2) ⟨[successful motionVideo .duplicate "v" 0,
        successful stillImage .duplicate "i" 0], false⟩) ()
      [⟨.appendEvent (successful motionVideo .duplicate "v" 0).event, .ok ()⟩,
        ⟨.appendEvent (successful stillImage .duplicate "i" 0).event, .ok ()⟩]
      (.done (.ok (recordReport (recordReport (ApplyReport.new 2)
        (successful motionVideo .duplicate "v" 0)) (successful stillImage .duplicate "i" 0)))) () :=
    .head (show arbitrary () _ () from trivial) (.head trivial (.refl _ _))
  obtain ⟨first, start, run, _, settled⟩ :=
    livePhotoPlan_runs (Execution.path_arbitrary livePhotoOpening) group journal
  refine ⟨_, start, _, run, rfl, (accountsForAll_iff run rfl livePhotoPlan_separate).mpr ?_⟩
  intro video member image imageMember names _ _
  obtain rfl : video = motionVideo := by
    refine ((UploadPlan.validate_ok_iff _ _).mp livePhotoPlan_validate).eq_of_operationId member
      (List.mem_cons_of_mem _ List.mem_cons_self) ?_
    rcases List.mem_pair.mp imageMember with rfl | rfl
    · exact (beq_iff_eq.mp names).symm
    · cases names
  simp only [settledIn, decide_eq_true_eq, List.countP_append] at settled ⊢
  omega

end ImmichRs
