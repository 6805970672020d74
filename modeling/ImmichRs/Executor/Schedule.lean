import ImmichRs.Executor.Config
import Mathlib.Data.List.Sort

/-!
# Scheduling of upload operations

`orderedOperations` flattens an import plan into one sequential schedule; `pendingGroups` cuts a
folder plan into groups which may run concurrently.  Both pair each live-photo video with the
first image which names it.
-/

namespace ImmichRs

open Std (ExtTreeMap ExtTreeSet)

/-- Whether an operation is a live-photo image which names the given video operation. -/
def UploadOperation.dependsOn (operation : UploadOperation) (operationId : String) : Bool :=
  match operation.role with
  | .livePhotoImage _ videoOperationId => videoOperationId == operationId
  | _ => false

/-- Whether an operation is the motion half of a live photo. -/
def UploadRole.isLivePhotoVideo : UploadRole → Bool
  | .livePhotoVideo _ => true
  | _ => false

/-- The first image of a plan which names the given video operation. -/
def imageOf (plan : UploadPlan) (video : UploadOperation) : Option UploadOperation :=
  plan.operations.find? fun candidate => candidate.dependsOn video.operationId

/-- The path by which groups are sorted. -/
def groupPath (group : List UploadOperation) : String :=
  match group with
  | [] => ""
  | first :: _ => first.relativePath

/-- `groups.sort_by(..)` on the path of the first member. -/
def sortGroups (groups : List (List UploadOperation)) : List (List UploadOperation) :=
  groups.insertionSort fun left right => groupPath left ≤ groupPath right

/-- The grouping loop of `ordered_operations`. -/
def orderedGroups (plan : UploadPlan) :
    List UploadOperation → Except ExecutorError (List (List UploadOperation))
  | [] => .ok []
  | operation :: rest =>
      match operation.role with
      | .standalone => do return [operation] :: (← orderedGroups plan rest)
      | .livePhotoVideo _ =>
          match imageOf plan operation with
          | none => .error .invalidPlan
          | some image => do return [operation, image] :: (← orderedGroups plan rest)
      | .livePhotoImage _ _ => orderedGroups plan rest

/-- `ordered_operations`. -/
def orderedOperations (plan : UploadPlan) : Except ExecutorError (List UploadOperation) := do
  return (sortGroups (← orderedGroups plan plan.operations)).flatten

/-- The grouping loop of `pending_groups`. -/
def pendingGroupsLoop (plan : UploadPlan) (completed : ExtTreeMap String String) :
    List UploadOperation → Except ExecutorError (List (List UploadOperation))
  | [] => .ok []
  | operation :: rest =>
      match operation.role with
      | .standalone =>
          if completed.contains operation.operationId then
            pendingGroupsLoop plan completed rest
          else do
            return [operation] :: (← pendingGroupsLoop plan completed rest)
      | .livePhotoVideo _ =>
          match imageOf plan operation with
          | none => .error .invalidPlan
          | some image =>
              if !completed.contains operation.operationId ||
                  !completed.contains image.operationId then do
                return [operation, image] :: (← pendingGroupsLoop plan completed rest)
              else
                pendingGroupsLoop plan completed rest
      | .livePhotoImage _ videoOperationId =>
          if plan.operations.any fun other => other.operationId == videoOperationId then
            pendingGroupsLoop plan completed rest
          else
            .error .invalidPlan

/-- `pending_groups`. -/
def pendingGroups (plan : UploadPlan) (completed : ExtTreeMap String String) :
    Except ExecutorError (List (List UploadOperation)) := do
  return sortGroups (← pendingGroupsLoop plan completed plan.operations)

/-! ## Groups as a filter of the plan -/

/-- The group which one operation opens. -/
def groupOf (plan : UploadPlan) (operation : UploadOperation) : Option (List UploadOperation) :=
  match operation.role with
  | .standalone => some [operation]
  | .livePhotoVideo _ => (imageOf plan operation).map fun image => [operation, image]
  | .livePhotoImage _ _ => none

/-- Every live-photo video of a list is named by some image of the plan. -/
def VideosNamed (plan : UploadPlan) (operations : List UploadOperation) : Prop :=
  ∀ video ∈ operations, video.role.isLivePhotoVideo = true →
    ∃ image ∈ plan.operations, image.dependsOn video.operationId = true

/-- Some member of a group is not completed. -/
def groupPending (completed : ExtTreeMap String String) (group : List UploadOperation) : Bool :=
  group.any fun operation => !completed.contains operation.operationId

theorem imageOf_eq_none_iff (plan : UploadPlan) (video : UploadOperation) :
    imageOf plan video = none ↔
      ¬∃ image ∈ plan.operations, image.dependsOn video.operationId = true := by
  simp [imageOf, List.find?_eq_none]

theorem imageOf_some {plan : UploadPlan} {video image : UploadOperation}
    (found : imageOf plan video = some image) :
    image ∈ plan.operations ∧ image.dependsOn video.operationId = true := by
  refine ⟨List.mem_of_find?_eq_some found, ?_⟩
  simpa using List.find?_some (p := fun candidate : UploadOperation =>
    candidate.dependsOn video.operationId) found

theorem orderedGroups_ok_iff (plan : UploadPlan) (operations : List UploadOperation)
    (groups : List (List UploadOperation)) :
    orderedGroups plan operations = .ok groups ↔
      VideosNamed plan operations ∧ groups = operations.filterMap (groupOf plan) := by
  induction operations generalizing groups with
  | nil =>
      simp only [orderedGroups, VideosNamed, List.not_mem_nil, false_imp_iff, implies_true,
        true_and, List.filterMap_nil, Except.ok.injEq]
      exact eq_comm
  | cons operation rest induction =>
      cases role : operation.role with
      | standalone =>
          simp only [orderedGroups, role, bind_eq_ok, induction, pure, Except.pure,
            Except.ok.injEq, VideosNamed, List.forall_mem_cons, UploadRole.isLivePhotoVideo,
            Bool.false_eq_true, false_imp_iff, true_and, groupOf, List.filterMap_cons]
          grind
      | livePhotoVideo pairId =>
          cases found : imageOf plan operation with
          | none =>
              have unnamed := (imageOf_eq_none_iff plan operation).mp found
              simp [orderedGroups, role, found, VideosNamed, UploadRole.isLivePhotoVideo, unnamed]
          | some image =>
              have named : ∃ image ∈ plan.operations,
                  image.dependsOn operation.operationId = true := ⟨image, imageOf_some found⟩
              simp only [orderedGroups, role, found, bind_eq_ok, induction, pure, Except.pure,
                Except.ok.injEq, VideosNamed, List.forall_mem_cons, UploadRole.isLivePhotoVideo,
                forall_const, named, true_and, groupOf, List.filterMap_cons, Option.map_some]
              grind
      | livePhotoImage pairId videoOperationId =>
          simp [orderedGroups, role, induction, VideosNamed, UploadRole.isLivePhotoVideo, groupOf]

theorem pendingGroupsLoop_ok_iff (plan : UploadPlan) (completed : ExtTreeMap String String)
    (operations : List UploadOperation) (groups : List (List UploadOperation))
    (dependencies : ∀ image ∈ operations, ∀ pairId videoOperationId,
      image.role = .livePhotoImage pairId videoOperationId →
        ∃ video ∈ plan.operations, video.operationId = videoOperationId) :
    pendingGroupsLoop plan completed operations = .ok groups ↔
      VideosNamed plan operations ∧
        groups = (operations.filterMap (groupOf plan)).filter (groupPending completed) := by
  induction operations generalizing groups with
  | nil =>
      simp only [pendingGroupsLoop, VideosNamed, List.not_mem_nil, false_imp_iff, implies_true,
        true_and, List.filterMap_nil, List.filter_nil, Except.ok.injEq]
      exact eq_comm
  | cons operation rest induction =>
      have restDependencies := fun image member =>
        dependencies image (List.mem_cons_of_mem operation member)
      have tail := fun groups => induction groups restDependencies
      cases role : operation.role with
      | standalone =>
          have head : VideosNamed plan (operation :: rest) ↔ VideosNamed plan rest := by
            simp [VideosNamed, role, UploadRole.isLivePhotoVideo]
          by_cases present : completed.contains operation.operationId = true
          · simp [pendingGroupsLoop, role, present, tail, head, groupOf, groupPending]
          · rw [head]
            simp only [pendingGroupsLoop, role, present, Bool.false_eq_true, if_false, bind_eq_ok,
              tail, pure, Except.pure, Except.ok.injEq, groupOf, List.filterMap_cons,
              List.filter_cons, groupPending, List.any_cons, List.any_nil]
            grind
      | livePhotoVideo pairId =>
          cases found : imageOf plan operation with
          | none =>
              have unnamed := (imageOf_eq_none_iff plan operation).mp found
              simp [pendingGroupsLoop, role, found, VideosNamed, UploadRole.isLivePhotoVideo,
                unnamed]
          | some image =>
              have named : ∃ image ∈ plan.operations,
                  image.dependsOn operation.operationId = true := ⟨image, imageOf_some found⟩
              have head : VideosNamed plan (operation :: rest) ↔ VideosNamed plan rest := by
                simp only [VideosNamed, List.forall_mem_cons, named, implies_true, true_and]
              have pending : groupPending completed [operation, image] =
                  (!completed.contains operation.operationId ||
                    !completed.contains image.operationId) := by
                simp [groupPending]
              simp only [head, pendingGroupsLoop, role, found, groupOf, List.filterMap_cons,
                Option.map_some, List.filter_cons, pending]
              split
              · simp only [bind_eq_ok, tail, pure, Except.pure, Except.ok.injEq]
                grind
              · exact tail groups
      | livePhotoImage pairId videoOperationId =>
          obtain ⟨video, member, same⟩ :=
            dependencies operation List.mem_cons_self pairId videoOperationId role
          have present : (plan.operations.any fun other =>
              other.operationId == videoOperationId) = true :=
            List.any_eq_true.mpr ⟨video, member, by simp [same]⟩
          have head : VideosNamed plan (operation :: rest) ↔ VideosNamed plan rest := by
            simp [VideosNamed, role, UploadRole.isLivePhotoVideo]
          simp only [pendingGroupsLoop, role, present, if_true, tail, head, groupOf,
            List.filterMap_cons]

/-! ## Coverage -/

/-- A map whose keys are listed has as many entries as it has listed keys. -/
theorem size_eq_countP {ids : List String} (distinct : ids.Nodup) {entries : ExtTreeMap String String}
    (known : ∀ id, entries.contains id = true → id ∈ ids) :
    entries.size = ids.countP fun id => entries.contains id := by
  have same : entries.keys.Perm (ids.filter fun id => entries.contains id) := by
    refine (List.perm_ext_iff_of_nodup ExtTreeMap.nodup_keys (distinct.filter _)).mpr fun id => ?_
    rw [ExtTreeMap.mem_keys, List.mem_filter, ← ExtTreeMap.contains_iff_mem]
    exact ⟨fun member => ⟨known id member, member⟩, And.right⟩
  rw [← ExtTreeMap.length_keys, same.length_eq, List.countP_eq_length_filter]

theorem UploadOperation.dependsOn_iff (operation : UploadOperation) (operationId : String) :
    operation.dependsOn operationId = true ↔
      ∃ pairId, operation.role = .livePhotoImage pairId operationId := by
  cases role : operation.role <;> simp [UploadOperation.dependsOn, role]

/-- Operations of an accepted plan are determined by their identifiers. -/
theorem UploadPlan.Accepted.eq_of_operationId {platform : Platform} {plan : UploadPlan}
    (accepted : plan.Accepted platform) {first second : UploadOperation}
    (firstMember : first ∈ plan.operations) (secondMember : second ∈ plan.operations)
    (same : first.operationId = second.operationId) : first = second :=
  List.inj_on_of_nodup_map accepted.unique firstMember secondMember same

theorem UploadPlan.Accepted.nodup {platform : Platform} {plan : UploadPlan}
    (accepted : plan.Accepted platform) : plan.operations.Nodup :=
  List.Nodup.of_map _ accepted.unique

/-- A group is one standalone operation, or one video with the image selected for it. -/
theorem groupOf_eq_some_iff (plan : UploadPlan) (operation : UploadOperation)
    (group : List UploadOperation) :
    groupOf plan operation = some group ↔
      operation.role = .standalone ∧ group = [operation] ∨
        operation.role.isLivePhotoVideo = true ∧
          ∃ image, imageOf plan operation = some image ∧ group = [operation, image] := by
  cases role : operation.role <;> simp [groupOf, role, UploadRole.isLivePhotoVideo, eq_comm]

theorem isLivePhotoImage_of_isLivePhotoVideo {role : UploadRole}
    (video : role.isLivePhotoVideo = true) : role.isLivePhotoImage = false := by
  cases role <;> simp_all [UploadRole.isLivePhotoVideo, UploadRole.isLivePhotoImage]

theorem mem_group_cases {plan : UploadPlan} {operation member : UploadOperation}
    {group : List UploadOperation} (opened : groupOf plan operation = some group)
    (inside : member ∈ group) :
    operation.role.isLivePhotoImage = false ∧
      (member = operation ∨
        operation.role.isLivePhotoVideo = true ∧ imageOf plan operation = some member) := by
  rcases (groupOf_eq_some_iff plan operation group).mp opened with
    ⟨role, rfl⟩ | ⟨role, image, found, rfl⟩
  · exact ⟨by rw [role]; rfl, .inl (List.mem_singleton.mp inside)⟩
  · refine ⟨isLivePhotoImage_of_isLivePhotoVideo role, ?_⟩
    simp only [List.mem_cons, List.not_mem_nil, or_false] at inside
    exact inside.imp_right fun equal => ⟨role, by rw [equal, found]⟩

theorem isLivePhotoImage_of_dependsOn {operation : UploadOperation} {operationId : String}
    (names : operation.dependsOn operationId = true) : operation.role.isLivePhotoImage = true := by
  obtain ⟨pairId, role⟩ := (operation.dependsOn_iff operationId).mp names
  simp [role, UploadRole.isLivePhotoImage]

theorem dependsOn_unique {operation : UploadOperation} {first second : String}
    (firstNames : operation.dependsOn first = true)
    (secondNames : operation.dependsOn second = true) : first = second := by
  obtain ⟨_, firstRole⟩ := (operation.dependsOn_iff first).mp firstNames
  obtain ⟨_, secondRole⟩ := (operation.dependsOn_iff second).mp secondNames
  rw [firstRole] at secondRole
  exact (UploadRole.livePhotoImage.inj secondRole).2

/-- Different operations of an accepted plan open disjoint groups. -/
theorem disjoint_groupOf {platform : Platform} {plan : UploadPlan}
    (accepted : plan.Accepted platform) {first second : UploadOperation}
    (firstMember : first ∈ plan.operations) (secondMember : second ∈ plan.operations)
    (different : first ≠ second) {left right : List UploadOperation}
    (firstOpened : groupOf plan first = some left)
    (secondOpened : groupOf plan second = some right) : left.Disjoint right := by
  intro shared inLeft inRight
  obtain ⟨firstRole, firstCase⟩ := mem_group_cases firstOpened inLeft
  obtain ⟨secondRole, secondCase⟩ := mem_group_cases secondOpened inRight
  rcases firstCase with rfl | ⟨_, firstImage⟩ <;> rcases secondCase with rfl | ⟨_, secondImage⟩
  · exact different rfl
  · simp [isLivePhotoImage_of_dependsOn (imageOf_some secondImage).2] at firstRole
  · simp [isLivePhotoImage_of_dependsOn (imageOf_some firstImage).2] at secondRole
  · exact different (accepted.eq_of_operationId firstMember secondMember
      (dependsOn_unique (imageOf_some firstImage).2 (imageOf_some secondImage).2))

theorem nodup_groupOf {plan : UploadPlan} {operation : UploadOperation}
    {group : List UploadOperation} (opened : groupOf plan operation = some group) :
    group.Nodup := by
  rcases (groupOf_eq_some_iff plan operation group).mp opened with
    ⟨_, rfl⟩ | ⟨role, image, found, rfl⟩
  · exact List.nodup_singleton _
  · have different : operation ≠ image := by
      rintro rfl
      have image := isLivePhotoImage_of_dependsOn (imageOf_some found).2
      rw [isLivePhotoImage_of_isLivePhotoVideo role] at image
      exact Bool.false_ne_true image
    simpa using different

/-- No scheduler places an operation of an accepted plan twice. -/
theorem nodup_flatten_groups {platform : Platform} {plan : UploadPlan}
    (accepted : plan.Accepted platform) :
    (plan.operations.filterMap (groupOf plan)).flatten.Nodup := by
  refine List.nodup_flatten.mpr ⟨fun group member => ?_, ?_⟩
  · obtain ⟨operation, _, opened⟩ := List.mem_filterMap.mp member
    exact nodup_groupOf opened
  · refine List.pairwise_filterMap.mpr ?_
    refine accepted.nodup.imp_of_mem fun firstMember secondMember different => ?_
    intro left firstOpened right secondOpened
    exact disjoint_groupOf accepted firstMember secondMember different firstOpened secondOpened

/-- The scheduled operations: every non-image, and every image which `imageOf` selects. -/
theorem mem_flatten_groups_iff {plan : UploadPlan} (named : VideosNamed plan plan.operations)
    (operation : UploadOperation) :
    operation ∈ (plan.operations.filterMap (groupOf plan)).flatten ↔
      operation ∈ plan.operations ∧ operation.role.isLivePhotoImage = false ∨
        ∃ video ∈ plan.operations, video.role.isLivePhotoVideo = true ∧
          imageOf plan video = some operation := by
  simp only [List.mem_flatten, List.mem_filterMap]
  constructor
  · rintro ⟨group, ⟨opener, openerMember, opened⟩, inside⟩
    obtain ⟨role, rfl | ⟨video, found⟩⟩ := mem_group_cases opened inside
    · exact .inl ⟨openerMember, role⟩
    · exact .inr ⟨opener, openerMember, video, found⟩
  · rintro (⟨member, role⟩ | ⟨video, member, role, found⟩)
    · cases operationRole : operation.role with
      | standalone =>
          exact ⟨[operation], ⟨operation, member, by simp [groupOf, operationRole]⟩,
            List.mem_singleton_self _⟩
      | livePhotoVideo pairId =>
          have video : operation.role.isLivePhotoVideo = true := by rw [operationRole]; rfl
          cases found : imageOf plan operation with
          | none =>
              exact absurd (named operation member video)
                ((imageOf_eq_none_iff plan operation).mp found)
          | some image =>
              exact ⟨[operation, image], ⟨operation, member,
                (groupOf_eq_some_iff plan operation _).mpr (.inr ⟨video, image, found, rfl⟩)⟩,
                List.mem_cons_self⟩
      | livePhotoImage pairId videoOperationId =>
          simp [operationRole, UploadRole.isLivePhotoImage] at role
    · exact ⟨[video, operation], ⟨video, member,
        (groupOf_eq_some_iff plan video _).mpr (.inr ⟨role, operation, found, rfl⟩)⟩, by simp⟩

/-- No two images of a plan name one video. -/
def ImagesSeparate (plan : UploadPlan) : Prop :=
  ∀ video ∈ plan.operations, ∀ first ∈ plan.operations, ∀ second ∈ plan.operations,
    first.dependsOn video.operationId = true → second.dependsOn video.operationId = true →
      first = second

/-- A sequential schedule runs every operation once, and each video before every image which
names it. -/
structure CompleteSchedule (plan : UploadPlan) (schedule : List UploadOperation) : Prop where
  once : schedule.Perm plan.operations
  videoFirst : ∀ video ∈ plan.operations, ∀ image ∈ plan.operations,
    image.dependsOn video.operationId = true → [video, image].Sublist schedule

/-- Concurrent groups run every operation once, and each video in one group with, and before,
every image which names it. -/
structure CompleteGroups (plan : UploadPlan) (groups : List (List UploadOperation)) : Prop where
  once : groups.flatten.Perm plan.operations
  videoFirst : ∀ video ∈ plan.operations, ∀ image ∈ plan.operations,
    image.dependsOn video.operationId = true → ∃ group ∈ groups, [video, image].Sublist group

theorem CompleteGroups.flatten {plan : UploadPlan} {groups : List (List UploadOperation)}
    (complete : CompleteGroups plan groups) : CompleteSchedule plan groups.flatten := by
  refine ⟨complete.once, fun video videoMember image imageMember names => ?_⟩
  obtain ⟨group, member, ordered⟩ := complete.videoFirst video videoMember image imageMember names
  exact ordered.trans (List.sublist_flatten_of_mem member)

/-- The video which an image of an accepted plan names. -/
theorem UploadPlan.Accepted.video {platform : Platform} {plan : UploadPlan}
    (accepted : plan.Accepted platform) {image : UploadOperation}
    (member : image ∈ plan.operations) (role : image.role.isLivePhotoImage = true) :
    ∃ video ∈ plan.operations, video.role.isLivePhotoVideo = true ∧
      image.dependsOn video.operationId = true := by
  cases imageRole : image.role with
  | standalone => simp [imageRole, UploadRole.isLivePhotoImage] at role
  | livePhotoVideo pairId => simp [imageRole, UploadRole.isLivePhotoImage] at role
  | livePhotoImage pairId videoOperationId =>
      obtain ⟨video, videoMember, rfl, videoRole⟩ :=
        accepted.dependencies image member pairId videoOperationId imageRole
      exact ⟨video, videoMember, by rw [videoRole]; rfl,
        (image.dependsOn_iff _).mpr ⟨pairId, imageRole⟩⟩

/-- An image separated from all others is the one selected for its video. -/
theorem ImagesSeparate.imageOf {plan : UploadPlan} (separate : ImagesSeparate plan)
    {video image : UploadOperation} (videoMember : video ∈ plan.operations)
    (imageMember : image ∈ plan.operations)
    (names : image.dependsOn video.operationId = true) : imageOf plan video = some image := by
  cases found : ImmichRs.imageOf plan video with
  | none => exact absurd ⟨image, imageMember, names⟩ ((imageOf_eq_none_iff plan video).mp found)
  | some selected =>
      obtain ⟨selectedMember, selectedNames⟩ := imageOf_some found
      rw [separate video videoMember selected selectedMember image imageMember selectedNames names]

/-- A video and the image which names it form one group. -/
theorem ImagesSeparate.mem_groups {platform : Platform} {plan : UploadPlan}
    (separate : ImagesSeparate plan) (accepted : plan.Accepted platform)
    {video image : UploadOperation} (videoMember : video ∈ plan.operations)
    (imageMember : image ∈ plan.operations)
    (names : image.dependsOn video.operationId = true) :
    [video, image] ∈ plan.operations.filterMap (groupOf plan) := by
  obtain ⟨owner, ownerMember, ownerRole, ownerNames⟩ :=
    accepted.video imageMember (isLivePhotoImage_of_dependsOn names)
  obtain rfl := accepted.eq_of_operationId videoMember ownerMember
    (dependsOn_unique names ownerNames)
  refine List.mem_filterMap.mpr ⟨video, videoMember, ?_⟩
  exact (groupOf_eq_some_iff plan video _).mpr
    (.inr ⟨ownerRole, image, separate.imageOf videoMember imageMember names, rfl⟩)

/-- The groups of an accepted plan whose videos are named are complete exactly when no two images
name one video. -/
theorem completeGroups_iff {platform : Platform} {plan : UploadPlan}
    (accepted : plan.Accepted platform) (named : VideosNamed plan plan.operations)
    {groups : List (List UploadOperation)}
    (permuted : groups.Perm (plan.operations.filterMap (groupOf plan))) :
    (groups.flatten.Perm plan.operations ↔ ImagesSeparate plan) ∧
      (ImagesSeparate plan → CompleteGroups plan groups) := by
  have flattened := permuted.flatten
  have covered : groups.flatten.Perm plan.operations ↔ ∀ operation,
      operation ∈ (plan.operations.filterMap (groupOf plan)).flatten ↔
        operation ∈ plan.operations := by
    rw [flattened.congr_left]
    exact List.perm_ext_iff_of_nodup (nodup_flatten_groups accepted) accepted.nodup
  have once : groups.flatten.Perm plan.operations ↔ ImagesSeparate plan := by
    rw [covered]
    constructor
    · intro scheduled video videoMember
      have selected : ∀ image ∈ plan.operations, image.dependsOn video.operationId = true →
          imageOf plan video = some image := by
        intro image member names
        rcases (mem_flatten_groups_iff named image).mp ((scheduled image).mpr member) with
          ⟨_, role⟩ | ⟨owner, ownerMember, _, found⟩
        · simp [isLivePhotoImage_of_dependsOn names] at role
        · rwa [accepted.eq_of_operationId videoMember ownerMember
            (dependsOn_unique names (imageOf_some found).2)]
      intro first firstMember second secondMember firstNames secondNames
      have equal := (selected first firstMember firstNames).symm.trans
        (selected second secondMember secondNames)
      exact Option.some.inj equal
    · intro separate operation
      rw [mem_flatten_groups_iff named]
      constructor
      · rintro (⟨member, _⟩ | ⟨video, _, _, found⟩)
        · exact member
        · exact (imageOf_some found).1
      · intro member
        cases role : operation.role.isLivePhotoImage with
        | false => exact .inl ⟨member, rfl⟩
        | true =>
            obtain ⟨video, videoMember, videoRole, names⟩ := accepted.video member role
            exact .inr ⟨video, videoMember, videoRole,
              separate.imageOf videoMember member names⟩
  refine ⟨once, fun separate => ⟨once.mpr separate, ?_⟩⟩
  intro video videoMember image imageMember names
  exact ⟨[video, image], permuted.mem_iff.mpr
    (separate.mem_groups accepted videoMember imageMember names), List.Sublist.refl _⟩

/-- Both schedulers, when they return, run every operation of the plan exactly once with each video
before its images. -/
def SchedulesComplete (plan : UploadPlan) : Prop :=
  (∀ schedule, orderedOperations plan = .ok schedule → CompleteSchedule plan schedule) ∧
    ∀ groups, pendingGroups plan ∅ = .ok groups → CompleteGroups plan groups

theorem orderedOperations_ok_iff (plan : UploadPlan) (schedule : List UploadOperation) :
    orderedOperations plan = .ok schedule ↔
      VideosNamed plan plan.operations ∧
        schedule = (sortGroups (plan.operations.filterMap (groupOf plan))).flatten := by
  simp only [orderedOperations, bind_eq_ok, orderedGroups_ok_iff, pure, Except.pure,
    Except.ok.injEq]
  grind

theorem pendingGroups_ok_iff {platform : Platform} {plan : UploadPlan}
    (accepted : plan.Accepted platform) (completed : ExtTreeMap String String)
    (groups : List (List UploadOperation)) :
    pendingGroups plan completed = .ok groups ↔
      VideosNamed plan plan.operations ∧
        groups = sortGroups
          ((plan.operations.filterMap (groupOf plan)).filter (groupPending completed)) := by
  have dependencies : ∀ image ∈ plan.operations, ∀ pairId videoOperationId,
      image.role = .livePhotoImage pairId videoOperationId →
        ∃ video ∈ plan.operations, video.operationId = videoOperationId := by
    intro image member pairId videoOperationId role
    obtain ⟨video, videoMember, same, _⟩ :=
      accepted.dependencies image member pairId videoOperationId role
    exact ⟨video, videoMember, same⟩
  have loop := fun result =>
    pendingGroupsLoop_ok_iff plan completed plan.operations result dependencies
  simp only [pendingGroups, bind_eq_ok, loop, pure, Except.pure, Except.ok.injEq]
  grind

/-- With nothing completed, every group is pending. -/
theorem filter_groupPending_empty (plan : UploadPlan) (operations : List UploadOperation) :
    (operations.filterMap (groupOf plan)).filter (groupPending ∅) =
      operations.filterMap (groupOf plan) := by
  refine List.filter_eq_self.mpr fun group member => ?_
  obtain ⟨operation, _, opened⟩ := List.mem_filterMap.mp member
  rcases (groupOf_eq_some_iff plan operation group).mp opened with
    ⟨_, rfl⟩ | ⟨_, image, _, rfl⟩ <;> simp [groupPending]

theorem perm_sortGroups (groups : List (List UploadOperation)) :
    (sortGroups groups).Perm groups :=
  List.perm_insertionSort _ _

/-- Once every video is named, a complete schedule leaves no image behind. -/
theorem SchedulesComplete.imagesSeparate {platform : Platform} {plan : UploadPlan}
    (complete : SchedulesComplete plan) (accepted : plan.Accepted platform)
    (named : VideosNamed plan plan.operations) : ImagesSeparate plan := by
  have schedule := complete.1 _ ((orderedOperations_ok_iff plan _).mpr ⟨named, rfl⟩)
  exact (completeGroups_iff accepted named (perm_sortGroups _)).1.mp schedule.once

/-- On an accepted plan the schedulers are complete exactly when they fail because a video is
named by no image, or no two images name one video.  Otherwise the second image is dropped
without a diagnostic. -/
theorem schedulesComplete_iff (platform : Platform) (plan : UploadPlan)
    (accepted : plan.validate platform = .ok ()) :
    SchedulesComplete plan ↔ ¬VideosNamed plan plan.operations ∨ ImagesSeparate plan := by
  have accepted := (plan.validate_ok_iff platform).mp accepted
  constructor
  · intro complete
    refine or_iff_not_imp_left.mpr fun named => ?_
    exact complete.imagesSeparate accepted (not_not.mp named)
  · rintro (unnamed | separate)
    · refine ⟨fun schedule returned => ?_, fun groups returned => ?_⟩
      · exact absurd ((orderedOperations_ok_iff plan schedule).mp returned).1 unnamed
      · exact absurd ((pendingGroups_ok_iff accepted ∅ groups).mp returned).1 unnamed
    · refine ⟨fun schedule returned => ?_, fun groups returned => ?_⟩
      · obtain ⟨named, rfl⟩ := (orderedOperations_ok_iff plan schedule).mp returned
        exact ((completeGroups_iff accepted named (perm_sortGroups _)).2 separate).flatten
      · obtain ⟨named, rfl⟩ := (pendingGroups_ok_iff accepted ∅ groups).mp returned
        rw [filter_groupPending_empty]
        exact (completeGroups_iff accepted named (perm_sortGroups _)).2 separate

/-- Every live photo of a plan is a pair of its own. -/
structure LivePhotosPaired (plan : UploadPlan) : Prop where
  named : VideosNamed plan plan.operations
  separate : ImagesSeparate plan

/-- Both schedulers run every operation of such a plan once, each video immediately before its
image. -/
theorem LivePhotosPaired.schedules {platform : Platform} {plan : UploadPlan}
    (paired : LivePhotosPaired plan) (accepted : plan.Accepted platform) :
    (∃ schedule, orderedOperations plan = .ok schedule ∧ schedule.Perm plan.operations ∧
        ∀ video ∈ plan.operations, ∀ image ∈ plan.operations,
          image.dependsOn video.operationId = true → [video, image] <:+: schedule) ∧
      ∃ groups, pendingGroups plan ∅ = .ok groups ∧ groups.flatten.Perm plan.operations ∧
        ∀ video ∈ plan.operations, ∀ image ∈ plan.operations,
          image.dependsOn video.operationId = true → [video, image] ∈ groups := by
  have permuted := perm_sortGroups (plan.operations.filterMap (groupOf plan))
  have once := (completeGroups_iff accepted paired.named permuted).1.mpr paired.separate
  have grouped : ∀ video ∈ plan.operations, ∀ image ∈ plan.operations,
      image.dependsOn video.operationId = true →
        [video, image] ∈ sortGroups (plan.operations.filterMap (groupOf plan)) :=
    fun video videoMember image imageMember names =>
      permuted.mem_iff.mpr (paired.separate.mem_groups accepted videoMember imageMember names)
  refine ⟨⟨_, (orderedOperations_ok_iff plan _).mpr ⟨paired.named, rfl⟩, once, ?_⟩,
    ⟨_, (pendingGroups_ok_iff accepted ∅ _).mpr ⟨paired.named, rfl⟩, ?_⟩⟩
  · intro video videoMember image imageMember names
    exact List.infix_of_mem_flatten (grouped video videoMember image imageMember names)
  · rw [filter_groupPending_empty]
    exact ⟨once, grouped⟩

/-! ## A shared motion video -/

/-- Two still images which name one motion video. -/
def sharedVideoPlan : UploadPlan :=
  samplePlan .folder
    [sampleOperation 'a' "a.heic" .image (.livePhotoImage (digestOf '1') (digestOf 'c')) none,
      sampleOperation 'b' "b.heic" .image (.livePhotoImage (digestOf '1') (digestOf 'c')) none,
      sampleOperation 'c' "c.mov" .video (.livePhotoVideo (digestOf '1')) none]

/-- One still image with its motion video and one standalone image. -/
def singlePairPlan : UploadPlan :=
  samplePlan .folder
    [sampleOperation 'a' "a.heic" .image (.livePhotoImage (digestOf '1') (digestOf 'c')) none,
      sampleOperation 'b' "b.heic" .image .standalone none,
      sampleOperation 'c' "c.mov" .video (.livePhotoVideo (digestOf '1')) none]

/-- The validator accepts a second image for one video; neither scheduler runs it. -/
theorem sharedVideoPlan_not_schedulesComplete :
    sharedVideoPlan.validate .reference = .ok () ∧
      ¬SchedulesComplete sharedVideoPlan := by
  have accepted : sharedVideoPlan.validate .reference = .ok () := by
    refine samplePlan_validate _ _ _ ?_ ?_ (by decide) ?_ ?_
    · simp only [List.forall_mem_cons, List.not_mem_nil, false_imp_iff, implies_true, and_true]
      exact ⟨sampleOperation_valid _ _ _ _ (by simp), sampleOperation_valid _ _ _ _ (by simp),
        sampleOperation_valid _ _ _ _ (by simp)⟩
    · simp [sampleOperation]
    · simp [sampleOperation]
    · simp [sampleOperation]
  refine ⟨accepted, fun complete => ?_⟩
  have named : VideosNamed sharedVideoPlan sharedVideoPlan.operations := by
    simp [VideosNamed, sharedVideoPlan, samplePlan, sampleOperation, UploadRole.isLivePhotoVideo,
      UploadOperation.dependsOn]
  have separate := complete.imagesSeparate ((UploadPlan.validate_ok_iff _ _).mp accepted) named
  simp [ImagesSeparate, sharedVideoPlan, samplePlan, sampleOperation,
    UploadOperation.dependsOn] at separate

/-- A plan whose only video has one image is scheduled completely. -/
theorem singlePairPlan_schedulesComplete :
    singlePairPlan.validate .reference = .ok () ∧
      SchedulesComplete singlePairPlan := by
  have accepted : singlePairPlan.validate .reference = .ok () := by
    refine samplePlan_validate _ _ _ ?_ ?_ (by decide) ?_ ?_
    · simp only [List.forall_mem_cons, List.not_mem_nil, false_imp_iff, implies_true, and_true]
      exact ⟨sampleOperation_valid _ _ _ _ (by simp), sampleOperation_valid _ _ _ _ (by simp),
        sampleOperation_valid _ _ _ _ (by simp)⟩
    · simp [sampleOperation]
    · simp [sampleOperation]
    · simp [sampleOperation]
  refine ⟨accepted, (schedulesComplete_iff _ _ accepted).mpr (.inr ?_)⟩
  simp [ImagesSeparate, singlePairPlan, samplePlan, sampleOperation, UploadOperation.dependsOn]

end ImmichRs
