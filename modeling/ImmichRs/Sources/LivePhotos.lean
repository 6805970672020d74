import ImmichRs.Sources.Takeout

/-!
# Live photos

The pairing loop works on positions and changes the list which it reads.  Its effect on each media
file depends on the files of one directory and stem only: the only image and the only motion video
are a pair.
-/

namespace ImmichRs

open Collections

/-! ## Positions -/

section

variable {α : Type} {predicate : α → Bool}

theorem indicesWhere_cons (predicate : α → Bool) (item : α) (rest : List α) :
    indicesWhere predicate (item :: rest) =
      (if predicate item then [0] else []) ++ (indicesWhere predicate rest).map Nat.succ := by
  rw [indicesWhere, List.length_cons, List.range_succ_eq_map, List.filter_cons, List.filter_map]
  cases accepted : predicate item with
  | true => simp [accepted, indicesWhere, Function.comp_def]
  | false => simp [accepted, indicesWhere, Function.comp_def]

/-- Positions stand for the items at them. -/
theorem forall₂_indicesWhere (predicate : α → Bool) (items : List α) :
    List.Forall₂ (fun index item => items[index]? = some item) (indicesWhere predicate items)
      (items.filter predicate) := by
  induction items with
  | nil => exact .nil
  | cons item rest induction =>
      have shifted : List.Forall₂ (fun index other => (item :: rest)[index]? = some other)
          ((indicesWhere predicate rest).map Nat.succ) (rest.filter predicate) := by
        rw [List.forall₂_map_left_iff]
        exact induction.imp fun index other found => by simpa using found
      rw [indicesWhere_cons, List.filter_cons]
      cases predicate item with
      | true => exact .cons rfl shifted
      | false => exact shifted

theorem mem_indicesWhere {items : List α} {index : Nat} :
    index ∈ indicesWhere predicate items ↔
      ∃ item, items[index]? = some item ∧ predicate item = true := by
  rw [indicesWhere, List.mem_filter, List.mem_range, Option.any_eq_true]
  constructor
  · exact And.right
  · rintro ⟨item, found, accepted⟩
    exact ⟨(List.getElem?_eq_some_iff.mp found).1, item, found, accepted⟩

theorem indicesWhere_filter (first second : α → Bool) (items : List α) :
    (indicesWhere first items).filter (fun index => (items[index]?).any second) =
      indicesWhere (fun item => first item && second item) items := by
  rw [indicesWhere, List.filter_filter, indicesWhere]
  apply List.filter_congr
  intro index _
  cases items[index]? with
  | none => rfl
  | some item => exact Bool.and_comm _ _

/-- A change which no item's predicate sees moves no position. -/
theorem indicesWhere_map {β : Type} (change : α → β) (predicate : β → Bool) (items : List α) :
    indicesWhere predicate (items.map change) = indicesWhere (predicate ∘ change) items := by
  rw [indicesWhere, indicesWhere, List.length_map]
  apply List.filter_congr
  intro index _
  rw [List.getElem?_map, Option.any_map]
  rfl

end

/-! ## Files and attached facts -/

/-- A media file without the metadata which reconciliation attaches. -/
def DiscoveredMedia.bare (media : DiscoveredMedia) : DiscoveredMedia :=
  { media with metadata := [], normalizedMetadata := none, evidence := [] }

/-- A media file without its metadata and its live photo. -/
def DiscoveredMedia.file (media : DiscoveredMedia) : DiscoveredMedia :=
  { media.bare with livePhoto := none }

/-! ## The pair of a directory and stem -/

section

variable (platform : SourcePlatform)

/-- The images of a directory and stem. -/
def stillsOf (media : List DiscoveredMedia) (key : String ×ₗ String) : List DiscoveredMedia :=
  media.filter fun item => decide (livePhotoKey item = key) && item.kind == .image

/-- The motion videos of a directory and stem. -/
def motionsOf (media : List DiscoveredMedia) (key : String ×ₗ String) : List DiscoveredMedia :=
  media.filter fun item => decide (livePhotoKey item = key) && isMotionVideo platform item

/-- The live photo of a directory and stem. -/
def pairOf (media : List DiscoveredMedia) (key : String ×ₗ String) :
    Option (DiscoveredMedia × DiscoveredMedia) :=
  match stillsOf media key, motionsOf platform media key with
  | [still], [motion] => some (still, motion)
  | _, _ => none

/-- A media file with its role in a live photo. -/
def DiscoveredMedia.inPair (pairId : String) (media : DiscoveredMedia) : DiscoveredMedia :=
  if media.kind = .image then
    media.asMember pairId .image
  else if isMotionVideo platform media then
    media.asMember pairId .video
  else
    media

/-- What pairing makes of one media file. -/
def memberOf (media : List DiscoveredMedia) (item : DiscoveredMedia) : DiscoveredMedia :=
  match pairOf platform media (livePhotoKey item) with
  | none => item
  | some (still, motion) =>
      item.inPair platform (pairId platform still.relativePath motion.relativePath)

/-- A change of attached facts only. -/
def KeepsFile (change : DiscoveredMedia → DiscoveredMedia) : Prop :=
  ∀ media, (change media).file = media.file

theorem KeepsFile.relativePath {change : DiscoveredMedia → DiscoveredMedia}
    (keeps : KeepsFile change) (media : DiscoveredMedia) :
    (change media).relativePath = media.relativePath := by
  have same := congrArg DiscoveredMedia.relativePath (keeps media)
  exact same

theorem KeepsFile.kind {change : DiscoveredMedia → DiscoveredMedia} (keeps : KeepsFile change)
    (media : DiscoveredMedia) : (change media).kind = media.kind := by
  have same := congrArg DiscoveredMedia.kind (keeps media)
  exact same

theorem KeepsFile.livePhotoKey {change : DiscoveredMedia → DiscoveredMedia}
    (keeps : KeepsFile change) (media : DiscoveredMedia) :
    livePhotoKey (change media) = livePhotoKey media := by
  rw [ImmichRs.livePhotoKey, ImmichRs.livePhotoKey, keeps.relativePath]

theorem KeepsFile.isMotionVideo {change : DiscoveredMedia → DiscoveredMedia}
    (keeps : KeepsFile change) (media : DiscoveredMedia) :
    isMotionVideo platform (change media) = isMotionVideo platform media := by
  rw [ImmichRs.isMotionVideo, ImmichRs.isMotionVideo, keeps.kind, keeps.relativePath]

theorem not_isMotionVideo_of_image {media : DiscoveredMedia} (image : media.kind = .image) :
    isMotionVideo platform media = false := by
  rw [isMotionVideo, image]
  rfl

theorem keepsFile_inPair (pairId : String) :
    KeepsFile (DiscoveredMedia.inPair platform pairId) := by
  intro media
  rw [DiscoveredMedia.inPair]
  split
  · rfl
  · split <;> rfl

theorem keepsFile_memberOf (media : List DiscoveredMedia) :
    KeepsFile (memberOf platform media) := by
  intro item
  rw [memberOf]
  split
  · rfl
  · exact keepsFile_inPair platform _ item

/-! ## The loop -/

theorem groupImages_map {change : DiscoveredMedia → DiscoveredMedia} (keeps : KeepsFile change)
    (media : List DiscoveredMedia) (key : String ×ₗ String) :
    groupImages (media.map change) (indicesWhere (fun item => livePhotoKey item = key) media) =
      indicesWhere (fun item => decide (livePhotoKey item = key) && item.kind == .image)
        media := by
  rw [groupImages, ← indicesWhere_filter]
  apply List.filter_congr
  intro index _
  rw [List.getElem?_map, Option.any_map]
  congr 1
  funext item
  rw [keeps.kind]

theorem groupVideos_map {change : DiscoveredMedia → DiscoveredMedia} (keeps : KeepsFile change)
    (media : List DiscoveredMedia) (key : String ×ₗ String) :
    groupVideos platform (media.map change)
        (indicesWhere (fun item => livePhotoKey item = key) media) =
      indicesWhere (fun item => decide (livePhotoKey item = key) && isMotionVideo platform item)
        media := by
  rw [groupVideos, ← indicesWhere_filter]
  apply List.filter_congr
  intro index _
  rw [List.getElem?_map, Option.any_map]
  congr 1
  funext item
  rw [keeps.isMotionVideo]

/-- The media files once some directories and stems have been paired. -/
def pairedUpTo (media : List DiscoveredMedia) (done : List (String ×ₗ String))
    (item : DiscoveredMedia) : DiscoveredMedia :=
  if livePhotoKey item ∈ done then memberOf platform media item else item

theorem keepsFile_pairedUpTo (media : List DiscoveredMedia) (done : List (String ×ₗ String)) :
    KeepsFile (pairedUpTo platform media done) := by
  intro item
  rw [pairedUpTo]
  split
  · exact keepsFile_memberOf platform media item
  · rfl

theorem pairedUpTo_cons_of_ne {media : List DiscoveredMedia} {done : List (String ×ₗ String)}
    {key : String ×ₗ String} {item : DiscoveredMedia} (other : livePhotoKey item ≠ key) :
    pairedUpTo platform media (key :: done) item = pairedUpTo platform media done item := by
  simp only [pairedUpTo, List.mem_cons, other, false_or]

/-- Where there is no pair, pairing changes nothing. -/
theorem pairedUpTo_cons_of_none {media : List DiscoveredMedia} {done : List (String ×ₗ String)}
    {key : String ×ₗ String} (unpaired : pairOf platform media key = none) :
    pairedUpTo platform media (key :: done) = pairedUpTo platform media done := by
  funext item
  by_cases same : livePhotoKey item = key
  · have kept : memberOf platform media item = item := by rw [memberOf, same, unpaired]
    simp only [pairedUpTo, kept, ite_self]
  · exact pairedUpTo_cons_of_ne platform same

/-- The only position where a predicate holds. -/
theorem indicesWhere_eq_singleton {α : Type} {predicate : α → Bool} {items : List α} {index : Nat}
    (single : indicesWhere predicate items = [index]) :
    ∃ item, items[index]? = some item ∧ items.filter predicate = [item] := by
  have stands := forall₂_indicesWhere predicate items
  rw [single] at stands
  obtain ⟨item, rest, found, remaining, shape⟩ := List.forall₂_cons_left_iff.mp stands
  rw [List.forall₂_nil_left_iff.mp remaining] at shape
  exact ⟨item, found, shape⟩

/-- An item satisfies a predicate exactly where its only position is. -/
theorem eq_iff_of_indicesWhere_eq_singleton {α : Type} {predicate : α → Bool} {items : List α}
    {index position : Nat} {item : α} (single : indicesWhere predicate items = [index])
    (found : items[position]? = some item) : index = position ↔ predicate item = true := by
  have member : position ∈ indicesWhere predicate items ↔ _ := mem_indicesWhere
  rw [single, List.mem_singleton, found] at member
  rw [eq_comm, member]
  simp

/-- One group of the loop pairs the files of its directory and stem. -/
theorem pairGroup_eq {media : List DiscoveredMedia} {done : List (String ×ₗ String)}
    {key : String ×ₗ String} (fresh : key ∉ done) :
    pairGroup platform (media.map (pairedUpTo platform media done))
        (indicesWhere (fun item => livePhotoKey item = key) media) =
      media.map (pairedUpTo platform media (key :: done)) := by
  have keeps := keepsFile_pairedUpTo platform media done
  rw [pairGroup, groupImages_map keeps, groupVideos_map platform keeps]
  split
  · rename_i image video images videos
    obtain ⟨still, stillFound, stills⟩ := indicesWhere_eq_singleton images
    obtain ⟨motion, motionFound, motions⟩ := indicesWhere_eq_singleton videos
    have paired : pairOf platform media key = some (still, motion) := by
      rw [pairOf, stillsOf, motionsOf, stills, motions]
    simp only [List.getElem?_map, stillFound, motionFound, Option.map_some, keeps.relativePath]
    apply List.ext_getElem?
    intro position
    rw [List.getElem?_modify, List.getElem?_modify, List.getElem?_map, List.getElem?_map]
    cases found : media[position]? with
    | none => rfl
    | some item =>
        have atImage := eq_iff_of_indicesWhere_eq_singleton images found
        have atVideo := eq_iff_of_indicesWhere_eq_singleton videos found
        simp only [Option.map_some, Functor.map, atImage, atVideo, Bool.and_eq_true,
          decide_eq_true_eq, beq_iff_eq]
        by_cases same : livePhotoKey item = key
        · have unpaired : pairedUpTo platform media done item = item := by
            rw [pairedUpTo, same, if_neg fresh]
          have member : pairedUpTo platform media (key :: done) item =
              item.inPair platform (pairId platform still.relativePath motion.relativePath) := by
            rw [pairedUpTo, same, if_pos List.mem_cons_self, memberOf, same, paired]
          rw [member, unpaired, DiscoveredMedia.inPair]
          by_cases image : item.kind = .image
          · have still := not_isMotionVideo_of_image platform image
            simp [same, image, still]
          · by_cases motion : isMotionVideo platform item = true
            · simp [same, image, motion]
            · simp [same, image, motion]
        · rw [pairedUpTo_cons_of_ne platform same]
          simp [same]
  · rename_i shape
    have unpaired : pairOf platform media key = none := by
      rw [pairOf]
      split
      · rename_i still motion stills motions
        have stillsAt := forall₂_indicesWhere
          (fun item => decide (livePhotoKey item = key) && item.kind == .image) media
        have motionsAt := forall₂_indicesWhere
          (fun item => decide (livePhotoKey item = key) && isMotionVideo platform item) media
        rw [← stillsOf, stills] at stillsAt
        rw [← motionsOf, motions] at motionsAt
        obtain ⟨image, _, _, noImages, imageShape⟩ := List.forall₂_cons_right_iff.mp stillsAt
        obtain ⟨video, _, _, noVideos, videoShape⟩ := List.forall₂_cons_right_iff.mp motionsAt
        rw [List.forall₂_nil_right_iff.mp noImages] at imageShape
        rw [List.forall₂_nil_right_iff.mp noVideos] at videoShape
        exact absurd videoShape (shape image video imageShape)
      · rfl
    rw [pairedUpTo_cons_of_none platform unpaired]

theorem foldl_pairGroup (media : List DiscoveredMedia) {keys done : List (String ×ₗ String)}
    (distinct : (keys ++ done).Nodup) :
    (keys.map fun key => indicesWhere (fun item => livePhotoKey item = key) media).foldl
        (pairGroup platform) (media.map (pairedUpTo platform media done)) =
      media.map (pairedUpTo platform media (keys.reverse ++ done)) := by
  induction keys generalizing done with
  | nil => rfl
  | cons key rest induction =>
      obtain ⟨fresh, tail⟩ := List.nodup_cons.mp distinct
      have unseen : key ∉ done := fun member => fresh (List.mem_append_right rest member)
      have next : (rest ++ key :: done).Nodup := List.nodup_middle.mpr distinct
      rw [List.map_cons, List.foldl_cons, pairGroup_eq platform unseen, induction next,
        List.reverse_cons, List.append_assoc, List.singleton_append]

/-- Pairing changes each media file on its own. -/
theorem reconcileLivePhotos_eq_map (media : List DiscoveredMedia) :
    reconcileLivePhotos platform media = media.map (memberOf platform media) := by
  have start : media = media.map (pairedUpTo platform media []) := by
    have identity : pairedUpTo platform media [] = id := by
      funext item
      simp [pairedUpTo]
    rw [identity, List.map_id]
  have distinct : (sortDedup (media.map livePhotoKey) ++ []).Nodup := by
    rw [List.append_nil]
    exact (pairwise_sortDedup _).imp fun less => ne_of_lt less
  have run := foldl_pairGroup platform media distinct
  rw [← start] at run
  rw [reconcileLivePhotos, livePhotoGroups, run]
  apply List.map_congr_left
  intro item member
  have listed : livePhotoKey item ∈
      (sortDedup (media.map livePhotoKey)).reverse ++ ([] : List (String ×ₗ String)) := by
    rw [List.append_nil, List.mem_reverse, mem_sortDedup]
    exact List.mem_map_of_mem member
  rw [pairedUpTo, if_pos listed]

/-! ## Members of pairs -/

/-- What the pair of a directory and stem consists of. -/
structure IsPair (media : List DiscoveredMedia) (key : String ×ₗ String)
    (still motion : DiscoveredMedia) : Prop where
  still_mem : still ∈ media
  motion_mem : motion ∈ media
  still_key : livePhotoKey still = key
  motion_key : livePhotoKey motion = key
  still_kind : still.kind = .image
  motion_kind : isMotionVideo platform motion = true
  only_still : ∀ other ∈ media, livePhotoKey other = key → other.kind = .image → other = still
  only_motion : ∀ other ∈ media, livePhotoKey other = key → isMotionVideo platform other = true →
    other = motion

theorem isPair_of_pairOf {media : List DiscoveredMedia} {key : String ×ₗ String}
    {still motion : DiscoveredMedia} (paired : pairOf platform media key = some (still, motion)) :
    IsPair platform media key still motion := by
  rw [pairOf] at paired
  split at paired
  · rename_i first second stills motions
    obtain ⟨rfl, rfl⟩ := Prod.mk.inj (Option.some.inj paired)
    have stillAt : ∀ other, other ∈ stillsOf media key ↔ other = first := by simp [stills]
    have motionAt : ∀ other, other ∈ motionsOf platform media key ↔ other = second := by
      simp [motions]
    simp only [stillsOf, motionsOf, List.mem_filter, Bool.and_eq_true, decide_eq_true_eq,
      beq_iff_eq] at stillAt motionAt
    obtain ⟨stillMember, stillKey, image⟩ := (stillAt first).mpr rfl
    obtain ⟨motionMember, motionKey, video⟩ := (motionAt second).mpr rfl
    exact
      { still_mem := stillMember
        motion_mem := motionMember
        still_key := stillKey
        motion_key := motionKey
        still_kind := image
        motion_kind := video
        only_still := fun other member key image => (stillAt other).mp ⟨member, key, image⟩
        only_motion := fun other member key video => (motionAt other).mp ⟨member, key, video⟩ }
  · cases paired

theorem memberOf_eq_inPair {media : List DiscoveredMedia} {item still motion : DiscoveredMedia}
    (paired : pairOf platform media (livePhotoKey item) = some (still, motion)) :
    memberOf platform media item =
      item.inPair platform (pairId platform still.relativePath motion.relativePath) := by
  rw [memberOf, paired]

/-- A media file which pairing made a member is the image or the video of the pair of its directory
and stem. -/
theorem livePhoto_memberOf {media : List DiscoveredMedia} {item : DiscoveredMedia}
    {member : LivePhotoMember} (listed : item ∈ media) (unpaired : item.livePhoto = none)
    (paired : (memberOf platform media item).livePhoto = some member) :
    ∃ still motion, pairOf platform media (livePhotoKey item) = some (still, motion) ∧
      member.pairId = pairId platform still.relativePath motion.relativePath ∧
      (member.role = .image ∧ item = still ∨ member.role = .video ∧ item = motion) := by
  cases found : pairOf platform media (livePhotoKey item) with
  | none =>
      rw [memberOf, found, unpaired] at paired
      cases paired
  | some pair =>
      obtain ⟨still, motion⟩ := pair
      have isPair := isPair_of_pairOf platform found
      rw [memberOf_eq_inPair platform found, DiscoveredMedia.inPair] at paired
      refine ⟨still, motion, rfl, ?_⟩
      split at paired
      · rename_i image
        obtain rfl := Option.some.inj paired
        exact ⟨rfl, .inl ⟨rfl, isPair.only_still item listed rfl image⟩⟩
      · split at paired
        · rename_i video
          obtain rfl := Option.some.inj paired
          exact ⟨rfl, .inr ⟨rfl, isPair.only_motion item listed rfl video⟩⟩
        · rw [unpaired] at paired
          cases paired

theorem livePhoto_memberOf_still {media : List DiscoveredMedia} {key : String ×ₗ String}
    {still motion : DiscoveredMedia} (paired : pairOf platform media key = some (still, motion)) :
    (memberOf platform media still).livePhoto =
      some ⟨pairId platform still.relativePath motion.relativePath, .image⟩ := by
  have isPair := isPair_of_pairOf platform paired
  rw [← isPair.still_key] at paired
  rw [memberOf_eq_inPair platform paired, DiscoveredMedia.inPair, if_pos isPair.still_kind]
  rfl

theorem livePhoto_memberOf_motion {media : List DiscoveredMedia} {key : String ×ₗ String}
    {still motion : DiscoveredMedia} (paired : pairOf platform media key = some (still, motion)) :
    (memberOf platform media motion).livePhoto =
      some ⟨pairId platform still.relativePath motion.relativePath, .video⟩ := by
  have isPair := isPair_of_pairOf platform paired
  have notImage : motion.kind ≠ .image := by
    intro image
    have still := not_isMotionVideo_of_image platform image
    rw [isPair.motion_kind] at still
    cases still
  rw [← isPair.motion_key] at paired
  rw [memberOf_eq_inPair platform paired, DiscoveredMedia.inPair, if_neg notImage,
    if_pos isPair.motion_kind]
  rfl

/-- The digests which name the possible pairs of some media files are different. -/
def PairIdsDistinct (media : List DiscoveredMedia) : Prop :=
  ∀ still ∈ media, ∀ motion ∈ media, ∀ otherStill ∈ media, ∀ otherMotion ∈ media,
    still.kind = .image → isMotionVideo platform motion = true →
    otherStill.kind = .image → isMotionVideo platform otherMotion = true →
    pairId platform still.relativePath motion.relativePath =
      pairId platform otherStill.relativePath otherMotion.relativePath →
    still.relativePath = otherStill.relativePath ∧ motion.relativePath = otherMotion.relativePath

/-- No two media files are the same member of one pair. -/
theorem eq_of_livePhoto_memberOf {media : List DiscoveredMedia}
    (distinct : (media.map DiscoveredMedia.relativePath).Nodup)
    (ids : PairIdsDistinct platform media) (unpaired : ∀ item ∈ media, item.livePhoto = none)
    {first second : DiscoveredMedia} {member : LivePhotoMember}
    (firstListed : first ∈ media) (secondListed : second ∈ media)
    (firstPaired : (memberOf platform media first).livePhoto = some member)
    (secondPaired : (memberOf platform media second).livePhoto = some member) :
    first = second := by
  obtain ⟨still, motion, found, id, role⟩ :=
    livePhoto_memberOf platform firstListed (unpaired first firstListed) firstPaired
  obtain ⟨otherStill, otherMotion, otherFound, otherId, otherRole⟩ :=
    livePhoto_memberOf platform secondListed (unpaired second secondListed) secondPaired
  have isPair := isPair_of_pairOf platform found
  have otherIsPair := isPair_of_pairOf platform otherFound
  have paths := ids still isPair.still_mem motion isPair.motion_mem otherStill
    otherIsPair.still_mem otherMotion otherIsPair.motion_mem isPair.still_kind isPair.motion_kind
    otherIsPair.still_kind otherIsPair.motion_kind (id.symm.trans otherId)
  have path : first.relativePath = second.relativePath := by
    rcases role with ⟨role, rfl⟩ | ⟨role, rfl⟩ <;>
      rcases otherRole with ⟨otherRole, rfl⟩ | ⟨otherRole, rfl⟩
    · exact paths.1
    · rw [role] at otherRole
      cases otherRole
    · rw [role] at otherRole
      cases otherRole
    · exact paths.2
  exact List.inj_on_of_nodup_map distinct firstListed secondListed path

end

end ImmichRs
