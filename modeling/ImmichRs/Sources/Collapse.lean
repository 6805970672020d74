import ImmichRs.Sources.Aliases

/-!
# Collapsing the aliases of one content

Each content keeps one media file, the least of its aliases, with the sidecars and the evidence of
all of them.  Its metadata says what any alias says, or is dropped with an error where two aliases
say different things.
-/

namespace ImmichRs

open Collections

/-! ## One content -/

/-- The record of a collapse. -/
def collapseEvidence : RuleEvidence :=
  { ruleId := "META_GOOGLE_TAKEOUT_CONTENT_ALIAS_V1"
    outcome := "content_identical_paths_collapsed" }

/-- The albums of a media file. -/
def DiscoveredMedia.albums (media : DiscoveredMedia) : List String :=
  (media.normalizedMetadata.map NormalizedMetadata.albums).getD []

/-- Whether both values are set, to different ones. -/
def SetDifferently {α : Type} (left right : Option α) : Prop :=
  ∃ first ∈ left, ∃ second ∈ right, first ≠ second

/-- Two aliases set different values for description, time or location. -/
def AliasesConflict (aliases : List DiscoveredMedia) : Prop :=
  ∃ first ∈ aliases, ∃ left ∈ first.normalizedMetadata,
    ∃ second ∈ aliases, ∃ right ∈ second.normalizedMetadata,
      SetDifferently left.description right.description ∨
        SetDifferently left.takenAtUtc right.takenAtUtc ∨
          SetDifferently left.location right.location

/-- Every field which is given is merged. -/
structure NormalizedMetadata.Keeps (merged given : NormalizedMetadata) : Prop where
  description : ∀ text ∈ given.description, merged.description = some text
  takenAtUtc : ∀ text ∈ given.takenAtUtc, merged.takenAtUtc = some text
  location : ∀ place ∈ given.location, merged.location = some place

/-- A media file has the metadata of all aliases and no other. -/
structure MergesAll (aliases : List DiscoveredMedia) (item : DiscoveredMedia) : Prop where
  keeps : ∀ aliased ∈ aliases, ∀ given ∈ aliased.normalizedMetadata,
    ∃ merged ∈ item.normalizedMetadata, merged.Keeps given
  albums : ∀ album, album ∈ item.albums ↔ ∃ aliased ∈ aliases, album ∈ aliased.albums

/-- An error for the conflict of a media file. -/
def ReportsConflict (item : DiscoveredMedia) (error : PlanDiagnostic) : Prop :=
  error.ruleId = "META_GOOGLE_TAKEOUT_CONFLICT_V1" ∧ error.paths = [item.relativePath]

/-- The media file which the aliases of one content leave, with its errors. -/
structure CollapsedFrom (aliases : List DiscoveredMedia) (item : DiscoveredMedia)
    (errors : List PlanDiagnostic) : Prop where
  canonical : ∃ canonical ∈ aliases,
    (∀ other ∈ aliases, aliasKey canonical ≤ aliasKey other) ∧
      item = { canonical with
        metadata := item.metadata
        evidence := item.evidence
        normalizedMetadata := item.normalizedMetadata }
  metadata : item.metadata.Perm (aliases.flatMap DiscoveredMedia.metadata)
  evidence : item.evidence.Perm (aliases.flatMap DiscoveredMedia.evidence ++
    if 1 < aliases.length then [collapseEvidence] else [])
  described : MergesAll aliases item ∧ errors = [] ∨
    AliasesConflict aliases ∧ item.normalizedMetadata = none ∧
      ∃ error ∈ errors, ReportsConflict item error

/-! ## The loop over the aliases -/

theorem setDifferently_of_differing {α : Type} [DecidableEq α] {left right : Option α}
    (different : differing left right = true) : SetDifferently left right := by
  by_contra same
  have equal : differing left right = false := by
    apply differing_eq_false_iff.mpr
    intro first firstFound second secondFound
    by_contra unequal
    exact same ⟨first, firstFound, second, secondFound, unequal⟩
  rw [different] at equal
  cases equal

/-- What one content has after some of its aliases. -/
structure AliasMerge.Extends (merge after : AliasMerge) (others : List DiscoveredMedia) :
    Prop where
  canonical : after.canonical = { merge.canonical with
    metadata := merge.canonical.metadata ++ others.flatMap DiscoveredMedia.metadata
    evidence := merge.canonical.evidence ++ others.flatMap DiscoveredMedia.evidence
    normalizedMetadata := after.canonical.normalizedMetadata }
  calm : after.metadataConflicted = false →
    merge.metadataConflicted = false ∧ after.errors = merge.errors
  reported : (merge.metadataConflicted = true →
      ∃ error ∈ merge.errors, ReportsConflict merge.canonical error) →
    after.metadataConflicted = true → ∃ error ∈ after.errors, ReportsConflict merge.canonical error

theorem mergeNormalized_calm {left right : NormalizedMetadata} {path : String}
    (calm : (mergeNormalized left right path).2.1 = false) :
    (mergeNormalized left right path).2.2 = [] := by
  have flags := conflicting_eq_false_iff.mp calm
  rw [differing, differing, differing] at flags
  rw [mergeNormalized]
  dsimp only
  rw [flags.1, flags.2.1, flags.2.2]
  rfl

theorem mergeNormalized_reported {left right : NormalizedMetadata} {path : String}
    (conflicted : (mergeNormalized left right path).2.1 = true) :
    ∃ error ∈ (mergeNormalized left right path).2.2,
      error.ruleId = "META_GOOGLE_TAKEOUT_CONFLICT_V1" ∧ error.paths = [path] := by
  have reports : ∀ code, ∃ error ∈ mergeError true path code,
      error.ruleId = "META_GOOGLE_TAKEOUT_CONFLICT_V1" ∧ error.paths = [path] := by
    intro code
    refine ⟨_, List.mem_singleton_self _, rfl, ?_⟩
    rw [diagnostic]
    simp [sortDedup, maxDiagnosticPaths]
  rw [mergeNormalized] at conflicted ⊢
  dsimp only at conflicted ⊢
  rw [Bool.or_eq_true, Bool.or_eq_true] at conflicted
  rcases conflicted with (description | takenAtUtc) | location
  · obtain ⟨error, member, report⟩ := reports "conflicting_takeout_description"
    rw [description]
    exact ⟨error, List.mem_append_left _ (List.mem_append_left _ member), report⟩
  · obtain ⟨error, member, report⟩ := reports "conflicting_takeout_timestamp"
    rw [takenAtUtc]
    exact ⟨error, List.mem_append_left _ (List.mem_append_right _ member), report⟩
  · obtain ⟨error, member, report⟩ := reports "conflicting_takeout_location"
    rw [location]
    exact ⟨error, List.mem_append_right _ member, report⟩

theorem mergeAlias_extends (merge : AliasMerge) (aliased : DiscoveredMedia) :
    merge.Extends (mergeAlias merge aliased) [aliased] := by
  rw [mergeAlias]
  dsimp only
  split
  · rename_i conflicted
    constructor
    · simp
    · intro calm
      rw [conflicted] at calm
      cases calm
    · exact fun before _ => before conflicted
  · rename_i calm
    rw [Bool.not_eq_true] at calm
    split
    · constructor
      · simp
      · exact fun _ => ⟨calm, rfl⟩
      · exact fun before conflicted => before conflicted
    · rename_i left right _ _
      constructor
      · simp
      · intro merged
        refine ⟨calm, ?_⟩
        dsimp only at merged ⊢
        rw [mergeNormalized_calm merged, List.append_nil]
      · intro _ conflicted
        obtain ⟨error, member, report⟩ := mergeNormalized_reported conflicted
        exact ⟨error, List.mem_append_right _ member, report⟩
    · constructor
      · simp
      · exact fun _ => ⟨calm, rfl⟩
      · exact fun before conflicted => before conflicted

theorem foldl_mergeAlias_extends (merge : AliasMerge) (others : List DiscoveredMedia) :
    merge.Extends (others.foldl mergeAlias merge) others := by
  induction others generalizing merge with
  | nil =>
      constructor
      · simp
      · exact fun calm => ⟨calm, rfl⟩
      · exact fun before => before
  | cons aliased rest induction =>
      have first := mergeAlias_extends merge aliased
      have later := induction (mergeAlias merge aliased)
      have path : (mergeAlias merge aliased).canonical.relativePath =
          merge.canonical.relativePath := by rw [first.canonical]
      rw [List.foldl_cons]
      constructor
      · rw [later.canonical, first.canonical]
        simp
      · intro calm
        obtain ⟨between, laterErrors⟩ := later.calm calm
        obtain ⟨before, firstErrors⟩ := first.calm between
        exact ⟨before, laterErrors.trans firstErrors⟩
      · intro before conflicted
        have reported := later.reported fun between => by
          simpa only [ReportsConflict, path] using first.reported before between
        simpa only [ReportsConflict, path] using reported conflicted

/-! ## Metadata -/

theorem mem_metadataParts {aliases : List DiscoveredMedia} {part : NormalizedMetadata} :
    part ∈ metadataParts aliases ↔ ∃ aliased ∈ aliases, part ∈ aliased.normalizedMetadata :=
  List.mem_filterMap

theorem DiscoveredMedia.mem_albums {media : DiscoveredMedia} {album : String} :
    album ∈ media.albums ↔ ∃ metadata ∈ media.normalizedMetadata, album ∈ metadata.albums := by
  rw [albums]
  cases media.normalizedMetadata with
  | none => simp
  | some metadata => simp

theorem MergedFrom.mergesAll {aliases : List DiscoveredMedia} {item : DiscoveredMedia}
    (merged : MergedFrom (metadataParts aliases) false item.normalizedMetadata) :
    MergesAll aliases item := by
  constructor
  · intro aliased member given found
    have part : given ∈ metadataParts aliases := mem_metadataParts.mpr ⟨aliased, member, found⟩
    cases shape : item.normalizedMetadata with
    | none =>
        rw [merged.nothing rfl shape] at part
        cases part
    | some metadata =>
        have unites := merged.united rfl metadata shape
        refine ⟨metadata, rfl, ?_, ?_, ?_⟩
        · exact fun text present => (unites.description text).mpr ⟨given, part, present⟩
        · exact fun text present => (unites.takenAtUtc text).mpr ⟨given, part, present⟩
        · exact fun place present => (unites.location place).mpr ⟨given, part, present⟩
  · intro album
    simp only [DiscoveredMedia.mem_albums]
    cases shape : item.normalizedMetadata with
    | none =>
        have parts := merged.nothing rfl shape
        constructor
        · rintro ⟨metadata, absent, _⟩
          cases absent
        · rintro ⟨aliased, member, part, found, _⟩
          have listed := mem_metadataParts.mpr ⟨aliased, member, found⟩
          rw [parts] at listed
          cases listed
    | some metadata =>
        have unites := merged.united rfl metadata shape
        constructor
        · rintro ⟨_, same, present⟩
          cases same
          obtain ⟨part, listed, present⟩ := (unites.albums album).mp present
          obtain ⟨aliased, member, found⟩ := mem_metadataParts.mp listed
          exact ⟨aliased, member, part, found, present⟩
        · rintro ⟨aliased, member, part, found, present⟩
          have listed := mem_metadataParts.mpr ⟨aliased, member, found⟩
          exact ⟨metadata, rfl, (unites.albums album).mpr ⟨part, listed, present⟩⟩

theorem MergedFrom.aliasesConflict {aliases : List DiscoveredMedia}
    {result : Option NormalizedMetadata} (merged : MergedFrom (metadataParts aliases) true result) :
    AliasesConflict aliases ∧ result = none := by
  obtain ⟨absent, left, leftPart, right, rightPart, conflict⟩ := merged.conflict rfl
  obtain ⟨first, firstMember, leftFound⟩ := mem_metadataParts.mp leftPart
  obtain ⟨second, secondMember, rightFound⟩ := mem_metadataParts.mp rightPart
  refine ⟨⟨first, firstMember, left, leftFound, second, secondMember, right, rightFound, ?_⟩,
    absent⟩
  rw [conflicting, Bool.or_eq_true, Bool.or_eq_true, or_assoc] at conflict
  exact conflict.imp setDifferently_of_differing
    (Or.imp setDifferently_of_differing setDifferently_of_differing)

/-- Only the set of the aliases matters for the metadata. -/
theorem MergesAll.of_perm {first second : List DiscoveredMedia} {item : DiscoveredMedia}
    (merges : MergesAll first item) (permuted : first.Perm second) : MergesAll second item := by
  constructor
  · exact fun aliased member => merges.keeps aliased (permuted.mem_iff.mpr member)
  · intro album
    simp only [merges.albums, permuted.mem_iff]

theorem AliasesConflict.of_perm {first second : List DiscoveredMedia}
    (conflict : AliasesConflict first) (permuted : first.Perm second) :
    AliasesConflict second := by
  obtain ⟨left, leftMember, leftMetadata, leftFound, right, rightMember, rest⟩ := conflict
  exact ⟨left, permuted.mem_iff.mp leftMember, leftMetadata, leftFound, right,
    permuted.mem_iff.mp rightMember, rest⟩

theorem CollapsedFrom.of_perm {first second : List DiscoveredMedia} {item : DiscoveredMedia}
    {errors : List PlanDiagnostic} (collapsed : CollapsedFrom first item errors)
    (permuted : first.Perm second) : CollapsedFrom second item errors := by
  obtain ⟨canonical, member, least, same⟩ := collapsed.canonical
  constructor
  · exact ⟨canonical, permuted.mem_iff.mp member,
      fun other listed => least other (permuted.mem_iff.mpr listed), same⟩
  · exact collapsed.metadata.trans (permuted.flatMap_right _)
  · rw [← permuted.length_eq]
    exact collapsed.evidence.trans ((permuted.flatMap_right _).append_right _)
  · rcases collapsed.described with ⟨merges, calm⟩ | ⟨conflict, absent, reported⟩
    · exact .inl ⟨merges.of_perm permuted, calm⟩
    · exact .inr ⟨conflict.of_perm permuted, absent, reported⟩

/-! ## The collapse -/

/-- The aliases of one content in their order are collapsed. -/
theorem collapsedFrom_sorted {canonical : DiscoveredMedia} {others : List DiscoveredMedia}
    (least : ∀ other ∈ canonical :: others, aliasKey canonical ≤ aliasKey other)
    (several : others ≠ []) {merged : AliasMerge}
    (folded : merged = others.foldl mergeAlias
      { canonical, metadataConflicted := false, errors := [] }) :
    CollapsedFrom (canonical :: others)
      { merged.canonical with evidence := merged.canonical.evidence ++ [collapseEvidence] }
      merged.errors := by
  have extension := foldl_mergeAlias_extends
    { canonical, metadataConflicted := false, errors := [] } others
  have parts := @foldl_mergeAlias_merged others [canonical]
    { canonical, metadataConflicted := false, errors := [] } (mergedFrom_single canonical)
  rw [← folded] at extension parts
  have count : 1 < (canonical :: others).length := by
    rw [List.length_cons]
    exact Nat.succ_lt_succ (List.length_pos_of_ne_nil several)
  have path : merged.canonical.relativePath = canonical.relativePath := by
    rw [extension.canonical]
  constructor
  · refine ⟨canonical, List.mem_cons_self, least, ?_⟩
    rw [extension.canonical]
  · rw [extension.canonical]
    exact .refl _
  · rw [extension.canonical, if_pos count]
    exact .refl _
  · cases conflicted : merged.metadataConflicted with
    | false =>
        rw [conflicted] at parts
        have unchanged : ({ merged.canonical with
            evidence := merged.canonical.evidence ++ [collapseEvidence] } :
              DiscoveredMedia).normalizedMetadata = merged.canonical.normalizedMetadata := rfl
        refine .inl ⟨MergedFrom.mergesAll ?_, (extension.calm conflicted).2⟩
        rw [unchanged]
        exact parts
    | true =>
        rw [conflicted] at parts
        obtain ⟨conflict, absent⟩ := parts.aliasesConflict
        obtain ⟨error, member, report⟩ := extension.reported (fun flag => by cases flag) conflicted
        refine .inr ⟨conflict, absent, error, member, ?_⟩
        rw [ReportsConflict] at report ⊢
        rw [path]
        exact report

/-- The aliases of one content are collapsed, in whichever order they come. -/
theorem collapseAliases_collapsed {aliases : List DiscoveredMedia}
    {group : DiscoveredMedia × List PlanDiagnostic × List PlanDiagnostic}
    (collapsed : collapseAliases aliases = some group) :
    CollapsedFrom aliases group.1 group.2.2 := by
  apply CollapsedFrom.of_perm _ (perm_sortBy aliasKey aliases)
  have ascending := pairwise_sortBy aliasKey aliases
  rw [collapseAliases] at collapsed
  split at collapsed
  · cases collapsed
  · rename_i canonical shape
    obtain rfl := Option.some.inj collapsed
    rw [shape]
    constructor
    · refine ⟨canonical, List.mem_cons_self, fun other member => ?_, rfl⟩
      rw [List.mem_singleton.mp member]
    · simp
    · simp
    · exact .inl ⟨(mergedFrom_single canonical).mergesAll, rfl⟩
  · rename_i canonical others several shape
    obtain rfl := Option.some.inj collapsed
    rw [shape] at ascending ⊢
    apply collapsedFrom_sorted _ _ rfl
    · intro other member
      rcases List.mem_cons.mp member with rfl | later
      · exact le_refl _
      · exact (List.pairwise_cons.mp ascending).1 other later
    · exact several

/-- The aliases of the content of `key`. -/
def aliasesOf (media : List DiscoveredMedia) (key : Nat ×ₗ String) : List DiscoveredMedia :=
  media.filter fun item => contentKey item = key

theorem mem_aliasesOf {media : List DiscoveredMedia} {key : Nat ×ₗ String}
    {item : DiscoveredMedia} :
    item ∈ aliasesOf media key ↔ item ∈ media ∧ contentKey item = key := by
  rw [aliasesOf, List.mem_filter, decide_eq_true_eq]

theorem CollapsedFrom.contentKey_eq {media : List DiscoveredMedia} {key : Nat ×ₗ String}
    {item : DiscoveredMedia} {errors : List PlanDiagnostic}
    (collapsed : CollapsedFrom (aliasesOf media key) item errors) : contentKey item = key := by
  obtain ⟨canonical, member, _, same⟩ := collapsed.canonical
  rw [same]
  exact (mem_aliasesOf.mp member).2

theorem exists_collapseAliases {aliases : List DiscoveredMedia} (present : aliases ≠ []) :
    ∃ group, collapseAliases aliases = some group := by
  rw [collapseAliases]
  split
  · rename_i empty
    have lengths := (perm_sortBy aliasKey aliases).length_eq
    rw [empty] at lengths
    exact absurd (List.length_eq_zero_iff.mp lengths.symm) present
  · exact ⟨_, rfl⟩
  · exact ⟨_, rfl⟩

/-- What the contents of a scan are collapsed to. -/
def collapsedGroups (media : List DiscoveredMedia) :
    List (DiscoveredMedia × List PlanDiagnostic × List PlanDiagnostic) :=
  (sortDedup (media.map contentKey)).filterMap fun key => collapseAliases (aliasesOf media key)

theorem collapseContentAliases_eq (state : ScanState) :
    (collapseContentAliases state).media =
        (collapsedGroups state.media).map (fun group => group.1) ∧
      (collapseContentAliases state).errors =
        state.errors ++ (collapsedGroups state.media).flatMap fun group => group.2.2 := by
  rw [collapseContentAliases, collapsedGroups]
  dsimp only
  rw [List.filterMap_map]
  exact ⟨rfl, rfl⟩

theorem contentKeys_collapsedGroups (media : List DiscoveredMedia) :
    (collapsedGroups media).map (fun group => contentKey group.1) =
      sortDedup (media.map contentKey) := by
  have each : ∀ key ∈ sortDedup (media.map contentKey),
      (collapseAliases (aliasesOf media key)).map (fun group => contentKey group.1) = some key := by
    intro key member
    obtain ⟨item, listed, same⟩ := List.mem_map.mp (mem_sortDedup.mp member)
    have present : aliasesOf media key ≠ [] :=
      List.ne_nil_of_mem (mem_aliasesOf.mpr ⟨listed, same⟩)
    obtain ⟨group, collapsed⟩ := exists_collapseAliases present
    rw [collapsed]
    exact congrArg some (collapseAliases_collapsed collapsed).contentKey_eq
  rw [collapsedGroups, List.map_filterMap, List.filterMap_congr each, List.filterMap_some]

theorem mem_collapsedGroups {media : List DiscoveredMedia}
    {group : DiscoveredMedia × List PlanDiagnostic × List PlanDiagnostic}
    (member : group ∈ collapsedGroups media) :
    CollapsedFrom (aliasesOf media (contentKey group.1)) group.1 group.2.2 := by
  obtain ⟨key, _, collapsed⟩ := List.mem_filterMap.mp member
  have described := collapseAliases_collapsed collapsed
  rw [described.contentKey_eq]
  exact described

/-- The order of the aliases decides nothing where their paths differ. -/
theorem collapsedGroups_of_perm {first second : List DiscoveredMedia}
    (permuted : first.Perm second) (distinct : (first.map DiscoveredMedia.relativePath).Nodup) :
    collapsedGroups first = collapsedGroups second := by
  have keys : sortDedup (first.map contentKey) = sortDedup (second.map contentKey) :=
    sortDedup_congr fun key => (permuted.map contentKey).mem_iff
  have groups : ∀ key, collapseAliases (aliasesOf first key) =
      collapseAliases (aliasesOf second key) := by
    intro key
    have paths : ((aliasesOf first key).map aliasKey).Nodup := by
      have kept : ((aliasesOf first key).map DiscoveredMedia.relativePath).Nodup :=
        distinct.sublist (List.filter_sublist.map _)
      refine List.Nodup.of_map (fun key : Nat ×ₗ String => (ofLex key).2) ?_
      rwa [List.map_map]
    have sorted : sortBy aliasKey (aliasesOf first key) = sortBy aliasKey (aliasesOf second key) :=
      sortBy_congr (permuted.filter _) paths
    rw [collapseAliases, collapseAliases, sorted]
  rw [collapsedGroups, collapsedGroups, keys]
  exact List.filterMap_congr fun key _ => groups key

/-- **Collapsed aliases.** Every content keeps exactly one media file, its least alias, with the
sidecars and the evidence of all aliases and the record of the collapse where there are several.
Its metadata is merged from all aliases, or absent and reported where two of them conflict.  The
order of the aliases decides none of this. -/
theorem collapseContentAliases_collapsed (state : ScanState) :
    (collapseContentAliases state).media.map contentKey = sortDedup (state.media.map contentKey) ∧
      (∀ item ∈ (collapseContentAliases state).media, ∃ errors : List PlanDiagnostic,
        (∀ error ∈ errors, error ∈ (collapseContentAliases state).errors) ∧
          CollapsedFrom (aliasesOf state.media (contentKey item)) item errors) ∧
      ∀ other : ScanState, state.media.Perm other.media →
        (state.media.map DiscoveredMedia.relativePath).Nodup →
          (collapseContentAliases other).media = (collapseContentAliases state).media ∧
            ∃ added, (collapseContentAliases state).errors = state.errors ++ added ∧
              (collapseContentAliases other).errors = other.errors ++ added := by
  obtain ⟨media, errors⟩ := collapseContentAliases_eq state
  refine ⟨?_, fun item member => ?_, fun other permuted distinct => ?_⟩
  · rw [media, List.map_map]
    exact contentKeys_collapsedGroups state.media
  · rw [media] at member
    obtain ⟨group, listed, rfl⟩ := List.mem_map.mp member
    refine ⟨group.2.2, fun error reported => ?_, mem_collapsedGroups listed⟩
    rw [errors]
    exact List.mem_append_right _ (List.mem_flatMap.mpr ⟨group, listed, reported⟩)
  · obtain ⟨otherMedia, otherErrors⟩ := collapseContentAliases_eq other
    rw [← collapsedGroups_of_perm permuted distinct] at otherMedia otherErrors
    exact ⟨otherMedia.trans media.symm, _, errors, otherErrors⟩

/-- The same photograph in a folder of its year and in an album. -/
def twoCopies : ScanState :=
  { twoPhotographs with
    media := ["Photos from 2020/a.jpg", "Beach/a.jpg"].map fun path =>
      { photograph path with contentSha256 := digestOf 'a' } }

/-- The record of the collapse is evidence which no alias has. -/
theorem collapseContentAliases_twoCopies :
    ∃ item ∈ (collapseContentAliases twoCopies).media, ∃ evidence ∈ item.evidence,
      ∀ aliased ∈ twoCopies.media, evidence ∉ aliased.evidence := by
  decide +kernel

end ImmichRs
