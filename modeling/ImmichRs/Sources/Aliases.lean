import ImmichRs.Sources.Matching

/-!
# Aliases of one content

The metadata which the files of one content leave behind: nothing where two of them conflict, and
what they say together otherwise.
-/

namespace ImmichRs

open Collections

/-! ## Single values -/

/-- Two optional values which differ. -/
def differing {α : Type} [DecidableEq α] (left right : Option α) : Bool :=
  (mergeValue left right).2

section

variable {α : Type} [DecidableEq α] {left right : Option α}

theorem differing_eq_false_iff :
    differing left right = false ↔ ∀ first ∈ left, ∀ second ∈ right, first = second := by
  cases left with
  | none => simp [differing, mergeValue]
  | some first =>
      cases right with
      | none => simp [differing, mergeValue]
      | some second => simp [differing, mergeValue]

/-- Values which do not differ are merged to what either says. -/
theorem mem_mergeValue_iff (agree : differing left right = false) {value : α} :
    value ∈ (mergeValue left right).1 ↔ value ∈ left ∨ value ∈ right := by
  rw [differing_eq_false_iff] at agree
  cases left with
  | none => simp [mergeValue]
  | some first =>
      cases right with
      | none => simp [mergeValue]
      | some second =>
          have same := agree first rfl second rfl
          simp [mergeValue, same]

end

/-! ## Metadata -/

/-- Metadata which cannot be merged. -/
def conflicting (left right : NormalizedMetadata) : Bool :=
  differing left.description right.description || differing left.takenAtUtc right.takenAtUtc ||
    differing left.location right.location

theorem conflicting_eq_false_iff {left right : NormalizedMetadata} :
    conflicting left right = false ↔
      differing left.description right.description = false ∧
        differing left.takenAtUtc right.takenAtUtc = false ∧
        differing left.location right.location = false := by
  simp only [conflicting, Bool.or_eq_false_iff, and_assoc]

theorem strictlySorted_sortDedup (values : List String) :
    strictlySorted (sortDedup values) = true :=
  strictlySorted_of_pairwise (pairwise_sortDedup values)

/-- What some metadata says together, where no two parts conflict. -/
structure Unites (parts : List NormalizedMetadata) (metadata : NormalizedMetadata) : Prop where
  agree : ∀ left ∈ parts, ∀ right ∈ parts, conflicting left right = false
  description : ∀ text, text ∈ metadata.description ↔ ∃ part ∈ parts, text ∈ part.description
  takenAtUtc : ∀ text, text ∈ metadata.takenAtUtc ↔ ∃ part ∈ parts, text ∈ part.takenAtUtc
  location : ∀ place, place ∈ metadata.location ↔ ∃ part ∈ parts, place ∈ part.location
  albums : ∀ album, album ∈ metadata.albums ↔ ∃ part ∈ parts, album ∈ part.albums
  sorted : (∀ part ∈ parts, strictlySorted part.albums = true) →
    strictlySorted metadata.albums = true

/-- A united value differs from another exactly where one of its parts does. -/
theorem differing_united {α : Type} [DecidableEq α] {parts : List NormalizedMetadata}
    {field : NormalizedMetadata → Option α} {united other : Option α}
    (unites : ∀ value, value ∈ united ↔ ∃ part ∈ parts, value ∈ field part) :
    differing united other = false ↔ ∀ part ∈ parts, differing (field part) other = false := by
  simp only [differing_eq_false_iff]
  constructor
  · intro agree part member first found
    exact agree first ((unites first).mpr ⟨part, member, found⟩)
  · intro agree first found
    obtain ⟨part, member, found⟩ := (unites first).mp found
    exact agree part member first found

theorem Unites.conflicting_iff {parts : List NormalizedMetadata} {metadata : NormalizedMetadata}
    (unites : Unites parts metadata) (other : NormalizedMetadata) :
    conflicting metadata other = false ↔ ∀ part ∈ parts, conflicting part other = false := by
  simp only [conflicting_eq_false_iff, differing_united unites.description,
    differing_united unites.takenAtUtc, differing_united unites.location]
  constructor
  · rintro ⟨description, takenAtUtc, location⟩ part member
    exact ⟨description part member, takenAtUtc part member, location part member⟩
  · intro agree
    exact ⟨fun part member => (agree part member).1, fun part member => (agree part member).2.1,
      fun part member => (agree part member).2.2⟩

theorem differing_comm {α : Type} [DecidableEq α] (left right : Option α) :
    differing left right = differing right left := by
  rw [Bool.eq_iff_iff, ← not_iff_not, Bool.not_eq_true, Bool.not_eq_true, differing_eq_false_iff,
    differing_eq_false_iff]
  constructor
  · intro agree first firstFound second secondFound
    exact (agree second secondFound first firstFound).symm
  · intro agree first firstFound second secondFound
    exact (agree second secondFound first firstFound).symm

theorem conflicting_comm (left right : NormalizedMetadata) :
    conflicting left right = conflicting right left := by
  rw [conflicting, conflicting, differing_comm left.description, differing_comm left.takenAtUtc,
    differing_comm left.location]

theorem conflicting_self (metadata : NormalizedMetadata) : conflicting metadata metadata = false := by
  have same : ∀ {α : Type} [DecidableEq α] (value : Option α), differing value value = false := by
    intro α _ value
    apply differing_eq_false_iff.mpr
    intro first firstFound second secondFound
    exact Option.mem_unique firstFound secondFound
  rw [conflicting, same, same, same]
  rfl

theorem Unites.single (metadata : NormalizedMetadata) : Unites [metadata] metadata := by
  constructor
  · intro left leftMember right rightMember
    rw [List.mem_singleton.mp leftMember, List.mem_singleton.mp rightMember]
    exact conflicting_self metadata
  · intro text
    simp
  · intro text
    simp
  · intro place
    simp
  · intro album
    simp
  · intro sorted
    exact sorted metadata List.mem_cons_self

/-- Merging one more part unites it with the others, unless they conflict. -/
theorem Unites.merge {parts : List NormalizedMetadata} {metadata next : NormalizedMetadata}
    (unites : Unites parts metadata) (agree : conflicting metadata next = false) (path : String) :
    Unites (parts ++ [next]) (mergeNormalized metadata next path).1 := by
  have others := (unites.conflicting_iff next).mp agree
  obtain ⟨description, takenAtUtc, location⟩ := conflicting_eq_false_iff.mp agree
  constructor
  · intro left leftMember right rightMember
    rcases List.mem_append.mp leftMember with leftMember | leftMember
    · rcases List.mem_append.mp rightMember with rightMember | rightMember
      · exact unites.agree left leftMember right rightMember
      · rw [List.mem_singleton.mp rightMember]
        exact others left leftMember
    · rw [List.mem_singleton.mp leftMember]
      rcases List.mem_append.mp rightMember with rightMember | rightMember
      · rw [conflicting_comm]
        exact others right rightMember
      · rw [List.mem_singleton.mp rightMember]
        exact conflicting_self next
  · intro text
    rw [mergeNormalized, mem_mergeValue_iff description, unites.description]
    simp [or_and_right, exists_or]
  · intro text
    rw [mergeNormalized, mem_mergeValue_iff takenAtUtc, unites.takenAtUtc]
    simp [or_and_right, exists_or]
  · intro place
    rw [mergeNormalized, mem_mergeValue_iff location, unites.location]
    simp [or_and_right, exists_or]
  · intro album
    rw [mergeNormalized, mem_sortDedup, List.mem_append, unites.albums]
    simp [or_and_right, exists_or]
  · intro _
    exact strictlySorted_sortDedup _

/-! ## The loop over the aliases -/

/-- The metadata of some media files. -/
def metadataParts (media : List DiscoveredMedia) : List NormalizedMetadata :=
  media.filterMap DiscoveredMedia.normalizedMetadata

/-- The result of merging some parts: nothing where there are none or where two conflict. -/
structure MergedFrom (parts : List NormalizedMetadata) (conflicted : Bool)
    (result : Option NormalizedMetadata) : Prop where
  conflict : conflicted = true →
    result = none ∧ ∃ left ∈ parts, ∃ right ∈ parts, conflicting left right = true
  nothing : conflicted = false → result = none → parts = []
  united : conflicted = false → ∀ metadata ∈ result, Unites parts metadata

theorem mergeAlias_merged {merge : AliasMerge} {seen : List DiscoveredMedia}
    {aliased : DiscoveredMedia}
    (merged : MergedFrom (metadataParts seen) merge.metadataConflicted
      merge.canonical.normalizedMetadata) :
    MergedFrom (metadataParts (seen ++ [aliased])) (mergeAlias merge aliased).metadataConflicted
      (mergeAlias merge aliased).canonical.normalizedMetadata := by
  have parts : metadataParts (seen ++ [aliased]) =
      metadataParts seen ++ aliased.normalizedMetadata.toList := by
    rw [metadataParts, List.filterMap_append, ← metadataParts]
    cases found : aliased.normalizedMetadata with
    | none => simp [found]
    | some next => simp [found]
  rw [parts, mergeAlias]
  dsimp only
  split
  · rename_i conflicted
    obtain ⟨_, left, leftMember, right, rightMember, conflict⟩ := merged.conflict conflicted
    constructor
    · intro _
      exact ⟨rfl, left, List.mem_append_left _ leftMember, right,
        List.mem_append_left _ rightMember, conflict⟩
    · intro fine
      rw [conflicted] at fine
      cases fine
    · intro _ metadata member
      cases member
  · rename_i fine
    rw [Bool.not_eq_true] at fine
    split
    · rename_i absent
      have empty := merged.nothing fine absent
      rw [empty, List.nil_append]
      constructor
      · intro conflicted
        rw [fine] at conflicted
        cases conflicted
      · intro _ nothing
        exact (congrArg Option.toList nothing)
      · intro _ metadata member
        have present : aliased.normalizedMetadata = some metadata := member
        rw [present]
        exact Unites.single metadata
    · rename_i left right leftFound rightFound
      have united := merged.united fine left leftFound
      rw [rightFound, Option.toList_some]
      have flag : (mergeNormalized left right merge.canonical.relativePath).2.1 =
          conflicting left right := rfl
      dsimp only
      rw [flag]
      cases conflict : conflicting left right with
      | true =>
          constructor
          · intro _
            refine ⟨rfl, ?_⟩
            by_contra none
            push Not at none
            have agree : conflicting left right = false := by
              apply (united.conflicting_iff right).mpr
              intro part member
              exact Bool.not_eq_true _ |>.mp <| none part (List.mem_append_left _ member) right
                (List.mem_append_right _ List.mem_cons_self)
            rw [conflict] at agree
            cases agree
          · intro fine
            cases fine
          · intro fine
            cases fine
      | false =>
          constructor
          · intro conflicted
            cases conflicted
          · intro _ nothing
            cases nothing
          · intro _ metadata member
            obtain rfl := Option.some.inj member
            exact united.merge conflict _
    · rename_i left leftFound rightAbsent
      rw [rightAbsent, Option.toList_none, List.append_nil]
      constructor
      · intro conflicted
        rw [fine] at conflicted
        cases conflicted
      · intro _ nothing
        exact absurd (leftFound.symm.trans nothing) (Option.some_ne_none left)
      · intro _ metadata member
        exact merged.united fine metadata member

theorem foldl_mergeAlias_merged {others seen : List DiscoveredMedia} {merge : AliasMerge}
    (merged : MergedFrom (metadataParts seen) merge.metadataConflicted
      merge.canonical.normalizedMetadata) :
    MergedFrom (metadataParts (seen ++ others)) (others.foldl mergeAlias merge).metadataConflicted
      (others.foldl mergeAlias merge).canonical.normalizedMetadata := by
  induction others generalizing seen merge with
  | nil =>
      rw [List.append_nil]
      exact merged
  | cons aliased rest induction =>
      rw [List.append_cons, List.foldl_cons]
      exact induction (mergeAlias_merged merged)

theorem mergedFrom_single (media : DiscoveredMedia) :
    MergedFrom (metadataParts [media]) false media.normalizedMetadata := by
  constructor
  · intro conflicted
    cases conflicted
  · intro _ nothing
    simp [metadataParts, nothing]
  · intro _ metadata member
    have found : media.normalizedMetadata = some metadata := member
    have parts : metadataParts [media] = [metadata] := by simp [metadataParts, found]
    rw [parts]
    exact Unites.single metadata

/-- The metadata of one content is merged from its files. -/
theorem collapseAliases_merged {aliases : List DiscoveredMedia}
    {group : DiscoveredMedia × List PlanDiagnostic × List PlanDiagnostic}
    (collapsed : collapseAliases aliases = some group) :
    ∃ conflicted, MergedFrom (metadataParts (sortBy aliasKey aliases)) conflicted
      group.1.normalizedMetadata := by
  rw [collapseAliases] at collapsed
  split at collapsed
  · cases collapsed
  · rename_i canonical shape
    obtain rfl := Option.some.inj collapsed
    rw [shape]
    exact ⟨false, mergedFrom_single canonical⟩
  · rename_i canonical others _ shape
    obtain rfl := Option.some.inj collapsed
    rw [shape]
    let start : AliasMerge := { canonical, metadataConflicted := false, errors := [] }
    have merged : MergedFrom (metadataParts ([canonical] ++ others))
        (others.foldl mergeAlias start).metadataConflicted
        (others.foldl mergeAlias start).canonical.normalizedMetadata :=
      foldl_mergeAlias_merged (mergedFrom_single canonical)
    exact ⟨_, merged⟩

end ImmichRs
