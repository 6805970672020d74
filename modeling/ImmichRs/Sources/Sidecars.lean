import ImmichRs.Sources.Scanned

/-!
# Where sidecars go

Each sidecar of a folder is attached to one media file of its directory, reported as an orphan or
reported as ambiguous.  Matching sees paths and kinds only, so the loop over the sidecars may be read
off one by one; sorting and deduplication merge nothing since paths differ.
-/

namespace ImmichRs

open Collections

/-! ## Lists -/

section

variable {α β κ : Type}

/-- Of facts about items with different keys, those of one key come from one item. -/
theorem filter_filterMap_eq_toList [DecidableEq κ] {key : α → κ} {items : List α}
    (distinct : (items.map key).Nodup) {fact : α → Option β} {about : β → Bool} {item : α}
    (member : item ∈ items)
    (only : ∀ other ∈ items, ∀ found, fact other = some found →
      (about found = true ↔ key other = key item)) :
    (items.filterMap fact).filter about = (fact item).toList := by
  have nothing : ∀ rest : List α, (∀ other ∈ rest, other ∈ items ∧ key other ≠ key item) →
      (rest.filterMap fact).filter about = [] := by
    intro rest others
    rw [List.filter_eq_nil_iff]
    intro found listed
    obtain ⟨other, otherMember, known⟩ := List.mem_filterMap.mp listed
    obtain ⟨present, different⟩ := others other otherMember
    exact fun accepted => different ((only other present found known).mp accepted)
  obtain ⟨before, after, rfl⟩ := List.append_of_mem member
  rw [List.map_append, List.map_cons, List.nodup_append] at distinct
  obtain ⟨_, tail, apart⟩ := distinct
  have first := nothing before fun other otherMember =>
    ⟨List.mem_append_left _ otherMember,
      apart _ (List.mem_map_of_mem otherMember) _ List.mem_cons_self⟩
  have last := nothing after fun other otherMember =>
    ⟨List.mem_append_right _ (List.mem_cons_of_mem _ otherMember), fun same =>
      (List.nodup_cons.mp tail).1 (same ▸ List.mem_map_of_mem otherMember)⟩
  rw [List.filterMap_append, List.filter_append, first, List.nil_append, List.filterMap_cons]
  cases found : fact item with
  | none => exact last
  | some value =>
      have accepted := (only item member value found).mpr rfl
      rw [List.filter_cons_of_pos accepted, last]
      rfl

/-- Sorting and deduplication keep the only item of a kind. -/
theorem filter_sortDedup_eq_toList [LinearOrder α] {items : List α} {accepts : α → Bool}
    {single : Option α} (filtered : items.filter accepts = single.toList) :
    (sortDedup items).filter accepts = single.toList := by
  have members : ∀ item, item ∈ (sortDedup items).filter accepts ↔ item ∈ single := by
    intro item
    rw [List.mem_filter, mem_sortDedup, ← List.mem_filter, filtered, Option.mem_toList,
      Option.mem_def]
  have distinct : ((sortDedup items).filter accepts).Nodup :=
    ((pairwise_sortDedup items).imp fun below => ne_of_lt below).filter _
  cases single with
  | none =>
      apply List.eq_nil_iff_forall_not_mem.mpr
      intro item member
      cases (members item).mp member
  | some value =>
      have perm : ((sortDedup items).filter accepts).Perm [value] := by
        apply (List.perm_ext_iff_of_nodup distinct (List.nodup_singleton value)).mpr
        intro item
        rw [members, List.mem_singleton, Option.mem_some_iff, eq_comm]
      exact List.perm_singleton.mp perm

/-- Items which contribute nothing leave the contribution of the one at some position. -/
theorem flatMap_eq_of_getElem? {items : List α} {part : α → List β} {position : Nat} {item : α}
    (found : items[position]? = some item)
    (others : ∀ index other, items[index]? = some other → index ≠ position → part other = []) :
    items.flatMap part = part item := by
  induction items generalizing position with
  | nil => cases found
  | cons head rest induction =>
      rw [List.flatMap_cons]
      cases position with
      | zero =>
          obtain rfl := Option.some.inj found
          have empty : rest.flatMap part = [] := by
            rw [List.flatMap_eq_nil_iff]
            intro other member
            obtain ⟨index, listed⟩ := List.mem_iff_getElem?.mp member
            exact others (index + 1) other listed (Nat.succ_ne_zero index)
          rw [empty, List.append_nil]
      | succ position =>
          have first := others 0 head rfl (Nat.succ_ne_zero position).symm
          rw [first, List.nil_append]
          apply induction found
          intro index other listed different
          exact others (index + 1) other listed fun same => different (Nat.succ.inj same)

/-- Items are counted once by the keys which they have. -/
theorem length_eq_sum_filter [DecidableEq κ] (key : α → κ) {keys : List κ} (distinct : keys.Nodup)
    (items : List α) (listed : ∀ item ∈ items, key item ∈ keys) :
    items.length =
      (keys.map fun value => (items.filter fun item => key item = value).length).sum := by
  induction items with
  | nil => simp
  | cons item rest induction =>
      obtain ⟨head, tail⟩ := List.forall_mem_cons.mp listed
      have counted : ∀ value, ((item :: rest).filter fun item => key item = value).length =
          (if key item = value then 1 else 0) +
            (rest.filter fun item => key item = value).length := by
        intro value
        by_cases same : key item = value
        · rw [List.filter_cons_of_pos (by simpa using same), if_pos same, List.length_cons,
            Nat.add_comm]
        · rw [List.filter_cons_of_neg (by simpa using same), if_neg same, Nat.zero_add]
      have one : (keys.map fun value => if key item = value then 1 else 0).sum = 1 := by
        rw [List.sum_map_eq_nsmul_single (key item) _ fun other different _ =>
          if_neg (Ne.symm different), List.count_eq_one_of_mem distinct head, if_pos rfl]
        rfl
      rw [List.length_cons, induction tail]
      simp only [counted]
      rw [List.sum_map_add, one, Nat.add_comm]

theorem length_filter_eq_sum (accepts : α → Bool) (items : List α) :
    (items.filter accepts).length = (items.map fun item => if accepts item then 1 else 0).sum := by
  induction items with
  | nil => rfl
  | cons item rest induction =>
      cases accepted : accepts item with
      | true =>
          rw [List.filter_cons_of_pos accepted, List.length_cons, induction, List.map_cons,
            List.sum_cons, accepted, if_pos rfl, Nat.add_comm]
      | false =>
          rw [List.filter_cons_of_neg (by simp [accepted]), induction, List.map_cons,
            List.sum_cons, accepted, if_neg Bool.false_ne_true, Nat.zero_add]

end

/-! ## The matching rules -/

/-- A JSON sidecar named after a media file in full. -/
def DiscoveredSidecar.Names (sidecar : DiscoveredSidecar) (item : DiscoveredMedia) : Prop :=
  sidecar.kind = .json ∧ sidecar.relativePath = item.relativePath ++ ".json"

/-- Media files with the directory and stem of a sidecar. -/
def stemMatches (media : List DiscoveredMedia) (sidecar : DiscoveredSidecar) :
    List DiscoveredMedia :=
  media.filter fun item => parent item.relativePath == parent sidecar.relativePath &&
    stem item.relativePath == stem sidecar.relativePath

/-- Images with the directory and stem of a sidecar. -/
def stemImages (media : List DiscoveredMedia) (sidecar : DiscoveredSidecar) :
    List DiscoveredMedia :=
  (stemMatches media sidecar).filter fun item => item.kind == .image

/-- The media file which a sidecar belongs to, with the rule that tells so. -/
inductive SidecarMatch (media : List DiscoveredMedia) (sidecar : DiscoveredSidecar)
    (item : DiscoveredMedia) : String → Prop
  | exact (named : sidecar.Names item) :
      SidecarMatch media sidecar item "META_SIDECAR_EXACT_NAME_V1"
  | image (unnamed : ∀ other ∈ media, ¬ sidecar.Names other)
      (single : stemImages media sidecar = [item]) :
      SidecarMatch media sidecar item "META_SIDECAR_BASENAME_V1"
  | stem (unnamed : ∀ other ∈ media, ¬ sidecar.Names other)
      (images : (stemImages media sidecar).length ≠ 1)
      (single : stemMatches media sidecar = [item]) :
      SidecarMatch media sidecar item "META_SIDECAR_BASENAME_V1"

/-- The media files which a sidecar path is attached to, with the rules. -/
def ScanState.attachments (state : ScanState) (path : String) : List (String × String) :=
  state.media.flatMap fun item =>
    (item.metadata.filter fun candidate => candidate.relativePath = path).map fun candidate =>
      (item.relativePath, candidate.ruleId)

/-- The diagnostics of a rule which name a path. -/
def naming (rule path : String) (diagnostics : List PlanDiagnostic) : List PlanDiagnostic :=
  diagnostics.filter fun diagnostic =>
    decide (diagnostic.ruleId = rule) && decide (path ∈ diagnostic.paths)

/-- The orphan warnings about a path. -/
def ScanState.orphans (state : ScanState) (path : String) : List PlanDiagnostic :=
  naming "META_ORPHAN_SIDECAR_V1" path state.warnings

/-- The ambiguity errors about a path. -/
def ScanState.ambiguities (state : ScanState) (path : String) : List PlanDiagnostic :=
  naming "META_AMBIGUOUS_SIDECAR_V1" path state.errors

/-- A sidecar of a prepared state is accounted for once in the reconciled one. -/
inductive Accounted (prepared reconciled : ScanState) (sidecar : DiscoveredSidecar) : Prop
  | attached {item : DiscoveredMedia} {rule : String} (listed : item ∈ prepared.media)
      (near : parent item.relativePath = parent sidecar.relativePath)
      (matched : SidecarMatch prepared.media sidecar item rule)
      (attachments : reconciled.attachments sidecar.relativePath = [(item.relativePath, rule)])
      (orphans : reconciled.orphans sidecar.relativePath = [])
      (ambiguities : reconciled.ambiguities sidecar.relativePath = [])
  | orphan {warning : PlanDiagnostic}
      (unnamed : ∀ other ∈ prepared.media, ¬ sidecar.Names other)
      (unmatched : stemMatches prepared.media sidecar = [])
      (attachments : reconciled.attachments sidecar.relativePath = [])
      (orphans : reconciled.orphans sidecar.relativePath = [warning])
      (ambiguities : reconciled.ambiguities sidecar.relativePath = [])
  | ambiguous {error : PlanDiagnostic}
      (unnamed : ∀ other ∈ prepared.media, ¬ sidecar.Names other)
      (several : 2 ≤ (stemMatches prepared.media sidecar).length)
      (images : (stemImages prepared.media sidecar).length ≠ 1)
      (attachments : reconciled.attachments sidecar.relativePath = [])
      (orphans : reconciled.orphans sidecar.relativePath = [])
      (ambiguities : reconciled.ambiguities sidecar.relativePath = [error])

/-- A state as scans leave it: no sidecar was matched yet. -/
structure ScanState.Unmatched (state : ScanState) : Prop where
  metadata : ∀ item ∈ state.media, item.metadata = []
  warnings : ∀ diagnostic ∈ state.warnings, diagnostic.ruleId ≠ "META_ORPHAN_SIDECAR_V1"
  errors : ∀ diagnostic ∈ state.errors, diagnostic.ruleId ≠ "META_AMBIGUOUS_SIDECAR_V1"

/-! ## One sidecar -/

/-- What the loop does with a sidecar. -/
inductive SidecarOutcome
  | attached (index : Nat) (rule : String)
  | orphan
  | ambiguous (paths : List String)

/-- The outcome of a sidecar, which depends on paths and kinds of media files only. -/
def sidecarOutcome (state : ScanState) (sidecar : DiscoveredSidecar) : SidecarOutcome :=
  match exactMatch state sidecar with
  | some index => .attached index "META_SIDECAR_EXACT_NAME_V1"
  | none =>
      match basenameMatches state sidecar with
      | [index] => .attached index "META_SIDECAR_BASENAME_V1"
      | [] => .orphan
      | matching => .ambiguous (mediaPaths state (matching.take (maxDiagnosticPaths - 1)))

/-- What a sidecar adds to the media file at a position. -/
def attachmentTo (state : ScanState) (position : Nat) (sidecar : DiscoveredSidecar) :
    Option MetadataCandidate :=
  match sidecarOutcome state sidecar with
  | .attached index rule =>
      if index = position then
        some { relativePath := sidecar.relativePath, kind := sidecar.kind, ruleId := rule }
      else
        none
  | _ => none

/-- The warning about an orphan. -/
def orphanOf (state : ScanState) (sidecar : DiscoveredSidecar) : Option PlanDiagnostic :=
  match sidecarOutcome state sidecar with
  | .orphan =>
      some (diagnostic "META_ORPHAN_SIDECAR_V1" "sidecar_without_media" [sidecar.relativePath])
  | _ => none

/-- The error about an ambiguous sidecar. -/
def ambiguityOf (state : ScanState) (sidecar : DiscoveredSidecar) : Option PlanDiagnostic :=
  match sidecarOutcome state sidecar with
  | .ambiguous paths =>
      some (diagnostic "META_AMBIGUOUS_SIDECAR_V1" "ambiguous_sidecar_match"
        (sidecar.relativePath :: paths))
  | _ => none

section

variable {state first second : ScanState} {sidecar : DiscoveredSidecar}

theorem sidecarOutcome_congr
    (same : first.media.map DiscoveredMedia.bare = second.media.map DiscoveredMedia.bare)
    (sidecar : DiscoveredSidecar) : sidecarOutcome first sidecar = sidecarOutcome second sidecar := by
  have positions : ∀ predicate : DiscoveredMedia → Bool, (∀ item, predicate item.bare = predicate item) →
      indicesWhere predicate first.media = indicesWhere predicate second.media := by
    intro predicate blind
    have seen := congrArg (indicesWhere predicate) same
    rw [indicesWhere_map, indicesWhere_map] at seen
    rw [show predicate ∘ DiscoveredMedia.bare = predicate from funext blind] at seen
    exact seen
  have paths : mediaPaths first = mediaPaths second := by
    funext indices
    apply List.filterMap_congr
    intro index _
    have found := congrArg (fun media : List DiscoveredMedia =>
      (media[index]?).map DiscoveredMedia.relativePath) same
    simp only [List.getElem?_map, Option.map_map] at found
    exact found
  have exact : exactMatch first sidecar = exactMatch second sidecar := by
    rw [exactMatch, exactMatch]
    cases sidecar.kind with
    | xmp => rfl
    | json =>
        dsimp only
        congr 1
        funext target
        have found := congrArg (List.findIdx? fun item : DiscoveredMedia =>
          item.relativePath == target) same
        rw [List.findIdx?_map, List.findIdx?_map] at found
        exact found
  have basename : basenameMatches first sidecar = basenameMatches second sidecar := by
    rw [basenameMatches, basenameMatches]
    dsimp only
    rw [positions _ fun _ => rfl, positions _ fun _ => rfl]
  rw [sidecarOutcome, sidecarOutcome, exact, basename, paths]

theorem media_reconcileSidecar (state : ScanState) (sidecar : DiscoveredSidecar) (position : Nat) :
    ((reconcileSidecar state sidecar).media[position]?).map DiscoveredMedia.metadata =
      (state.media[position]?).map fun item =>
        item.metadata ++ (attachmentTo state position sidecar).toList := by
  have modified : ∀ (index : Nat) (rule : String),
      ((state.media.modify index (attachSidecar sidecar rule))[position]?).map
          DiscoveredMedia.metadata =
        (state.media[position]?).map fun item => item.metadata ++ (if index = position then
          some ({ relativePath := sidecar.relativePath, kind := sidecar.kind, ruleId := rule } :
            MetadataCandidate) else none).toList := by
    intro index rule
    rw [List.getElem?_modify]
    cases state.media[position]? with
    | none => rfl
    | some item =>
        by_cases same : index = position
        · simp [same, attachSidecar]
        · simp [same]
  have unchanged : (state.media[position]?).map DiscoveredMedia.metadata =
      (state.media[position]?).map fun item => item.metadata ++ [] := by
    simp only [List.append_nil]
  rw [reconcileSidecar, attachmentTo, sidecarOutcome]
  cases exactMatch state sidecar with
  | some index => exact modified index _
  | none =>
      rcases basenameMatches state sidecar with _ | ⟨index, _ | ⟨other, rest⟩⟩
      · exact unchanged
      · exact modified index _
      · exact unchanged

theorem warnings_reconcileSidecar (state : ScanState) (sidecar : DiscoveredSidecar) :
    (reconcileSidecar state sidecar).warnings = state.warnings ++ (orphanOf state sidecar).toList := by
  rw [reconcileSidecar, orphanOf, sidecarOutcome]
  cases exactMatch state sidecar with
  | some index => exact (List.append_nil _).symm
  | none =>
      rcases basenameMatches state sidecar with _ | ⟨index, _ | ⟨other, rest⟩⟩
      · rfl
      · exact (List.append_nil _).symm
      · exact (List.append_nil _).symm

theorem errors_reconcileSidecar (state : ScanState) (sidecar : DiscoveredSidecar) :
    (reconcileSidecar state sidecar).errors =
      state.errors ++ (ambiguityOf state sidecar).toList := by
  rw [reconcileSidecar, ambiguityOf, sidecarOutcome]
  cases exactMatch state sidecar with
  | some index => exact (List.append_nil _).symm
  | none =>
      rcases basenameMatches state sidecar with _ | ⟨index, _ | ⟨other, rest⟩⟩
      · exact (List.append_nil _).symm
      · exact (List.append_nil _).symm
      · rfl

/-! ## The loop -/

/-- What the loop over some sidecars adds to a state, in terms of the media files of a base. -/
structure Adds (base : ScanState) (sidecars : List DiscoveredSidecar) (state final : ScanState) :
    Prop where
  media : ∀ position : Nat, (final.media[position]?).map DiscoveredMedia.metadata =
    (state.media[position]?).map fun item =>
      item.metadata ++ sidecars.filterMap (attachmentTo base position)
  warnings : final.warnings = state.warnings ++ sidecars.filterMap (orphanOf base)
  errors : final.errors = state.errors ++ sidecars.filterMap (ambiguityOf base)

theorem filterMap_cons_eq_append {α β : Type} (fact : α → Option β) (item : α) (rest : List α) :
    (item :: rest).filterMap fact = (fact item).toList ++ rest.filterMap fact := by
  rw [List.filterMap_cons]
  cases fact item <;> rfl

theorem foldl_reconcileSidecar {base : ScanState} (sidecars : List DiscoveredSidecar)
    (same : state.media.map DiscoveredMedia.bare = base.media.map DiscoveredMedia.bare) :
    Adds base sidecars state (sidecars.foldl reconcileSidecar state) := by
  induction sidecars generalizing state with
  | nil =>
      constructor
      · intro position
        simp only [List.foldl_nil, List.filterMap_nil, List.append_nil]
      · exact (List.append_nil _).symm
      · exact (List.append_nil _).symm
  | cons sidecar rest induction =>
      have outcome := sidecarOutcome_congr same sidecar
      have later := induction ((bare_reconcileSidecar state sidecar).trans same)
      constructor
      · intro position
        have here : attachmentTo state position sidecar = attachmentTo base position sidecar := by
          rw [attachmentTo, attachmentTo, outcome]
        have stepped := media_reconcileSidecar state sidecar position
        rw [here] at stepped
        rw [List.foldl_cons, later.media, filterMap_cons_eq_append]
        cases before : state.media[position]? with
        | none =>
            rw [before, Option.map_none, Option.map_eq_none_iff] at stepped
            rw [stepped]
            rfl
        | some item =>
            rw [before, Option.map_some, Option.map_eq_some_iff] at stepped
            obtain ⟨changed, found, metadata⟩ := stepped
            rw [found, Option.map_some, Option.map_some, metadata, List.append_assoc]
      · rw [List.foldl_cons, later.warnings, warnings_reconcileSidecar, filterMap_cons_eq_append,
          List.append_assoc, orphanOf, orphanOf, outcome]
      · rw [List.foldl_cons, later.errors, errors_reconcileSidecar, filterMap_cons_eq_append,
          List.append_assoc, ambiguityOf, ambiguityOf, outcome]

theorem reconcileSidecars_adds (state : ScanState) :
    Adds state state.sidecars state (reconcileSidecars state) :=
  foldl_reconcileSidecar state.sidecars rfl

/-! ## The rules and the outcome -/

theorem exactMatch_eq_some {index : Nat} (found : exactMatch state sidecar = some index) :
    ∃ item, state.media[index]? = some item ∧ sidecar.Names item := by
  rw [exactMatch] at found
  cases kind : sidecar.kind with
  | xmp =>
      rw [kind] at found
      cases found
  | json =>
      rw [kind, Option.bind_eq_some_iff] at found
      obtain ⟨target, stripped, position⟩ := found
      obtain ⟨bound, accepted, _⟩ := List.findIdx?_eq_some_iff_getElem.mp position
      refine ⟨state.media[index], List.getElem?_eq_getElem bound, kind, ?_⟩
      rw [beq_iff_eq] at accepted
      rw [accepted]
      exact stripSuffix_eq_some.mp stripped

theorem exactMatch_eq_none (missing : exactMatch state sidecar = none) :
    ∀ item ∈ state.media, ¬ sidecar.Names item := by
  rintro item member ⟨kind, named⟩
  rw [exactMatch, kind] at missing
  dsimp only at missing
  rw [stripSuffix_eq_some.mpr named, Option.bind_some, List.findIdx?_eq_none_iff] at missing
  simpa using missing item member

theorem DiscoveredSidecar.Names.parent {item : DiscoveredMedia} (named : sidecar.Names item) :
    ImmichRs.parent item.relativePath = ImmichRs.parent sidecar.relativePath := by
  rw [named.2]
  exact (parent_append (by decide) item.relativePath).symm

theorem parent_of_mem_stemMatches {media : List DiscoveredMedia} {item : DiscoveredMedia}
    (member : item ∈ stemMatches media sidecar) :
    parent item.relativePath = parent sidecar.relativePath := by
  have same := (List.mem_filter.mp member).2
  rw [Bool.and_eq_true, beq_iff_eq] at same
  exact same.1

/-- Positions of one item stand for one item. -/
theorem forall₂_singleton {media items : List DiscoveredMedia} {index : Nat}
    (positions : List.Forall₂ (fun index item => media[index]? = some item) [index] items) :
    ∃ item, items = [item] ∧ media[index]? = some item := by
  cases positions with
  | cons found rest =>
      cases rest
      exact ⟨_, rfl, found⟩

/-- What the rules say of each outcome. -/
theorem basenameMatches_forall₂ (state : ScanState) (sidecar : DiscoveredSidecar) :
    List.Forall₂ (fun index item => state.media[index]? = some item)
      (basenameMatches state sidecar)
      (if (stemImages state.media sidecar).length = 1 then stemImages state.media sidecar
        else stemMatches state.media sidecar) := by
  have images := forall₂_indicesWhere (fun item : DiscoveredMedia =>
    parent item.relativePath == parent sidecar.relativePath &&
      stem item.relativePath == stem sidecar.relativePath && item.kind == .image) state.media
  have matching := forall₂_indicesWhere (fun item : DiscoveredMedia =>
    parent item.relativePath == parent sidecar.relativePath &&
      stem item.relativePath == stem sidecar.relativePath) state.media
  have listed : state.media.filter (fun item : DiscoveredMedia =>
      parent item.relativePath == parent sidecar.relativePath &&
        stem item.relativePath == stem sidecar.relativePath && item.kind == .image) =
        stemImages state.media sidecar := by
    rw [stemImages, stemMatches, List.filter_filter]
    apply List.filter_congr
    intro item _
    exact Bool.and_comm _ _
  rw [listed] at images
  rw [basenameMatches]
  dsimp only
  rw [images.length_eq]
  split
  · exact images
  · exact matching

/-- The outcome of a sidecar follows the rules. -/
inductive Ruled (state : ScanState) (sidecar : DiscoveredSidecar) : SidecarOutcome → Prop
  | attached {index : Nat} {rule : String} {item : DiscoveredMedia}
      (found : state.media[index]? = some item)
      (near : parent item.relativePath = parent sidecar.relativePath)
      (matched : SidecarMatch state.media sidecar item rule) :
      Ruled state sidecar (.attached index rule)
  | orphan (unnamed : ∀ other ∈ state.media, ¬ sidecar.Names other)
      (unmatched : stemMatches state.media sidecar = []) : Ruled state sidecar .orphan
  | ambiguous {paths : List String} (unnamed : ∀ other ∈ state.media, ¬ sidecar.Names other)
      (several : 2 ≤ (stemMatches state.media sidecar).length)
      (images : (stemImages state.media sidecar).length ≠ 1)
      (located : ∀ path ∈ paths, path ∈ state.media.map DiscoveredMedia.relativePath)
      (few : paths.length < maxDiagnosticPaths) : Ruled state sidecar (.ambiguous paths)

theorem sidecarOutcome_ruled (state : ScanState) (sidecar : DiscoveredSidecar) :
    Ruled state sidecar (sidecarOutcome state sidecar) := by
  rw [sidecarOutcome]
  cases named : exactMatch state sidecar with
  | some index =>
      obtain ⟨item, found, name⟩ := exactMatch_eq_some named
      exact .attached found name.parent (.exact name)
  | none =>
      have unnamed := exactMatch_eq_none named
      have positions := basenameMatches_forall₂ state sidecar
      rcases basename : basenameMatches state sidecar with _ | ⟨index, _ | ⟨second, rest⟩⟩
      · rw [basename, List.forall₂_nil_left_iff] at positions
        apply Ruled.orphan unnamed
        split at positions
        · rename_i one
          rw [positions] at one
          cases one
        · exact positions
      · rw [basename] at positions
        obtain ⟨item, single, found⟩ := forall₂_singleton positions
        split at single
        · have member : item ∈ stemImages state.media sidecar := single ▸ List.mem_cons_self
          exact .attached found (parent_of_mem_stemMatches (List.mem_filter.mp member).1)
            (.image unnamed single)
        · rename_i images
          have member : item ∈ stemMatches state.media sidecar := single ▸ List.mem_cons_self
          exact .attached found (parent_of_mem_stemMatches member) (.stem unnamed images single)
      · rw [basename] at positions
        have lengths := positions.length_eq
        have images : (stemImages state.media sidecar).length ≠ 1 := by
          intro one
          rw [if_pos one, one] at lengths
          simp at lengths
        rw [if_neg images] at lengths
        refine .ambiguous unnamed ?_ images ?_ ?_
        · rw [← lengths, List.length_cons, List.length_cons]
          omega
        · intro path member
          obtain ⟨position, _, located⟩ := List.mem_filterMap.mp member
          obtain ⟨item, found, rfl⟩ := Option.map_eq_some_iff.mp located
          exact List.mem_map_of_mem (List.mem_of_getElem? found)
        · have taken := List.length_take_le (maxDiagnosticPaths - 1) (index :: second :: rest)
          have kept := List.length_filterMap_le (fun position =>
            (state.media[position]?).map DiscoveredMedia.relativePath)
              ((index :: second :: rest).take (maxDiagnosticPaths - 1))
          exact (kept.trans taken).trans_lt (by decide)

/-! ## Scans -/

theorem ScanState.Unmatched.keptByScanning {platform : SourcePlatform} (limit : Nat) :
    KeptByScanning platform limit ScanState.Unmatched := by
  have reported : ∀ {rule code : String} {paths : List String} {diagnostics : List PlanDiagnostic}
      {excluded : String}, rule ∈ scanningRules → excluded ∉ scanningRules →
      (∀ diagnostic ∈ diagnostics, diagnostic.ruleId ≠ excluded) →
        ∀ other ∈ diagnostics ++ [diagnostic rule code paths], other.ruleId ≠ excluded := by
    intro rule code paths diagnostics excluded known unknown others other member
    rcases List.mem_append.mp member with member | member
    · exact others other member
    · obtain rfl := List.mem_singleton.mp member
      exact fun same => unknown (same ▸ known)
  exact
    { new := ⟨by simp [ScanState.new], by simp [ScanState.new], by simp [ScanState.new]⟩
      count := fun _ _ unmatched => ⟨unmatched.metadata, unmatched.warnings, unmatched.errors⟩
      warn := fun known unmatched => ⟨unmatched.metadata,
        reported known (by decide) unmatched.warnings, unmatched.errors⟩
      fail := fun known unmatched => ⟨unmatched.metadata, unmatched.warnings,
        reported known (by decide) unmatched.errors⟩
      media := fun added _ unmatched => ⟨fun other member =>
        (List.mem_append.mp member).elim (unmatched.metadata other) fun last =>
          List.mem_singleton.mp last ▸ added.metadata, unmatched.warnings, unmatched.errors⟩
      sidecar := fun _ _ unmatched => ⟨unmatched.metadata, unmatched.warnings, unmatched.errors⟩
      retract := fun _ unmatched => ⟨fun item member =>
        unmatched.metadata item (List.mem_filter.mp member).1, unmatched.warnings,
        unmatched.errors⟩ }

theorem Adapter.Scanned.unmatched {platform : SourcePlatform} {adapter : Adapter}
    {form : SourceForm} (scanned : adapter.Scanned platform form state) : state.Unmatched :=
  KeptByScanning.scanned (fun limit _ => ScanState.Unmatched.keptByScanning limit) scanned

/-! ## Prepared and reconciled states -/

theorem nodup_prepare_sidecars (state : ScanState) :
    (state.prepare.sidecars.map DiscoveredSidecar.relativePath).Nodup :=
  ((perm_sortBy DiscoveredSidecar.relativePath _).map _).nodup_iff.mpr (nodup_kept_sidecars state)

/-- No media file of a prepared state has the path of a sidecar. -/
theorem prepare_disjoint {item : DiscoveredMedia} (media : item ∈ state.prepare.media)
    (member : sidecar ∈ state.prepare.sidecars) : item.relativePath ≠ sidecar.relativePath := by
  intro same
  obtain ⟨mediaListed, kept⟩ :=
    List.mem_filter.mp ((mem_sortBy DiscoveredMedia.relativePath).mp media)
  obtain ⟨sidecarListed, _⟩ :=
    List.mem_filter.mp ((mem_sortBy DiscoveredSidecar.relativePath).mp member)
  have single : item.relativePath ∉ collisions state := by simpa using kept
  apply single
  rw [mem_collisions, List.count_append]
  have first := List.count_pos_iff.mpr (List.mem_map_of_mem (f := DiscoveredMedia.relativePath)
    mediaListed)
  have second := List.count_pos_iff.mpr (List.mem_map_of_mem (f := DiscoveredSidecar.relativePath)
    sidecarListed)
  rw [← same] at second
  omega

section

variable (platform : SourcePlatform)

/-- The media file at a position once everything is reconciled. -/
theorem reconciled_media (unmatched : state.Unmatched) {position : Nat} {item : DiscoveredMedia}
    (found : state.prepare.media[position]? = some item) :
    ∃ final, (state.reconcile platform).media[position]? = some final ∧
      final.relativePath = item.relativePath ∧
      final.metadata =
        sortDedup (state.prepare.sidecars.filterMap (attachmentTo state.prepare position)) := by
  have empty : item.metadata = [] := by
    have listed := (mem_sortBy DiscoveredMedia.relativePath).mp (List.mem_of_getElem? found)
    exact unmatched.metadata item (List.mem_filter.mp listed).1
  have added := (reconcileSidecars_adds state.prepare).media position
  rw [found, Option.map_some, Option.map_eq_some_iff, empty, List.nil_append] at added
  obtain ⟨matched, matchedFound, metadata⟩ := added
  have bare := congrArg (fun media : List DiscoveredMedia =>
    (media[position]?).map DiscoveredMedia.relativePath) (bare_reconcileSidecars state.prepare)
  simp only [List.getElem?_map, found, matchedFound, Option.map_some, Option.some.injEq] at bare
  refine ⟨reconciled platform (reconcileSidecars state.prepare).media matched, ?_, ?_, ?_⟩
  · rw [ScanState.reconcile, media_complete, List.getElem?_map, matchedFound]
    rfl
  · have file := congrArg DiscoveredMedia.relativePath
      (@file_reconciled platform (reconcileSidecars state.prepare).media matched)
    exact file.trans bare
  · have sorted := congrArg sortDedup
      (@metadata_memberOf platform (reconcileSidecars state.prepare).media matched)
    rw [metadata] at sorted
    exact sorted

theorem attachmentTo_relativePath {position : Nat} {candidate : MetadataCandidate}
    (attached : attachmentTo state position sidecar = some candidate) :
    candidate.relativePath = sidecar.relativePath := by
  rw [attachmentTo] at attached
  split at attached
  · split at attached
    · obtain rfl := Option.some.inj attached
      rfl
    · cases attached
  · cases attached

/-- What the reconciled media file at a position says of one sidecar. -/
theorem filter_metadata (member : sidecar ∈ state.prepare.sidecars) (position : Nat) :
    (sortDedup (state.prepare.sidecars.filterMap (attachmentTo state.prepare position))).filter
        (fun candidate => candidate.relativePath = sidecar.relativePath) =
      (attachmentTo state.prepare position sidecar).toList := by
  apply filter_sortDedup_eq_toList
  apply filter_filterMap_eq_toList (nodup_prepare_sidecars state) member
  intro other _ candidate attached
  rw [decide_eq_true_eq, attachmentTo_relativePath attached]

theorem diagnostic_ruleId (rule code : String) (paths : List String) :
    (diagnostic rule code paths).ruleId = rule := rfl

theorem mem_paths_diagnostic {rule code path : String} {paths : List String}
    (few : paths.length ≤ maxDiagnosticPaths) :
    path ∈ (diagnostic rule code paths).paths ↔ path ∈ paths := by
  have short : (sortDedup paths).length ≤ maxDiagnosticPaths := by
    rw [sortDedup_eq_dedup]
    have fewer := (List.dedup_sublist (paths.insertionSort (· ≤ ·))).length_le
    rw [List.length_insertionSort] at fewer
    exact fewer.trans few
  rw [diagnostic, List.take_of_length_le short, mem_sortDedup]

/-- Of the diagnostics of a rule, those which the loop adds name one sidecar each. -/
theorem naming_sortDedup {rule : String} {fact : DiscoveredSidecar → Option PlanDiagnostic}
    {before after : List PlanDiagnostic} (member : sidecar ∈ state.prepare.sidecars)
    (earlier : ∀ diagnostic ∈ before, diagnostic.ruleId ≠ rule)
    (later : ∀ diagnostic ∈ after, diagnostic.ruleId ≠ rule)
    (only : ∀ other ∈ state.prepare.sidecars, ∀ diagnostic, fact other = some diagnostic →
      (diagnostic.ruleId = rule ∧ sidecar.relativePath ∈ diagnostic.paths ↔
        other.relativePath = sidecar.relativePath)) :
    naming rule sidecar.relativePath
        (sortDedup (before ++ state.prepare.sidecars.filterMap fact ++ after)) =
      (fact sidecar).toList := by
  have others : ∀ {diagnostics : List PlanDiagnostic},
      (∀ diagnostic ∈ diagnostics, diagnostic.ruleId ≠ rule) →
        naming rule sidecar.relativePath diagnostics = [] := by
    intro diagnostics different
    rw [naming, List.filter_eq_nil_iff]
    intro diagnostic listed
    simp [different diagnostic listed]
  have added : naming rule sidecar.relativePath (state.prepare.sidecars.filterMap fact) =
      (fact sidecar).toList := by
    apply filter_filterMap_eq_toList (nodup_prepare_sidecars state) member
    intro other otherMember diagnostic reported
    rw [Bool.and_eq_true, decide_eq_true_eq, decide_eq_true_eq]
    exact only other otherMember diagnostic reported
  apply filter_sortDedup_eq_toList
  rw [List.filter_append, List.filter_append]
  change naming rule sidecar.relativePath before ++ naming rule sidecar.relativePath _ ++
    naming rule sidecar.relativePath after = _
  rw [others earlier, added, others later, List.nil_append, List.append_nil]

theorem orphans_reconcile (unmatched : state.Unmatched) (member : sidecar ∈ state.prepare.sidecars) :
    (state.reconcile platform).orphans sidecar.relativePath =
      (orphanOf state.prepare sidecar).toList := by
  rw [ScanState.orphans, ScanState.reconcile, ScanState.complete,
    (reconcileSidecars_adds state.prepare).warnings]
  apply naming_sortDedup member unmatched.warnings
  · intro diagnostic listed
    obtain ⟨paths, _, rfl⟩ := List.mem_map.mp listed
    simp [diagnostic_ruleId]
  · intro other _ warning reported
    rw [orphanOf] at reported
    split at reported
    · obtain rfl := Option.some.inj reported
      rw [mem_paths_diagnostic (by simp [maxDiagnosticPaths]), List.mem_singleton]
      exact ⟨fun named => named.2.symm, fun same => ⟨rfl, same.symm⟩⟩
    · cases reported

theorem ambiguities_reconcile (unmatched : state.Unmatched)
    (member : sidecar ∈ state.prepare.sidecars) :
    (state.reconcile platform).ambiguities sidecar.relativePath =
      (ambiguityOf state.prepare sidecar).toList := by
  rw [ScanState.ambiguities, ScanState.reconcile, ScanState.complete,
    (reconcileSidecars_adds state.prepare).errors]
  apply naming_sortDedup member
  · intro diagnostic listed
    rcases List.mem_append.mp listed with listed | listed
    · exact unmatched.errors diagnostic listed
    · obtain ⟨path, _, rfl⟩ := List.mem_map.mp listed
      simp [diagnostic_ruleId]
  · intro diagnostic listed
    obtain ⟨paths, _, rfl⟩ := List.mem_map.mp listed
    simp [diagnostic_ruleId]
  · intro other _ error reported
    have ruled := sidecarOutcome_ruled state.prepare other
    rw [ambiguityOf] at reported
    split at reported
    · rename_i paths outcome
      rw [outcome] at ruled
      cases ruled with
      | ambiguous _ _ _ located few =>
          obtain rfl := Option.some.inj reported
          rw [mem_paths_diagnostic (by rw [List.length_cons]; omega), List.mem_cons]
          constructor
          · rintro ⟨_, same | listed⟩
            · exact same.symm
            · obtain ⟨item, media, same⟩ := List.mem_map.mp (located _ listed)
              exact absurd same (prepare_disjoint media member)
          · exact fun same => ⟨rfl, .inl same.symm⟩
    · cases reported

/-- The media files which a sidecar is attached to, position by position. -/
theorem attachments_reconcile (unmatched : state.Unmatched)
    (member : sidecar ∈ state.prepare.sidecars) {position : Nat} {final : DiscoveredMedia}
    (found : (state.reconcile platform).media[position]? = some final) :
    ∃ item, state.prepare.media[position]? = some item ∧
      ((final.metadata.filter fun candidate =>
        candidate.relativePath = sidecar.relativePath).map fun candidate =>
          (final.relativePath, candidate.ruleId)) =
        (attachmentTo state.prepare position sidecar).toList.map fun candidate =>
          (item.relativePath, candidate.ruleId) := by
  have lengths : (state.reconcile platform).media.length = state.prepare.media.length := by
    have same := congrArg List.length (bare_reconcileSidecars state.prepare)
    rw [List.length_map, List.length_map] at same
    rw [ScanState.reconcile, media_complete, List.length_map, same]
  obtain ⟨bound, _⟩ := List.getElem?_eq_some_iff.mp found
  rw [lengths] at bound
  have original := List.getElem?_eq_getElem bound
  obtain ⟨reconciled, located, path, metadata⟩ := reconciled_media platform unmatched original
  obtain rfl := Option.some.inj (found.symm.trans located)
  refine ⟨_, original, ?_⟩
  rw [metadata, filter_metadata member, path]

theorem accounted_reconcile (unmatched : state.Unmatched)
    (member : sidecar ∈ state.prepare.sidecars) :
    Accounted state.prepare (state.reconcile platform) sidecar := by
  have orphans := orphans_reconcile platform unmatched member
  have ambiguities := ambiguities_reconcile platform unmatched member
  have unattached : (∀ position, attachmentTo state.prepare position sidecar = none) →
      (state.reconcile platform).attachments sidecar.relativePath = [] := by
    intro nothing
    rw [ScanState.attachments, List.flatMap_eq_nil_iff]
    intro final listed
    obtain ⟨position, found⟩ := List.mem_iff_getElem?.mp listed
    obtain ⟨item, _, part⟩ := attachments_reconcile platform unmatched member found
    rw [part, nothing]
    rfl
  have ruled := sidecarOutcome_ruled state.prepare sidecar
  cases outcome : sidecarOutcome state.prepare sidecar with
  | attached index rule =>
      rw [outcome] at ruled
      cases ruled with
      | attached found near matched =>
          rw [orphanOf, outcome] at orphans
          rw [ambiguityOf, outcome] at ambiguities
          apply Accounted.attached (List.mem_of_getElem? found) near matched _ orphans ambiguities
          obtain ⟨final, finalFound, _⟩ := reconciled_media platform unmatched found
          rw [ScanState.attachments, flatMap_eq_of_getElem? finalFound]
          · obtain ⟨same, sameFound, part⟩ :=
              attachments_reconcile platform unmatched member finalFound
            obtain rfl := Option.some.inj (found.symm.trans sameFound)
            rw [part, attachmentTo, outcome]
            simp
          · intro position other otherFound different
            obtain ⟨_, _, part⟩ := attachments_reconcile platform unmatched member otherFound
            rw [part, attachmentTo, outcome]
            simp [Ne.symm different]
  | orphan =>
      rw [outcome] at ruled
      cases ruled with
      | orphan unnamed none_matches =>
          rw [orphanOf, outcome] at orphans
          rw [ambiguityOf, outcome] at ambiguities
          apply Accounted.orphan unnamed none_matches _ orphans ambiguities
          exact unattached fun position => by rw [attachmentTo, outcome]
  | ambiguous paths =>
      rw [outcome] at ruled
      cases ruled with
      | ambiguous unnamed several images located few =>
          rw [orphanOf, outcome] at orphans
          rw [ambiguityOf, outcome] at ambiguities
          apply Accounted.ambiguous unnamed several images _ orphans ambiguities
          exact unattached fun position => by rw [attachmentTo, outcome]

/-- Every attached path is the path of one sidecar. -/
theorem metadata_reconcile (unmatched : state.Unmatched) {final : DiscoveredMedia}
    (member : final ∈ (state.reconcile platform).media) :
    ∀ candidate ∈ final.metadata,
      candidate.relativePath ∈ state.prepare.sidecars.map DiscoveredSidecar.relativePath := by
  intro candidate attached
  obtain ⟨position, found⟩ := List.mem_iff_getElem?.mp member
  have lengths := congrArg List.length (bare_reconcileSidecars state.prepare)
  rw [List.length_map, List.length_map] at lengths
  obtain ⟨bound, _⟩ := List.getElem?_eq_some_iff.mp found
  rw [ScanState.reconcile, media_complete, List.length_map, lengths] at bound
  obtain ⟨reconciled, located, _, metadata⟩ :=
    reconciled_media platform unmatched (List.getElem?_eq_getElem bound)
  obtain rfl := Option.some.inj (found.symm.trans located)
  rw [metadata, mem_sortDedup, List.mem_filterMap] at attached
  obtain ⟨sidecar, listed, from_sidecar⟩ := attached
  rw [attachmentTo_relativePath from_sidecar]
  exact List.mem_map_of_mem listed

/-- The sidecars of a prepared state which reconciliation attaches. -/
def attachedSidecars (state : ScanState) : List DiscoveredSidecar :=
  state.prepare.sidecars.filter fun sidecar =>
    decide ((state.reconcile platform).attachments sidecar.relativePath ≠ [])

/-- Reconciliation accounts for every sidecar once, and the plan counts those which are attached. -/
theorem sidecars_accounted (unmatched : state.Unmatched) (schemaVersion : Nat)
    (sourceKind : SourceKind) (sourceLabel : String) (config : FolderScanConfig) :
    (∀ sidecar ∈ state.prepare.sidecars,
        Accounted state.prepare (state.reconcile platform) sidecar) ∧
      (finalizePlan platform schemaVersion sourceKind sourceLabel config
        (state.reconcile platform)).summary.sidecars =
          (attachedSidecars platform state).length := by
  constructor
  · intro sidecar member
    exact accounted_reconcile platform unmatched member
  have sorted := (perm_sortBy CandidateAsset.relativePath
    ((state.reconcile platform).media.map (candidateAsset platform))).map
      fun asset : CandidateAsset => asset.metadata.length
  have counted : (finalizePlan platform schemaVersion sourceKind sourceLabel config
      (state.reconcile platform)).summary.sidecars =
        ((state.reconcile platform).media.flatMap DiscoveredMedia.metadata).length := by
    rw [List.length_flatMap]
    refine sorted.sum_eq.trans ?_
    rw [List.map_map]
    rfl
  have located : ∀ candidate ∈ (state.reconcile platform).media.flatMap DiscoveredMedia.metadata,
      candidate.relativePath ∈ state.prepare.sidecars.map DiscoveredSidecar.relativePath := by
    intro candidate listed
    obtain ⟨final, member, attached⟩ := List.mem_flatMap.mp listed
    exact metadata_reconcile platform unmatched member candidate attached
  have byPath := length_eq_sum_filter MetadataCandidate.relativePath (nodup_prepare_sidecars state)
    _ located
  have single : ∀ sidecar ∈ state.prepare.sidecars,
      (((state.reconcile platform).media.flatMap DiscoveredMedia.metadata).filter
        fun candidate => candidate.relativePath = sidecar.relativePath).length =
          if (state.reconcile platform).attachments sidecar.relativePath ≠ [] then 1 else 0 := by
    intro sidecar member
    have lengths : (((state.reconcile platform).media.flatMap DiscoveredMedia.metadata).filter
        fun candidate => candidate.relativePath = sidecar.relativePath).length =
          ((state.reconcile platform).attachments sidecar.relativePath).length := by
      rw [ScanState.attachments, List.filter_flatMap, List.length_flatMap, List.length_flatMap]
      simp only [List.length_map]
    rw [lengths]
    cases accounted_reconcile platform unmatched member with
    | attached _ _ _ attachments _ _ => simp [attachments]
    | orphan _ _ attachments _ _ => simp [attachments]
    | ambiguous _ _ _ attachments _ _ => simp [attachments]
  rw [counted, byPath, List.map_map, attachedSidecars, length_filter_eq_sum]
  apply congrArg List.sum
  apply List.map_congr_left
  intro sidecar member
  rw [Function.comp_apply, single sidecar member]
  simp only [decide_eq_true_eq]

end

end

/-- The sidecar of the sample folder is accounted for. -/
theorem sampleScan_accounted :
    (∀ sidecar ∈ (sampleScan 2 []).prepare.sidecars,
        Accounted (sampleScan 2 []).prepare ((sampleScan 2 []).reconcile .reference) sidecar) ∧
      (finalizePlan .reference 1 .folder "photos" .default
        ((sampleScan 2 []).reconcile .reference)).summary.sidecars =
          (attachedSidecars .reference (sampleScan 2 [])).length := by
  have scanned : (Adapter.folder .default).Scanned .reference .directory (sampleScan 2 []) :=
    sampleScan_scanned rfl rfl rfl 2 [] (by decide +kernel)
  exact sidecars_accounted .reference scanned.unmatched 1 .folder "photos" .default

end ImmichRs
