import ImmichRs.Executor.ArchiveApply

/-!
# Runs of an archive apply

A run only creates the directories of its assets, rewrites their part files, and adds originals which
it has verified.  What it finds under any other path, it leaves as it is, whenever it is cut off.
-/

namespace ImmichRs

open Files Interaction Interaction.Program ArchiveProgram

/-! ## What a run may change -/

/-- A file is the original of an asset. -/
def ArchiveAsset.Original (asset : ArchiveAsset) (content : List UInt8) : Prop :=
  content.length = asset.byteLen.toNat ∧ Sha1.hex content = asset.checksumSha1

/-- The path under which an original is downloaded. -/
def downloadPath (destination : FilePath) (asset : ArchiveAsset) : FilePath :=
  assetDirectory destination asset.assetId ++ [partName asset.originalFileName]

/-- The directories of a destination. -/
def IsDirectoryOf (destination : FilePath) (assets : List ArchiveAsset) (path : FilePath) : Prop :=
  path <+: destination ∨ path = destination ++ ["assets"] ∨
    ∃ asset ∈ assets, path = assetDirectory destination asset.assetId

/-- A path names nothing, or a regular file. -/
def Plain (node : Option TreeNode) : Prop :=
  ∀ found, node = some found → ∃ content, found = .file content

/-- What may become of one path. -/
inductive Moves (destination : FilePath) (assets : List ArchiveAsset) (path : FilePath) :
    Option TreeNode → Option TreeNode → Prop
  | stays (node : Option TreeNode) : Moves destination assets path node node
  | directory : IsDirectoryOf destination assets path →
      Moves destination assets path none (some .directory)
  | part {asset : ArchiveAsset} {old new : Option TreeNode} : asset ∈ assets →
      path = downloadPath destination asset → Plain old → Plain new →
        Moves destination assets path old new
  | original {asset : ArchiveAsset} {content : List UInt8} : asset ∈ assets →
      path = finalPath destination asset → asset.Original content →
        Moves destination assets path none (some (.file content))

/-- What may become of a tree. -/
def Progresses (destination : FilePath) (assets : List ArchiveAsset)
    (before after : Files.Tree FilePath) : Prop :=
  ∀ path, Moves destination assets path (before path) (after path)

section

variable {destination : FilePath} {assets more : List ArchiveAsset} {path : FilePath}
  {old middle new : Option TreeNode} {before after : Files.Tree FilePath}

theorem plain_none : Plain none := fun _ found => by cases found

theorem plain_file (content : List UInt8) : Plain (some (.file content)) :=
  fun _ found => ⟨content, (Option.some.inj found).symm⟩

theorem Progresses.refl (tree : Files.Tree FilePath) : Progresses destination assets tree tree :=
  fun _ => .stays _

/-- A change of one path. -/
theorem progresses_update (moves : Moves destination assets path (before path) new) :
    Progresses destination assets before (Function.update before path new) := by
  intro other
  by_cases here : other = path
  · rw [here, Function.update_self]
    exact moves
  · rw [Function.update_of_ne here]
    exact .stays _

theorem Moves.mono (moves : Moves destination assets path old new) (subset : assets ⊆ more) :
    Moves destination more path old new := by
  cases moves with
  | stays => exact .stays _
  | directory inside =>
      exact .directory (inside.imp_right fun rest => rest.imp_right fun ⟨asset, member, same⟩ =>
        ⟨asset, subset member, same⟩)
  | part member here plain kept => exact .part (subset member) here plain kept
  | original member here verified => exact .original (subset member) here verified

theorem Progresses.mono (progresses : Progresses destination assets before after)
    (subset : assets ⊆ more) : Progresses destination more before after :=
  fun path => (progresses path).mono subset

/-! ## Paths -/

theorem length_downloadPath {asset : ArchiveAsset} (valid : asset.Valid) :
    (downloadPath destination asset).length = destination.length + 3 := by
  rw [downloadPath, assetDirectory_eq destination valid]
  simp

theorem length_le_of_isDirectoryOf (valid : ∀ asset ∈ assets, asset.Valid)
    (inside : IsDirectoryOf destination assets path) : path.length ≤ destination.length + 2 := by
  obtain front | rfl | ⟨asset, member, rfl⟩ := inside
  · have short := front.length_le
    omega
  · simp
  · rw [assetDirectory_eq destination (valid asset member)]
    simp

theorem downloadPath_ne_directory (valid : ∀ asset ∈ assets, asset.Valid) {asset : ArchiveAsset}
    (sound : asset.Valid) :
    ¬ IsDirectoryOf destination assets (downloadPath destination asset) := by
  intro inside
  have short := length_le_of_isDirectoryOf valid inside
  rw [length_downloadPath sound] at short
  omega

/-- The download path of an asset is the final path of none. -/
theorem downloadPath_ne_finalPath {first second : ArchiveAsset} (left : first.Valid)
    (right : second.Valid) (unique : first.assetId = second.assetId → first = second) :
    downloadPath destination first ≠ finalPath destination second := by
  intro same
  rw [downloadPath, finalPath_eq destination right, assetDirectory_eq destination left,
    assetDirectory_eq destination right] at same
  obtain ⟨directories, names⟩ := List.append_inj' same rfl
  have ids := List.append_cancel_left directories
  simp only [List.cons.injEq, and_true, true_and] at ids
  have named := congrArg byteLen (List.singleton_inj.mp names)
  rw [unique ids, byteLen_partName] at named
  omega

theorem finalPath_injective {first second : ArchiveAsset} (left : first.Valid)
    (right : second.Valid)
    (same : finalPath destination first = finalPath destination second) :
    first.assetId = second.assetId := by
  rw [finalPath_eq destination left, finalPath_eq destination right,
    assetDirectory_eq destination left, assetDirectory_eq destination right] at same
  obtain ⟨directories, _⟩ := List.append_inj' same rfl
  have ids := List.append_cancel_left directories
  simp only [List.cons.injEq, and_true, true_and] at ids
  exact ids

theorem length_finalPath {asset : ArchiveAsset} (valid : asset.Valid) :
    (finalPath destination asset).length = destination.length + 3 := by
  rw [finalPath_eq destination valid, assetDirectory_eq destination valid]
  simp

theorem finalPath_ne_directory (valid : ∀ asset ∈ assets, asset.Valid) {asset : ArchiveAsset}
    (sound : asset.Valid) :
    ¬ IsDirectoryOf destination assets (finalPath destination asset) := by
  intro inside
  have short := length_le_of_isDirectoryOf valid inside
  rw [length_finalPath sound] at short
  omega

theorem downloadPath_injective {first second : ArchiveAsset} (left : first.Valid)
    (right : second.Valid)
    (same : downloadPath destination first = downloadPath destination second) :
    first.assetId = second.assetId := by
  rw [downloadPath, downloadPath, assetDirectory_eq destination left,
    assetDirectory_eq destination right] at same
  obtain ⟨directories, _⟩ := List.append_inj' same rfl
  have ids := List.append_cancel_left directories
  simp only [List.cons.injEq, and_true, true_and] at ids
  exact ids

/-! ## What a run keeps -/

/-- What is behind a path stays, unless it is a download path. -/
theorem Moves.keeps {node : TreeNode} (moves : Moves destination assets path (some node) new)
    (outside : ∀ asset ∈ assets, path ≠ downloadPath destination asset) : new = some node := by
  cases moves with
  | stays => rfl
  | part member here => exact absurd here (outside _ member)

/-- A directory stays one. -/
theorem Moves.keeps_directory
    (moves : Moves destination assets path (some .directory) new) : new = some .directory := by
  cases moves with
  | stays => rfl
  | part _ _ plain =>
      obtain ⟨content, same⟩ := plain _ rfl
      cases same

/-- A path which no asset of a run uses stays as it is. -/
theorem Moves.eq_of_unused (moves : Moves destination assets path old new)
    (directory : ¬ IsDirectoryOf destination assets path)
    (part : ∀ asset ∈ assets, path ≠ downloadPath destination asset)
    (final : ∀ asset ∈ assets, path ≠ finalPath destination asset) : new = old := by
  cases moves with
  | stays => rfl
  | directory inside => exact absurd inside directory
  | part member here => exact absurd here (part _ member)
  | original member here => exact absurd here (final _ member)

end

/-! ## Reading steps -/

/-- A request which changes nothing. -/
def Consults : Event ArchiveAnswer → Prop
  | ⟨.step _, _⟩ | ⟨.download _, _⟩ => False
  | _ => True

/-- Obligations which every reading step meets. -/
class Consulting (safe : Files.Tree FilePath → Event ArchiveAnswer → Files.Tree FilePath → Prop) :
    Prop where
  consults : ∀ tree event, Consults event → safe tree event tree

section

variable {tidy : Bool}
  {safe : Files.Tree FilePath → Event ArchiveAnswer → Files.Tree FilePath → Prop}
  {tree : Files.Tree FilePath} {path : FilePath}
  {failed : Stop ExecutorError → Files.Tree FilePath → Prop}

/-- Every step of a program is safe, and it ends as said. -/
abbrev ArchiveEnds (tidy : Bool)
    (safe : Files.Tree FilePath → Event ArchiveAnswer → Files.Tree FilePath → Prop)
    {α : Type} (program : ArchiveProgram α) (tree : Files.Tree FilePath)
    (ok : α → Files.Tree FilePath → Prop)
    (failed : Stop ExecutorError → Files.Tree FilePath → Prop) : Prop :=
  Program.Ends (archiveEnvironment tidy) safe program tree ok failed

theorem archives_fail {α : Type} {ok : α → Files.Tree FilePath → Prop} {error : ExecutorError}
    (stopped : failed (.failed error) tree) :
    ArchiveEnds tidy safe (fail error : ArchiveProgram α) tree ok failed :=
  stopped

theorem archives_stopIf {condition : Bool} {error : ExecutorError}
    {ok : Unit → Files.Tree FilePath → Prop} (going : condition = false → ok () tree)
    (stopped : failed (.failed error) tree) :
    ArchiveEnds tidy safe (stopIf condition error) tree ok failed := by
  cases condition with
  | false => exact going rfl
  | true => exact stopped

variable [Consulting safe]

theorem archives_checkCancelled {ok : Unit → Files.Tree FilePath → Prop} (going : ok () tree)
    (stopped : failed (.failed .cancelled) tree) :
    ArchiveEnds tidy safe ArchiveProgram.checkCancelled tree ok failed := by
  apply ends_bind
  apply ends_send
  rintro (_ | _) after step
  · have same : after = tree := step
    rw [same]
    exact ⟨Consulting.consults _ _ trivial, going⟩
  · have same : after = tree := step
    rw [same]
    exact ⟨Consulting.consults _ _ trivial, stopped⟩

theorem archives_metadata {ok : Metadata → Files.Tree FilePath → Prop}
    (found : ok (Metadata.of (tree path)) tree) (unreadable : ok .unreadable tree) :
    ArchiveEnds tidy safe (symlinkMetadata path) tree ok failed := by
  apply ends_send
  rintro answer after ⟨rfl, rfl | rfl⟩
  · exact ⟨Consulting.consults _ _ trivial, found⟩
  · exact ⟨Consulting.consults _ _ trivial, unreadable⟩

theorem archives_pathExists {ok : Bool → Files.Tree FilePath → Prop}
    (present : tree path ≠ none → ok true tree) (absent : tree path = none → ok false tree)
    (stopped : failed (.failed .destination) tree) :
    ArchiveEnds tidy safe (pathExists path) tree ok failed := by
  apply ends_bind
  apply archives_metadata
  case unreadable => exact stopped
  case found =>
    cases here : tree path with
    | none => exact absent here
    | some node =>
        have found : ok true tree := present (by simp [here])
        cases node <;> exact found

/-- A directory which is already there. -/
theorem archives_existingDirectory {ok : Unit → Files.Tree FilePath → Prop}
    (here : tree path = some .directory) (going : ok () tree)
    (stopped : failed (.failed .destination) tree) :
    ArchiveEnds tidy safe (createOrValidateDirectory path) tree ok failed := by
  apply ends_bind
  apply archives_metadata
  case unreadable => exact stopped
  case found =>
    rw [here]
    exact going

theorem archives_ensureRealDirectory {ok : Unit → Files.Tree FilePath → Prop} (going : ok () tree)
    (stopped : failed (.failed .destination) tree) :
    ArchiveEnds tidy safe (ensureRealDirectory path) tree ok failed := by
  apply ends_bind
  apply archives_metadata
  case unreadable => exact stopped
  case found => cases Metadata.of (tree path) <;> first | exact going | exact stopped

/-! ## Verification -/

theorem archives_hashReadings {ok : List UInt8 → Files.Tree FilePath → Prop}
    (readings : List (Option (List UInt8))) (hashed : List UInt8)
    (going : ∀ pieces : List (List UInt8), readings = pieces.map some →
      ok (hashed ++ pieces.flatten) tree)
    (stopped : ∀ error, failed error tree) :
    ArchiveEnds tidy safe (hashReadings readings hashed) tree ok failed := by
  induction readings generalizing hashed with
  | nil =>
      apply ends_bind
      apply archives_checkCancelled
      case stopped => exact stopped _
      case going =>
        apply ends_pure
        have whole := going [] rfl
        rwa [List.flatten_nil, List.append_nil] at whole
  | cons reading rest induction =>
      cases reading with
      | none =>
          apply ends_bind
          exact archives_checkCancelled (stopped _) (stopped _)
      | some bytes =>
          apply ends_bind
          apply archives_checkCancelled
          case stopped => exact stopped _
          case going =>
            apply induction
            intro pieces same
            rw [List.append_assoc]
            exact going (bytes :: pieces) (congrArg (some bytes :: ·) same)

theorem archives_verifyExisting {asset : ArchiveAsset} {ok : Unit → Files.Tree FilePath → Prop}
    (going : ∀ content, tree path = some (.file content) → asset.Original content → ok () tree)
    (stopped : ∀ error, failed error tree) :
    ArchiveEnds tidy safe (verifyExisting path asset) tree ok failed := by
  apply ends_bind
  apply archives_metadata
  case unreadable => exact stopped _
  case found =>
    apply ends_bind
    apply archives_stopIf
    case stopped => exact stopped _
    case going =>
      intro file
      obtain ⟨content, here, length⟩ := Metadata.of_eq_file (bne_eq_false_iff_eq.mp file)
      apply ends_bind
      apply ends_send
      intro answer after opened
      cases answer with
      | none =>
          have same : after = tree := opened
          rw [same]
          exact ⟨Consulting.consults _ _ trivial, stopped _⟩
      | some readings =>
          obtain ⟨rfl, held, there, reads⟩ := opened
          obtain rfl : content = held := by
            rw [here] at there
            exact TreeNode.file.inj (Option.some.inj there)
          refine ⟨Consulting.consults _ _ trivial, ?_⟩
          apply ends_bind
          apply archives_hashReadings
          case stopped => exact stopped
          case going =>
            intro pieces same
            apply archives_stopIf
            case stopped => exact stopped _
            case going =>
              intro digest
              rw [List.nil_append, reads pieces same, bne_eq_false_iff_eq] at digest
              exact going content here ⟨length, digest⟩

end

/-! ## Steps on the tree -/

section

variable {tidy : Bool} {destination : FilePath} {assets : List ArchiveAsset}
  {tree : Files.Tree FilePath} {path : FilePath}
  {failed : Stop ExecutorError → Files.Tree FilePath → Prop}

/-- Every step is one which a run may take. -/
abbrev Progressing (destination : FilePath) (assets : List ArchiveAsset) :
    Files.Tree FilePath → Event ArchiveAnswer → Files.Tree FilePath → Prop :=
  fun before _ after => Progresses destination assets before after

instance : Consulting (Progressing destination assets) where
  consults _ _ _ := .refl _

/-- Every step of a program is one of the archive, and it ends as said. -/
abbrev Archives (tidy : Bool) (destination : FilePath) (assets : List ArchiveAsset) {α : Type}
    (program : ArchiveProgram α) (tree : Files.Tree FilePath) (ok : α → Files.Tree FilePath → Prop)
    (failed : Stop ExecutorError → Files.Tree FilePath → Prop) : Prop :=
  ArchiveEnds tidy (Progressing destination assets) program tree ok failed

theorem archives_step {step : TreeStep FilePath} {ok : Bool → Files.Tree FilePath → Prop}
    (each : ∀ succeeded after, step.Performs tidy tree succeeded after →
      Progresses destination assets tree after ∧ ok succeeded after) :
    Archives tidy destination assets (treeStep step) tree ok failed :=
  ends_send each

theorem archives_perform {step : TreeStep FilePath} {ok : Unit → Files.Tree FilePath → Prop}
    (each : ∀ succeeded after, step.Performs tidy tree succeeded after →
      Progresses destination assets tree after ∧
        if succeeded then ok () after else failed (.failed .destination) after) :
    Archives tidy destination assets (perform step) tree ok failed := by
  apply ends_bind
  apply archives_step
  intro succeeded after performed
  obtain ⟨progress, reached⟩ := each succeeded after performed
  refine ⟨progress, ?_⟩
  cases succeeded with
  | true => exact reached
  | false => exact reached

/-! ## Directories -/

theorem archives_createOrValidateDirectory {ok : Unit → Files.Tree FilePath → Prop}
    (inside : IsDirectoryOf destination assets path)
    (going : ∀ after, Tree.AgreeOff [path] after tree → after path = some .directory → ok () after)
    (stopped : ∀ error after, Tree.AgreeOff [path] after tree → failed error after) :
    Archives tidy destination assets (createOrValidateDirectory path) tree ok failed := by
  have untouched := Tree.AgreeOff.refl [path] tree
  apply ends_bind
  apply archives_metadata
  case unreadable => exact archives_fail (stopped _ _ untouched)
  case found =>
    cases here : tree path with
    | none =>
        apply archives_perform
        rintro succeeded after (⟨rfl, rfl⟩ | ⟨_, rfl⟩)
        · exact ⟨.refl _, stopped _ _ untouched⟩
        · have created : Tree.AgreeOff [path] (Function.update tree path (some .directory)) tree :=
            untouched.update (List.mem_singleton_self path)
          refine ⟨progresses_update (here ▸ .directory inside), ?_⟩
          split
          · exact going _ created (Function.update_self _ _ _)
          · exact stopped _ _ created
    | some node =>
        cases node with
        | directory => exact going _ untouched here
        | file content => exact archives_fail (stopped _ _ untouched)
        | other => exact archives_fail (stopped _ _ untouched)

theorem archives_ensureAssetDirectory {asset : ArchiveAsset}
    (member : asset ∈ assets) {ok : Unit → Files.Tree FilePath → Prop}
    (going : ∀ after, Tree.AgreeOff [assetDirectory destination asset.assetId,
      destination ++ ["assets"]] after tree → ok () after)
    (stopped : ∀ error after, Tree.AgreeOff [assetDirectory destination asset.assetId,
      destination ++ ["assets"]] after tree → failed error after) :
    Archives tidy destination assets (ensureAssetDirectory destination asset.assetId) tree ok
      failed := by
  have parent : FilePath.join destination "assets" = destination ++ ["assets"] := by
    rw [FilePath.join, if_neg (by decide)]
    congr 1
  have first : ∀ {after}, Tree.AgreeOff [destination ++ ["assets"]] after tree →
      Tree.AgreeOff [assetDirectory destination asset.assetId, destination ++ ["assets"]] after
        tree := fun agree path outside => agree path fun inside =>
    outside (List.mem_cons_of_mem _ inside)
  rw [ensureAssetDirectory, parent]
  apply ends_bind
  apply archives_createOrValidateDirectory (.inr (.inl rfl))
  case stopped => exact fun error after agree => stopped error after (first agree)
  case going =>
    intro middle agree _
    apply archives_createOrValidateDirectory (.inr (.inr ⟨asset, member, rfl⟩))
    · exact fun after later _ => going after (later.trans agree)
    · exact fun error after later => stopped error after (later.trans agree)

/-- Every directory on the way to the destination is there. -/
def DirectoriesTo (destination : FilePath) (tree : Files.Tree FilePath) : Prop :=
  ∀ path, path ≠ [] → path <+: destination → tree path = some .directory

theorem archives_ensureComponents (current : FilePath) (rest : List String)
    (prefixed : current ++ rest <+: destination) (there : DirectoriesTo current tree) :
    Archives tidy destination assets (ensureComponents current rest) tree
      (fun _ after => DirectoriesTo (current ++ rest) after) fun _ _ => True := by
  induction rest generalizing current tree with
  | nil =>
      rw [List.append_nil]
      exact there
  | cons component rest induction =>
      have split : current ++ component :: rest = (current ++ [component]) ++ rest := by simp
      rw [split] at prefixed ⊢
      apply ends_bind
      apply archives_stopIf
      case stopped => exact trivial
      case going =>
        intro _
        apply ends_bind
        apply archives_createOrValidateDirectory (.inl ((List.prefix_append _ _).trans prefixed))
        case stopped => exact fun _ _ _ => trivial
        case going =>
          intro after agree created
          apply induction _ prefixed
          intro path nonempty front
          obtain rfl | front := List.prefix_concat_iff.mp front
          · exact created
          · rw [← there path nonempty front]
            apply agree
            rw [List.mem_singleton]
            rintro rfl
            have short := front.length_le
            simp at short

theorem archives_ensureDestination :
    Archives tidy destination assets (ensureDestination destination) tree
      (fun _ after => DirectoriesTo destination after) fun _ _ => True := by
  apply ends_bind
  apply archives_stopIf
  case stopped => exact trivial
  case going =>
    intro _
    apply ends_bind
    apply (archives_ensureComponents [] destination (List.prefix_refl _) _).mono
      (fun _ _ _ => id) _ fun _ _ => id
    · intro path nonempty front
      exact absurd (List.prefix_nil.mp front) nonempty
    · intro _ middle there
      rw [List.nil_append] at there
      exact archives_ensureRealDirectory there trivial

end

end ImmichRs
