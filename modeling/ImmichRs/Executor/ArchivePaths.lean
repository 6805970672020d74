import ImmichRs.Executor.ArchivePlan
import ImmichRs.Sources.State

/-!
# Paths of an archive

The final path of an asset is the destination joined with its target, and the part path replaces the
file name of the final one.  A path is the list of its components; the root directory is the
component `/`.
-/

namespace ImmichRs

/-- A path as its components. -/
abbrev FilePath : Type := List String

/-- `Path::components` of a portable path, without its dot components. -/
def pathComponents (value : String) : FilePath :=
  (if value.toList.head? = some '/' then ["/"] else []) ++
    (splitOn value '/').filter fun part => !part.isEmpty && part != "."

/-- `Path::join`: an absolute path replaces the base. -/
def FilePath.join (base : FilePath) (value : String) : FilePath :=
  if value.toList.head? = some '/' then pathComponents value else base ++ pathComponents value

/-- `Path::file_name`. -/
def pathName (path : FilePath) : Option String :=
  path.getLast?.filter fun name => name != ".." && name != "/"

/-- `Path::with_file_name`, for a name without a slash. -/
def withFileName (path : FilePath) (name : String) : FilePath :=
  path.dropLast ++ [name]

/-- `destination.join(&asset.target_path)`. -/
def finalPath (destination : FilePath) (asset : ArchiveAsset) : FilePath :=
  FilePath.join destination asset.targetPath

/-- The hidden name under which an original is downloaded. -/
def partName (name : String) : String := "." ++ name ++ ".immich-rs.part"

/-- `part_path`. -/
def partPath (final : FilePath) : Except ExecutorError FilePath :=
  match pathName final with
  | none => .error .destination
  | some name => .ok (withFileName final (partName name))

/-- The directory of `ensure_asset_directory`. -/
def assetDirectory (destination : FilePath) (assetId : String) : FilePath :=
  FilePath.join (FilePath.join destination "assets") assetId

/-! ## Components -/

theorem notMem_slash_of_uuid {value : String} (uuid : canonicalUuidV4 value = true) :
    '/' ∉ value.toList := by
  simp only [canonicalUuidV4, uuidV4, Bool.and_eq_true, beq_iff_eq, List.all_eq_true,
    Bool.or_eq_true, List.contains_iff_mem] at uuid
  obtain ⟨⟨⟨⟨_, hyphens⟩, _⟩, _⟩, digits⟩ := uuid
  intro slash
  obtain ⟨index, found⟩ := List.mem_iff_getElem?.mp slash
  rcases digits ('/', index) (List.mk_mem_zipIdx_iff_getElem?.mpr found) with hyphen | digit
  · rw [hyphens index hyphen] at found
    cases found
  · cases digit

theorem nonempty_of_uuid {value : String} (uuid : canonicalUuidV4 value = true) :
    value ≠ "" ∧ value ≠ "." := by
  have length := length_of_uuidV4 uuid
  constructor <;> rintro rfl <;> cases length

/-- The target of a valid asset has three components. -/
theorem ArchiveAsset.Valid.components_target {asset : ArchiveAsset} (valid : asset.Valid) :
    pathComponents asset.targetPath = ["assets", asset.assetId, asset.originalFileName] := by
  have safe := (safeComponent_eq_some valid.name).mp rfl
  obtain ⟨idNonempty, idNoDot⟩ := nonempty_of_uuid valid.uuid
  have nameNonempty : asset.originalFileName ≠ "" := by
    intro empty
    have positive := safe.nonempty
    rw [empty] at positive
    cases positive
  have characters : asset.targetPath.toList = "assets".toList ++ '/' ::
      (asset.assetId.toList ++ '/' :: asset.originalFileName.toList) := by
    rw [valid.target, archiveTarget]
    simp only [String.toList_append, List.append_assoc]
    rfl
  have parts : splitOn asset.targetPath '/' =
      ["assets", asset.assetId, asset.originalFileName] := by
    rw [splitOn, characters, splitChars_append (by decide),
      splitChars_append (notMem_slash_of_uuid valid.uuid),
      splitChars_of_notMem safe.separators.1]
    simp only [List.map_cons, List.map_nil, String.ofList_toList]
  have relative : asset.targetPath.toList.head? = some 'a' := by
    rw [characters]
    rfl
  rw [pathComponents, parts, relative, if_neg (by decide), List.nil_append]
  simp [idNonempty, idNoDot, nameNonempty, safe.noDots.1]

/-! ## The paths of an asset -/

theorem assetDirectory_eq (destination : FilePath) {asset : ArchiveAsset} (valid : asset.Valid) :
    assetDirectory destination asset.assetId = destination ++ ["assets", asset.assetId] := by
  have free := notMem_slash_of_uuid valid.uuid
  obtain ⟨nonempty, noDot⟩ := nonempty_of_uuid valid.uuid
  have relative : asset.assetId.toList.head? ≠ some '/' :=
    fun slash => free (List.mem_of_head? slash)
  have single : pathComponents asset.assetId = [asset.assetId] := by
    rw [pathComponents, if_neg relative, splitOn, splitChars_of_notMem free]
    simp [nonempty, noDot]
  have assets : FilePath.join destination "assets" = destination ++ ["assets"] := by
    have single : pathComponents "assets" = ["assets"] := by decide +kernel
    rw [FilePath.join, if_neg (by decide), single]
  rw [assetDirectory, assets, FilePath.join, if_neg relative, single, List.append_assoc]
  rfl

theorem finalPath_eq (destination : FilePath) {asset : ArchiveAsset} (valid : asset.Valid) :
    finalPath destination asset =
      assetDirectory destination asset.assetId ++ [asset.originalFileName] := by
  have relative : asset.targetPath.toList.head? ≠ some '/' := by
    rw [valid.target, archiveTarget, String.append_assoc, String.append_assoc, String.toList_append]
    exact nofun
  rw [assetDirectory_eq destination valid, finalPath, FilePath.join, if_neg relative,
    valid.components_target, List.append_assoc]
  rfl

theorem partPath_finalPath (destination : FilePath) {asset : ArchiveAsset} (valid : asset.Valid) :
    partPath (finalPath destination asset) =
      .ok (assetDirectory destination asset.assetId ++ [partName asset.originalFileName]) := by
  have safe := (safeComponent_eq_some valid.name).mp rfl
  have noSlash : asset.originalFileName ≠ "/" := by
    intro slash
    have free := safe.separators.1
    rw [slash] at free
    exact free (by decide)
  rw [partPath, finalPath_eq destination valid, pathName, List.getLast?_concat,
    Option.filter_some, if_pos (by simp [safe.noDots.2, noSlash])]
  dsimp only
  rw [withFileName, List.dropLast_concat]

theorem byteLen_partName (name : String) : byteLen (partName name) = byteLen name + 16 := by
  rw [partName, byteLen_append, byteLen_append, show byteLen "." = 1 by decide,
    show byteLen ".immich-rs.part" = 15 by decide]
  omega

/-- The paths which one asset of an archive uses. -/
def usedPaths (destination : FilePath) (asset : ArchiveAsset) : List FilePath :=
  finalPath destination asset :: (partPath (finalPath destination asset)).toOption.toList

theorem usedPaths_eq (destination : FilePath) {asset : ArchiveAsset} (valid : asset.Valid) :
    usedPaths destination asset =
      [asset.originalFileName, partName asset.originalFileName].map
        fun name => assetDirectory destination asset.assetId ++ [name] := by
  rw [usedPaths, partPath_finalPath destination valid, finalPath_eq destination valid]
  rfl

/-- Valid assets with different identifiers use different paths. -/
theorem nodup_usedPaths (destination : FilePath) {assets : List ArchiveAsset}
    (valid : ∀ asset ∈ assets, asset.Valid) (unique : (assets.map ArchiveAsset.assetId).Nodup) :
    (assets.flatMap (usedPaths destination)).Nodup := by
  rw [List.nodup_flatMap]
  constructor
  · intro asset member
    rw [usedPaths_eq destination (valid asset member)]
    apply List.Nodup.map (List.append_right_injective _ |>.comp List.singleton_injective)
    rw [List.nodup_cons]
    refine ⟨fun same => ?_, List.nodup_singleton _⟩
    have lengths := congrArg byteLen (List.mem_singleton.mp same)
    rw [byteLen_partName] at lengths
    omega
  · have different : assets.Pairwise fun first second => first.assetId ≠ second.assetId :=
      List.pairwise_map.mp unique
    refine different.imp_of_mem fun {first second} firstMember secondMember different => ?_
    intro path firstUses secondUses
    rw [usedPaths_eq destination (valid first firstMember), List.mem_map] at firstUses
    rw [usedPaths_eq destination (valid second secondMember), List.mem_map] at secondUses
    obtain ⟨firstName, _, rfl⟩ := firstUses
    obtain ⟨secondName, _, same⟩ := secondUses
    obtain ⟨directories, _⟩ := List.append_inj' same rfl
    rw [assetDirectory_eq destination (valid first firstMember),
      assetDirectory_eq destination (valid second secondMember)] at directories
    have last := List.append_cancel_left directories
    simp only [List.cons.injEq, and_true, true_and] at last
    exact different last.symm

/-- The paths of an accepted manifest are pairwise distinct and lie directly in the directories of
their assets.  They fit the limit of 255 bytes exactly when every original name leaves room for the
sixteen bytes of the part name. -/
theorem archive_paths_iff (destination : FilePath) (manifest : ArchiveManifest)
    (valid : manifest.validate = .ok ()) :
    ((manifest.assets.flatMap (usedPaths destination)).Nodup ∧
      ∀ asset ∈ manifest.assets,
        (∃ part, partPath (finalPath destination asset) = .ok part) ∧
        ∀ path ∈ usedPaths destination asset, ∃ name,
          path = assetDirectory destination asset.assetId ++ [name] ∧ byteLen name ≤ 255) ↔
      ∀ asset ∈ manifest.assets, byteLen asset.originalFileName ≤ 239 := by
  have accepted := ArchiveManifest.validate_eq_ok.mp valid
  constructor
  · rintro ⟨_, fits⟩ asset member
    have part := partPath_finalPath destination (accepted.valid asset member)
    have used : assetDirectory destination asset.assetId ++ [partName asset.originalFileName] ∈
        usedPaths destination asset := by
      rw [usedPaths, part]
      exact List.mem_cons_of_mem _ (List.mem_singleton.mpr rfl)
    obtain ⟨name, same, short⟩ := (fits asset member).2 _ used
    obtain ⟨_, last⟩ := List.append_inj' same rfl
    obtain rfl := List.singleton_inj.mp last
    rw [byteLen_partName] at short
    omega
  · intro short
    refine ⟨nodup_usedPaths destination accepted.valid accepted.unique, fun asset member => ?_⟩
    refine ⟨⟨_, partPath_finalPath destination (accepted.valid asset member)⟩, ?_⟩
    rw [usedPaths_eq destination (accepted.valid asset member)]
    intro path used
    obtain ⟨name, named, rfl⟩ := List.mem_map.mp used
    refine ⟨name, rfl, ?_⟩
    have room := short asset member
    rcases List.mem_pair.mp named with rfl | rfl
    · omega
    · rw [byteLen_partName]
      omega

/-- A manifest whose names have at most 239 bytes fits the limit. -/
theorem sampleArchive_paths :
    (sampleArchiveManifest [sampleRemoteAsset '1' "a.jpg"]).assets.length = 1 ∧
      ∀ asset ∈ (sampleArchiveManifest [sampleRemoteAsset '1' "a.jpg"]).assets,
        (∃ part, partPath (finalPath ["/", "archive"] asset) = .ok part) ∧
        ∀ path ∈ usedPaths ["/", "archive"] asset, ∃ name,
          path = assetDirectory ["/", "archive"] asset.assetId ++ [name] ∧ byteLen name ≤ 255 :=
  ⟨rfl, ((archive_paths_iff ["/", "archive"] (sampleArchiveManifest [sampleRemoteAsset '1' "a.jpg"])
    (by decide +kernel)).mpr (by decide +kernel)).2⟩

theorem safeComponent_replicate {count : Nat} (long : 4 < count) (short : count ≤ 255) :
    safeComponent (String.ofList (List.replicate count 'a')) = some true := by
  have length : byteLen (String.ofList (List.replicate count 'a')) = count := by
    rw [byteLen_replicate]
    exact Nat.mul_one count
  have noDots : String.ofList (List.replicate count 'a') ≠ "." ∧
      String.ofList (List.replicate count 'a') ≠ ".." := by
    constructor <;> intro dots <;> rw [dots] at length <;>
      exact absurd long (by rw [← length]; decide)
  have nonempty : count ≠ 0 := by omega
  apply safeComponent_of_long
  · rw [plainComponent_eq_true, length]
    refine ⟨by omega, short, noDots, ?_, ?_, ?_⟩ <;>
      simp [List.getLast?_replicate, List.mem_replicate, nonempty, isControl]
  · rw [leadingStem, String.toList_ofList, List.takeWhile_replicate, if_pos (by decide), length]
    exact long

/-- A manifest with a name of 240 bytes is accepted, and its part name has 256 bytes. -/
theorem sampleArchive_longPart :
    let remote := sampleRemoteAsset '1' (String.ofList (List.replicate 240 'a'))
    (sampleArchiveManifest [remote]).validate = .ok () ∧
      ∃ name, assetDirectory ["/", "archive"] remote.assetId ++ [name] ∈
        usedPaths ["/", "archive"] (archiveAsset remote) ∧ byteLen name = 256 := by
  intro remote
  have asset : (archiveAsset remote).Valid :=
    ⟨by decide +kernel, safeComponent_replicate (by decide) (by decide), by decide +kernel, rfl⟩
  refine ⟨ArchiveManifest.validate_eq_ok.mpr ?_, partName remote.originalFileName, ?_, ?_⟩
  · exact
      { schema := rfl
        configuration := by decide +kernel
        identity := by decide +kernel
        version := ⟨rfl, rfl⟩
        valid := by simpa [sampleArchiveManifest] using asset
        unique := List.nodup_singleton _
        sorted := List.pairwise_singleton _ _
        counted := rfl
        bytes := rfl }
  · rw [usedPaths_eq _ asset]
    exact List.mem_cons_of_mem _ List.mem_cons_self
  · rw [byteLen_partName, show remote.originalFileName = String.ofList _ from rfl,
      byteLen_replicate]
    rfl

end ImmichRs
