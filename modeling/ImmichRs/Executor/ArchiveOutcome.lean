import ImmichRs.Executor.ArchiveRuns

/-!
# Outcomes of an archive apply

What is there when a run ends: every original after a success, no new part file where removals do
not fail, and nothing to do for the next run.
-/

namespace ImmichRs

open Files Interaction Interaction.Program ArchiveProgram

section

variable {tidy : Bool} {destination : FilePath} {assets : List ArchiveAsset}
  {tree : Files.Tree FilePath} {asset : ArchiveAsset}
  {failed : Stop ExecutorError → Files.Tree FilePath → Prop}

/-! ## Downloads -/

/-- A change of the file under which an asset is downloaded. -/
theorem progresses_part (member : asset ∈ assets) {node : Option TreeNode}
    (old : Plain (tree (downloadPath destination asset))) (new : Plain node) :
    Progresses destination assets tree
      (Function.update tree (downloadPath destination asset) node) :=
  progresses_update (.part member rfl old new)

theorem archives_copyDownload (member : asset ∈ assets)
    {chunks : List (Except ClientError (List UInt8))} {hashed : List UInt8} {byteLen : Nat}
    {ok : List UInt8 × Nat → Files.Tree FilePath → Prop}
    (present : tree (downloadPath destination asset) = some (.file hashed))
    (counted : byteLen = hashed.length)
    (going : ∀ result, ok (result, result.length)
      (Function.update tree (downloadPath destination asset) (some (.file result))))
    (stopped : ∀ error content, failed error
      (Function.update tree (downloadPath destination asset) (some (.file content)))) :
    Archives tidy destination assets
      (copyDownload asset (downloadPath destination asset) chunks hashed byteLen) tree ok
      failed := by
  subst counted
  have stays : ∀ error, failed error tree := by
    intro error
    have unchanged := stopped error hashed
    rwa [← present, Function.update_eq_self] at unchanged
  induction chunks generalizing tree hashed with
  | nil =>
      have unchanged := going hashed
      rwa [← present, Function.update_eq_self] at unchanged
  | cons answer rest induction =>
      cases answer with
      | error error => exact stays _
      | ok chunk =>
          rw [copyDownload, ← List.length_append]
          apply ends_bind
          apply archives_stopIf
          case stopped => exact stays _
          case going =>
            intro _
            apply ends_bind
            apply archives_stopIf
            case stopped => exact stays _
            case going =>
              intro _
              have plain : Plain (tree (downloadPath destination asset)) := by
                rw [present]
                exact plain_file _
              apply ends_bind
              apply archives_perform
              rintro succeeded after (⟨rfl, rfl⟩ | ⟨content, written, here, _, whole, rfl⟩)
              · exact ⟨.refl _, stays _⟩
              · obtain rfl : content = hashed := by
                  rw [present] at here
                  exact (TreeNode.file.inj (Option.some.inj here)).symm
                refine ⟨progresses_part member plain (plain_file _), ?_⟩
                cases succeeded with
                | false => exact stopped _ _
                | true =>
                    rw [whole rfl, if_pos rfl]
                    apply induction (Function.update_self _ _ _)
                    case going =>
                      intro result
                      rw [Function.update_idem]
                      exact going result
                    case stopped =>
                      intro error content
                      rw [Function.update_idem]
                      exact stopped error content
                    case stays => exact fun error => stopped error _

/-- A download which succeeds leaves the original under the part name. -/
theorem archives_downloadAsset (member : asset ∈ assets)
    (absent : tree (downloadPath destination asset) = none) {ok : Unit → Files.Tree FilePath → Prop}
    (going : ∀ content, asset.Original content →
      ok () (Function.update tree (downloadPath destination asset) (some (.file content))))
    (stopped : ∀ error node, Plain node →
      failed error (Function.update tree (downloadPath destination asset) node)) :
    Archives tidy destination assets (downloadAsset asset (downloadPath destination asset)) tree ok
      failed := by
  have untouched : ∀ error, failed error tree := by
    intro error
    have unchanged := stopped error none plain_none
    rwa [← absent, Function.update_eq_self] at unchanged
  have plain : Plain (tree (downloadPath destination asset)) := by
    rw [absent]
    exact plain_none
  apply ends_bind
  apply ends_send
  intro answer after performed
  have same : after = tree := performed
  rw [same]
  refine ⟨.refl _, ?_⟩
  cases answer with
  | error error => exact untouched _
  | ok download =>
      apply ends_bind
      apply archives_stopIf
      case stopped => exact untouched _
      case going =>
        intro _
        apply ends_bind
        apply archives_perform
        rintro succeeded after (⟨rfl, rfl⟩ | ⟨_, rfl⟩)
        · exact ⟨.refl _, untouched _⟩
        · refine ⟨progresses_part member plain (plain_file _), ?_⟩
          cases succeeded with
          | false => exact stopped _ _ (plain_file _)
          | true =>
              rw [if_pos rfl]
              apply ends_bind
              apply archives_copyDownload member (Function.update_self _ _ _) rfl
              case stopped =>
                intro error content
                rw [Function.update_idem]
                exact stopped error _ (plain_file _)
              case going =>
                intro hashed
                rw [Function.update_idem]
                apply ends_bind
                apply archives_perform
                rintro succeeded after rfl
                refine ⟨.refl _, ?_⟩
                cases succeeded with
                | false => exact stopped _ _ (plain_file _)
                | true =>
                    rw [if_pos rfl]
                    apply archives_stopIf
                    case stopped => exact stopped _ _ (plain_file _)
                    case going =>
                      intro accepted
                      rw [Bool.or_eq_false_iff, bne_eq_false_iff_eq, bne_eq_false_iff_eq]
                        at accepted
                      exact going hashed accepted

/-- Removing the file under which an asset was downloaded. -/
theorem archives_removeCreatedPart (member : asset ∈ assets) {node : Option TreeNode}
    (plain : Plain node) {ok : Unit → Files.Tree FilePath → Prop}
    (going : ∀ left, Plain left → (tidy = true → left = none) →
      ok () (Function.update tree (downloadPath destination asset) left)) :
    Archives tidy destination assets (removeCreatedPart (downloadPath destination asset))
      (Function.update tree (downloadPath destination asset) node) ok failed := by
  have here : Plain (Function.update tree (downloadPath destination asset) node
      (downloadPath destination asset)) := by
    rw [Function.update_self]
    exact plain
  apply ends_bind
  apply archives_step
  rintro succeeded after (⟨⟨rfl, kept⟩, rfl⟩ | ⟨_, rfl⟩)
  · refine ⟨.refl _, going node plain fun removed => ?_⟩
    rw [Function.update_self] at kept
    obtain none | directory := kept removed
    · exact none
    · obtain ⟨content, same⟩ := plain _ directory
      cases same
  · refine ⟨progresses_part member here plain_none, ?_⟩
    rw [Function.update_idem]
    exact going none plain_none fun _ => rfl

theorem archives_removeStalePart (member : asset ∈ assets) {ok : Unit → Files.Tree FilePath → Prop}
    (going : ok () (Function.update tree (downloadPath destination asset) none))
    (stopped : ∀ error node, node = tree (downloadPath destination asset) ∨ node = none →
      failed error (Function.update tree (downloadPath destination asset) node)) :
    Archives tidy destination assets (removeStalePart (downloadPath destination asset)) tree ok
      failed := by
  have untouched : ∀ error, failed error tree := by
    intro error
    have unchanged := stopped error _ (.inl rfl)
    rwa [Function.update_eq_self] at unchanged
  apply ends_bind
  apply archives_metadata
  case unreadable => exact untouched _
  case found =>
    cases here : tree (downloadPath destination asset) with
    | none =>
        rw [← here, Function.update_eq_self] at going
        exact going
    | some node =>
        cases node with
        | directory => exact untouched _
        | other => exact untouched _
        | file content =>
            apply archives_perform
            rintro succeeded after (⟨⟨rfl, _⟩, rfl⟩ | ⟨_, rfl⟩)
            · exact ⟨.refl _, untouched _⟩
            · refine ⟨progresses_part member (by rw [here]; exact plain_file _) plain_none, ?_⟩
              split
              · exact going
              · exact stopped _ _ (.inr rfl)

/-! ## One asset -/

/-- A download path is left as it was, or empty. -/
def Left (destination : FilePath) (before after : Files.Tree FilePath) (asset : ArchiveAsset) :
    Prop :=
  after (downloadPath destination asset) = none ∨
    after (downloadPath destination asset) = before (downloadPath destination asset)

/-- The original of an asset is under its final path. -/
def Archived (destination : FilePath) (tree : Files.Tree FilePath) (asset : ArchiveAsset) : Prop :=
  ∃ content, tree (finalPath destination asset) = some (.file content) ∧ asset.Original content

/-- A verified download is renamed. -/
theorem progresses_rename (valid : asset.Valid) (member : asset ∈ assets) {content : List UInt8}
    (original : asset.Original content) (absent : tree (finalPath destination asset) = none)
    (here : tree (downloadPath destination asset) = some (.file content)) :
    Progresses destination assets tree
      (tree.rename (downloadPath destination asset) (finalPath destination asset)) := by
  have different : downloadPath destination asset ≠ finalPath destination asset :=
    downloadPath_ne_finalPath valid valid fun _ => rfl
  intro path
  by_cases last : path = finalPath destination asset
  · rw [last, Tree.rename, Function.update_self, absent, here]
    exact .original member rfl original
  · rw [Tree.rename, Function.update_of_ne last]
    by_cases first : path = downloadPath destination asset
    · rw [first, Function.update_self, here]
      exact .part member rfl (plain_file content) plain_none
    · rw [Function.update_of_ne first]
      exact .stays _

/-- The files of an asset are no directories of it. -/
theorem notMem_directories (valid : asset.Valid) {path : FilePath}
    (long : path.length = destination.length + 3) :
    path ∉ [assetDirectory destination asset.assetId, destination ++ ["assets"]] := by
  intro member
  rw [assetDirectory_eq destination valid, List.mem_pair] at member
  obtain rfl | rfl := member <;> simp at long

theorem archives_materialize (valid : asset.Valid) (member : asset ∈ assets)
    (absent : tree (finalPath destination asset) = none) :
    Archives tidy destination assets
      (materialize destination (finalPath destination asset) asset) tree
      (fun _ after => Archived destination after asset ∧
        after (downloadPath destination asset) = none)
      fun _ after => tidy = true → Left destination tree after asset := by
  have different : downloadPath destination asset ≠ finalPath destination asset :=
    downloadPath_ne_finalPath valid valid fun _ => rfl
  apply ends_bind
  apply archives_ensureAssetDirectory member
  case stopped =>
    exact fun error after agree _ =>
      .inr (agree _ (notMem_directories valid (length_downloadPath valid)))
  case going =>
    intro made agree
    have absent : made (finalPath destination asset) = none := by
      rw [agree _ (notMem_directories valid (length_finalPath valid)), absent]
    have kept : made (downloadPath destination asset) = tree (downloadPath destination asset) :=
      agree _ (notMem_directories valid (length_downloadPath valid))
    have named : partPath (finalPath destination asset) = .ok (downloadPath destination asset) :=
      partPath_finalPath destination valid
    rw [named]
    apply ends_bind
    apply ends_ofResult _ fun _ refused => by cases refused
    rintro _ ⟨rfl⟩
    apply ends_bind
    apply archives_removeStalePart member
    case stopped =>
      rintro error node (rfl | rfl) _
      · rw [Function.update_eq_self]
        exact .inr kept
      · exact .inl (Function.update_self _ _ _)
    case going =>
      apply ends_bind
      apply ends_tryCatch
      apply archives_downloadAsset member (Function.update_self _ _ _)
      case stopped =>
        intro error node plain
        apply ends_bind
        apply archives_removeCreatedPart member plain
        intro left _ removed tidied
        refine .inl ?_
        rw [Function.update_self]
        exact removed tidied
      case going =>
        intro content original
        rw [Function.update_idem]
        have here : Function.update made (downloadPath destination asset) (some (.file content))
            (downloadPath destination asset) = some (.file content) := Function.update_self _ _ _
        have free : Function.update made (downloadPath destination asset) (some (.file content))
            (finalPath destination asset) = none := by
          rw [Function.update_of_ne different.symm, absent]
        apply ends_bind
        apply archives_step
        rintro succeeded after (⟨rfl, rfl⟩ | ⟨_, _, rfl⟩)
        · refine ⟨.refl _, ?_⟩
          apply ends_bind
          apply archives_removeCreatedPart member (plain_file content)
          intro left _ removed tidied
          refine .inl ?_
          rw [Function.update_self]
          exact removed tidied
        · refine ⟨progresses_rename valid member original free here, ?_⟩
          have moved : Tree.rename (Function.update made (downloadPath destination asset)
              (some (.file content))) (downloadPath destination asset) (finalPath destination asset)
              (downloadPath destination asset) = none := by
            rw [Tree.rename, Function.update_of_ne different, Function.update_self]
          cases succeeded with
          | true =>
              refine ⟨⟨content, ?_, original⟩, moved⟩
              rw [Tree.rename, Function.update_self, here]
          | false =>
              apply ends_bind
              rw [← Function.update_eq_self (downloadPath destination asset) (Tree.rename _ _ _),
                moved]
              apply archives_removeCreatedPart member plain_none
              intro left _ removed tidied
              refine .inl ?_
              rw [Function.update_self]
              exact removed tidied

/-! ## All assets -/

/-- Two trees agree on the files of an asset. -/
def SameFiles (destination : FilePath) (asset : ArchiveAsset)
    (first second : Files.Tree FilePath) : Prop :=
  second (finalPath destination asset) = first (finalPath destination asset) ∧
    second (downloadPath destination asset) = first (downloadPath destination asset)

theorem SameFiles.trans {first second third : Files.Tree FilePath}
    (left : SameFiles destination asset first second)
    (right : SameFiles destination asset second third) : SameFiles destination asset first third :=
  ⟨right.1.trans left.1, right.2.trans left.2⟩

/-- The files of other assets stay as they are. -/
theorem Progresses.elsewhere {before after : Files.Tree FilePath} {other : ArchiveAsset}
    (progresses : Progresses destination assets before after)
    (valid : ∀ asset ∈ assets, asset.Valid) (sound : other.Valid)
    (different : ∀ asset ∈ assets, other.assetId ≠ asset.assetId) :
    SameFiles destination other before after := by
  constructor
  · apply (progresses _).eq_of_unused (finalPath_ne_directory valid sound)
    · exact fun asset member same => downloadPath_ne_finalPath (valid asset member) sound
        (fun equal => absurd equal.symm (different asset member)) same.symm
    · exact fun asset member same =>
        different asset member (finalPath_injective sound (valid asset member) same)
  · apply (progresses _).eq_of_unused (downloadPath_ne_directory valid sound)
    · exact fun asset member same =>
        different asset member (downloadPath_injective sound (valid asset member) same)
    · exact fun asset member => downloadPath_ne_finalPath sound (valid asset member)
        fun equal => absurd equal (different asset member)

/-- The original of an asset is missing. -/
def missing (destination : FilePath) (tree : Files.Tree FilePath) (asset : ArchiveAsset) : Bool :=
  (tree (finalPath destination asset)).isNone

/-- A report after the loop over some assets, in exact arithmetic. -/
def ArchiveApplyReport.counting (report : ArchiveApplyReport) (destination : FilePath)
    (tree : Files.Tree FilePath) (assets : List ArchiveAsset) : ArchiveApplyReport :=
  { report with
    downloaded := report.downloaded + assets.countP (missing destination tree)
    alreadyComplete :=
      report.alreadyComplete + assets.countP fun asset => !missing destination tree asset
    bytesWritten := report.bytesWritten +
      totalBytes ((assets.filter (missing destination tree)).map ArchiveAsset.byteLen) }

/-- No counter of a report is beyond its type. -/
def ArchiveApplyReport.Small (report : ArchiveApplyReport) : Prop :=
  report.downloaded ≤ maxU64 ∧ report.alreadyComplete ≤ maxU64 ∧ report.bytesWritten ≤ maxU64

/-- What is known after a loop over assets. -/
structure AllArchived (destination : FilePath) (before after : Files.Tree FilePath)
    (assets : List ArchiveAsset) (report result : ArchiveApplyReport) : Prop where
  archived : ∀ asset ∈ assets, Archived destination after asset
  left : ∀ asset ∈ assets, Left destination before after asset
  counted : (report.counting destination before assets).Small →
    result = report.counting destination before assets

theorem Archived.of_same {before after : Files.Tree FilePath}
    (archived : Archived destination before asset)
    (same : SameFiles destination asset before after) : Archived destination after asset := by
  obtain ⟨content, here, original⟩ := archived
  exact ⟨content, same.1.trans here, original⟩

theorem Left.of_same {before middle after : Files.Tree FilePath}
    (left : Left destination before middle asset)
    (same : SameFiles destination asset middle after) :
    Left destination before after asset :=
  left.imp same.2.trans same.2.trans

theorem counting_of_same {before after : Files.Tree FilePath} (report : ArchiveApplyReport)
    (same : ∀ asset ∈ assets, SameFiles destination asset before after) :
    report.counting destination after assets = report.counting destination before assets := by
  have each : ∀ asset ∈ assets, missing destination after asset = missing destination before asset :=
    fun asset member => congrArg Option.isNone (same asset member).1
  have misses : assets.countP (missing destination after) =
      assets.countP (missing destination before) :=
    List.countP_congr fun asset member => by rw [each asset member]
  have finds : (assets.countP fun asset => !missing destination after asset) =
      assets.countP fun asset => !missing destination before asset :=
    List.countP_congr fun asset member => by rw [each asset member]
  rw [ArchiveApplyReport.counting, misses, finds, List.filter_congr each]
  rfl

theorem counting_complete {report : ArchiveApplyReport} {rest : List ArchiveAsset}
    (here : missing destination tree asset = false)
    (small : (report.counting destination tree (asset :: rest)).Small) :
    report.complete.counting destination tree rest =
      report.counting destination tree (asset :: rest) := by
  have bound := small.2.1
  simp only [ArchiveApplyReport.counting, List.countP_cons, here, Bool.not_false, if_true,
    Bool.false_eq_true, if_false] at bound
  simp only [ArchiveApplyReport.counting, ArchiveApplyReport.complete, saturatingAddU64,
    List.countP_cons, List.filter_cons, here, Bool.not_false, if_true, Bool.false_eq_true, if_false,
    ArchiveApplyReport.mk.injEq, true_and, and_true]
  omega

theorem counting_download {report : ArchiveApplyReport} {rest : List ArchiveAsset}
    (here : missing destination tree asset = true)
    (small : (report.counting destination tree (asset :: rest)).Small) :
    (report.download asset.byteLen).counting destination tree rest =
      report.counting destination tree (asset :: rest) := by
  obtain ⟨downloaded, _, bytes⟩ := small
  simp only [ArchiveApplyReport.counting, List.countP_cons, List.filter_cons, here, if_true,
    List.map_cons, totalBytes_cons] at downloaded bytes
  simp only [ArchiveApplyReport.counting, ArchiveApplyReport.download, saturatingAddU64,
    List.countP_cons, List.filter_cons, here, Bool.not_true, if_true, Bool.false_eq_true, if_false,
    List.map_cons, totalBytes_cons, ArchiveApplyReport.mk.injEq, true_and, and_true]
  omega

theorem archives_applyAssets (valid : ∀ asset ∈ assets, asset.Valid)
    (unique : (assets.map ArchiveAsset.assetId).Nodup) (report : ArchiveApplyReport) :
    Archives tidy destination assets (applyAssets destination assets report) tree
      (fun result after => AllArchived destination tree after assets report result)
      fun _ after => tidy = true → ∀ asset ∈ assets, Left destination tree after asset := by
  induction assets generalizing tree report with
  | nil =>
      apply ends_pure
      exact
        { archived := by simp
          left := by simp
          counted := fun _ => by simp [ArchiveApplyReport.counting, totalBytes] }
  | cons asset rest induction =>
      rw [List.forall_mem_cons] at valid
      obtain ⟨sound, others⟩ := valid
      rw [List.map_cons, List.nodup_cons] at unique
      obtain ⟨fresh, unique⟩ := unique
      have apart : ∀ other ∈ rest, asset.assetId ≠ other.assetId := by
        rintro other member same
        exact fresh (List.mem_map.mpr ⟨other, member, same.symm⟩)
      -- the rest of the loop leaves the files of this asset alone
      have tail : ∀ {now : Files.Tree FilePath} {counted : ArchiveApplyReport},
          Archived destination now asset → Left destination tree now asset →
          (∀ other ∈ rest, SameFiles destination other tree now) →
          ((report.counting destination tree (asset :: rest)).Small →
            counted.counting destination tree rest =
              report.counting destination tree (asset :: rest)) →
          Archives tidy destination (asset :: rest) (applyAssets destination rest counted) now
            (fun result after => AllArchived destination tree after (asset :: rest) report result)
            fun _ after => tidy = true → ∀ each ∈ asset :: rest, Left destination tree after each := by
        intro now counted archived left same counts
        have keeps : ∀ before (event : Event ArchiveAnswer) after,
            Progresses destination rest before after →
              SameFiles destination asset now before → SameFiles destination asset now after :=
          fun _ _ _ progresses kept => kept.trans (progresses.elsewhere others sound apart)
        have reached := (induction others unique counted).keeps keeps ⟨rfl, rfl⟩
        apply reached.mono fun _ _ _ progresses => progresses.mono (List.subset_cons_self _ _)
        · rintro result after ⟨all, kept⟩
          have parts : ∀ other ∈ rest, Left destination tree after other := by
            intro other member
            obtain none | unchanged := all.left other member
            · exact .inl none
            · exact .inr (unchanged.trans (same other member).2)
          exact
            { archived := List.forall_mem_cons.mpr ⟨archived.of_same kept, all.archived⟩
              left := List.forall_mem_cons.mpr ⟨left.of_same kept, parts⟩
              counted := fun small => by
                have exact : counted.counting destination now rest =
                    report.counting destination tree (asset :: rest) :=
                  (counting_of_same counted same).trans (counts small)
                rw [← exact] at small ⊢
                exact all.counted small }
        · rintro error after ⟨parts, kept⟩ tidied
          refine List.forall_mem_cons.mpr ⟨left.of_same kept, fun other member => ?_⟩
          obtain none | unchanged := parts tidied other member
          · exact .inl none
          · exact .inr (unchanged.trans (same other member).2)
      have untouched : ∀ each ∈ asset :: rest, Left destination tree tree each :=
        fun _ _ => .inr rfl
      apply ends_bind
      apply archives_checkCancelled
      case stopped => exact fun _ => untouched
      case going =>
        apply ends_bind
        apply archives_pathExists
        case stopped => exact fun _ => untouched
        case present =>
          intro found
          have here : missing destination tree asset = false := by
            rw [missing, Option.isNone_eq_false_iff, Option.isSome_iff_ne_none]
            exact found
          apply ends_bind
          apply archives_verifyExisting
          case stopped => exact fun _ _ => untouched
          case going =>
            intro content there original
            exact tail ⟨content, there, original⟩ (.inr rfl) (fun _ _ => ⟨rfl, rfl⟩)
              (counting_complete here)
        case absent =>
          intro absent
          have here : missing destination tree asset = true := by
            rw [missing, absent]
            rfl
          have keeps : ∀ before (event : Event ArchiveAnswer) after,
              Progresses destination [asset] before after →
                (∀ other ∈ rest, SameFiles destination other tree before) →
                  ∀ other ∈ rest, SameFiles destination other tree after := by
            intro before _ after progresses kept other member
            apply (kept other member).trans
            apply progresses.elsewhere (by simpa using sound) (others other member)
            simpa using (apart other member).symm
          apply ends_bind
          apply (Ends.keeps (archives_materialize sound (List.mem_singleton_self asset) absent) keeps
            fun _ _ => ⟨rfl, rfl⟩).mono fun _ _ _ progresses => progresses.mono (by simp)
          · rintro _ after ⟨⟨archived, removed⟩, same⟩
            exact tail archived (.inl removed) same (counting_download here)
          · rintro error after ⟨left, same⟩ tidied
            exact List.forall_mem_cons.mpr
              ⟨left tidied, fun other member => .inr (same other member).2⟩

end

end ImmichRs
