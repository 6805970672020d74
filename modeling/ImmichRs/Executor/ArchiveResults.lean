import ImmichRs.Executor.ArchiveOutcome
import ImmichRs.Interaction.Evaluation
import ImmichRs.Interaction.Interruption
import Mathlib.Algebra.Order.BigOperators.Group.List

/-!
# Guarantees of an archive apply

The results about `apply_archive` as a whole: over any number of attempts, each cut off anywhere, it
touches nothing but its own files; a success leaves every original behind and reports exactly what
was missing; and a run after a success changes nothing and downloads nothing.
-/

namespace ImmichRs

open Files Interaction Interaction.Program ArchiveProgram

section

variable {tidy : Bool} {platform : Platform} {manifest : ArchiveManifest} {destination : FilePath}
  {negotiated : NegotiatedServer} {tree : Files.Tree FilePath} {assets : List ArchiveAsset}

/-! ## Attempts -/

theorem Moves.trans {path : FilePath} {old middle new : Option TreeNode}
    (valid : ∀ asset ∈ assets, asset.Valid) (unique : (assets.map ArchiveAsset.assetId).Nodup)
    (first : Moves destination assets path old middle)
    (second : Moves destination assets path middle new) :
    Moves destination assets path old new := by
  have apart : ∀ part ∈ assets, ∀ final ∈ assets,
      downloadPath destination part ≠ finalPath destination final :=
    fun part partMember final finalMember =>
      downloadPath_ne_finalPath (valid part partMember) (valid final finalMember)
        (List.inj_on_of_nodup_map unique partMember finalMember)
  cases first with
  | stays => exact second
  | directory inside =>
      rw [second.keeps_directory]
      exact .directory inside
  | @part asset _ _ member here old new =>
      cases second with
      | stays => exact .part member here old new
      | directory inside =>
          exact absurd (here ▸ inside) (downloadPath_ne_directory valid (valid asset member))
      | part _ _ _ last => exact .part member here old last
      | original other there => exact absurd (here.symm.trans there) (apart _ member _ other)
  | @original asset content member here original =>
      rw [second.keeps fun other otherMember same =>
        apart other otherMember asset member (same.symm.trans here)]
      exact .original member here original

theorem Progresses.trans {before middle after : Files.Tree FilePath}
    (valid : ∀ asset ∈ assets, asset.Valid) (unique : (assets.map ArchiveAsset.assetId).Nodup)
    (first : Progresses destination assets before middle)
    (second : Progresses destination assets middle after) :
    Progresses destination assets before after :=
  fun path => (first path).trans valid unique (second path)

/-- One attempt to apply a manifest, cut off anywhere. -/
def Attempt (tidy : Bool) (manifest : ArchiveManifest) (destination : FilePath)
    (before after : Files.Tree FilePath) : Prop :=
  ∃ platform negotiated events residual, Execution (archiveEnvironment tidy)
    (applyArchive platform manifest destination negotiated).run before events residual after

/-! ## One run -/

/-- The report of a run which found some originals missing. -/
def archiveReport (platform : Platform) (manifest : ArchiveManifest) (destination : FilePath)
    (tree : Files.Tree FilePath) : ArchiveApplyReport :=
  { schemaVersion := archiveApplyReportSchemaVersion
    manifestSha256 := compactSha256 platform manifest.serialize
    downloaded := manifest.assets.countP (missing destination tree)
    alreadyComplete := manifest.assets.countP fun asset => !missing destination tree asset
    bytesWritten :=
      totalBytes ((manifest.assets.filter (missing destination tree)).map ArchiveAsset.byteLen)
    retries := 0 }

/-- What a run has done where it ends with a report. -/
structure Completed (platform : Platform) (manifest : ArchiveManifest) (destination : FilePath)
    (before after : Files.Tree FilePath) (report : ArchiveApplyReport) : Prop where
  directories : DirectoriesTo destination after
  archived : ∀ asset ∈ manifest.assets, Archived destination after asset
  left : ∀ asset ∈ manifest.assets, Left destination before after asset
  reported : report = archiveReport platform manifest destination before

theorem totalBytes_filter_le (keep : ArchiveAsset → Bool) :
    totalBytes ((assets.filter keep).map ArchiveAsset.byteLen) ≤
      totalBytes (assets.map ArchiveAsset.byteLen) :=
  ((List.filter_sublist.map _).map _).sum_le_sum fun _ _ => Nat.zero_le _

/-- A report which passes its own check is exact. -/
theorem ArchiveManifest.Accepted.small (accepted : manifest.Accepted)
    (short : manifest.assets.length ≤ maxU64) :
    (archiveReport platform manifest destination tree).Small := by
  refine ⟨List.countP_le_length.trans short, List.countP_le_length.trans short, ?_⟩
  apply (totalBytes_filter_le _).trans
  rw [← accepted.bytes]
  have bound := manifest.summary.mediaBytes.toNat_lt
  simp only [maxU64]
  omega

theorem DirectoriesTo.later {before after : Files.Tree FilePath}
    (there : DirectoriesTo destination before)
    (progresses : Progresses destination assets before after) :
    DirectoriesTo destination after := by
  intro path nonempty front
  have kept := progresses path
  rw [there path nonempty front] at kept
  exact kept.keeps_directory

/-- Every step of a run is one of the archive, and a report says what was missing. -/
theorem archives_applyArchive :
    Archives tidy destination manifest.assets
      (applyArchive platform manifest destination negotiated) tree
      (fun report after => Completed platform manifest destination tree after report)
      fun _ after =>
        tidy = true → ∀ asset ∈ manifest.assets, Left destination tree after asset := by
  have untouched : ∀ asset ∈ manifest.assets, Left destination tree tree asset :=
    fun _ _ => .inr rfl
  apply ends_bind
  apply ends_ofResult
  case refused => exact fun _ _ _ => untouched
  case returned =>
    intro _ validated
    have accepted := ArchiveManifest.validate_eq_ok.mp (mapError_eq_ok.mp validated)
    apply ends_bind
    apply archives_stopIf
    case stopped => exact fun _ => untouched
    case going =>
      intro _
      -- the destination has none of the files
      have ensured : Archives tidy destination [] (ensureDestination destination) tree
          (fun _ after => DirectoriesTo destination after) fun _ _ => True :=
        archives_ensureDestination
      have prepares := Ends.keeps ensured
        (fun _ _ _ next first => Progresses.trans (by simp) (by simp) first next) (.refl tree)
      apply ends_bind
      apply prepares.mono (fun _ _ _ progresses => progresses.mono (List.nil_subset _))
      case refused =>
        rintro _ after ⟨_, progresses⟩ _ asset member
        exact .inr (progresses.elsewhere (by simp) (accepted.valid asset member) (by simp)).2
      case returned =>
        rintro _ middle ⟨there, progresses⟩
        have same : ∀ asset ∈ manifest.assets, SameFiles destination asset tree middle :=
          fun asset member =>
            progresses.elsewhere (by simp) (accepted.valid asset member) (by simp)
        have left : ∀ {after : Files.Tree FilePath}, (∀ asset ∈ manifest.assets,
            Left destination middle after asset) →
            ∀ asset ∈ manifest.assets, Left destination tree after asset :=
          fun left asset member =>
            (left asset member).imp_right fun unchanged => unchanged.trans (same asset member).2
        apply ends_bind
        apply (Ends.keeps (archives_applyAssets accepted.valid accepted.unique _)
          (fun _ _ _ next first => DirectoriesTo.later first next) there).mono
          (fun _ _ _ => id)
        case refused => exact fun _ after ⟨parts, _⟩ tidied => left (parts tidied)
        case returned =>
          rintro result after ⟨all, there⟩
          apply ends_bind
          apply ends_ofResult
          case refused => exact fun _ _ _ => left all.left
          case returned =>
            intro _ checked
            have counted := mapError_eq_ok.mp checked
            rw [ArchiveApplyReport.validate, reject_eq_ok] at counted
            simp only [Bool.or_eq_false_iff, bne_eq_false_iff_eq, accepted.counted] at counted
            have short : manifest.assets.length ≤ maxU64 := by
              rw [← counted.2]
              exact Nat.min_le_right _ _
            refine ⟨there, all.archived, left all.left, ?_⟩
            have exact := counting_of_same (.start (compactSha256 platform manifest.serialize)) same
            have counts : ArchiveApplyReport.counting
                (.start (compactSha256 platform manifest.serialize)) destination tree
                  manifest.assets = archiveReport platform manifest destination tree := by
              simp only [ArchiveApplyReport.counting, ArchiveApplyReport.start, archiveReport,
                Nat.zero_add]
            rw [counts] at exact
            rw [← exact]
            apply all.counted
            rw [exact]
            exact accepted.small short

/-! ## Runs where no step fails -/

/-- A disk on which every step succeeds, and a server which offers one download. -/
def archiveStep (offered : Download) (tree : Files.Tree FilePath) :
    (call : ArchiveCall) → Option (ArchiveAnswer call × Files.Tree FilePath)
  | .isCancelled => some (false, tree)
  | .metadata path => some (Metadata.of (tree path), tree)
  | .openFile path =>
      match tree path with
      | some (.file content) => some (some [some content], tree)
      | _ => some (none, tree)
  | .step (.createDirectory path) =>
      if tree path = none then
        some (true, Function.update tree path (some .directory))
      else
        none
  | .step (.create path) =>
      if tree path = none then
        some (true, Function.update tree path (some (.file [])))
      else
        none
  | .step (.write path bytes) =>
      match tree path with
      | some (.file content) =>
          some (true, Function.update tree path (some (.file (content ++ bytes))))
      | _ => none
  | .step (.sync _) => some (true, tree)
  | .step (.rename source target) =>
      match tree source, tree target with
      | some (.file _), none => some (true, tree.rename source target)
      | _, _ => none
  | .step (.remove _) => none
  | .download _ => some (.ok offered, tree)

theorem archiveStep_sound {offered : Download} {before after : Files.Tree FilePath}
    {call : ArchiveCall} {answer : ArchiveAnswer call}
    (stepped : archiveStep offered before call = some (answer, after)) :
    archiveEnvironment tidy before ⟨call, answer⟩ after := by
  cases call with
  | isCancelled =>
      cases stepped
      exact rfl
  | metadata path =>
      cases stepped
      exact ⟨rfl, .inl rfl⟩
  | openFile path =>
      rw [archiveStep] at stepped
      split at stepped
      · rename_i content here
        cases stepped
        refine ⟨rfl, content, here, fun pieces same => ?_⟩
        obtain rfl : pieces = [content] :=
          List.map_injective_iff.mpr (Option.some_injective _) same.symm
        simp
      · cases stepped
        exact rfl
  | download assetId =>
      cases stepped
      exact rfl
  | step step =>
      cases step with
      | createDirectory path =>
          rw [archiveStep] at stepped
          split at stepped
          · rename_i absent
            cases stepped
            exact .inr ⟨absent, rfl⟩
          · cases stepped
      | create path =>
          rw [archiveStep] at stepped
          split at stepped
          · rename_i absent
            cases stepped
            exact .inr ⟨absent, rfl⟩
          · cases stepped
      | write path bytes =>
          rw [archiveStep] at stepped
          split at stepped
          · rename_i content here
            cases stepped
            exact .inr ⟨content, bytes, here, List.prefix_refl _, fun _ => rfl, rfl⟩
          · cases stepped
      | sync path =>
          cases stepped
          exact rfl
      | rename source target =>
          rw [archiveStep] at stepped
          split at stepped
          · rename_i content here absent
            cases stepped
            exact .inr ⟨⟨content, here⟩, by rw [absent]; exact nofun, rfl⟩
          · cases stepped
      | remove path => cases stepped

/-- An empty destination. -/
def emptyDestination : Files.Tree FilePath :=
  fun path => if path = ["archive"] then some .directory else none

/-- A run for one original, where the server offers its three bytes. -/
def sampleArchiveRun (tree : Files.Tree FilePath) :
    Option (Except (Stop ExecutorError) ArchiveApplyReport × Files.Tree FilePath) :=
  (applyArchive .reference (sampleArchiveManifest [sampleRemoteAsset '1' "a.jpg"]) ["archive"]
    ⟨sampleArchiveServer, ""⟩).run.perform
      (archiveStep { contentLength := some 3, chunks := [.ok [97, 98, 99]] }) tree

/-- The sample run from an empty destination, and once more. -/
theorem sampleArchiveRun_twice : ∃ first middle second after,
    sampleArchiveRun emptyDestination = some (.ok first, middle) ∧
      sampleArchiveRun middle = some (.ok second, after) ∧ first.downloaded = 1 := by
  have counted : ((sampleArchiveRun emptyDestination).bind fun first =>
      (sampleArchiveRun first.2).bind fun second =>
        first.1.toOption.bind fun report => second.1.toOption.map fun _ => report.downloaded) =
      some 1 := by
    decide +kernel
  obtain ⟨⟨outcome, middle⟩, first, counted⟩ := Option.bind_eq_some_iff.mp counted
  obtain ⟨⟨next, after⟩, second, counted⟩ := Option.bind_eq_some_iff.mp counted
  obtain ⟨report, ended, counted⟩ := Option.bind_eq_some_iff.mp counted
  obtain ⟨again, repeated, counted⟩ := Option.map_eq_some_iff.mp counted
  cases outcome with
  | error error => cases ended
  | ok value =>
      cases next with
      | error error => cases repeated
      | ok other =>
          cases ended
          exact ⟨report, middle, other, after, first, second, Option.some.inj counted⟩

/-- A run with the sample answers is an execution. -/
theorem archive_execution {α : Type} {offered : Download} {program : Program ArchiveAnswer α}
    {before after : Files.Tree FilePath} {value : α} (tidy : Bool)
    (performed : program.perform (archiveStep offered) before = some (value, after)) :
    ∃ events, Execution (archiveEnvironment tidy) program before events (.done value) after :=
  perform_execution id (fun _ _ _ _ => archiveStep_sound) performed

/-- The two sample runs as executions. -/
theorem sampleArchiveRun_executions (tidy : Bool) : ∃ first middle second after earlier later,
    Execution (archiveEnvironment tidy)
      (applyArchive .reference (sampleArchiveManifest [sampleRemoteAsset '1' "a.jpg"]) ["archive"]
        ⟨sampleArchiveServer, ""⟩).run emptyDestination earlier (.done (.ok first)) middle ∧
      Execution (archiveEnvironment tidy)
        (applyArchive .reference (sampleArchiveManifest [sampleRemoteAsset '1' "a.jpg"]) ["archive"]
          ⟨sampleArchiveServer, ""⟩).run middle later (.done (.ok second)) after ∧
      first.downloaded = 1 := by
  obtain ⟨first, middle, second, after, ran, again, counted⟩ := sampleArchiveRun_twice
  obtain ⟨earlier, execution⟩ := archive_execution tidy ran
  obtain ⟨later, next⟩ := archive_execution tidy again
  exact ⟨first, middle, second, after, earlier, later, execution, next, counted⟩

/-- A manifest which is not accepted is not applied. -/
theorem Attempt.eq_of_refused {before after : Files.Tree FilePath}
    (refused : manifest.validate ≠ .ok ())
    (attempt : Attempt tidy manifest destination before after) : after = before := by
  obtain ⟨platform, negotiated, events, residual, execution⟩ := attempt
  have stops : ArchiveEnds tidy (fun _ _ _ => False)
      (applyArchive platform manifest destination negotiated) before (fun _ _ => True)
      fun _ _ => True := by
    apply ends_bind
    apply ends_ofResult
    case refused => exact fun _ _ => trivial
    case returned => exact fun _ validated => absurd (mapError_eq_ok.mp validated) refused
  exact execution.invariant (· = before) (fun _ _ _ impossible => impossible.elim) stops rfl

/-- Over any number of attempts, each of which may be cut off anywhere, every path is left as it
was, except that directories of the destination are made where nothing was, part files change, and
verified originals are added where nothing was. -/
theorem archive_attempts_confined {after : Files.Tree FilePath}
    (attempts : Relation.ReflTransGen (Attempt tidy manifest destination) tree after) :
    Progresses destination manifest.assets tree after := by
  by_cases accepted : manifest.validate = .ok ()
  · obtain ⟨_, _, _, _, valid, unique, _, _, _⟩ := ArchiveManifest.validate_eq_ok.mp accepted
    induction attempts with
    | refl => exact .refl tree
    | tail _ attempt reached =>
        obtain ⟨platform, negotiated, events, residual, execution⟩ := attempt
        exact execution.invariant (Progresses destination manifest.assets tree)
          (fun _ _ _ next first => first.trans valid unique next) archives_applyArchive reached
  · induction attempts with
    | refl => exact .refl tree
    | tail _ attempt reached =>
        rw [attempt.eq_of_refused accepted]
        exact reached

/-- Two attempts for one original. -/
theorem archive_attempts_confined_sample : ∃ after,
    Relation.ReflTransGen
      (Attempt false (sampleArchiveManifest [sampleRemoteAsset '1' "a.jpg"]) ["archive"])
      emptyDestination after ∧
    Progresses ["archive"] (sampleArchiveManifest [sampleRemoteAsset '1' "a.jpg"]).assets
      emptyDestination after := by
  obtain ⟨_, middle, _, after, _, _, first, second, _⟩ := sampleArchiveRun_executions false
  have attempts : Relation.ReflTransGen
      (Attempt false (sampleArchiveManifest [sampleRemoteAsset '1' "a.jpg"]) ["archive"])
      emptyDestination after :=
    .tail (.single ⟨_, _, _, _, first⟩) ⟨_, _, _, _, second⟩
  exact ⟨after, attempts, archive_attempts_confined attempts⟩

/-- A run which ends with a report has left every original of the manifest under its final path, and
the report counts exactly what was missing before. -/
theorem applyArchive_completed {events : List (Event ArchiveAnswer)} {report : ArchiveApplyReport}
    {after : Files.Tree FilePath}
    (execution : Execution (archiveEnvironment tidy)
      (applyArchive platform manifest destination negotiated).run tree events (.done (.ok report))
      after) : Completed platform manifest destination tree after report :=
  execution.result archives_applyArchive

/-- One original has been downloaded. -/
theorem applyArchive_completed_sample : ∃ report after, report.downloaded = 1 ∧
    Completed .reference (sampleArchiveManifest [sampleRemoteAsset '1' "a.jpg"]) ["archive"]
      emptyDestination after report := by
  obtain ⟨report, after, _, _, _, _, first, _, counted⟩ := sampleArchiveRun_executions false
  exact ⟨report, after, counted, applyArchive_completed first⟩

/-- Where removals do not fail, a run which ends leaves no part file of its own. -/
theorem applyArchive_tidy {events : List (Event ArchiveAnswer)}
    {outcome : Except (Stop ExecutorError) ArchiveApplyReport} {after : Files.Tree FilePath}
    (execution : Execution (archiveEnvironment true)
      (applyArchive platform manifest destination negotiated).run tree events (.done outcome)
      after) : ∀ asset ∈ manifest.assets, Left destination tree after asset := by
  have ended := execution.result archives_applyArchive
  cases outcome with
  | ok report => exact ended.left
  | error error => exact ended rfl

/-- The sample run leaves no part file. -/
theorem applyArchive_tidy_sample : ∃ after,
    ∀ asset ∈ (sampleArchiveManifest [sampleRemoteAsset '1' "a.jpg"]).assets,
      Left ["archive"] emptyDestination after asset := by
  obtain ⟨_, after, _, _, _, _, first, _, _⟩ := sampleArchiveRun_executions true
  exact ⟨after, applyArchive_tidy first⟩

/-! ## The next run -/

/-- A request which changes nothing, and does not. -/
def Idle (before : Files.Tree FilePath) (event : Event ArchiveAnswer)
    (after : Files.Tree FilePath) : Prop :=
  Consults event ∧ after = before

instance : Consulting Idle where
  consults _ _ reading := ⟨reading, rfl⟩

theorem archives_ensureComponents_again (current : FilePath) (rest : List String)
    (there : DirectoriesTo (current ++ rest) tree) :
    ArchiveEnds tidy Idle (ensureComponents current rest) tree (fun _ after => after = tree)
      fun _ _ => True := by
  induction rest generalizing current with
  | nil => exact ends_pure rfl
  | cons component rest induction =>
      have split : current ++ component :: rest = (current ++ [component]) ++ rest := by simp
      apply ends_bind
      apply archives_stopIf
      case stopped => exact trivial
      case going =>
        intro _
        apply ends_bind
        apply archives_existingDirectory
        case stopped => exact trivial
        case here =>
          apply there _ (by simp)
          rw [split]
          exact List.prefix_append _ _
        case going =>
          apply induction
          rwa [← split]

theorem archives_applyAssets_again (archived : ∀ asset ∈ assets, Archived destination tree asset)
    (report : ArchiveApplyReport) :
    ArchiveEnds tidy Idle (applyAssets destination assets report) tree (fun _ after => after = tree)
      fun _ _ => True := by
  induction assets generalizing report with
  | nil => exact ends_pure rfl
  | cons asset rest induction =>
      rw [List.forall_mem_cons] at archived
      obtain ⟨⟨content, here, _⟩, others⟩ := archived
      apply ends_bind
      apply archives_checkCancelled
      case stopped => exact trivial
      case going =>
        apply ends_bind
        apply archives_pathExists
        case stopped => exact trivial
        case absent => exact fun absent => by rw [here] at absent; cases absent
        case present =>
          intro _
          apply ends_bind
          apply archives_verifyExisting
          case stopped => exact fun _ => trivial
          case going => exact fun _ _ _ => induction others report.complete

/-- Where every original is there already, a run only reads. -/
theorem archives_applyArchive_again (there : DirectoriesTo destination tree)
    (archived : ∀ asset ∈ manifest.assets, Archived destination tree asset) :
    ArchiveEnds tidy Idle (applyArchive platform manifest destination negotiated) tree
      (fun _ _ => True) fun _ _ => True := by
  apply ends_bind
  apply ends_ofResult
  case refused => exact fun _ _ => trivial
  case returned =>
    intro _ _
    apply ends_bind
    apply archives_stopIf
    case stopped => exact trivial
    case going =>
      intro _
      apply ends_bind
      apply ends_bind
      apply archives_stopIf
      case stopped => exact trivial
      case going =>
        intro _
        apply ends_bind
        apply (archives_ensureComponents_again [] destination there).mono (fun _ _ _ => id) _
          fun _ _ => id
        rintro _ _ rfl
        apply archives_ensureRealDirectory
        case stopped => exact trivial
        case going =>
          apply ends_bind
          apply (archives_applyAssets_again archived _).mono (fun _ _ _ => id) _ fun _ _ => id
          intro report _ _
          apply ends_bind
          exact ends_ofResult (fun _ _ => trivial) fun _ _ => trivial

/-- After a run which has ended with a report, every run for the manifest leaves all paths as they
are and requests no download; its report counts every original as already complete. -/
theorem applyArchive_again {platform' : Platform} {negotiated' : NegotiatedServer}
    {earlier events : List (Event ArchiveAnswer)} {report : ArchiveApplyReport}
    {final : Program ArchiveAnswer (Except (Stop ExecutorError) ArchiveApplyReport)}
    {middle after : Files.Tree FilePath}
    (first : Execution (archiveEnvironment tidy)
      (applyArchive platform manifest destination negotiated).run tree earlier (.done (.ok report))
      middle)
    (second : Execution (archiveEnvironment tidy)
      (applyArchive platform' manifest destination negotiated').run middle events final after) :
    after = middle ∧ (∀ event ∈ events, Consults event) ∧
      ∀ again, final = .done (.ok again) →
        again.downloaded = 0 ∧ again.alreadyComplete = manifest.assets.length ∧
          again.bytesWritten = 0 := by
  have completed : Completed platform manifest destination tree middle report :=
    first.result archives_applyArchive
  have idle : ArchiveEnds tidy Idle (applyArchive platform' manifest destination negotiated') middle
      (fun _ _ => True) fun _ _ => True :=
    archives_applyArchive_again completed.directories completed.archived
  refine ⟨?_, ?_, ?_⟩
  · exact second.invariant (· = middle) (fun _ _ _ step same => step.2.trans same) idle rfl
  · exact second.each (Ensures.mono idle (fun _ _ _ step => step.1) fun _ _ => id)
  · rintro again rfl
    have counted : Completed platform' manifest destination middle after again :=
      second.result archives_applyArchive
    have none : ∀ asset ∈ manifest.assets, missing destination middle asset = false := by
      intro asset member
      obtain ⟨content, here, _⟩ := completed.archived asset member
      rw [missing, here]
      rfl
    have found : manifest.assets.filter (missing destination middle) = [] :=
      List.filter_eq_nil_iff.mpr fun asset member => by simp [none asset member]
    have all : (manifest.assets.countP fun asset => !missing destination middle asset) =
        manifest.assets.length :=
      List.countP_eq_length.mpr fun asset member => by simp [none asset member]
    rw [counted.reported]
    simp only [archiveReport, List.countP_eq_length_filter, found]
    exact ⟨rfl, by rw [← List.countP_eq_length_filter, all], rfl⟩

/-- The sample run, once more. -/
theorem applyArchive_again_sample : ∃ (first again : ArchiveApplyReport) (events : List _),
    first.downloaded = 1 ∧ (∀ event ∈ events, Consults event) ∧ again.downloaded = 0 ∧
      again.alreadyComplete = 1 := by
  obtain ⟨report, _, again, _, _, events, first, second, counted⟩ :=
    sampleArchiveRun_executions false
  obtain ⟨_, reads, counts⟩ := applyArchive_again first second
  obtain ⟨none, all, _⟩ := counts again rfl
  exact ⟨report, again, events, counted, reads, none, all⟩

end

end ImmichRs
