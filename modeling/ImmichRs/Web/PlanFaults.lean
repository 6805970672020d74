import ImmichRs.Core.Sha256
import ImmichRs.Interaction.Evaluation
import ImmichRs.Web.PlanStore

/-!
# Failing steps of a plan write

What one failing step of the file system leaves in the directory of the plan store.  A write which
fails removes its pending files; it does not undo a link whose unlinking failed, nor the published
files when the directory could not be synced.
-/

namespace ImmichRs.Web

open Files Interaction

/-- The directory, and the step which has failed by itself. -/
structure FaultWorld where
  directory : PlanDirectory
  fault : Option PlanCall

/-- A step fails where a working file system would have performed it.  A failed write may have
written a beginning of its piece. -/
def fails : Environment PlanAnswer PlanDirectory
  | before, ⟨.random, .error ()⟩, after => after = before
  | before, ⟨.create name, .error ()⟩, after => before.find? name = none ∧ after = before
  | before, ⟨.append file piece, .error ()⟩, after =>
      ∃ written, written <+: piece ∧
        after = before.update file ((before.nodes file).append written)
  | before, ⟨.sync _, .error ()⟩, after => after = before
  | before, ⟨.readDirectory, .error ()⟩, after => after = before
  | before, ⟨.inspect name, .error ()⟩, after => before.find? name ≠ none ∧ after = before
  | before, ⟨.link pending final, .error ()⟩, after =>
      before.find? pending ≠ none ∧ before.find? final = none ∧ after = before
  | before, ⟨.remove name, .error ()⟩, after => before.find? name ≠ none ∧ after = before
  | before, ⟨.syncDirectory, .error ()⟩, after => after = before
  | _, _, _ => False

/-- A file system of which at most one step fails. -/
def faultyEnvironment : Environment PlanAnswer FaultWorld := fun before event after =>
  (performs before.directory event after.directory ∧ after.fault = before.fault) ∨
    (before.fault = none ∧ fails before.directory event after.directory ∧
      after.fault = some event.1)

/-- The failing step is the unlinking of a file, or the sync of the directory. -/
def Uncleaned (fault : Option PlanCall) : Prop :=
  (∃ name, fault = some (.remove name)) ∨ fault = some .syncDirectory

/-! ## Reasoning -/

/-- Where a program may end: with a value, or with an error. -/
def Runs {α : Type} (program : PlanProgram α) (world : FaultWorld) (ok : α → FaultWorld → Prop)
    (failed : FaultWorld → Prop) : Prop :=
  program.run.Ensures faultyEnvironment (fun _ _ _ => True) world fun outcome after =>
    match outcome with
    | .ok value => ok value after
    | .error _ => failed after

section Rules

variable {α β : Type} {world : FaultWorld} {failed : FaultWorld → Prop}

theorem runs_pure {value : α} {ok : α → FaultWorld → Prop} (holds : ok value world) :
    Runs (pure value) world ok failed :=
  holds

theorem runs_ofResult {value : Except String α} {ok : α → FaultWorld → Prop}
    (returned : ∀ result, value = .ok result → ok result world)
    (refused : (∃ error, value = .error error) → failed world) :
    Runs (PlanProgram.ofResult value) world ok failed := by
  cases value with
  | ok value => exact returned value rfl
  | error error => exact refused ⟨error, rfl⟩

theorem runs_bind {program : PlanProgram α} {next : α → PlanProgram β}
    {ok : β → FaultWorld → Prop}
    (runs : Runs program world (fun value after => Runs (next value) after ok failed) failed) :
    Runs (program >>= next) world ok failed := by
  rw [Runs, Program.ensures_exceptT_bind]
  refine runs.post fun outcome after reached => ?_
  cases outcome <;> exact reached

/-- A handler continues the program on its error. -/
theorem run_tryCatch (program : PlanProgram α) (handler : String → PlanProgram α) :
    (tryCatch program handler).run = program.run.bind fun outcome =>
      match outcome with
      | .ok value => .done (.ok value)
      | .error error => (handler error).run := by
  refine congrArg program.run.bind (funext fun outcome => ?_)
  cases outcome <;> rfl

theorem runs_tryCatch {program : PlanProgram α} {handler : String → PlanProgram α}
    {ok : α → FaultWorld → Prop}
    (runs : Runs program world ok fun after =>
      ∀ error, Runs (handler error) after ok failed) :
    Runs (tryCatch program handler) world ok failed := by
  rw [Runs, run_tryCatch, Program.ensures_bind]
  refine runs.post fun outcome after reached => ?_
  cases outcome with
  | ok value => exact reached
  | error error => exact reached error

theorem runs_liftM {program : Program PlanAnswer α} {ok : α → FaultWorld → Prop}
    (ensures : program.Ensures faultyEnvironment (fun _ _ _ => True) world ok) :
    Runs (liftM program) world ok failed := by
  have shape : (liftM program : PlanProgram α).run =
      program.bind fun value => .done (.ok value) := rfl
  rw [Runs, shape, Program.ensures_bind]
  exact ensures

theorem runs_throw {error : String} {ok : α → FaultWorld → Prop} (holds : failed world) :
    Runs (throw error) world ok failed :=
  holds

theorem Runs.mono {program : PlanProgram α} {ok broader : α → FaultWorld → Prop}
    {weaker : FaultWorld → Prop} (runs : Runs program world ok failed)
    (returned : ∀ value after, ok value after → broader value after)
    (refused : ∀ after, failed after → weaker after) : Runs program world broader weaker := by
  refine Program.Ensures.post runs fun outcome after reached => ?_
  cases outcome with
  | ok value => exact returned value after reached
  | error error => exact refused after reached

end Rules

/-! ## Single steps, while none has failed -/

section Steps

variable {directory : PlanDirectory} {failed : FaultWorld → Prop}

theorem runs_random {ok : ArtifactRef → FaultWorld → Prop}
    (drawn : ∀ value, UnusedNonce directory value → ok value ⟨directory, none⟩)
    (refused : failed ⟨directory, some .random⟩) :
    Runs PlanProgram.random ⟨directory, none⟩ ok failed := by
  rintro (_ | value) ⟨after, fault⟩ (⟨step, same⟩ | ⟨_, step, same⟩)
  · cases step
  · cases step
    cases same
    exact ⟨trivial, refused⟩
  · obtain ⟨unused, rfl⟩ := step
    cases same
    exact ⟨trivial, drawn value unused⟩
  · cases step

theorem runs_pathExists {name : String} {ok : Bool → FaultWorld → Prop}
    (answered : ok (directory.find? name).isSome ⟨directory, none⟩) :
    Runs (PlanProgram.pathExists name) ⟨directory, none⟩ ok failed := by
  rintro present ⟨after, fault⟩ (⟨step, same⟩ | ⟨_, step, _⟩)
  · obtain ⟨rfl, rfl⟩ := step
    cases same
    exact ⟨trivial, answered⟩
  · cases step

theorem runs_create {name : String} {ok : Nat → FaultWorld → Prop}
    (fresh : directory.find? name = none)
    (created : ok directory.next ⟨directory.create name (.file true []) fresh, none⟩)
    (refused : failed ⟨directory, some (.create name)⟩) :
    Runs (PlanProgram.create name) ⟨directory, none⟩ ok failed := by
  rintro (_ | file) ⟨after, fault⟩ (⟨step, same⟩ | ⟨_, step, same⟩)
  · exact absurd fresh step.1
  · obtain ⟨_, rfl⟩ := step
    cases same
    exact ⟨trivial, refused⟩
  · obtain ⟨_, rfl, rfl⟩ := step
    cases same
    exact ⟨trivial, created⟩
  · cases step

theorem runs_append {message : String} {file : Nat} {piece : List UInt8}
    {ok : Unit → FaultWorld → Prop}
    (appended : ok () ⟨directory.update file ((directory.nodes file).append piece), none⟩)
    (refused : ∀ written,
      failed ⟨directory.update file ((directory.nodes file).append written),
        some (.append file piece)⟩) :
    Runs (PlanProgram.append message file piece) ⟨directory, none⟩ ok failed := by
  rintro (_ | _) ⟨after, fault⟩ (⟨step, same⟩ | ⟨_, step, same⟩)
  · cases step
  · obtain ⟨written, _, rfl⟩ := step
    cases same
    exact ⟨trivial, refused written⟩
  · cases step
    cases same
    exact ⟨trivial, appended⟩
  · cases step

theorem runs_sync {file : Nat} {ok : Unit → FaultWorld → Prop} (synced : ok () ⟨directory, none⟩)
    (refused : failed ⟨directory, some (.sync file)⟩) :
    Runs (PlanProgram.sync file) ⟨directory, none⟩ ok failed := by
  rintro (_ | _) ⟨after, fault⟩ (⟨step, same⟩ | ⟨_, step, same⟩)
  · cases step
  · cases step
    cases same
    exact ⟨trivial, refused⟩
  · cases step
    cases same
    exact ⟨trivial, synced⟩
  · cases step

theorem runs_readDirectory {ok : List String → FaultWorld → Prop}
    (listed : ∀ names : List String, names.Perm (directory.entries.map Prod.fst) →
      ok names ⟨directory, none⟩)
    (refused : failed ⟨directory, some .readDirectory⟩) :
    Runs PlanProgram.readDirectory ⟨directory, none⟩ ok failed := by
  rintro (_ | names) ⟨after, fault⟩ (⟨step, same⟩ | ⟨_, step, same⟩)
  · cases step
  · cases step
    cases same
    exact ⟨trivial, refused⟩
  · obtain ⟨permuted, rfl⟩ := step
    cases same
    exact ⟨trivial, listed names permuted⟩
  · cases step

theorem runs_inspect {name : String} {node : Nat} {ok : PlanMetadata → FaultWorld → Prop}
    (present : directory.find? name = some node)
    (inspected : ok (directory.nodes node).metadata ⟨directory, none⟩)
    (refused : failed ⟨directory, some (.inspect name)⟩) :
    Runs (PlanProgram.inspect name) ⟨directory, none⟩ ok failed := by
  rintro (_ | metadata) ⟨after, fault⟩ (⟨step, same⟩ | ⟨_, step, same⟩)
  · exact absurd (step.1.symm.trans present) nofun
  · obtain ⟨_, rfl⟩ := step
    cases same
    exact ⟨trivial, refused⟩
  · obtain ⟨found, listed, rfl, rfl⟩ := step
    cases listed.symm.trans present
    cases same
    exact ⟨trivial, inspected⟩
  · cases step

theorem runs_link {message pending final : String} {node : Nat} {ok : Unit → FaultWorld → Prop}
    (present : directory.find? pending = some node) (fresh : directory.find? final = none)
    (linked : ∀ known, ok () ⟨directory.link final node fresh known, none⟩)
    (refused : failed ⟨directory, some (.link pending final)⟩) :
    Runs (PlanProgram.link message pending final) ⟨directory, none⟩ ok failed := by
  rintro (_ | _) ⟨after, fault⟩ (⟨step, same⟩ | ⟨_, step, same⟩)
  · rcases step.1 with missing | taken
    · exact absurd (missing.symm.trans present) nofun
    · exact absurd fresh taken
  · obtain ⟨_, _, rfl⟩ := step
    cases same
    exact ⟨trivial, refused⟩
  · obtain ⟨found, known, listed, _, rfl⟩ := step
    cases listed.symm.trans present
    cases same
    exact ⟨trivial, linked known⟩
  · cases step

theorem runs_remove {message name : String} {ok : Unit → FaultWorld → Prop}
    (present : directory.find? name ≠ none) (removed : ok () ⟨directory.remove name, none⟩)
    (refused : failed ⟨directory, some (.remove name)⟩) :
    Runs (PlanProgram.remove message name) ⟨directory, none⟩ ok failed := by
  rintro (_ | _) ⟨after, fault⟩ (⟨step, same⟩ | ⟨_, step, same⟩)
  · exact absurd step.1 present
  · obtain ⟨_, rfl⟩ := step
    cases same
    exact ⟨trivial, refused⟩
  · obtain ⟨_, rfl⟩ := step
    cases same
    exact ⟨trivial, removed⟩
  · cases step

theorem runs_syncDirectory {ok : Unit → FaultWorld → Prop} (synced : ok () ⟨directory, none⟩)
    (refused : failed ⟨directory, some .syncDirectory⟩) :
    Runs PlanProgram.syncDirectory ⟨directory, none⟩ ok failed := by
  rintro (_ | _) ⟨after, fault⟩ (⟨step, same⟩ | ⟨_, step, same⟩)
  · cases step
  · cases step
    cases same
    exact ⟨trivial, refused⟩
  · cases step
    cases same
    exact ⟨trivial, synced⟩
  · cases step

end Steps

/-! ## Writing -/

theorem PlanNode.append_nil (node : PlanNode) : node.append [] = node := by
  cases node with
  | file isPrivate bytes => rw [append, List.append_nil]
  | other => rfl

theorem PlanNode.append_append (node : PlanNode) (first second : List UInt8) :
    (node.append first).append second = node.append (first ++ second) := by
  cases node with
  | file isPrivate bytes => rw [append, append, append, List.append_assoc]
  | other => rfl

theorem not_uncleaned_none : ¬ Uncleaned none := by
  rintro (⟨name, same⟩ | same) <;> cases same

section Writing

variable {directory : PlanDirectory} {failed : FaultWorld → Prop}

theorem runs_writePieces {file remaining : Nat} {pieces : List (List UInt8)}
    {ok : Nat → FaultWorld → Prop}
    (written : ∀ left, left + pieces.flatten.length = remaining →
      ok left ⟨directory.update file ((directory.nodes file).append pieces.flatten), none⟩)
    (refused : ∀ content fault, ¬ Uncleaned fault →
      failed ⟨directory.update file content, fault⟩) :
    Runs (writePieces file remaining pieces) ⟨directory, none⟩ ok failed := by
  induction pieces generalizing directory remaining with
  | nil =>
      have finished := written remaining rfl
      rw [List.flatten_nil, PlanNode.append_nil, Directory.update_self] at finished
      exact runs_pure finished
  | cons piece rest induction =>
      refine runs_bind (runs_ofResult (fun _ accepted => runs_bind (runs_append ?_ ?_)) ?_)
      · rw [reject_eq_ok, decide_eq_false_iff_not, Nat.not_lt] at accepted
        refine induction (fun left total => ?_) fun content fault cleaned => ?_
        · rw [Directory.update_nodes_self, PlanNode.append_append, Directory.update_update]
          refine written left ?_
          rw [List.flatten_cons, List.length_append]
          omega
        · rw [Directory.update_update]
          exact refused content fault cleaned
      · intro bytes
        exact refused _ _ (by rintro (⟨name, same⟩ | same) <;> cases same)
      · intro _
        have unchanged := refused (directory.nodes file) none not_uncleaned_none
        rwa [Directory.update_self] at unchanged

/-- Writing a new file adds it with its whole text, or a part of it when it fails. -/
theorem runs_writeJson {library : JsonLibrary} {name : String} {text : List UInt8} {maximum : Nat}
    {ok : Unit → FaultWorld → Prop} (fresh : directory.find? name = none)
    (written : ∀ after : PlanDirectory, Directory.Extends directory after [(name, directory.next)] →
      after.nodes directory.next = .file true (text ++ [10]) → text.length + 1 ≤ maximum →
        ok () ⟨after, none⟩)
    (refused : ∀ after extra fault, Directory.Extends directory after extra →
      (∀ entry ∈ extra, entry.1 = name) → ¬ Uncleaned fault → failed ⟨after, fault⟩) :
    Runs (writeJson library name text maximum) ⟨directory, none⟩ ok failed := by
  have added : ∀ content, Directory.Extends directory
      ((directory.create name (.file true []) fresh).update directory.next content)
      [(name, directory.next)] := by
    intro content
    exact ((Directory.Extends.refl directory).create fresh).update (Nat.le_refl _)
  have only : ∀ entry ∈ [(name, directory.next)], entry.1 = name := by simp
  have partly : ∀ content fault, ¬ Uncleaned fault →
      failed ⟨(directory.create name (.file true []) fresh).update directory.next content,
        fault⟩ :=
    fun content fault => refused _ _ fault (added content) only
  have started : (directory.create name (.file true []) fresh).nodes directory.next =
      .file true [] := Function.update_self _ _ _
  refine runs_bind (runs_create fresh ?_ ?_)
  · refine runs_bind (runs_writePieces (fun left total => ?_) partly)
    rw [library.pieces_flatten] at total ⊢
    rw [started, PlanNode.append, List.nil_append]
    refine runs_bind (runs_ofResult (fun _ accepted => runs_bind (runs_append ?_ ?_)) ?_)
    · rw [reject_eq_ok, decide_eq_false_iff_not, Nat.not_lt] at accepted
      rw [Directory.update_nodes_self, PlanNode.append, Directory.update_update]
      refine runs_sync ?_ ?_
      · exact written _ (added _) (Directory.update_nodes_self _ _ _) (by omega)
      · exact partly _ _ (by rintro (⟨name, same⟩ | same) <;> cases same)
    · intro bytes
      rw [Directory.update_update]
      exact partly _ _ (by rintro (⟨name, same⟩ | same) <;> cases same)
    · intro _
      exact partly _ _ not_uncleaned_none
  · refine refused directory [] _ (.refl directory) nofun ?_
    rintro (⟨name, same⟩ | same) <;> cases same

/-- The number of entries and the sum of their lengths are within the bounds of the store. -/
def PlanStore.Bounds (store : PlanStore) (directory : PlanDirectory) : Prop :=
  directory.entries.length ≤ store.maximumFiles ∧
    (directory.entries.map fun entry => (directory.nodes entry.2).length).sum ≤
      store.maximumStoreBytes

theorem runs_inspectEntries {store : PlanStore} {entries : List (String × Nat)} {files bytes : Nat}
    {ok : Unit → FaultWorld → Prop} (present : ∀ entry ∈ entries, entry ∈ directory.entries)
    (filesRoom : files ≤ store.maximumFiles) (bytesRoom : bytes ≤ store.maximumStoreBytes)
    (within : files + entries.length ≤ store.maximumFiles →
      bytes + (entries.map fun entry => (directory.nodes entry.2).length).sum ≤
        store.maximumStoreBytes → ok () ⟨directory, none⟩)
    (refused : ∀ fault, ¬ Uncleaned fault → failed ⟨directory, fault⟩) :
    Runs (store.inspectEntries (entries.map Prod.fst) files bytes) ⟨directory, none⟩ ok failed := by
  induction entries generalizing files bytes with
  | nil => exact runs_pure (within filesRoom bytesRoom)
  | cons entry rest induction =>
      rw [List.forall_mem_cons] at present
      rw [List.map_cons, List.sum_cons, List.length_cons] at within
      have found := Directory.find?_eq_some.mpr present.1
      refine runs_bind (runs_inspect found (runs_bind (runs_ofResult (fun _ _ => ?_) ?_)) ?_)
      · refine runs_bind (runs_ofResult (fun _ accepted => ?_) fun _ => ?_)
        · rw [reject_eq_ok, Bool.or_eq_false_iff, decide_eq_false_iff_not,
            decide_eq_false_iff_not, Nat.not_lt, Nat.not_lt] at accepted
          refine induction present.2 accepted.1 accepted.2 fun fewFiles fewBytes => within ?_ ?_
          · omega
          · rw [← Nat.add_assoc]
            exact fewBytes
        · exact refused none not_uncleaned_none
      · exact fun _ => refused none not_uncleaned_none
      · refine refused _ ?_
        rintro (⟨name, same⟩ | same) <;> cases same

/-- The check of the bounds leaves the directory alone. -/
theorem runs_checkStoreBound {store : PlanStore} {ok : Unit → FaultWorld → Prop}
    (within : store.Bounds directory → ok () ⟨directory, none⟩)
    (refused : ∀ fault, ¬ Uncleaned fault → failed ⟨directory, fault⟩) :
    Runs store.checkStoreBound ⟨directory, none⟩ ok failed := by
  refine runs_bind (runs_readDirectory (fun names permuted => ?_) ?_)
  · obtain ⟨entries, listed, same⟩ : ∃ entries : List (String × Nat),
        names = entries.map Prod.fst ∧ entries.Perm directory.entries := by
      have composed := congrFun (congrFun (List.eq_map_comp_perm Prod.fst) names) directory.entries
      exact composed.mpr permuted
    rw [listed]
    refine runs_inspectEntries (fun entry member => same.subset member) (Nat.zero_le _)
      (Nat.zero_le _) (fun fewFiles fewBytes => within ⟨?_, ?_⟩) refused
    · rwa [Nat.zero_add, same.length_eq] at fewFiles
    · rwa [Nat.zero_add, (same.map _).sum_eq] at fewBytes
  · refine refused _ ?_
    rintro (⟨name, same⟩ | same) <;> cases same

end Writing

/-! ## Publishing -/

theorem ensures_discard {base : PlanDirectory} {world : FaultWorld} {name : String}
    {extra : List (String × Nat)} {post : Unit → FaultWorld → Prop}
    (extension : Directory.Extends base world.directory extra) (absent : base.find? name = none)
    (removed : ∀ after, Directory.Extends base after
      (extra.filter fun entry => decide (entry.1 ≠ name)) → post () ⟨after, world.fault⟩)
    (refused : world.fault = none → (∃ node, (name, node) ∈ extra) →
      post () ⟨world.directory, some (.remove name)⟩) :
    (PlanProgram.discard name).Ensures faultyEnvironment (fun _ _ _ => True) world post := by
  have listed : world.directory.find? name ≠ none → ∃ node, (name, node) ∈ extra := by
    intro present
    obtain ⟨node, found⟩ := Option.ne_none_iff_exists'.mp present
    rcases extension.mem.mp (Directory.find?_eq_some.mp found) with old | added
    · rw [Directory.find?_eq_some.mpr old] at absent
      cases absent
    · exact ⟨node, added⟩
  rintro (_ | _) ⟨after, fault⟩ (⟨step, same⟩ | ⟨calm, step, same⟩)
  · obtain ⟨missing, rfl⟩ := step
    cases same
    have kept : (extra.filter fun entry => decide (entry.1 ≠ name)) = extra := by
      refine List.filter_eq_self.mpr fun entry member => decide_eq_true fun named => ?_
      have found := extension.find?_eq_some member
      rw [named, missing] at found
      cases found
    exact ⟨trivial, removed _ (by rwa [kept])⟩
  · obtain ⟨present, rfl⟩ := step
    cases same
    exact ⟨trivial, refused calm (listed present)⟩
  · obtain ⟨_, rfl⟩ := step
    cases same
    exact ⟨trivial, removed _ (extension.remove absent)⟩
  · cases step

section Publishing

variable {store : PlanStore} {library : JsonLibrary} {directory : PlanDirectory}
  {reference nonce : ArtifactRef} {plan binding : List UInt8}

/-- None of the four names of an attempt is taken. -/
structure NamesFree (directory : PlanDirectory) (reference nonce : ArtifactRef) : Prop where
  plan : directory.find? (planPath reference) = none
  binding : directory.find? (bindingPath reference) = none
  pending : directory.find? (pendingPath reference nonce) = none
  pendingBinding : directory.find? (pendingBindingPath reference nonce) = none

/-- Both files are stored under their final names, and the directory is within its bounds. -/
def Published (store : PlanStore) (before : PlanDirectory) (reference : ArtifactRef)
    (plan binding : List UInt8) (after : PlanDirectory) : Prop :=
  ∃ planFile bindingFile,
    Directory.Extends before after
      [(planPath reference, planFile), (bindingPath reference, bindingFile)] ∧
    after.nodes planFile = .file true (plan ++ [10]) ∧
    after.nodes bindingFile = .file true (binding ++ [10]) ∧
    plan.length + 1 ≤ store.maximumBytes ∧ binding.length + 1 ≤ maxBindingBytes ∧
    store.Bounds after

/-- What a failed attempt leaves before it is cleaned up: only pending files, unless a step failed
whose effect the clean-up does not undo. -/
def Interrupted (before : PlanDirectory) (reference nonce : ArtifactRef) (world : FaultWorld) :
    Prop :=
  ∃ extra, Directory.Extends before world.directory extra ∧
    ((¬ Uncleaned world.fault ∧ ∀ entry ∈ extra,
        entry.1 = pendingPath reference nonce ∨ entry.1 = pendingBindingPath reference nonce) ∨
      (Uncleaned world.fault ∧ ∃ entry ∈ extra,
        entry.1 ≠ pendingPath reference nonce ∧ entry.1 ≠ pendingBindingPath reference nonce))

theorem ne_of_length_ne {first second : String} (different : first.length ≠ second.length) :
    first ≠ second :=
  fun same => different (congrArg String.length same)

/-- The bounds depend on how many names a directory has and on the lengths behind them. -/
theorem PlanStore.Bounds.renamed {base before after : PlanDirectory}
    {first second : List (String × Nat)} (bounds : store.Bounds before)
    (old : Directory.Extends base before first) (new : Directory.Extends base after second)
    (same : after.nodes = before.nodes) (links : (first.map Prod.snd).Perm (second.map Prod.snd)) :
    store.Bounds after := by
  have lengths := links.length_eq
  rw [List.length_map, List.length_map] at lengths
  refine ⟨?_, ?_⟩
  · have few := bounds.1
    rw [old.entries.length_eq, List.length_append] at few
    rw [new.entries.length_eq, List.length_append]
    omega
  · have small := bounds.2
    have sums := (links.map fun node => (before.nodes node).length).sum_eq
    rw [List.map_map, List.map_map] at sums
    rw [(old.entries.map _).sum_eq, List.map_append, List.sum_append] at small
    rw [same, (new.entries.map _).sum_eq, List.map_append, List.sum_append]
    exact (congrArg _ sums.symm).trans_le small

/-- Publishing both pending files. -/
theorem runs_publishFiles (free : NamesFree directory reference nonce) {pending : PlanDirectory}
    {bindingFile planFile : Nat}
    (extension : Directory.Extends directory pending
      [(pendingBindingPath reference nonce, bindingFile), (pendingPath reference nonce, planFile)])
    {ok : Unit → FaultWorld → Prop} {failed : FaultWorld → Prop}
    (published : ∀ after, Directory.Extends directory after
      [(planPath reference, planFile), (bindingPath reference, bindingFile)] →
      after.nodes = pending.nodes → ok () ⟨after, none⟩)
    (interrupted : ∀ after, Interrupted directory reference nonce after → failed after) :
    Runs (do
      publishNew "cannot publish plan binding" (pendingBindingPath reference nonce)
        (bindingPath reference)
      tryCatch (publishNew "cannot publish upload plan" (pendingPath reference nonce)
        (planPath reference)) fun error => do
          liftM (PlanProgram.discard (bindingPath reference))
          throw error
      PlanProgram.syncDirectory) ⟨pending, none⟩ ok failed := by
  have bindingPlan : bindingPath reference ≠ planPath reference := ne_of_length_ne (by simp)
  have bindingPending : bindingPath reference ≠ pendingPath reference nonce :=
    ne_of_length_ne (by simp)
  have bindingPendingBinding : bindingPath reference ≠ pendingBindingPath reference nonce :=
    ne_of_length_ne (by simp)
  have planPending : planPath reference ≠ pendingPath reference nonce := ne_of_length_ne (by simp)
  have planPendingBinding : planPath reference ≠ pendingBindingPath reference nonce :=
    ne_of_length_ne (by simp)
  have pendings : pendingPath reference nonce ≠ pendingBindingPath reference nonce :=
    ne_of_length_ne (by simp)
  -- The binding is linked, and its pending name is removed.
  have bindingPresent := extension.find?_eq_some (List.mem_cons_self)
  have bindingFree := extension.find?_eq_none free.binding (by simp [*])
  refine runs_bind (runs_bind (runs_link bindingPresent bindingFree (fun known => ?_) ?_))
  · have linked := extension.link bindingFree known
    refine runs_remove ?_ ?_ ?_
    · rw [linked.find?_eq_some (List.mem_cons_of_mem _ List.mem_cons_self)]
      nofun
    · have half := linked.remove free.pendingBinding
      rw [List.filter_cons_of_pos (by simpa using bindingPendingBinding),
        List.filter_cons_of_neg (by simp), List.filter_cons_of_pos (by simpa using pendings),
        List.filter_nil] at half
      -- The plan is linked, and its pending name is removed.
      have planPresent := half.find?_eq_some (List.mem_cons_of_mem _ List.mem_cons_self)
      have planFree := half.find?_eq_none free.plan (by simp [*, bindingPlan.symm])
      refine runs_bind (runs_tryCatch (runs_bind (runs_link planPresent planFree
        (fun known => ?_) ?_)))
      · have linkedPlan := half.link planFree known
        refine runs_remove ?_ ?_ ?_
        · rw [linkedPlan.find?_eq_some
            (List.mem_cons_of_mem _ (List.mem_cons_of_mem _ List.mem_cons_self))]
          nofun
        · have both := linkedPlan.remove free.pending
          rw [List.filter_cons_of_pos (by simpa using planPending),
            List.filter_cons_of_pos (by simpa using bindingPending),
            List.filter_cons_of_neg (by simp), List.filter_nil] at both
          refine runs_syncDirectory (published _ both rfl) (interrupted _ ?_)
          refine ⟨_, both, .inr ⟨.inr rfl, _, List.mem_cons_self, planPending, ?_⟩⟩
          exact planPendingBinding
        · intro error
          refine runs_bind (runs_liftM (ensures_discard linkedPlan free.binding ?_ nofun))
          intro after cleaned
          rw [List.filter_cons_of_pos (by simpa using bindingPlan.symm)] at cleaned
          refine runs_throw (interrupted _ ⟨_, cleaned, .inr ⟨.inl ⟨_, rfl⟩, ?_⟩⟩)
          exact ⟨_, List.mem_cons_self, planPending, planPendingBinding⟩
      · intro error
        refine runs_bind (runs_liftM (ensures_discard half free.binding ?_ nofun))
        intro after cleaned
        rw [List.filter_cons_of_neg (by simp),
          List.filter_cons_of_pos (by simpa using bindingPending.symm), List.filter_nil] at cleaned
        refine runs_throw (interrupted _ ⟨_, cleaned, .inl ⟨?_, by simp⟩⟩)
        rintro (⟨name, same⟩ | same) <;> cases same
    · refine interrupted _ ⟨_, linked, .inr ⟨.inl ⟨_, rfl⟩, _, List.mem_cons_self, ?_⟩⟩
      exact ⟨bindingPending, bindingPendingBinding⟩
  · refine interrupted _ ⟨_, extension, .inl ⟨?_, ?_⟩⟩
    · rintro (⟨name, same⟩ | same) <;> cases same
    · simp

theorem runs_publish (free : NamesFree directory reference nonce)
    {ok : Unit → FaultWorld → Prop} {failed : FaultWorld → Prop}
    (published : ∀ after, Published store directory reference plan binding after →
      ok () ⟨after, none⟩)
    (interrupted : ∀ after, Interrupted directory reference nonce after → failed after) :
    Runs (store.publish library reference nonce plan binding) ⟨directory, none⟩ ok failed := by
  have pendingOnly : ∀ after extra fault, Directory.Extends directory after extra →
      (∀ entry ∈ extra, entry.1 = pendingPath reference nonce ∨
        entry.1 = pendingBindingPath reference nonce) → ¬ Uncleaned fault →
      failed ⟨after, fault⟩ :=
    fun after extra fault extension only cleaned =>
      interrupted ⟨after, fault⟩ ⟨extra, extension, .inl ⟨cleaned, only⟩⟩
  refine runs_bind (runs_writeJson free.pendingBinding
    (fun first added bindingText bindingSmall => ?_) fun after extra fault extension only => ?_)
  · have pendingFree : first.find? (pendingPath reference nonce) = none := by
      refine added.find?_eq_none free.pending ?_
      simpa using ne_of_length_ne (by simp)
    refine runs_bind (runs_writeJson pendingFree (fun second addedPlan planText planSmall => ?_)
      fun after extra fault extension only => ?_)
    · have both := added.trans addedPlan
      have older : directory.next < first.next :=
        first.numbered _ (added.mem.mpr (.inr (List.mem_singleton_self _)))
      refine runs_bind (runs_checkStoreBound (fun bounds => ?_) fun fault cleaned => ?_)
      · refine runs_publishFiles free both (fun after extension same => ?_) interrupted
        refine published after ⟨_, _, extension, ?_, ?_, planSmall, bindingSmall, ?_⟩
        · rw [same, planText]
        · rw [same, addedPlan.nodes _ older, bindingText]
        · exact bounds.renamed both extension same (List.Perm.swap _ _ _)
      · exact pendingOnly second _ fault both (by simp) cleaned
    · refine pendingOnly after _ fault (added.trans extension) fun entry member => ?_
      rcases List.mem_append.mp member with binding | pending
      · rw [List.mem_singleton.mp binding]
        exact .inr rfl
      · exact .inl (only entry pending)
  · exact pendingOnly after extra fault extension fun entry member => .inr (only entry member)

/-- A failed write leaves its directory as it was, unless a step failed which is not undone. -/
def Restored (before : PlanDirectory) (world : FaultWorld) : Prop :=
  ∃ extra, Directory.Extends before world.directory extra ∧ (extra = [] ↔ ¬ Uncleaned world.fault)

theorem restored_self (fault : Option PlanCall) (cleaned : ¬ Uncleaned fault) :
    Restored directory ⟨directory, fault⟩ :=
  ⟨[], .refl directory, iff_of_true rfl cleaned⟩

/-- The clean-up removes what is left of the pending files. -/
theorem ensures_cleanUp (free : NamesFree directory reference nonce) {world : FaultWorld}
    (interrupted : Interrupted directory reference nonce world)
    {post : Unit → FaultWorld → Prop}
    (restored : ∀ after, Restored directory after → post () after) :
    (PlanStore.cleanUp reference nonce).Ensures faultyEnvironment (fun _ _ _ => True) world post := by
  obtain ⟨extra, extension, left⟩ := interrupted
  have remaining : ∀ {after : PlanDirectory} {rest : List (String × Nat)} {entry : String × Nat}
      {fault : Option PlanCall}, Directory.Extends directory after rest → entry ∈ rest →
      Uncleaned fault → Restored directory ⟨after, fault⟩ := by
    intro after rest entry fault extension' member uncleaned
    exact ⟨rest, extension', iff_of_false (List.ne_nil_of_mem member) (not_not.mpr uncleaned)⟩
  have pendings : pendingPath reference nonce ≠ pendingBindingPath reference nonce :=
    ne_of_length_ne (by simp)
  rw [PlanStore.cleanUp, Program.bind_eq, Program.ensures_bind]
  refine ensures_discard extension free.pending (fun first cleaned => ?_) fun calm listed => ?_
  · refine ensures_discard cleaned free.pendingBinding (fun second cleanedBoth => ?_)
      fun calm listed => ?_
    · refine restored _ ?_
      rcases left with ⟨undone, only⟩ | ⟨uncleaned, entry, member, notPending, notBinding⟩
      · refine ⟨_, cleanedBoth, iff_of_true ?_ undone⟩
        rw [List.filter_filter, List.filter_eq_nil_iff]
        intro entry member
        rcases only entry member with named | named <;> simp [named]
      · refine remaining cleanedBoth (List.mem_filter.mpr ⟨List.mem_filter.mpr ⟨member, ?_⟩, ?_⟩)
          uncleaned
        · exact decide_eq_true notPending
        · exact decide_eq_true notBinding
    · obtain ⟨node, member⟩ := listed
      exact restored _ (remaining cleaned member (.inl ⟨_, rfl⟩))
  · obtain ⟨node, member⟩ := listed
    refine ensures_discard extension free.pendingBinding (fun second cleaned => ?_) nofun
    refine restored _ (remaining cleaned (List.mem_filter.mpr ⟨member, ?_⟩) (.inl ⟨_, rfl⟩))
    exact decide_eq_true pendings

/-- One attempt: it does nothing when the reference is taken, and else publishes both files. -/
theorem runs_writeNew {ok : Bool → FaultWorld → Prop} {failed : FaultWorld → Prop}
    (taken : ok false ⟨directory, none⟩)
    (published : ∀ after, Published store directory reference plan binding after →
      ok true ⟨after, none⟩)
    (refused : ∀ after, Restored directory after → failed after) :
    Runs (store.writeNew library reference plan binding) ⟨directory, none⟩ ok failed := by
  refine runs_bind (runs_pathExists ?_)
  cases planTaken : directory.find? (planPath reference) with
  | some node => exact runs_pure taken
  | none =>
      refine runs_bind (runs_pathExists ?_)
      cases bindingTaken : directory.find? (bindingPath reference) with
      | some node => exact runs_pure taken
      | none =>
          refine runs_bind (runs_random (fun nonce unused => runs_bind ?_) ?_)
          · have free : NamesFree directory reference nonce :=
              ⟨planTaken, bindingTaken, (unused reference).1, (unused reference).2⟩
            refine runs_tryCatch (runs_publish free (fun after done => ?_) fun after left => ?_)
            · exact runs_pure (published after done)
            · intro error
              refine runs_bind (runs_liftM (ensures_cleanUp free left fun after restored => ?_))
              exact runs_throw (refused after restored)
          · refine refused _ (restored_self _ ?_)
            rintro (⟨name, same⟩ | same) <;> cases same

theorem runs_writeAttempts {plan : UploadPlan} {binding : PlanBinding} {attempts : Nat}
    {ok : PlanArtifact → FaultWorld → Prop} {failed : FaultWorld → Prop}
    (published : ∀ reference after, Published store directory reference
      (prettyBytes plan.serialize) (prettyBytes binding.serialize) after →
        ok { reference, schemaVersion := plan.schemaVersion, planSha256 := binding.planSha256
             maxLogicalEffects := binding.maxLogicalEffects } ⟨after, none⟩)
    (refused : ∀ after, Restored directory after → failed after) :
    Runs (store.writeAttempts library plan binding attempts) ⟨directory, none⟩ ok failed := by
  induction attempts with
  | zero => exact runs_ofResult nofun fun _ => refused _ (restored_self none not_uncleaned_none)
  | succ attempts induction =>
      refine runs_bind (runs_random (fun reference _ => runs_bind (runs_writeNew ?_ ?_ refused)) ?_)
      · exact induction
      · exact fun after done => runs_pure (published reference after done)
      · refine refused _ (restored_self _ ?_)
        rintro (⟨name, same⟩ | same) <;> cases same

/-! ## Loading -/

/-- The parsers read back the two texts which a write stores. -/
structure JsonLibrary.Restores (library : JsonLibrary) (plan : UploadPlan) (binding : PlanBinding) :
    Prop where
  plan : library.parsePlan (prettyBytes plan.serialize ++ [10]) = some plan
  binding : library.parseBinding (prettyBytes binding.serialize ++ [10]) = some binding

theorem loadJson_eq {α : Type} {parse : List UInt8 → Option α} {name : String} {node maximum : Nat}
    {text : List UInt8} {value : α} (present : directory.find? name = some node)
    (content : directory.nodes node = .file true (text ++ [10])) (small : text.length + 1 ≤ maximum)
    (parsed : parse (text ++ [10]) = some value) :
    fileStamp directory name maximum = .ok ⟨node, text.length + 1⟩ ∧
      loadJson parse directory name maximum = .ok (value, ⟨node, text.length + 1⟩) := by
  have stamped : fileStamp directory name maximum = .ok ⟨node, text.length + 1⟩ := by
    rw [fileStamp, present]
    simp only [stamp, content, List.length_append, List.length_singleton]
    rw [if_neg (by simp; omega)]
  refine ⟨stamped, ?_⟩
  simp only [loadJson, stamped, bind, Except.bind, content, parsed]
  rfl

/-- The arguments of a write are accepted, with this digest of the plan. -/
structure PlanWrite.Accepted (request : PlanWrite) (platform : Platform) (digest : String) :
    Prop where
  plan : request.plan.validate platform = .ok ()
  inputs : validateBindingInputs request.sourceProfileId request.sourceProfileSha256
    request.serverProfileId request.serverProfileSha256 request.credentialGeneration = .ok ()
  digest : uploadPlanSha256 platform request.plan = .ok digest

theorem validateLoaded_binding {platform : Platform} {request : PlanWrite} {digest : String}
    (accepted : request.Accepted platform digest) :
    validateLoaded platform request.plan (request.binding digest) = .ok () := by
  have identity := ((UploadPlan.validate_ok_iff platform request.plan).mp accepted.plan).identities.2.2.2
  have inputs : validateBindingInputs (request.binding digest).sourceProfileId
      (request.binding digest).sourceProfileSha256 (request.binding digest).serverProfileId
      (request.binding digest).serverProfileSha256 (request.binding digest).credentialGeneration =
        .ok () := accepted.inputs
  rw [validateLoaded, accepted.plan, inputs, accepted.digest]
  simp [PlanWrite.binding, identity, Except.mapError, reject, bind, Except.bind]

/-- What is published can be loaded. -/
theorem load_published {platform : Platform} {request : PlanWrite} {digest : String}
    {after : PlanDirectory} (accepted : request.Accepted platform digest)
    (restores : library.Restores request.plan (request.binding digest))
    (published : Published store directory reference (prettyBytes request.plan.serialize)
      (prettyBytes (request.binding digest).serialize) after) :
    store.load platform library after reference =
      .ok { reference, plan := request.plan, binding := request.binding digest } := by
  obtain ⟨planFile, bindingFile, extension, planText, bindingText, planSmall, bindingSmall, _⟩ :=
    published
  have planPresent := extension.find?_eq_some List.mem_cons_self
  have bindingPresent := extension.find?_eq_some (List.mem_cons_of_mem _ List.mem_cons_self)
  obtain ⟨_, planLoaded⟩ := loadJson_eq planPresent planText planSmall restores.plan
  obtain ⟨stamped, bindingLoaded⟩ :=
    loadJson_eq bindingPresent bindingText bindingSmall restores.binding
  rw [PlanStore.load, bindingLoaded]
  change (loadJson library.parsePlan after (planPath reference) store.maximumBytes >>= _) = _
  rw [planLoaded]
  change (fileStamp after (bindingPath reference) maxBindingBytes >>= _) = _
  rw [stamped]
  change (reject _ _ >>= _) = _
  rw [bne_self_eq_false]
  change (validateLoaded platform request.plan (request.binding digest) >>= _) = _
  rw [validateLoaded_binding accepted]
  rfl

/-! ## Writes -/

/-- What is expected of a write: an error leaves the directory as it was, and a returned reference
stands for the same plan with its binding, in a directory within its bounds. -/
def PlanStore.WriteKept (store : PlanStore) (platform : Platform) (library : JsonLibrary)
    (request : PlanWrite) (before : PlanDirectory) (outcome : Except String PlanArtifact)
    (after : PlanDirectory) : Prop :=
  match outcome with
  | .error _ => after.files.Perm before.files
  | .ok artifact =>
      (∃ digest, uploadPlanSha256 platform request.plan = .ok digest ∧
        store.load platform library after artifact.reference =
          .ok { reference := artifact.reference, plan := request.plan
                binding := request.binding digest }) ∧
        store.Bounds after

theorem runs_write {platform : Platform} {request : PlanWrite}
    {ok : PlanArtifact → FaultWorld → Prop} {failed : FaultWorld → Prop}
    (published : ∀ digest artifact after, request.Accepted platform digest →
      Published store directory artifact.reference (prettyBytes request.plan.serialize)
        (prettyBytes (request.binding digest).serialize) after → ok artifact ⟨after, none⟩)
    (refused : ∀ after, Restored directory after → failed after) :
    Runs (store.write platform library request) ⟨directory, none⟩ ok failed := by
  have unchanged := refused _ (restored_self none not_uncleaned_none)
  refine runs_bind (runs_ofResult (fun _ plan => runs_bind (runs_ofResult (fun _ inputs => ?_)
    fun _ => unchanged)) fun _ => unchanged)
  refine runs_bind (runs_ofResult (fun digest digested => ?_) fun _ => unchanged)
  have accepted : request.Accepted platform digest :=
    { plan := mapError_eq_ok.mp plan, inputs, digest := mapError_eq_ok.mp digested }
  exact runs_writeAttempts (fun reference after done => published digest _ after accepted done)
    refused

/-- **Failing steps.** Whatever the directory was and whichever step fails, a write does what is
expected of it exactly when the failing step is neither the unlinking of a file nor the sync of the
directory. -/
theorem PlanStore.write_kept_iff {platform : Platform} {request : PlanWrite}
    {events : List (Event PlanAnswer)} {outcome : Except String PlanArtifact} {after : FaultWorld}
    (restores : ∀ digest, uploadPlanSha256 platform request.plan = .ok digest →
      library.Restores request.plan (request.binding digest))
    (execution : Execution faultyEnvironment (store.write platform library request).run
      ⟨directory, none⟩ events (.done outcome) after) :
    store.WriteKept platform library request directory outcome after.directory ↔
      ¬ Uncleaned after.fault := by
  have runs : Runs (store.write platform library request) ⟨directory, none⟩
      (fun artifact world => world.fault = none ∧
        store.WriteKept platform library request directory (.ok artifact) world.directory)
      (Restored directory) := by
    refine runs_write (fun digest artifact after accepted published => ⟨rfl, ?_, ?_⟩)
      fun _ => id
    · have restored := restores digest accepted.digest
      exact ⟨digest, accepted.digest, load_published accepted restored published⟩
    · obtain ⟨_, _, _, _, _, _, _, bounds⟩ := published
      exact bounds
  have reached := execution.result runs
  cases outcome with
  | ok artifact =>
      obtain ⟨calm, kept⟩ := reached
      rw [calm]
      exact iff_of_true kept not_uncleaned_none
  | error error =>
      obtain ⟨extra, extension, restored⟩ := reached
      exact extension.files_perm_iff.trans restored

end Publishing

/-! ## Sample runs -/

/-- A file system which works, until its directory has to be synced. -/
def syncFails (state : FaultWorld × List ArtifactRef) (call : PlanCall) :
    Option (PlanAnswer call × FaultWorld × List ArtifactRef) :=
  match call with
  | .syncDirectory =>
      if state.1.fault = none then
        some (.error (), ⟨state.1.directory, some .syncDirectory⟩, state.2)
      else none
  | call =>
      (working (state.1.directory, state.2) call).map fun reached =>
        (reached.1, ⟨reached.2.1, state.1.fault⟩, reached.2.2)

theorem faultyEnvironment_working {state : PlanDirectory × List ArtifactRef}
    {fault : Option PlanCall} {call : PlanCall} {answer : PlanAnswer call}
    {after : PlanDirectory × List ArtifactRef} (stepped : working state call = some (answer, after)) :
    faultyEnvironment ⟨state.1, fault⟩ ⟨call, answer⟩ ⟨after.1, fault⟩ :=
  .inl ⟨performs_working stepped, rfl⟩

theorem faultyEnvironment_syncFails {state after : FaultWorld × List ArtifactRef} {call : PlanCall}
    {answer : PlanAnswer call} (stepped : syncFails state call = some (answer, after)) :
    faultyEnvironment state.1 ⟨call, answer⟩ after.1 := by
  rw [syncFails.eq_def] at stepped
  split at stepped
  · split at stepped
    · rename_i calm
      cases stepped
      exact .inr ⟨calm, rfl, rfl⟩
    · cases stepped
  · obtain ⟨reached, performed, same⟩ := Option.map_eq_some_iff.mp stepped
    cases same
    exact faultyEnvironment_working performed

/-- A write of an empty folder plan. -/
def samplePlanWrite : PlanWrite :=
  { plan := samplePlan .folder [], sourceProfileId := "source", sourceProfileSha256 := digestOf 'a'
    serverProfileId := "server", serverProfileSha256 := digestOf 'b', credentialGeneration := 1 }

/-- The digest of its plan. -/
def samplePlanDigest : String := compactSha256 .reference samplePlanWrite.plan.serialize

/-- A library which hands whole texts to the writer and parses the two texts of a write. -/
def JsonLibrary.reading (plan : UploadPlan) (binding : PlanBinding) : JsonLibrary where
  pieces text := [text]
  pieces_flatten := by simp
  parsePlan bytes := if bytes = prettyBytes plan.serialize ++ [10] then some plan else none
  parseBinding bytes :=
    if bytes = prettyBytes binding.serialize ++ [10] then some binding else none

theorem JsonLibrary.reading_restores (plan : UploadPlan) (binding : PlanBinding) :
    (JsonLibrary.reading plan binding).Restores plan binding := by
  constructor
  · simp only [reading, if_true]
  · simp only [reading, if_true]

/-- The library of the sample write. -/
def sampleJsonLibrary : JsonLibrary :=
  .reading samplePlanWrite.plan (samplePlanWrite.binding samplePlanDigest)

/-- A store of eight files and two mebibytes. -/
def samplePlanStore : PlanStore :=
  { maximumBytes := 2 ^ 20, maximumStoreBytes := 2 ^ 21, maximumFiles := 8 }

/-- A directory without plans. -/
def emptyPlans : PlanDirectory :=
  { entries := [], nodes := fun _ => .other, next := 0, names := List.nodup_nil, numbered := nofun }

/-- A write whose last sync fails reports an error and leaves both files. -/
theorem PlanStore.write_syncFails :
    ∃ events error after, Execution faultyEnvironment
      (samplePlanStore.write .reference sampleJsonLibrary samplePlanWrite).run ⟨emptyPlans, none⟩
        events (.done (.error error)) after ∧
      after.fault = some .syncDirectory ∧
      ¬ samplePlanStore.WriteKept .reference sampleJsonLibrary samplePlanWrite emptyPlans
        (.error error) after.directory := by
  have performed : ((samplePlanStore.write .reference sampleJsonLibrary
      samplePlanWrite).run.perform syncFails (⟨emptyPlans, none⟩, [⟨1⟩, ⟨2⟩])).any (fun reached =>
        !reached.1.isOk && decide (reached.2.1.fault = some .syncDirectory) &&
          decide (reached.2.1.directory.entries.length = 2)) = true := by decide +kernel
  obtain ⟨⟨outcome, after, supply⟩, finished, left⟩ := (Option.any_eq_true _ _).mp performed
  simp only [Bool.and_eq_true, decide_eq_true_eq, Bool.not_eq_true'] at left
  obtain ⟨⟨refused, fault⟩, entries⟩ := left
  obtain ⟨events, execution⟩ := Program.perform_execution Prod.fst
    (fun _ _ _ _ => faultyEnvironment_syncFails) finished
  cases outcome with
  | ok artifact => cases refused
  | error error =>
      refine ⟨events, error, after, execution, fault, fun same => ?_⟩
      have lengths := same.length_eq
      rw [Directory.files, Directory.files, List.length_map, List.length_map, entries] at lengths
      cases lengths

/-- A write to an empty directory which meets no failing step is kept. -/
theorem PlanStore.samplePlanWrite_kept :
    ∃ events outcome after, Execution faultyEnvironment
      (samplePlanStore.write .reference sampleJsonLibrary samplePlanWrite).run ⟨emptyPlans, none⟩
        events (.done outcome) after ∧
      outcome.isOk = true ∧
      samplePlanStore.WriteKept .reference sampleJsonLibrary samplePlanWrite emptyPlans outcome
        after.directory := by
  have performed : ((samplePlanStore.write .reference sampleJsonLibrary
      samplePlanWrite).run.perform working (emptyPlans, [⟨1⟩, ⟨2⟩])).any (fun reached =>
        reached.1.isOk) = true := by decide +kernel
  obtain ⟨⟨outcome, after, supply⟩, finished, succeeded⟩ := (Option.any_eq_true _ _).mp performed
  obtain ⟨events, execution⟩ := Program.perform_execution
    (fun state : PlanDirectory × List ArtifactRef => (⟨state.1, none⟩ : FaultWorld))
    (fun _ _ _ _ => faultyEnvironment_working) finished
  refine ⟨events, outcome, _, execution, succeeded, ?_⟩
  refine (PlanStore.write_kept_iff (fun digest digested => ?_) execution).mpr not_uncleaned_none
  have same : digest = samplePlanDigest := by
    rw [uploadPlanSha256] at digested
    split at digested
    · cases digested
    · exact (Except.ok.inj digested).symm
  rw [same]
  exact JsonLibrary.reading_restores _ _

end ImmichRs.Web
