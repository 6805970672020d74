import Mathlib.Logic.Function.Basic

/-!
# Trees of files and directories

What is behind each path of a file system, and the steps which change it.  A step says whether it
succeeded, and one which failed may have been performed, a write also in part.
-/

namespace Files

/-- What a path names. -/
inductive TreeNode
  | directory
  | file (content : List UInt8)
  /-- Neither of both, such as a link. -/
  | other
  deriving DecidableEq, Repr

/-- What is behind each path. -/
abbrev Tree (Path : Type) : Type := Path → Option TreeNode

/-- Steps on a tree. -/
inductive TreeStep (Path : Type)
  | createDirectory (path : Path)
  /-- Create a file which must not exist. -/
  | create (path : Path)
  /-- Write at the end of an open file. -/
  | write (path : Path) (bytes : List UInt8)
  | sync (path : Path)
  | rename (source target : Path)
  | remove (path : Path)
  deriving DecidableEq, Repr

variable {Path : Type} [DecidableEq Path]

/-- The file of one path becomes that of another. -/
def Tree.rename (tree : Tree Path) (source target : Path) : Tree Path :=
  Function.update (Function.update tree source none) target (tree source)

/-- What a step does.  Removing may be taken as `tidy`, as a step which never fails to remove. -/
def TreeStep.Performs (tidy : Bool) (before : Tree Path) :
    TreeStep Path → Bool → Tree Path → Prop
  | .createDirectory path, succeeded, after =>
      succeeded = false ∧ after = before ∨
        before path = none ∧ after = Function.update before path (some .directory)
  | .create path, succeeded, after =>
      succeeded = false ∧ after = before ∨
        before path = none ∧ after = Function.update before path (some (.file []))
  | .write path bytes, succeeded, after =>
      succeeded = false ∧ after = before ∨ ∃ content written, before path = some (.file content) ∧
        written <+: bytes ∧ (succeeded = true → written = bytes) ∧
        after = Function.update before path (some (.file (content ++ written)))
  | .sync _, _, after => after = before
  | .rename source target, succeeded, after =>
      succeeded = false ∧ after = before ∨
        (∃ content, before source = some (.file content)) ∧ before target ≠ some .directory ∧
          after = before.rename source target
  | .remove path, succeeded, after =>
      (succeeded = false ∧ (tidy = true → before path = none ∨ before path = some .directory)) ∧
          after = before ∨
        before path ≠ some .directory ∧ after = Function.update before path none

/-- What is read about a path, without following a link. -/
inductive Metadata
  | missing
  | directory
  | file (length : Nat)
  | other
  | unreadable
  deriving DecidableEq, Repr

/-- The metadata of what is behind a path. -/
def Metadata.of : Option TreeNode → Metadata
  | none => .missing
  | some .directory => .directory
  | some (.file content) => .file content.length
  | some .other => .other

/-- The readings of a file until its end; one of them may fail. -/
def Reads (content : List UInt8) (readings : List (Option (List UInt8))) : Prop :=
  ∀ pieces : List (List UInt8), readings = pieces.map some → pieces.flatten = content

/-- Two trees differ at most behind some paths. -/
def Tree.AgreeOff (paths : List Path) (first second : Tree Path) : Prop :=
  ∀ path, path ∉ paths → first path = second path

namespace Tree.AgreeOff

variable {paths : List Path} {first second third : Tree Path} {path : Path}
  {node : Option TreeNode}

omit [DecidableEq Path] in
theorem refl (paths : List Path) (tree : Tree Path) : AgreeOff paths tree tree :=
  fun _ _ => rfl

theorem update (agree : AgreeOff paths first second) (member : path ∈ paths) :
    AgreeOff paths (Function.update first path node) second := by
  intro other outside
  have different : other ≠ path := fun same => outside (same ▸ member)
  rw [Function.update_of_ne different]
  exact agree other outside

omit [DecidableEq Path] in
theorem trans {more : List Path} (left : AgreeOff paths first second)
    (right : AgreeOff more second third) : AgreeOff (paths ++ more) first third := by
  intro path outside
  rw [List.mem_append, not_or] at outside
  rw [left path outside.1, right path outside.2]

end Tree.AgreeOff

theorem Metadata.of_eq_file {node : Option TreeNode} {length : Nat}
    (file : Metadata.of node = .file length) :
    ∃ content, node = some (.file content) ∧ content.length = length := by
  cases node with
  | none => cases file
  | some node =>
      cases node with
      | directory => cases file
      | file content =>
          injection file with same
          exact ⟨content, rfl, same⟩
      | other => cases file

theorem Metadata.of_eq_missing {node : Option TreeNode} (missing : Metadata.of node = .missing) :
    node = none := by
  cases node with
  | none => rfl
  | some node => cases node <;> cases missing

end Files
