import Mathlib.Logic.Function.Basic

/-!
# Files which may fail

Steps on the files of a directory, each known by its name.  A step says whether it succeeded, and one
which failed may have been performed in part.  Removing is the exception: it leaves no file behind.
-/

namespace Files

/-- The files of a directory. -/
abbrev Contents (Name : Type) : Type := Name → Option (List UInt8)

/-- Steps on files. -/
inductive FileStep (Name : Type)
  /-- Create a file which must not exist. -/
  | create (name : Name)
  /-- Write at the end of an open file. -/
  | write (name : Name) (bytes : List UInt8)
  | sync (name : Name)
  | rename (source target : Name)
  /-- Look whether a name is a regular file. -/
  | inspect (name : Name)
  | remove (name : Name)
  deriving DecidableEq, Repr

variable {Name : Type} [DecidableEq Name]

/-- The file of one name becomes that of another. -/
def Contents.rename (files : Contents Name) (source target : Name) : Contents Name :=
  Function.update (Function.update files source none) target (files source)

/-- What a step does, where files have at most `limit` bytes. -/
def FileStep.Performs (limit : Nat) (before : Contents Name) :
    FileStep Name → Bool → Contents Name → Prop
  | .create name, true, after => before name = none ∧ after = Function.update before name (some [])
  | .create name, false, after =>
      after = before ∨ before name = none ∧ after = Function.update before name (some [])
  | .write name bytes, true, after => ∃ content, before name = some content ∧
      (content ++ bytes).length ≤ limit ∧
      after = Function.update before name (some (content ++ bytes))
  | .write name bytes, false, after => after = before ∨ ∃ content written,
      before name = some content ∧ written <+: bytes ∧
        after = Function.update before name (some (content ++ written))
  | .rename source target, true, after =>
      before source ≠ none ∧ after = before.rename source target
  | .rename source target, false, after => after = before ∨ after = before.rename source target
  | .sync _, _, after => after = before
  | .inspect _, _, after => after = before
  | .remove name, _, after => after = Function.update before name none

/-- Two directories differ at most in some files. -/
def Contents.AgreeOff (names : List Name) (first second : Contents Name) : Prop :=
  ∀ name, name ∉ names → first name = second name

namespace Contents.AgreeOff

variable {names : List Name} {first second third : Contents Name} {name : Name}
  {content : Option (List UInt8)}

omit [DecidableEq Name] in
theorem refl (names : List Name) (files : Contents Name) : AgreeOff names files files :=
  fun _ _ => rfl

theorem update (agree : AgreeOff names first second) (member : name ∈ names) :
    AgreeOff names (Function.update first name content) second := by
  intro other outside
  have different : other ≠ name := fun same => outside (same ▸ member)
  rw [Function.update_of_ne different]
  exact agree other outside

theorem rename {target : Name} (agree : AgreeOff names first second) (member : name ∈ names)
    (last : target ∈ names) : AgreeOff names (first.rename name target) second :=
  (agree.update member).update last

/-- Removing the two files in which a directory differs from one which does not have them. -/
theorem removed {other : Name} (agree : AgreeOff [name, other] first second)
    (absent : second name = none) (missing : second other = none) :
    Function.update (Function.update first name none) other none = second := by
  funext place
  by_cases last : place = other
  · rw [last, Function.update_self, missing]
  · rw [Function.update_of_ne last]
    by_cases here : place = name
    · rw [here, Function.update_self, absent]
    · rw [Function.update_of_ne here]
      exact agree place (by simp [here, last])

end Contents.AgreeOff

end Files
