import Mathlib.Data.List.Nodup
import Mathlib.Data.List.Perm.Basic
import Mathlib.Logic.Function.Basic

/-!
# Directories

A flat directory of names for numbered nodes.  Several names may be links to one node, and a node
keeps its content while it is linked under new names and removed from old ones.  `Extends` says
which names a directory has beyond those of an earlier state.
-/

namespace Files

/-- Names with the numbers of their nodes. -/
structure Directory (Name Node : Type) where
  entries : List (Name × Nat)
  nodes : Nat → Node
  next : Nat
  names : (entries.map Prod.fst).Nodup
  numbered : ∀ entry ∈ entries, entry.2 < next

namespace Directory

variable {Name Node : Type}

/-- The names with what is behind them. -/
def files (directory : Directory Name Node) : List (Name × Node) :=
  directory.entries.map fun entry => (entry.1, directory.nodes entry.2)

/-- Replace the content of a node. -/
def update (directory : Directory Name Node) (node : Nat) (content : Node) :
    Directory Name Node :=
  { directory with nodes := Function.update directory.nodes node content }

/-- A new node, without a name. -/
def grow (directory : Directory Name Node) (content : Node) : Directory Name Node :=
  { directory with
    nodes := Function.update directory.nodes directory.next content
    next := directory.next + 1
    numbered := fun entry member => Nat.lt_succ_of_lt (directory.numbered entry member) }

theorem update_update (directory : Directory Name Node) (node : Nat) (first second : Node) :
    (directory.update node first).update node second = directory.update node second := by
  rw [update, update, update]
  congr 1
  exact Function.update_idem _ _ _

theorem update_self (directory : Directory Name Node) (node : Nat) :
    directory.update node (directory.nodes node) = directory := by
  rw [update, Function.update_eq_self]

@[simp] theorem update_nodes_self (directory : Directory Name Node) (node : Nat) (content : Node) :
    (directory.update node content).nodes node = content :=
  Function.update_self _ _ _

theorem entry_eq {directory : Directory Name Node} {first second : Name × Nat}
    (left : first ∈ directory.entries) (right : second ∈ directory.entries)
    (same : first.1 = second.1) : first = second :=
  List.inj_on_of_nodup_map directory.names left right same

/-- Beyond the names of `base`, whose nodes are unchanged, a directory has the names `extra`. -/
structure Extends (base directory : Directory Name Node) (extra : List (Name × Nat)) : Prop where
  entries : directory.entries.Perm (base.entries ++ extra)
  next : base.next ≤ directory.next
  nodes : ∀ node < base.next, directory.nodes node = base.nodes node

namespace Extends

variable {base directory : Directory Name Node} {extra rest : List (Name × Nat)} {node : Nat}
  {content : Node}

theorem refl (directory : Directory Name Node) : Extends directory directory [] :=
  ⟨by rw [List.append_nil], Nat.le_refl _, fun _ _ => rfl⟩

theorem perm (extension : Extends base directory extra) (same : extra.Perm rest) :
    Extends base directory rest :=
  ⟨extension.entries.trans (same.append_left _), extension.next, extension.nodes⟩

theorem mem (extension : Extends base directory extra) {entry : Name × Nat} :
    entry ∈ directory.entries ↔ entry ∈ base.entries ∨ entry ∈ extra := by
  rw [extension.entries.mem_iff, List.mem_append]

/-- Names occur once, in the base or beyond it. -/
theorem nodup (extension : Extends base directory extra) :
    ((base.entries ++ extra).map Prod.fst).Nodup :=
  (extension.entries.map Prod.fst).nodup_iff.mp directory.names

theorem trans {middle : Directory Name Node} (first : Extends base middle extra)
    (second : Extends middle directory rest) : Extends base directory (extra ++ rest) := by
  refine ⟨?_, Nat.le_trans first.next second.next, fun node below => ?_⟩
  · have entries := second.entries.trans (first.entries.append_right rest)
    rwa [List.append_assoc] at entries
  · exact (second.nodes node (Nat.lt_of_lt_of_le below first.next)).trans (first.nodes node below)

theorem update (extension : Extends base directory extra) (later : base.next ≤ node) :
    Extends base (directory.update node content) extra := by
  refine ⟨extension.entries, extension.next, fun old below => ?_⟩
  have different : old ≠ node := by omega
  exact (Function.update_of_ne different _ _).trans (extension.nodes old below)

theorem grow (extension : Extends base directory extra) :
    Extends base (directory.grow content) extra := by
  refine ⟨extension.entries, Nat.le_succ_of_le extension.next, fun old below => ?_⟩
  have different : old ≠ directory.next := by
    have := extension.next
    omega
  exact (Function.update_of_ne different _ _).trans (extension.nodes old below)

/-- A directory with nothing beyond its base has the files of the base. -/
theorem files_perm_iff (extension : Extends base directory extra) :
    directory.files.Perm base.files ↔ extra = [] := by
  constructor
  · intro same
    have lengths := same.length_eq
    have entries := extension.entries.length_eq
    rw [files, files, List.length_map, List.length_map] at lengths
    rw [List.length_append] at entries
    exact List.length_eq_zero_iff.mp (by omega)
  · rintro rfl
    have entries := extension.entries
    rw [List.append_nil] at entries
    have mapped := entries.map fun entry => (entry.1, directory.nodes entry.2)
    have unchanged : (base.entries.map fun entry => (entry.1, directory.nodes entry.2)) =
        base.files := by
      refine List.map_congr_left fun entry member => ?_
      rw [extension.nodes _ (base.numbered entry member)]
    rwa [unchanged] at mapped

end Extends

variable [DecidableEq Name]

/-- The node behind a name. -/
def find? (directory : Directory Name Node) (name : Name) : Option Nat :=
  (directory.entries.find? fun entry => decide (entry.1 = name)).map Prod.snd

theorem find?_eq_none {directory : Directory Name Node} {name : Name} :
    directory.find? name = none ↔ name ∉ directory.entries.map Prod.fst := by
  rw [find?, Option.map_eq_none_iff, List.find?_eq_none]
  constructor
  · intro missing listed
    obtain ⟨entry, member, same⟩ := List.mem_map.mp listed
    exact missing entry member (decide_eq_true same)
  · intro missing entry member same
    rw [decide_eq_true_eq] at same
    exact missing (List.mem_map.mpr ⟨entry, member, same⟩)

theorem find?_eq_some {directory : Directory Name Node} {name : Name} {node : Nat} :
    directory.find? name = some node ↔ (name, node) ∈ directory.entries := by
  rw [find?, Option.map_eq_some_iff]
  constructor
  · rintro ⟨⟨listed, number⟩, found, rfl⟩
    have same := List.find?_some found
    rw [decide_eq_true_eq] at same
    cases same
    exact List.mem_of_find?_eq_some found
  · intro member
    cases found : directory.entries.find? fun entry => decide (entry.1 = name) with
    | none =>
        have missed := List.find?_eq_none.mp found _ member
        exact absurd (decide_eq_true rfl) missed
    | some entry =>
        have same := List.find?_some found
        rw [decide_eq_true_eq] at same
        have equal := entry_eq (List.mem_of_find?_eq_some found) member same
        exact ⟨entry, rfl, congrArg Prod.snd equal⟩

/-- A new name for an existing node. -/
def link (directory : Directory Name Node) (name : Name) (node : Nat)
    (fresh : directory.find? name = none) (present : node < directory.next) :
    Directory Name Node :=
  { directory with
    entries := directory.entries ++ [(name, node)]
    names := by
      rw [List.map_append, List.nodup_append']
      refine ⟨directory.names, by simp, fun listed old new => ?_⟩
      rw [List.map_cons, List.map_nil, List.mem_singleton] at new
      rw [new] at old
      exact find?_eq_none.mp fresh old
    numbered := by
      intro entry member
      rcases List.mem_append.mp member with old | new
      · exact directory.numbered entry old
      · rw [List.mem_singleton.mp new]
        exact present }

/-- A new node under a new name. -/
def create (directory : Directory Name Node) (name : Name) (content : Node)
    (fresh : directory.find? name = none) : Directory Name Node :=
  (directory.grow content).link name directory.next fresh (Nat.lt_succ_self _)

/-- Remove a name. -/
def remove (directory : Directory Name Node) (name : Name) : Directory Name Node :=
  { directory with
    entries := directory.entries.filter fun entry => decide (entry.1 ≠ name)
    names := directory.names.sublist (List.filter_sublist.map _)
    numbered := fun entry member => directory.numbered entry (List.filter_sublist.subset member) }

namespace Extends

variable {base directory : Directory Name Node} {extra rest : List (Name × Nat)} {name : Name}
  {node : Nat} {content : Node}

theorem link (extension : Extends base directory extra) (fresh : directory.find? name = none)
    (present : node < directory.next) :
    Extends base (directory.link name node fresh present) ((name, node) :: extra) := by
  refine ⟨?_, extension.next, extension.nodes⟩
  have added := extension.entries.append_right [(name, node)]
  rw [List.append_assoc] at added
  exact added.trans ((List.perm_append_singleton _ _).append_left _)

theorem create (extension : Extends base directory extra) (fresh : directory.find? name = none) :
    Extends base (directory.create name content fresh) ((name, directory.next) :: extra) :=
  extension.grow.link _ _

theorem find?_eq_some (extension : Extends base directory extra) (member : (name, node) ∈ extra) :
    directory.find? name = some node :=
  Directory.find?_eq_some.mpr (extension.mem.mpr (.inr member))

theorem find?_eq_none (extension : Extends base directory extra) (absent : base.find? name = none)
    (new : name ∉ extra.map Prod.fst) : directory.find? name = none := by
  refine Directory.find?_eq_none.mpr fun listed => ?_
  obtain ⟨entry, member, rfl⟩ := List.mem_map.mp listed
  rcases extension.mem.mp member with old | added
  · exact Directory.find?_eq_none.mp absent (List.mem_map_of_mem old)
  · exact new (List.mem_map_of_mem added)

/-- Removing a name which the base does not have. -/
theorem remove (extension : Extends base directory extra) (absent : base.find? name = none) :
    Extends base (directory.remove name)
      (extra.filter fun entry => decide (entry.1 ≠ name)) := by
  refine ⟨?_, extension.next, extension.nodes⟩
  have others : base.entries.filter (fun entry => decide (entry.1 ≠ name)) = base.entries := by
    refine List.filter_eq_self.mpr fun entry member => decide_eq_true fun same => ?_
    exact Directory.find?_eq_none.mp absent (List.mem_map.mpr ⟨entry, member, same⟩)
  have kept := extension.entries.filter fun entry => decide (entry.1 ≠ name)
  rwa [List.filter_append, others] at kept

end Extends

end Directory

end Files
