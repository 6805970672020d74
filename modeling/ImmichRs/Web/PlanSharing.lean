import ImmichRs.Web.PlanWriters

/-!
# Concurrent plan writes

Several writes take their steps on one directory in any order.  The directory answers as their views
allow while no write unlinks a pending name which another scan has listed and not inspected yet, and
while each scan finds room for the files which it lists under two names.
-/

namespace ImmichRs.Web

open Files Interaction

/-! ## What the views say about the directory -/

namespace Phase

/-- The names of a write, with the files behind them. -/
def files : Phase → List (String × Nat)
  | .idle | .drawn _ | .named _ _ => []
  | .binding reference nonce file _ => [(pendingBindingPath reference nonce, file)]
  | .plan draft _ | .scan draft _ =>
      [(draft.pendingBindingName, draft.bindingFile), (draft.pendingName, draft.planFile)]
  | .bindingLinked draft =>
      [(draft.bindingName, draft.bindingFile), (draft.pendingBindingName, draft.bindingFile),
        (draft.pendingName, draft.planFile)]
  | .bindingPublished draft =>
      [(draft.bindingName, draft.bindingFile), (draft.pendingName, draft.planFile)]
  | .planLinked draft =>
      [(draft.planName, draft.planFile), (draft.bindingName, draft.bindingFile),
        (draft.pendingName, draft.planFile)]
  | .published draft =>
      [(draft.planName, draft.planFile), (draft.bindingName, draft.bindingFile)]

/-- The files of a write, with what they hold and what they are going to hold. -/
def texts (writer : Writer) : Phase → List (Nat × List UInt8 × List UInt8)
  | .idle | .drawn _ | .named _ _ => []
  | .binding _ _ file written => [(file, written, writer.binding)]
  | .plan draft written =>
      [(draft.bindingFile, writer.binding, writer.binding),
        (draft.planFile, written, writer.plan)]
  | .scan draft _ | .bindingLinked draft | .bindingPublished draft | .planLinked draft
  | .published draft =>
      [(draft.bindingFile, writer.binding, writer.binding),
        (draft.planFile, writer.plan, writer.plan)]

/-- The values which a write has drawn. -/
def values : Phase → List ArtifactRef
  | .idle => []
  | .drawn reference => [reference]
  | .named reference nonce | .binding reference nonce _ _ => [reference, nonce]
  | .plan draft _ | .scan draft _ | .bindingLinked draft | .bindingPublished draft
  | .planLinked draft | .published draft => [draft.reference, draft.nonce]

/-- The names of a write were not taken before all writes started. -/
def Free (base : PlanDirectory) : Phase → Prop
  | .idle => True
  | .drawn reference =>
      base.find? (planPath reference) = none ∧ base.find? (bindingPath reference) = none
  | .named reference nonce | .binding reference nonce _ _ => NamesFree base reference nonce
  | .plan draft _ | .scan draft _ | .bindingLinked draft | .bindingPublished draft
  | .planLinked draft | .published draft => NamesFree base draft.reference draft.nonce

end Phase

/-- A path of a reference. -/
def IsPath (name : String) (reference : ArtifactRef) : Prop :=
  name = planPath reference ∨ name = bindingPath reference ∨
    (∃ nonce, name = pendingPath reference nonce) ∨
      ∃ nonce, name = pendingBindingPath reference nonce

/-- Paths of different references differ. -/
theorem IsPath.unique {name : String} {first second : ArtifactRef} (left : IsPath name first)
    (right : IsPath name second) : first = second := by
  rcases left with rfl | rfl | ⟨nonce, rfl⟩ | ⟨nonce, rfl⟩ <;>
    rcases right with same | same | ⟨other, same⟩ | ⟨other, same⟩
  case inl.inl => exact planPath_injective same
  case inr.inl.inr.inl => exact bindingPath_injective same
  case inr.inr.inl.inr.inr.inl => exact (pendingPath_injective same).1
  case inr.inr.inr.inr.inr.inr => exact (pendingBindingPath_injective same).1
  all_goals exact absurd same (ne_of_length_ne (by simp))

theorem Phase.isPath_of_mem_files {phase : Phase} {entry : String × Nat}
    (member : entry ∈ phase.files) : ∃ reference ∈ phase.values, IsPath entry.1 reference := by
  have plan : ∀ reference, IsPath (planPath reference) reference := fun _ => .inl rfl
  have binding : ∀ reference, IsPath (bindingPath reference) reference := fun _ => .inr (.inl rfl)
  have pending : ∀ reference nonce, IsPath (pendingPath reference nonce) reference :=
    fun _ nonce => .inr (.inr (.inl ⟨nonce, rfl⟩))
  have pendingBinding : ∀ reference nonce, IsPath (pendingBindingPath reference nonce) reference :=
    fun _ nonce => .inr (.inr (.inr ⟨nonce, rfl⟩))
  cases phase with
  | idle | drawn _ | named _ _ => cases member
  | binding reference nonce file written =>
      rw [List.mem_singleton.mp member]
      exact ⟨reference, List.mem_cons_self, pendingBinding reference nonce⟩
  | plan draft _ | scan draft _ =>
      simp only [files, List.mem_cons, List.not_mem_nil, or_false] at member
      refine ⟨draft.reference, List.mem_cons_self, ?_⟩
      rcases member with rfl | rfl
      · exact pendingBinding _ draft.nonce
      · exact pending _ draft.nonce
  | bindingLinked draft =>
      simp only [files, List.mem_cons, List.not_mem_nil, or_false] at member
      refine ⟨draft.reference, List.mem_cons_self, ?_⟩
      rcases member with rfl | rfl | rfl
      · exact binding _
      · exact pendingBinding _ draft.nonce
      · exact pending _ draft.nonce
  | bindingPublished draft =>
      simp only [files, List.mem_cons, List.not_mem_nil, or_false] at member
      refine ⟨draft.reference, List.mem_cons_self, ?_⟩
      rcases member with rfl | rfl
      · exact binding _
      · exact pending _ draft.nonce
  | planLinked draft =>
      simp only [files, List.mem_cons, List.not_mem_nil, or_false] at member
      refine ⟨draft.reference, List.mem_cons_self, ?_⟩
      rcases member with rfl | rfl | rfl
      · exact plan _
      · exact binding _
      · exact pending _ draft.nonce
  | published draft =>
      simp only [files, List.mem_cons, List.not_mem_nil, or_false] at member
      refine ⟨draft.reference, List.mem_cons_self, ?_⟩
      rcases member with rfl | rfl
      · exact plan _
      · exact binding _

/-- The names which the last scan of a write has listed and which it has not inspected since. -/
def uninspected (thread : Nat) (past : List (ThreadStep PlanAnswer PlanDirectory)) : List String :=
  past.foldl (fun names step =>
    if step.thread = thread then
      match step.event with
      | ⟨.readDirectory, .ok listed⟩ => listed
      | ⟨.inspect name, _⟩ => names.erase name
      | _ => names
    else names) []

/-- A listed name is still there, and its file is not going to be longer than `entry.2`. -/
def Present (base world : PlanDirectory) (views : List (Writer × Phase)) (entry : String × Nat) :
    Prop :=
  ∃ node, (entry.1, node) ∈ world.entries ∧
    (((entry.1, node) ∈ base.entries ∧ (base.nodes node).length ≤ entry.2) ∨
      ∃ view ∈ views, ∃ text ∈ view.2.texts view.1, text.1 = node ∧ text.2.2.length ≤ entry.2)

/-- The directory holds what the views say, beyond what it held when all writes started. -/
structure Matches (base : PlanDirectory) (past : List (ThreadStep PlanAnswer PlanDirectory))
    (world : PlanDirectory) (views : List (Writer × Phase)) : Prop where
  extension : Directory.Extends base world (views.flatMap fun view => view.2.files)
  nodes : (views.flatMap fun view => (view.2.texts view.1).map Prod.fst).Nodup
  later : ∀ view ∈ views, ∀ text ∈ view.2.texts view.1, base.next ≤ text.1 ∧ text.1 < world.next
  texts : ∀ view ∈ views, ∀ text ∈ view.2.texts view.1,
    text.2.1 <+: text.2.2 ∧ world.nodes text.1 = .file true text.2.1
  values : (views.flatMap fun view => view.2.values).Nodup
  drawn : ∀ view ∈ views, ∀ value ∈ view.2.values,
    ∃ step ∈ past, step.event = ⟨.random, .ok value⟩
  free : ∀ view ∈ views, view.2.Free base
  unseen : ∀ (thread : Nat) (writer : Writer) (draft : Draft) (unseen : List (String × Nat)),
    views[thread]? = some (writer, .scan draft unseen) →
      uninspected thread past = unseen.map Prod.fst ∧
        ∀ entry ∈ unseen, Present base world views entry

theorem flatMap_middle {α β : Type} (function : α → List β) (left right : List α) (middle : α) :
    ((left ++ middle :: right).flatMap function).Perm
      (function middle ++ (left ++ right).flatMap function) := by
  rw [List.flatMap_append, List.flatMap_cons, List.flatMap_append]
  exact List.perm_append_comm_assoc _ _ _

theorem getElem?_middle {α : Type} {left right : List α} {thread : Nat}
    (other : thread ≠ left.length) (first second : α) :
    (left ++ first :: right)[thread]? = (left ++ second :: right)[thread]? := by
  rcases Nat.lt_or_gt_of_ne other with before | behind
  · rw [List.getElem?_append_left before, List.getElem?_append_left before]
  · obtain ⟨gap, rfl⟩ := Nat.exists_eq_add_of_lt behind
    rw [List.getElem?_append_right (by omega), List.getElem?_append_right (by omega)]
    rw [show left.length + gap + 1 - left.length = gap + 1 by omega]
    rfl

theorem uninspected_concat (thread : Nat) (past : List (ThreadStep PlanAnswer PlanDirectory))
    (step : ThreadStep PlanAnswer PlanDirectory) (other : step.thread ≠ thread) :
    uninspected thread (past ++ [step]) = uninspected thread past := by
  rw [uninspected, List.foldl_append, List.foldl_cons, List.foldl_nil, if_neg other]
  rfl

section Matching

variable {base world after : PlanDirectory} {past : List (ThreadStep PlanAnswer PlanDirectory)}
  {left right : List (Writer × Phase)} {writer : Writer} {phase next : Phase}
  {event : Event PlanAnswer}

theorem Present.advance {entry : String × Nat}
    (present : Present base world (left ++ (writer, phase) :: right) entry)
    (kept : ∀ node, (entry.1, node) ∈ world.entries → (entry.1, node) ∈ after.entries)
    (finals : ∀ old ∈ phase.texts writer, ∃ text ∈ next.texts writer,
      text.1 = old.1 ∧ text.2.2 = old.2.2) :
    Present base after (left ++ (writer, next) :: right) entry := by
  obtain ⟨node, listed, covered⟩ := present
  refine ⟨node, kept node listed, covered.imp_right ?_⟩
  rintro ⟨view, member, text, known, rfl, small⟩
  rcases List.mem_append.mp member with early | late
  · exact ⟨view, List.mem_append_left _ early, text, known, rfl, small⟩
  · rcases List.mem_cons.mp late with rfl | late
    · obtain ⟨new, added, same, final⟩ := finals text known
      refine ⟨_, List.mem_append_right _ List.mem_cons_self, new, added, same, ?_⟩
      rwa [final]
    · exact ⟨view, List.mem_append_right _ (List.mem_cons_of_mem _ late), text, known, rfl, small⟩

theorem Matches.nodesApart (matched : Matches base past world (left ++ (writer, phase) :: right)) :
    ((phase.texts writer).map Prod.fst).Nodup ∧
      ((left ++ right).flatMap fun view => (view.2.texts view.1).map Prod.fst).Nodup ∧
        List.Disjoint ((phase.texts writer).map Prod.fst)
          ((left ++ right).flatMap fun view => (view.2.texts view.1).map Prod.fst) := by
  have split := flatMap_middle (fun view : Writer × Phase => (view.2.texts view.1).map Prod.fst)
    left right (writer, phase)
  exact List.nodup_append'.mp (split.nodup_iff.mp matched.nodes)

theorem Matches.valuesApart (matched : Matches base past world (left ++ (writer, phase) :: right)) :
    phase.values.Nodup ∧ ((left ++ right).flatMap fun view => view.2.values).Nodup ∧
      List.Disjoint phase.values ((left ++ right).flatMap fun view => view.2.values) := by
  have split := flatMap_middle (fun view : Writer × Phase => view.2.values) left right
    (writer, phase)
  exact List.nodup_append'.mp (split.nodup_iff.mp matched.values)

/-- One write advances, and the others keep their views. -/
theorem Matches.advance (matched : Matches base past world (left ++ (writer, phase) :: right))
    (extension : Directory.Extends base after
      (next.files ++ (left ++ right).flatMap fun view => view.2.files))
    (grown : world.next ≤ after.next)
    (others : ∀ view ∈ left ++ right, ∀ text ∈ view.2.texts view.1,
      after.nodes text.1 = world.nodes text.1)
    (texts : ∀ text ∈ next.texts writer,
      text.2.1 <+: text.2.2 ∧ after.nodes text.1 = .file true text.2.1)
    (distinct : ((next.texts writer).map Prod.fst).Nodup)
    (nodes : ∀ text ∈ next.texts writer, (∃ old ∈ phase.texts writer, old.1 = text.1) ∨
      (text.1 = world.next ∧ world.next < after.next))
    (finals : ∀ old ∈ phase.texts writer, ∃ text ∈ next.texts writer,
      text.1 = old.1 ∧ text.2.2 = old.2.2)
    (once : next.values.Nodup)
    (values : ∀ value ∈ next.values, value ∈ phase.values ∨
      (event = ⟨.random, .ok value⟩ ∧ ∀ step ∈ past, step.event ≠ ⟨.random, .ok value⟩))
    (free : next.Free base)
    (kept : ∀ thread < (left ++ (writer, phase) :: right).length, thread ≠ left.length →
      ∀ name ∈ uninspected thread past, ∀ node,
        (name, node) ∈ world.entries → (name, node) ∈ after.entries)
    (scanned : ∀ draft unseen, next = .scan draft unseen →
      uninspected left.length (past ++ [⟨left.length, world, event⟩]) = unseen.map Prod.fst ∧
        ∀ entry ∈ unseen, Present base after (left ++ (writer, next) :: right) entry) :
    Matches base (past ++ [⟨left.length, world, event⟩]) after
      (left ++ (writer, next) :: right) := by
  have older : ∀ view ∈ left ++ right, view ∈ left ++ (writer, phase) :: right := by
    intro view member
    rcases List.mem_append.mp member with early | late
    · exact List.mem_append_left _ early
    · exact List.mem_append_right _ (List.mem_cons_of_mem _ late)
  have newer : ∀ {view}, view ∈ left ++ (writer, next) :: right →
      view = (writer, next) ∨ view ∈ left ++ right := by
    intro view member
    rcases List.mem_append.mp member with early | late
    · exact .inr (List.mem_append_left _ early)
    · exact (List.mem_cons.mp late).imp_right (List.mem_append_right _)
  have here : (writer, phase) ∈ left ++ (writer, phase) :: right :=
    List.mem_append_right _ List.mem_cons_self
  have nodesApart := matched.nodesApart
  have valuesApart := matched.valuesApart
  constructor
  case extension =>
      have split := flatMap_middle (fun view : Writer × Phase => view.2.files) left right
        (writer, next)
      exact extension.perm split.symm
  case nodes =>
      refine (flatMap_middle (fun view : Writer × Phase => (view.2.texts view.1).map Prod.fst) left
        right (writer, next)).nodup_iff.mpr (List.nodup_append'.mpr ?_)
      refine ⟨distinct, nodesApart.2.1, fun node new old => ?_⟩
      obtain ⟨text, member, rfl⟩ := List.mem_map.mp new
      rcases nodes text member with ⟨previous, listed, same⟩ | ⟨same, _⟩
      · exact nodesApart.2.2 (List.mem_map.mpr ⟨previous, listed, same⟩) old
      · obtain ⟨view, inside, other⟩ := List.mem_flatMap.mp old
        obtain ⟨previous, listed, equal⟩ := List.mem_map.mp other
        have below := (matched.later view (older view inside) previous listed).2
        omega
  case later =>
      intro view member text known
      rcases newer member with rfl | member
      · rcases nodes text known with ⟨previous, listed, same⟩ | ⟨same, bound⟩
        · have bounds := matched.later _ here previous listed
          omega
        · have := matched.extension.next
          omega
      · have bounds := matched.later view (older view member) text known
        omega
  case texts =>
      intro view member text known
      rcases newer member with rfl | member
      · exact texts text known
      · rw [others view member text known]
        exact matched.texts view (older view member) text known
  case values =>
      refine (flatMap_middle (fun view : Writer × Phase => view.2.values) left right
        (writer, next)).nodup_iff.mpr (List.nodup_append'.mpr ?_)
      refine ⟨once, valuesApart.2.1, fun value new old => ?_⟩
      rcases values value new with known | ⟨_, fresh⟩
      · exact valuesApart.2.2 known old
      · obtain ⟨view, inside, listed⟩ := List.mem_flatMap.mp old
        obtain ⟨step, earlier, same⟩ := matched.drawn view (older view inside) value listed
        exact fresh step earlier same
  case drawn =>
      intro view member value listed
      have before : (∃ step ∈ past, step.event = ⟨.random, .ok value⟩) ∨
          event = ⟨.random, .ok value⟩ := by
        rcases newer member with rfl | member
        · rcases values value listed with known | ⟨now, _⟩
          · exact .inl (matched.drawn _ here value known)
          · exact .inr now
        · exact .inl (matched.drawn view (older view member) value listed)
      rcases before with ⟨step, earlier, same⟩ | now
      · exact ⟨step, List.mem_append_left _ earlier, same⟩
      · exact ⟨_, List.mem_append_right _ (List.mem_singleton_self _), now⟩
  case free =>
      intro view member
      rcases newer member with rfl | member
      · exact free
      · exact matched.free view (older view member)
  case unseen =>
      intro thread other draft unseen found
      rcases eq_or_ne thread left.length with rfl | elsewhere
      · rw [List.getElem?_append_right (Nat.le_refl _), Nat.sub_self] at found
        cases found
        exact scanned draft unseen rfl
      · rw [getElem?_middle elsewhere (writer, next) (writer, phase)] at found
        obtain ⟨listed, present⟩ := matched.unseen thread other draft unseen found
        rw [uninspected_concat thread past _ (Ne.symm elsewhere)]
        refine ⟨listed, fun entry member => (present entry member).advance ?_ finals⟩
        have below := (List.getElem?_eq_some_iff.mp found).1
        refine kept thread below elsewhere entry.1 ?_
        rw [listed]
        exact List.mem_map_of_mem member

theorem Matches.split (matched : Matches base past world (left ++ (writer, phase) :: right)) :
    Directory.Extends base world
      (phase.files ++ (left ++ right).flatMap fun view => view.2.files) := by
  have split := flatMap_middle (fun view : Writer × Phase => view.2.files) left right
    (writer, phase)
  exact matched.extension.perm split

/-- A path of a write which it has not linked is not there. -/
theorem Matches.absent (matched : Matches base past world (left ++ (writer, phase) :: right))
    {name : String} {reference : ArtifactRef} (path : IsPath name reference)
    (owned : reference ∈ phase.values) (before : base.find? name = none)
    (unlinked : name ∉ phase.files.map Prod.fst) : world.find? name = none := by
  refine matched.split.find?_eq_none before fun listed => ?_
  rw [List.map_append, List.mem_append] at listed
  rcases listed with own | other
  · exact unlinked own
  · obtain ⟨entry, member, rfl⟩ := List.mem_map.mp other
    obtain ⟨view, inside, listed⟩ := List.mem_flatMap.mp member
    obtain ⟨otherReference, drawn, otherPath⟩ := Phase.isPath_of_mem_files listed
    cases path.unique otherPath
    exact matched.valuesApart.2.2 owned (List.mem_flatMap.mpr ⟨view, inside, drawn⟩)

/-- A step which changes neither the directory nor what the view says about it. -/
theorem Matches.stay (matched : Matches base past world (left ++ (writer, phase) :: right))
    (files : next.files = phase.files) (texts : next.texts writer = phase.texts writer)
    (values : next.values = phase.values) (free : next.Free base)
    (scanned : ∀ draft unseen, next = .scan draft unseen →
      uninspected left.length (past ++ [⟨left.length, world, event⟩]) = unseen.map Prod.fst ∧
        ∀ entry ∈ unseen, Present base world (left ++ (writer, next) :: right) entry) :
    Matches base (past ++ [⟨left.length, world, event⟩]) world
      (left ++ (writer, next) :: right) := by
  have here : (writer, phase) ∈ left ++ (writer, phase) :: right :=
    List.mem_append_right _ List.mem_cons_self
  have nodesApart := matched.nodesApart
  have valuesApart := matched.valuesApart
  apply matched.advance
  · rw [files]
    exact matched.split
  · exact Nat.le_refl _
  · exact fun _ _ _ _ => rfl
  · rw [texts]
    exact matched.texts _ here
  · rw [texts]
    exact nodesApart.1
  · rw [texts]
    exact fun text known => .inl ⟨text, known, rfl⟩
  · rw [texts]
    exact fun old known => ⟨old, known, rfl, rfl⟩
  · rw [values]
    exact valuesApart.1
  · rw [values]
    exact fun value listed => .inl listed
  · exact free
  · exact fun _ _ _ _ _ _ listed => listed
  · exact scanned

/-- A step which links or unlinks a name of the write. -/
theorem Matches.relink (matched : Matches base past world (left ++ (writer, phase) :: right))
    (extension : Directory.Extends base after
      (next.files ++ (left ++ right).flatMap fun view => view.2.files))
    (nodes : after.nodes = world.nodes) (same : after.next = world.next)
    (texts : next.texts writer = phase.texts writer) (values : next.values = phase.values)
    (free : next.Free base)
    (kept : ∀ thread < (left ++ (writer, phase) :: right).length, thread ≠ left.length →
      ∀ name ∈ uninspected thread past, ∀ node,
        (name, node) ∈ world.entries → (name, node) ∈ after.entries)
    (moved : ∀ draft unseen, next ≠ .scan draft unseen) :
    Matches base (past ++ [⟨left.length, world, event⟩]) after
      (left ++ (writer, next) :: right) := by
  have here : (writer, phase) ∈ left ++ (writer, phase) :: right :=
    List.mem_append_right _ List.mem_cons_self
  have nodesApart := matched.nodesApart
  have valuesApart := matched.valuesApart
  apply matched.advance
  · exact extension
  · exact Nat.le_of_eq same.symm
  · exact fun _ _ _ _ => congrFun nodes _
  · rw [texts, nodes]
    exact matched.texts _ here
  · rw [texts]
    exact nodesApart.1
  · rw [texts]
    exact fun text known => .inl ⟨text, known, rfl⟩
  · rw [texts]
    exact fun old known => ⟨old, known, rfl, rfl⟩
  · rw [values]
    exact valuesApart.1
  · rw [values]
    exact fun value listed => .inl listed
  · exact free
  · exact kept
  · exact fun draft unseen scanning => absurd scanning (moved draft unseen)

/-- A step which draws a new value. -/
theorem Matches.draw (matched : Matches base past world (left ++ (writer, phase) :: right))
    {value : ArtifactRef} (fresh : ∀ step ∈ past, step.event ≠ ⟨.random, .ok value⟩)
    (files : next.files = phase.files) (texts : next.texts writer = phase.texts writer)
    (values : next.values = phase.values ++ [value]) (free : next.Free base)
    (moved : ∀ draft unseen, next ≠ .scan draft unseen) :
    Matches base (past ++ [⟨left.length, world, ⟨.random, .ok value⟩⟩]) world
      (left ++ (writer, next) :: right) := by
  have here : (writer, phase) ∈ left ++ (writer, phase) :: right :=
    List.mem_append_right _ List.mem_cons_self
  apply matched.advance
  · rw [files]
    exact matched.split
  · exact Nat.le_refl _
  · exact fun _ _ _ _ => rfl
  · rw [texts]
    exact matched.texts _ here
  · rw [texts]
    exact matched.nodesApart.1
  · rw [texts]
    exact fun text known => .inl ⟨text, known, rfl⟩
  · rw [texts]
    exact fun old known => ⟨old, known, rfl, rfl⟩
  · rw [values, List.nodup_append']
    refine ⟨matched.valuesApart.1, List.nodup_singleton _, fun drawn old new => ?_⟩
    rw [List.mem_singleton] at new
    subst new
    obtain ⟨step, earlier, same⟩ := matched.drawn _ here drawn old
    exact fresh step earlier same
  · rw [values]
    intro drawn listed
    rcases List.mem_append.mp listed with old | new
    · exact .inl old
    · rw [List.mem_singleton.mp new]
      exact .inr ⟨rfl, fresh⟩
  · exact free
  · exact fun _ _ _ _ _ _ listed => listed
  · exact fun draft unseen scanning => absurd scanning (moved draft unseen)

/-- A step which creates a file. -/
theorem Matches.open (matched : Matches base past world (left ++ (writer, phase) :: right))
    {name : String} {final : List UInt8} (fresh : world.find? name = none)
    (files : next.files.Perm ((name, world.next) :: phase.files))
    (texts : next.texts writer = phase.texts writer ++ [(world.next, [], final)])
    (values : next.values = phase.values) (free : next.Free base)
    (moved : ∀ draft unseen, next ≠ .scan draft unseen) :
    Matches base (past ++ [⟨left.length, world, event⟩])
      (world.create name (.file true []) fresh) (left ++ (writer, next) :: right) := by
  have here : (writer, phase) ∈ left ++ (writer, phase) :: right :=
    List.mem_append_right _ List.mem_cons_self
  have older : ∀ node < world.next,
      (world.create name (.file true []) fresh).nodes node = world.nodes node := by
    intro node below
    exact Function.update_of_ne (Nat.ne_of_lt below) _ _
  have newest : (world.create name (.file true []) fresh).nodes world.next = .file true [] :=
    Function.update_self _ _ _
  apply matched.advance
  · have added := @Directory.Extends.create _ _ _ _ _ _ name (.file true []) matched.split fresh
    refine added.perm ?_
    rw [← List.cons_append]
    exact files.symm.append_right _
  · exact Nat.le_succ _
  · intro view member text known
    have known' : view ∈ left ++ (writer, phase) :: right := by
      rcases List.mem_append.mp member with early | late
      · exact List.mem_append_left _ early
      · exact List.mem_append_right _ (List.mem_cons_of_mem _ late)
    exact older _ (matched.later view known' text known).2
  · rw [texts]
    intro text known
    rcases List.mem_append.mp known with old | new
    · rw [older _ (matched.later _ here text old).2]
      exact matched.texts _ here text old
    · rw [List.mem_singleton.mp new]
      exact ⟨List.nil_prefix, newest⟩
  · rw [texts, List.map_append, List.nodup_append']
    refine ⟨matched.nodesApart.1, List.nodup_singleton _, fun node old new => ?_⟩
    obtain ⟨text, known, rfl⟩ := List.mem_map.mp old
    have below := (matched.later _ here text known).2
    rw [List.map_cons, List.map_nil, List.mem_singleton] at new
    exact absurd new (Nat.ne_of_lt below)
  · rw [texts]
    intro text known
    rcases List.mem_append.mp known with old | new
    · exact .inl ⟨text, old, rfl⟩
    · rw [List.mem_singleton.mp new]
      exact .inr ⟨rfl, Nat.lt_succ_self _⟩
  · rw [texts]
    exact fun old known => ⟨old, List.mem_append_left _ known, rfl, rfl⟩
  · rw [values]
    exact matched.valuesApart.1
  · rw [values]
    exact fun value listed => .inl listed
  · exact free
  · exact fun _ _ _ _ _ _ listed => List.mem_append_left _ listed
  · exact fun draft unseen scanning => absurd scanning (moved draft unseen)

/-- A step which writes to a file of the write. -/
theorem Matches.write (matched : Matches base past world (left ++ (writer, phase) :: right))
    {file : Nat} {before : List (Nat × List UInt8 × List UInt8)} {written piece final : List UInt8}
    (texts : phase.texts writer = before ++ [(file, written, final)])
    (appended : next.texts writer = before ++ [(file, written ++ piece, final)])
    (within : written ++ piece <+: final) (files : next.files = phase.files)
    (values : next.values = phase.values) (free : next.Free base)
    (moved : ∀ draft unseen, next ≠ .scan draft unseen) :
    Matches base (past ++ [⟨left.length, world, event⟩])
      (world.update file ((world.nodes file).append piece)) (left ++ (writer, next) :: right) := by
  have here : (writer, phase) ∈ left ++ (writer, phase) :: right :=
    List.mem_append_right _ List.mem_cons_self
  have known : (file, written, final) ∈ phase.texts writer := by
    rw [texts]
    exact List.mem_append_right _ (List.mem_singleton_self _)
  have once := matched.nodesApart.1
  rw [texts, List.map_append, List.nodup_append'] at once
  have other : ∀ node, node ≠ file →
      (world.update file ((world.nodes file).append piece)).nodes node = world.nodes node :=
    fun node different => Function.update_of_ne different _ _
  have content : (world.update file ((world.nodes file).append piece)).nodes file =
      .file true (written ++ piece) := by
    rw [Directory.update_nodes_self, (matched.texts _ here _ known).2, PlanNode.append]
  apply matched.advance
  · rw [files]
    exact matched.split.update (matched.later _ here _ known).1
  · exact Nat.le_refl _
  · intro view member text listed
    refine other _ fun same => matched.nodesApart.2.2 (List.mem_map_of_mem known) ?_
    exact List.mem_flatMap.mpr ⟨view, member, List.mem_map.mpr ⟨text, listed, same⟩⟩
  · rw [appended]
    intro text listed
    rcases List.mem_append.mp listed with old | new
    · have different : text.1 ≠ file := by
        intro same
        exact once.2.2 (List.mem_map_of_mem old) (same ▸ List.mem_singleton_self _)
      rw [other _ different]
      refine matched.texts _ here text ?_
      rw [texts]
      exact List.mem_append_left _ old
    · rw [List.mem_singleton.mp new]
      exact ⟨within, content⟩
  · rw [appended, List.map_append, List.nodup_append']
    exact once
  · rw [appended, texts]
    intro text listed
    rcases List.mem_append.mp listed with old | new
    · exact .inl ⟨text, List.mem_append_left _ old, rfl⟩
    · rw [List.mem_singleton.mp new]
      exact .inl ⟨_, List.mem_append_right _ (List.mem_singleton_self _), rfl⟩
  · rw [appended, texts]
    intro old listed
    rcases List.mem_append.mp listed with first | last
    · exact ⟨old, List.mem_append_left _ first, rfl, rfl⟩
    · rw [List.mem_singleton.mp last]
      exact ⟨_, List.mem_append_right _ (List.mem_singleton_self _), rfl, rfl⟩
  · rw [values]
    exact matched.valuesApart.1
  · rw [values]
    exact fun value listed => .inl listed
  · exact free
  · exact fun _ _ _ _ _ _ listed => listed
  · exact fun draft unseen scanning => absurd scanning (moved draft unseen)

end Matching

end ImmichRs.Web
