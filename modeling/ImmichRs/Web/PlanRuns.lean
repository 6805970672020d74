import ImmichRs.Web.PlanSharing

/-!
# Runs of concurrent plan writes

The directory answers each step of a write as its view allows, so every write returns an artifact,
whatever the order of the steps is: while no write unlinks a pending name which another scan has
listed and not inspected yet, and while the bounds leave room for every file under two names.
-/

namespace ImmichRs.Web

open Files Interaction

/-! ## The conditions of a run -/

/-- What a step keeps: a drawn value is new, and no name is unlinked which another scan is still
going to inspect. -/
def Orderly (threads : Nat) (base : PlanDirectory)
    (past : List (ThreadStep PlanAnswer PlanDirectory)) (step : ThreadStep PlanAnswer PlanDirectory) :
    Prop :=
  match step.event with
  | ⟨.random, .ok value⟩ =>
      (∀ earlier ∈ past, earlier.event ≠ ⟨.random, .ok value⟩) ∧
        base.find? (planPath value) = none ∧ base.find? (bindingPath value) = none
  | ⟨.remove name, _⟩ => ∀ thread < threads, thread ≠ step.thread → name ∉ uninspected thread past
  | _ => True

/-- The bounds leave room for the files of all writes, each of which may have two names. -/
structure PlanStore.Room (store : PlanStore) (base : PlanDirectory) (writers : List Writer) : Prop where
  regular : ∀ entry ∈ base.entries, (base.nodes entry.2).isFile = true
  files : base.entries.length + 3 * writers.length ≤ store.maximumFiles
  bytes : (base.entries.map fun entry => (base.nodes entry.2).length).sum +
    (writers.map fun writer => 2 * (writer.binding.length + writer.plan.length)).sum ≤
      store.maximumStoreBytes

/-- The names of a write, with the lengths which their files are going to have. -/
def Phase.bounds (writer : Writer) : Phase → List (String × Nat)
  | .idle | .drawn _ | .named _ _ => []
  | .binding reference nonce _ _ => [(pendingBindingPath reference nonce, writer.binding.length)]
  | .plan draft _ | .scan draft _ =>
      [(draft.pendingBindingName, writer.binding.length), (draft.pendingName, writer.plan.length)]
  | .bindingLinked draft =>
      [(draft.bindingName, writer.binding.length), (draft.pendingBindingName, writer.binding.length),
        (draft.pendingName, writer.plan.length)]
  | .bindingPublished draft =>
      [(draft.bindingName, writer.binding.length), (draft.pendingName, writer.plan.length)]
  | .planLinked draft =>
      [(draft.planName, writer.plan.length), (draft.bindingName, writer.binding.length),
        (draft.pendingName, writer.plan.length)]
  | .published draft =>
      [(draft.planName, writer.plan.length), (draft.bindingName, writer.binding.length)]

namespace Phase

variable (writer : Writer) (phase : Phase)

theorem map_bounds : (phase.bounds writer).map Prod.fst = phase.files.map Prod.fst := by
  cases phase <;> rfl

theorem length_bounds_le : (phase.bounds writer).length ≤ 3 := by
  cases phase <;> simp [bounds]

theorem sum_bounds_le :
    ((phase.bounds writer).map Prod.snd).sum ≤ 2 * (writer.binding.length + writer.plan.length) := by
  cases phase <;> simp only [bounds, List.map_cons, List.map_nil, List.sum_cons, List.sum_nil] <;>
    omega

variable {writer phase}

theorem exists_file_of_mem_bounds {entry : String × Nat} (member : entry ∈ phase.bounds writer) :
    ∃ text ∈ phase.texts writer, (entry.1, text.1) ∈ phase.files ∧ text.2.2.length ≤ entry.2 := by
  cases phase with
  | idle | drawn _ | named _ _ => cases member
  | binding reference nonce file written =>
      rw [List.mem_singleton.mp member]
      exact ⟨_, List.mem_singleton_self _, List.mem_singleton_self _, Nat.le_refl _⟩
  | plan draft _ | scan draft _ | bindingPublished draft | published draft =>
      simp only [bounds, List.mem_cons, List.not_mem_nil, or_false] at member
      obtain rfl | rfl := member <;> simp [texts, files]
  | bindingLinked draft | planLinked draft =>
      simp only [bounds, List.mem_cons, List.not_mem_nil, or_false] at member
      obtain rfl | rfl | rfl := member <;> simp [texts, files]

end Phase

/-- The files of all writes, each of which may have two names. -/
theorem length_flatMap_bounds_le (views : List (Writer × Phase)) :
    (views.flatMap fun view => view.2.bounds view.1).length ≤ 3 * views.length := by
  induction views with
  | nil => exact Nat.le_refl _
  | cons view rest induction =>
      have here := view.2.length_bounds_le view.1
      rw [List.flatMap_cons, List.length_append, List.length_cons]
      omega

theorem sum_flatMap_le {α β : Type} {items : List α} {parts : α → List β} {weight : β → Nat}
    {bound : α → Nat} (each : ∀ item ∈ items, ((parts item).map weight).sum ≤ bound item) :
    ((items.flatMap parts).map weight).sum ≤ (items.map bound).sum := by
  induction items with
  | nil => exact Nat.le_refl _
  | cons item rest induction =>
      rw [List.forall_mem_cons] at each
      have later := induction each.2
      rw [List.flatMap_cons, List.map_append, List.sum_append, List.map_cons, List.sum_cons]
      exact Nat.add_le_add each.1 later

/-! ## Scans -/

/-- A permutation of images is the image of a permutation. -/
theorem exists_map_of_perm {α β : Type} {function : α → β} {images : List β} {items : List α}
    (same : images.Perm (items.map function)) :
    ∃ sorted : List α, sorted.Perm items ∧ sorted.map function = images := by
  induction images generalizing items with
  | nil =>
      have none : items = [] := List.map_eq_nil_iff.mp same.nil_eq.symm
      exact ⟨[], none ▸ .refl _, rfl⟩
  | cons image rest induction =>
      obtain ⟨item, member, rfl⟩ := List.mem_map.mp (same.subset List.mem_cons_self)
      obtain ⟨left, right, rfl⟩ := List.append_of_mem member
      have middle : ((left ++ item :: right).map function).Perm
          (function item :: (left ++ right).map function) := by
        rw [← List.map_cons]
        exact List.perm_middle.map function
      obtain ⟨sorted, permuted, mapped⟩ := induction (same.trans middle).cons_inv
      exact ⟨item :: sorted, (permuted.cons item).trans List.perm_middle.symm, by rw [← mapped]; rfl⟩

section

variable {store : PlanStore} {base world : PlanDirectory}
  {past : List (ThreadStep PlanAnswer PlanDirectory)} {views : List (Writer × Phase)}

/-- What a directory lists fits the bounds, with the lengths which the files are going to have. -/
theorem Matches.listing (matched : Matches base past world views)
    (room : store.Room base (views.map Prod.fst)) {names : List String}
    (listed : names.Perm (world.entries.map Prod.fst)) :
    ∃ unseen : List (String × Nat), names = unseen.map Prod.fst ∧
      unseen.length ≤ store.maximumFiles ∧ (unseen.map Prod.snd).sum ≤ store.maximumStoreBytes ∧
        ∀ entry ∈ unseen, Present base world views entry := by
  let known := base.entries.map (fun entry => (entry.1, (base.nodes entry.2).length)) ++
    views.flatMap fun view => view.2.bounds view.1
  have named : (world.entries.map Prod.fst).Perm (known.map Prod.fst) := by
    apply (matched.extension.entries.map Prod.fst).trans
    rw [List.map_append, List.map_append, List.map_map, List.map_flatMap, List.map_flatMap]
    simp only [Phase.map_bounds]
    exact .refl _
  obtain ⟨unseen, permuted, rfl⟩ := exists_map_of_perm (listed.trans named)
  refine ⟨unseen, rfl, ?_, ?_, ?_⟩
  · rw [permuted.length_eq, List.length_append, List.length_map]
    have files := room.files
    rw [List.length_map] at files
    exact (Nat.add_le_add_left (length_flatMap_bounds_le views) _).trans files
  · have bytes := room.bytes
    rw [List.map_map] at bytes
    rw [(permuted.map Prod.snd).sum_eq, List.map_append, List.sum_append, List.map_map]
    apply (Nat.add_le_add_left _ _).trans bytes
    exact sum_flatMap_le fun view _ => view.2.sum_bounds_le view.1
  · intro entry member
    obtain old | new := List.mem_append.mp (permuted.subset member)
    · obtain ⟨⟨name, node⟩, stored, rfl⟩ := List.mem_map.mp old
      exact ⟨node, matched.extension.mem.mpr (.inl stored), .inl ⟨stored, Nat.le_refl _⟩⟩
    · obtain ⟨view, inside, bounded⟩ := List.mem_flatMap.mp new
      obtain ⟨text, known, file, small⟩ := Phase.exists_file_of_mem_bounds bounded
      refine ⟨text.1, matched.extension.mem.mpr (.inr ?_), .inr ⟨view, inside, text, known, rfl, small⟩⟩
      exact List.mem_flatMap.mpr ⟨view, inside, file⟩

end

/-! ## Answers -/

section

variable {store : PlanStore} {base world after : PlanDirectory}
  {past : List (ThreadStep PlanAnswer PlanDirectory)} {left right : List (Writer × Phase)}
  {writer : Writer} {phase next : Phase} {event : Event PlanAnswer}

/-- The directory answers a step as the view of its write allows. -/
def Answers (store : PlanStore) (base world : PlanDirectory)
    (past : List (ThreadStep PlanAnswer PlanDirectory)) (left right : List (Writer × Phase))
    (view : Writer × Phase) (event : Event PlanAnswer) (after : PlanDirectory) : Prop :=
  ∃ next, Advances store view event (view.1, next) ∧
    Matches base (past ++ [⟨left.length, world, event⟩]) after (left ++ (view.1, next) :: right)

/-- A step which links a file of the write under one more name. -/
theorem Matches.hardLink (matched : Matches base past world (left ++ (writer, phase) :: right))
    {name : String} {node : Nat} (fresh : world.find? name = none) (present : node < world.next)
    (files : next.files.Perm ((name, node) :: phase.files))
    (texts : next.texts writer = phase.texts writer) (values : next.values = phase.values)
    (free : next.Free base) (moved : ∀ draft unseen, next ≠ .scan draft unseen) :
    Matches base (past ++ [⟨left.length, world, event⟩]) (world.link name node fresh present)
      (left ++ (writer, next) :: right) := by
  apply matched.relink
  · have added := matched.split.link fresh present
    apply added.perm
    rw [← List.cons_append]
    exact files.symm.append_right _
  · rfl
  · rfl
  · exact texts
  · exact values
  · exact free
  · exact fun _ _ _ _ _ _ listed => List.mem_append_left _ listed
  · exact moved

/-- A step which unlinks a name of the write that no other scan is going to inspect. -/
theorem Matches.unlink (matched : Matches base past world (left ++ (writer, phase) :: right))
    {name : String} {node : Nat} (files : phase.files.Perm ((name, node) :: next.files))
    (unused : base.find? name = none) (texts : next.texts writer = phase.texts writer)
    (values : next.values = phase.values) (free : next.Free base)
    (moved : ∀ draft unseen, next ≠ .scan draft unseen)
    (uninspected : ∀ thread < (left ++ (writer, phase) :: right).length, thread ≠ left.length →
      name ∉ uninspected thread past) :
    Matches base (past ++ [⟨left.length, world, event⟩]) (world.remove name)
      (left ++ (writer, next) :: right) := by
  have whole := files.append_right ((left ++ right).flatMap fun view => view.2.files)
  have extension := matched.split.perm whole
  apply matched.relink
  · have removed := extension.remove unused
    have once := (List.nodup_append'.mp (List.map_append ▸ extension.nodup)).2.1
    rw [List.cons_append, List.map_cons, List.nodup_cons] at once
    rw [List.cons_append, List.filter_cons_of_neg (by simp)] at removed
    rwa [List.filter_eq_self.mpr] at removed
    intro entry member
    rw [decide_eq_true_eq]
    rintro rfl
    exact once.1 (List.mem_map.mpr ⟨entry, member, rfl⟩)
  · rfl
  · rfl
  · exact texts
  · exact values
  · exact free
  · intro thread below other listed waiting found inside
    apply List.mem_filter.mpr
    refine ⟨inside, ?_⟩
    rw [decide_eq_true_eq]
    rintro rfl
    exact uninspected thread below other waiting
  · exact moved

theorem isPath_plan (reference : ArtifactRef) : IsPath (planPath reference) reference := .inl rfl

theorem isPath_binding (reference : ArtifactRef) : IsPath (bindingPath reference) reference :=
  .inr (.inl rfl)

theorem isPath_pending (reference nonce : ArtifactRef) :
    IsPath (pendingPath reference nonce) reference :=
  .inr (.inr (.inl ⟨nonce, rfl⟩))

theorem isPath_pendingBinding (reference nonce : ArtifactRef) :
    IsPath (pendingBindingPath reference nonce) reference :=
  .inr (.inr (.inr ⟨nonce, rfl⟩))

/-- Pending names with a new nonce have never been taken. -/
theorem Matches.namesFree (matched : Matches base past world (left ++ (writer, phase) :: right))
    {reference nonce : ArtifactRef} (free : Phase.Free base (.drawn reference))
    (unused : UnusedNonce world nonce) : NamesFree base reference nonce := by
  have older : ∀ name, world.find? name = none → base.find? name = none := by
    intro name missing
    rw [Directory.find?_eq_none] at missing ⊢
    intro listed
    obtain ⟨entry, member, rfl⟩ := List.mem_map.mp listed
    exact missing (List.mem_map_of_mem (matched.extension.mem.mpr (.inl member)))
  exact
    { plan := free.1
      binding := free.2
      pending := older _ (unused reference).1
      pendingBinding := older _ (unused reference).2 }

/-! ## One step of each phase -/

variable {answer : PlanAnswer .random}

theorem answers_random (matched : Matches base past world (left ++ (writer, phase) :: right))
    (performed : performs world ⟨.random, answer⟩ after)
    (orderly : Orderly (left ++ (writer, phase) :: right).length base past
      ⟨left.length, world, ⟨.random, answer⟩⟩)
    (grown : ArtifactRef → Phase) (files : ∀ value, (grown value).files = phase.files)
    (texts : ∀ value, (grown value).texts writer = phase.texts writer)
    (values : ∀ value, (grown value).values = phase.values ++ [value])
    (moved : ∀ value draft unseen, grown value ≠ .scan draft unseen)
    (free : ∀ value, UnusedNonce world value → base.find? (planPath value) = none →
      base.find? (bindingPath value) = none → (grown value).Free base)
    (advances : ∀ value, Advances store (writer, phase) ⟨.random, .ok value⟩ (writer, grown value)) :
    Answers store base world past left right (writer, phase) ⟨.random, answer⟩ after := by
  cases answer with
  | error => cases performed
  | ok value =>
      obtain ⟨unused, rfl⟩ := performed
      obtain ⟨fresh, plan, binding⟩ := orderly
      exact ⟨_, advances value, matched.draw fresh (files value) (texts value) (values value)
        (free value unused plan binding) (moved value)⟩

theorem answers_idle (matched : Matches base past world (left ++ (writer, .idle) :: right))
    (expected : Expects (writer, .idle) event.1) (performed : performs world event after)
    (orderly : Orderly (left ++ (writer, .idle) :: right).length base past
      ⟨left.length, world, event⟩) :
    Answers store base world past left right (writer, .idle) event after := by
  obtain ⟨call, answer⟩ := event
  obtain rfl : call = .random := expected
  exact answers_random matched performed orderly .drawn (fun _ => rfl) (fun _ => rfl)
    (fun _ => rfl) (fun _ _ _ same => by cases same) (fun _ _ plan binding => ⟨plan, binding⟩)
      fun _ => rfl

theorem answers_drawn {reference : ArtifactRef}
    (matched : Matches base past world (left ++ (writer, .drawn reference) :: right))
    (expected : Expects (writer, .drawn reference) event.1) (performed : performs world event after)
    (orderly : Orderly (left ++ (writer, .drawn reference) :: right).length base past
      ⟨left.length, world, event⟩) :
    Answers store base world past left right (writer, .drawn reference) event after := by
  have free : Phase.Free base (.drawn reference) :=
    matched.free _ (List.mem_append_right _ List.mem_cons_self)
  have exists_none : ∀ {name : String} {answer : Bool}, IsPath name reference →
      base.find? name = none → performs world ⟨.pathExists name, answer⟩ after →
        Answers store base world past left right (writer, .drawn reference)
          ⟨.pathExists name, answer⟩ after := by
    intro name answer path unused performed
    obtain ⟨rfl, same⟩ := performed
    have missing : world.find? name = none :=
      matched.absent path List.mem_cons_self unused List.not_mem_nil
    rw [missing, same]
    exact ⟨_, rfl, matched.stay rfl rfl rfl free fun _ _ same => by cases same⟩
  obtain ⟨call, answer⟩ := event
  obtain rfl | rfl | rfl : call = .pathExists (planPath reference) ∨
      call = .pathExists (bindingPath reference) ∨ call = .random := expected
  · exact exists_none (isPath_plan reference) free.1 performed
  · exact exists_none (isPath_binding reference) free.2 performed
  · exact answers_random matched performed orderly (.named reference) (fun _ => rfl)
      (fun _ => rfl) (fun _ => rfl) (fun _ _ _ same => by cases same)
        (fun _ unused _ _ => matched.namesFree free unused) fun _ => rfl

theorem answers_named {reference nonce : ArtifactRef}
    (matched : Matches base past world (left ++ (writer, .named reference nonce) :: right))
    (expected : Expects (writer, .named reference nonce) event.1)
    (performed : performs world event after) :
    Answers store base world past left right (writer, .named reference nonce) event after := by
  have free : NamesFree base reference nonce :=
    matched.free _ (List.mem_append_right _ List.mem_cons_self)
  have missing : world.find? (pendingBindingPath reference nonce) = none :=
    matched.absent (isPath_pendingBinding reference nonce) List.mem_cons_self free.pendingBinding
      List.not_mem_nil
  obtain ⟨call, answer⟩ := event
  obtain rfl : call = .create (pendingBindingPath reference nonce) := expected
  cases answer with
  | error => exact absurd missing performed.1
  | ok file =>
      obtain ⟨fresh, rfl, rfl⟩ := performed
      exact ⟨_, rfl, matched.open fresh (.refl _) rfl rfl free fun _ _ same => by cases same⟩

theorem answers_binding {reference nonce : ArtifactRef} {file : Nat} {written : List UInt8}
    (matched : Matches base past world (left ++ (writer, .binding reference nonce file written) :: right))
    (expected : Expects (writer, .binding reference nonce file written) event.1)
    (performed : performs world event after) :
    Answers store base world past left right (writer, .binding reference nonce file written) event
      after := by
  have free : NamesFree base reference nonce :=
    matched.free _ (List.mem_append_right _ List.mem_cons_self)
  obtain ⟨call, answer⟩ := event
  obtain ⟨piece, rfl, within⟩ | ⟨complete, rest⟩ := expected
  · cases answer with
    | error => cases performed
    | ok =>
        obtain rfl : after = _ := performed
        have nothing : Phase.texts writer (.binding reference nonce file written) =
            [] ++ [(file, written, writer.binding)] := rfl
        exact ⟨_, rfl, matched.write nothing rfl within rfl rfl free fun _ _ same => by cases same⟩
  · have complete : written = writer.binding := complete
    subst complete
    obtain rfl | rfl : call = .sync file ∨ call = .create (pendingPath reference nonce) := rest
    · cases answer with
      | error => cases performed
      | ok =>
          have same : after = world := performed
          rw [same]
          exact ⟨_, rfl, matched.stay rfl rfl rfl free fun _ _ same => by cases same⟩
    · have missing : world.find? (pendingPath reference nonce) = none := by
        apply matched.absent (isPath_pending reference nonce) List.mem_cons_self free.pending
        intro listed
        exact absurd (List.mem_singleton.mp listed) (ne_of_length_ne (by simp))
      cases answer with
      | error => exact absurd missing performed.1
      | ok planFile =>
          obtain ⟨fresh, rfl, rfl⟩ := performed
          have swapped : (Phase.plan ⟨reference, nonce, file, world.next⟩ []).files.Perm
              ((pendingPath reference nonce, world.next) ::
                (Phase.binding reference nonce file writer.binding).files) := .swap _ _ _
          exact ⟨_, rfl, matched.open fresh swapped rfl rfl free fun _ _ same => by cases same⟩

theorem answers_plan {draft : Draft} {written : List UInt8}
    (matched : Matches base past world (left ++ (writer, .plan draft written) :: right))
    (room : store.Room base ((left ++ (writer, .plan draft written) :: right).map Prod.fst))
    (expected : Expects (writer, .plan draft written) event.1)
    (performed : performs world event after) :
    Answers store base world past left right (writer, .plan draft written) event after := by
  have free : NamesFree base draft.reference draft.nonce :=
    matched.free _ (List.mem_append_right _ List.mem_cons_self)
  obtain ⟨call, answer⟩ := event
  obtain ⟨piece, rfl, within⟩ | ⟨complete, rest⟩ := expected
  · cases answer with
    | error => cases performed
    | ok =>
        obtain rfl : after = _ := performed
        have split : Phase.texts writer (.plan draft written) =
            [(draft.bindingFile, writer.binding, writer.binding)] ++
              [(draft.planFile, written, writer.plan)] := rfl
        exact ⟨_, rfl, matched.write split rfl within rfl rfl free fun _ _ same => by cases same⟩
  · have complete : written = writer.plan := complete
    subst complete
    obtain rfl | rfl : call = .sync draft.planFile ∨ call = .readDirectory := rest
    · cases answer with
      | error => cases performed
      | ok =>
          have same : after = world := performed
          rw [same]
          exact ⟨_, rfl, matched.stay rfl rfl rfl free fun _ _ same => by cases same⟩
    · cases answer with
      | error => cases performed
      | ok names =>
          obtain ⟨listed, rfl⟩ := performed
          obtain ⟨unseen, rfl, few, small, present⟩ := matched.listing room listed
          refine ⟨.scan draft unseen, ⟨unseen, rfl, rfl, few, small⟩, ?_⟩
          apply matched.stay
          · rfl
          · rfl
          · rfl
          · exact free
          · intro _ _ same
            obtain ⟨rfl, rfl⟩ := Phase.scan.inj same
            refine ⟨?_, fun entry member => (present entry member).advance (fun _ => id) ?_⟩
            · rw [uninspected, List.foldl_append, List.foldl_cons, List.foldl_nil, if_pos rfl]
            · exact fun old known => ⟨old, known, rfl, rfl⟩

/-- A name which is still there names a regular file, which is no longer than it is going to be. -/
theorem Matches.inspects {views : List (Writer × Phase)} (matched : Matches base past world views)
    (regular : ∀ entry ∈ base.entries, (base.nodes entry.2).isFile = true) {entry : String × Nat}
    (present : Present base world views entry) :
    ∃ node, world.find? entry.1 = some node ∧ (world.nodes node).isFile = true ∧
      (world.nodes node).length ≤ entry.2 := by
  obtain ⟨node, listed, old | ⟨view, member, text, known, rfl, small⟩⟩ := present
  · refine ⟨node, Directory.find?_eq_some.mpr listed, ?_⟩
    rw [matched.extension.nodes node (base.numbered _ old.1)]
    exact ⟨regular _ old.1, old.2⟩
  · refine ⟨text.1, Directory.find?_eq_some.mpr listed, ?_⟩
    obtain ⟨written, content⟩ := matched.texts view member text known
    rw [content]
    exact ⟨rfl, written.length_le.trans small⟩

theorem answers_scan {draft : Draft} {unseen : List (String × Nat)}
    (matched : Matches base past world (left ++ (writer, .scan draft unseen) :: right))
    (regular : ∀ entry ∈ base.entries, (base.nodes entry.2).isFile = true)
    (expected : Expects (writer, .scan draft unseen) event.1)
    (performed : performs world event after) :
    Answers store base world past left right (writer, .scan draft unseen) event after := by
  have here : (writer, .scan draft unseen) ∈ left ++ (writer, .scan draft unseen) :: right :=
    List.mem_append_right _ List.mem_cons_self
  have free : NamesFree base draft.reference draft.nonce := matched.free _ here
  obtain ⟨call, answer⟩ := event
  cases unseen with
  | nil =>
      obtain rfl : call = .link draft.pendingBindingName draft.bindingName := expected
      have pending : world.find? draft.pendingBindingName = some draft.bindingFile :=
        matched.split.find?_eq_some (List.mem_append_left _ List.mem_cons_self)
      have missing : world.find? draft.bindingName = none := by
        apply matched.absent (isPath_binding draft.reference) List.mem_cons_self free.binding
        intro listed
        obtain same | same := List.mem_pair.mp listed <;>
          exact absurd same (ne_of_length_ne (by simp [Draft.pendingBindingName, Draft.pendingName]))
      cases answer with
      | error =>
          obtain ⟨gone | taken, _⟩ := performed
          · exact absurd (pending.symm.trans gone) (Option.some_ne_none _)
          · exact absurd missing taken
      | ok =>
          obtain ⟨node, present, found, fresh, rfl⟩ := performed
          obtain rfl : draft.bindingFile = node := Option.some.inj (pending.symm.trans found)
          exact ⟨_, rfl, matched.hardLink fresh present (.refl _) rfl rfl free
            fun _ _ same => by cases same⟩
  | cons entry rest =>
      obtain rfl : call = .inspect entry.1 := expected
      have known := matched.unseen left.length writer draft (entry :: rest) (by simp)
      obtain ⟨listed, present⟩ := known
      rw [List.forall_mem_cons] at present
      obtain ⟨node, found, isFile, small⟩ := matched.inspects regular present.1
      cases answer with
      | error => exact absurd (found.symm.trans performed.1) (Option.some_ne_none _)
      | ok metadata =>
          obtain ⟨other, there, rfl, rfl⟩ := performed
          obtain rfl : node = other := Option.some.inj (found.symm.trans there)
          refine ⟨.scan draft rest, ⟨isFile, small, rfl⟩, ?_⟩
          apply matched.stay
          · rfl
          · rfl
          · rfl
          · exact free
          · intro _ _ same
            obtain ⟨rfl, rfl⟩ := Phase.scan.inj same
            refine ⟨?_, fun entry member => (present.2 entry member).advance (fun _ => id) ?_⟩
            · have taken : uninspected left.length past = entry.1 :: rest.map Prod.fst := listed
              rw [uninspected, List.foldl_append, List.foldl_cons, List.foldl_nil, if_pos rfl]
              exact (congrArg (List.erase · entry.1) taken).trans (List.erase_cons_head _ _)
            · exact fun old known => ⟨old, known, rfl, rfl⟩

theorem answers_bindingLinked {draft : Draft}
    (matched : Matches base past world (left ++ (writer, .bindingLinked draft) :: right))
    (expected : Expects (writer, .bindingLinked draft) event.1) (performed : performs world event after)
    (orderly : Orderly (left ++ (writer, .bindingLinked draft) :: right).length base past
      ⟨left.length, world, event⟩) :
    Answers store base world past left right (writer, .bindingLinked draft) event after := by
  have free : NamesFree base draft.reference draft.nonce :=
    matched.free _ (List.mem_append_right _ List.mem_cons_self)
  obtain ⟨call, answer⟩ := event
  obtain rfl : call = .remove draft.pendingBindingName := expected
  have linked : world.find? draft.pendingBindingName = some draft.bindingFile :=
    matched.split.find?_eq_some (List.mem_append_left _ (by simp [Phase.files]))
  cases answer with
  | error => exact absurd (linked.symm.trans performed.1) (Option.some_ne_none _)
  | ok =>
      obtain ⟨_, rfl⟩ := performed
      exact ⟨_, rfl, matched.unlink (.swap _ _ _) free.pendingBinding rfl rfl free
        (fun _ _ same => by cases same) orderly⟩

theorem answers_bindingPublished {draft : Draft}
    (matched : Matches base past world (left ++ (writer, .bindingPublished draft) :: right))
    (expected : Expects (writer, .bindingPublished draft) event.1)
    (performed : performs world event after) :
    Answers store base world past left right (writer, .bindingPublished draft) event after := by
  have free : NamesFree base draft.reference draft.nonce :=
    matched.free _ (List.mem_append_right _ List.mem_cons_self)
  obtain ⟨call, answer⟩ := event
  obtain rfl : call = .link draft.pendingName draft.planName := expected
  have pending : world.find? draft.pendingName = some draft.planFile :=
    matched.split.find?_eq_some (List.mem_append_left _ (by simp [Phase.files]))
  have missing : world.find? draft.planName = none := by
    apply matched.absent (isPath_plan draft.reference) List.mem_cons_self free.plan
    intro listed
    obtain same | same := List.mem_pair.mp listed <;>
      exact absurd same (ne_of_length_ne (by simp [Draft.bindingName, Draft.pendingName]))
  cases answer with
  | error =>
      obtain ⟨gone | taken, _⟩ := performed
      · exact absurd (pending.symm.trans gone) (Option.some_ne_none _)
      · exact absurd missing taken
  | ok =>
      obtain ⟨node, present, found, fresh, rfl⟩ := performed
      obtain rfl : draft.planFile = node := Option.some.inj (pending.symm.trans found)
      exact ⟨_, rfl, matched.hardLink fresh present (.refl _) rfl rfl free
        fun _ _ same => by cases same⟩

theorem answers_planLinked {draft : Draft}
    (matched : Matches base past world (left ++ (writer, .planLinked draft) :: right))
    (expected : Expects (writer, .planLinked draft) event.1) (performed : performs world event after)
    (orderly : Orderly (left ++ (writer, .planLinked draft) :: right).length base past
      ⟨left.length, world, event⟩) :
    Answers store base world past left right (writer, .planLinked draft) event after := by
  have free : NamesFree base draft.reference draft.nonce :=
    matched.free _ (List.mem_append_right _ List.mem_cons_self)
  obtain ⟨call, answer⟩ := event
  obtain rfl : call = .remove draft.pendingName := expected
  have linked : world.find? draft.pendingName = some draft.planFile :=
    matched.split.find?_eq_some (List.mem_append_left _ (by simp [Phase.files]))
  cases answer with
  | error => exact absurd (linked.symm.trans performed.1) (Option.some_ne_none _)
  | ok =>
      obtain ⟨_, rfl⟩ := performed
      have last : (Phase.planLinked draft).files.Perm
          ((draft.pendingName, draft.planFile) :: (Phase.published draft).files) :=
        List.perm_append_singleton _ (Phase.published draft).files
      exact ⟨_, rfl, matched.unlink last free.pending rfl rfl free
        (fun _ _ same => by cases same) orderly⟩

theorem answers_published {draft : Draft}
    (matched : Matches base past world (left ++ (writer, .published draft) :: right))
    (expected : Expects (writer, .published draft) event.1) (performed : performs world event after) :
    Answers store base world past left right (writer, .published draft) event after := by
  have free : NamesFree base draft.reference draft.nonce :=
    matched.free _ (List.mem_append_right _ List.mem_cons_self)
  obtain ⟨call, answer⟩ := event
  obtain rfl : call = .syncDirectory := expected
  cases answer with
  | error => cases performed
  | ok =>
      have same : after = world := performed
      rw [same]
      exact ⟨_, rfl, matched.stay rfl rfl rfl free fun _ _ same => by cases same⟩

/-- The directory answers every expected step as the view of its write allows. -/
theorem Matches.answers (matched : Matches base past world (left ++ (writer, phase) :: right))
    (room : store.Room base ((left ++ (writer, phase) :: right).map Prod.fst))
    (expected : Expects (writer, phase) event.1) (performed : performs world event after)
    (orderly : Orderly (left ++ (writer, phase) :: right).length base past
      ⟨left.length, world, event⟩) :
    Answers store base world past left right (writer, phase) event after := by
  cases phase with
  | idle => exact answers_idle matched expected performed orderly
  | drawn reference => exact answers_drawn matched expected performed orderly
  | named reference nonce => exact answers_named matched expected performed
  | binding reference nonce file written => exact answers_binding matched expected performed
  | plan draft written => exact answers_plan matched room expected performed
  | scan draft unseen => exact answers_scan matched room.regular expected performed
  | bindingLinked draft => exact answers_bindingLinked matched expected performed orderly
  | bindingPublished draft => exact answers_bindingPublished matched expected performed
  | planLinked draft => exact answers_planLinked matched expected performed orderly
  | published draft => exact answers_published matched expected performed

end

/-! ## Runs -/

/-- An accepted write with the digest of its plan. -/
structure PlanWrite.Ready (request : PlanWrite) (digest : String) (store : PlanStore)
    (platform : Platform) (library : JsonLibrary) : Prop where
  accepted : request.Accepted platform digest
  fits : request.Fits store digest
  restores : library.Restores request.plan (request.binding digest)

section

variable {store : PlanStore} {platform : Platform} {library : JsonLibrary}
  {base after : PlanDirectory} {jobs : List (PlanWrite × String)}
  {past log : List (ThreadStep PlanAnswer PlanDirectory)} {views : List (Writer × Phase)}

theorem matches_start (base : PlanDirectory) (jobs : List (PlanWrite × String)) :
    Matches base [] base (jobs.map fun job => (job.1.texts job.2, .idle)) := by
  have idle : ∀ view ∈ jobs.map fun job => (job.1.texts job.2, Phase.idle), view.2 = .idle := by
    intro view member
    obtain ⟨job, _, rfl⟩ := List.mem_map.mp member
    rfl
  have none : ∀ {β : Type} (function : Writer × Phase → List β),
      (∀ writer, function (writer, .idle) = []) →
        (jobs.map fun job => (job.1.texts job.2, Phase.idle)).flatMap function = [] := by
    intro β function empty
    rw [List.flatMap_eq_nil_iff]
    rintro ⟨writer, phase⟩ member
    obtain rfl : phase = .idle := idle _ member
    exact empty writer
  constructor
  case extension =>
    rw [none _ fun _ => rfl]
    exact .refl base
  case nodes =>
    rw [none _ fun _ => rfl]
    exact List.nodup_nil
  case values =>
    rw [none _ fun _ => rfl]
    exact List.nodup_nil
  case unseen =>
    intro thread writer draft unseen found
    have same := idle _ (List.mem_of_getElem? found)
    cases same
  all_goals
    rintro ⟨writer, phase⟩ member
    obtain rfl : phase = .idle := idle _ member
  case later => exact fun _ text => absurd text List.not_mem_nil
  case texts => exact fun _ text => absurd text List.not_mem_nil
  case drawn => exact fun _ value => absurd value List.not_mem_nil
  case free => trivial

/-- Along an orderly run every write keeps to its view, and the directory holds what the views
say. -/
theorem concurrent_writes_match
    (ready : ∀ job ∈ jobs, job.1.Ready job.2 store platform library)
    (room : store.Room base (jobs.map fun job => job.1.texts job.2))
    {final : List (Program PlanAnswer (Except String PlanArtifact))}
    (run : Concurrent performs (jobs.map fun job => (store.write platform library job.1).run) base
      log final after)
    (orderly : ∀ front step back, log = front ++ step :: back →
      Orderly jobs.length base front step) :
    ∃ views : List (Writer × Phase), Matches base log after views ∧
      views.map Prod.fst = (jobs.map fun job => job.1.texts job.2) ∧ final.length = jobs.length ∧
      ∀ (thread : Nat) (outcome : Except String PlanArtifact),
        final[thread]? = some (.done outcome) → ∃ job view artifact, jobs[thread]? = some job ∧
          views[thread]? = some view ∧ outcome = .ok artifact ∧ Wrote job.1 job.2 artifact view := by
  let threads : List (Program PlanAnswer (Except String PlanArtifact) ×
      (PlanWrite × String) × Writer × Phase) :=
    jobs.map fun job => ((store.write platform library job.1).run, job, job.1.texts job.2, .idle)
  have programs : threads.map Prod.fst =
      jobs.map fun job => (store.write platform library job.1).run := by
    rw [List.map_map]
    rfl
  have tags : (threads.map Prod.snd).map Prod.fst = jobs := by
    rw [List.map_map, List.map_map]
    exact List.map_id jobs
  have start : (threads.map Prod.snd).map Prod.snd =
      jobs.map fun job => (job.1.texts job.2, .idle) := by
    rw [List.map_map, List.map_map]
    rfl
  let invariant (past : List (ThreadStep PlanAnswer PlanDirectory)) (world : PlanDirectory)
      (tagged : List ((PlanWrite × String) × Writer × Phase)) : Prop :=
    Matches base past world (tagged.map Prod.snd) ∧ tagged.map Prod.fst = jobs ∧
      (tagged.map Prod.snd).map Prod.fst = jobs.map fun job => job.1.texts job.2
  have answers : ∀ past before left view right event after,
      invariant past before (left ++ view :: right) → Expects view.2 event.1 →
      performs before event after → Orderly jobs.length base past ⟨left.length, before, event⟩ →
        ∃ next : (PlanWrite × String) × Writer × Phase,
          (next.1 = view.1 ∧ Advances store view.2 event next.2) ∧
            invariant (past ++ [⟨left.length, before, event⟩]) after (left ++ next :: right) := by
    rintro past before left ⟨job, writer, phase⟩ right event after ⟨matched, tagged, writers⟩ expected
      performed orderly
    have count := congrArg List.length tagged
    simp only [List.map_append, List.map_cons, List.length_append, List.length_map,
      List.length_cons] at count
    rw [List.map_append, List.map_cons] at matched tagged writers
    have here : Answers store base before past (left.map Prod.snd) (right.map Prod.snd)
        (writer, phase) event after := by
      apply matched.answers _ expected performed
      · rw [List.length_append, List.length_cons, List.length_map, List.length_map, count]
        exact orderly
      · rw [writers]
        exact room
    obtain ⟨next, advanced, kept⟩ := here
    rw [List.length_map] at kept
    refine ⟨(job, writer, next), ⟨rfl, advanced⟩, ?_, ?_, ?_⟩
    · rwa [List.map_append, List.map_cons]
    · rwa [List.map_append, List.map_cons]
    · rw [List.map_append, List.map_cons, ← writers, List.map_append, List.map_append,
        List.map_cons, List.map_cons]
  have follow : ∀ thread ∈ threads, thread.1.Follows
      (fun tagged call => Expects tagged.2 call)
      (fun before event after => after.1 = before.1 ∧ Advances store before.2 event after.2) thread.2
      fun outcome tagged => ∃ artifact, outcome = .ok artifact ∧
        Wrote tagged.1.1 tagged.1.2 artifact tagged.2 := by
    intro thread member
    obtain ⟨job, listed, rfl⟩ := List.mem_map.mp member
    have written := ready job listed
    apply Program.Ensures.post (Program.Follows.tagged (keeps_write written.accepted written.fits) job)
    rintro outcome ⟨_, view⟩ ⟨rfl, artifact, rfl, wrote⟩
    exact ⟨artifact, rfl, wrote⟩
  rw [← programs] at run
  obtain ⟨threads', ended, followed, matched, tagged, writers⟩ := run.follows answers follow
    (⟨by rw [start]; exact matches_start base jobs, tags, by rw [start, List.map_map]; rfl⟩ :
      invariant [] base (threads.map Prod.snd)) fun front step back cut => by
        rw [List.nil_append]
        exact orderly front step back cut
  rw [List.nil_append] at matched
  refine ⟨_, matched, writers, ?_, fun thread outcome found => ?_⟩
  · have count := congrArg List.length tagged
    rw [← ended]
    simpa only [List.length_map] using count
  · rw [← ended, List.getElem?_map] at found
    obtain ⟨⟨program, job, view⟩, here, same⟩ := Option.map_eq_some_iff.mp found
    obtain rfl : program = .done outcome := same
    obtain ⟨artifact, rfl, wrote⟩ := followed _ (List.mem_of_getElem? here)
    refine ⟨job, view, artifact, ?_, ?_, rfl, wrote⟩
    · rw [← tagged, List.getElem?_map, List.getElem?_map, here]
      rfl
    · rw [List.getElem?_map, List.getElem?_map, here]
      rfl

theorem extends_remove {directory : PlanDirectory} {name : String} {node : Nat}
    (listed : (name, node) ∈ directory.entries) :
    Directory.Extends (directory.remove name) directory [(name, node)] := by
  refine ⟨?_, Nat.le_refl _, fun _ _ => rfl⟩
  obtain ⟨left, right, split⟩ := List.append_of_mem listed
  have once := directory.names
  rw [split, List.map_append, List.map_cons, List.nodup_append', List.nodup_cons] at once
  obtain ⟨_, ⟨behind, _⟩, apart⟩ := once
  have kept : ∀ entry ∈ left ++ right, decide (entry.1 ≠ name) = true := by
    intro entry member
    rw [decide_eq_true_eq]
    rintro rfl
    obtain early | late := List.mem_append.mp member
    · exact apart (List.mem_map_of_mem early) List.mem_cons_self
    · exact behind (List.mem_map.mpr ⟨entry, late, rfl⟩)
  have rest : directory.entries.filter (fun entry => decide (entry.1 ≠ name)) = left ++ right := by
    rw [split, List.filter_append, List.filter_cons_of_neg (by simp), ← List.filter_append,
      List.filter_eq_self.mpr kept]
  have permuted : directory.entries.Perm (left ++ right ++ [(name, node)]) := by
    rw [split]
    exact List.perm_middle.trans (List.perm_append_singleton _ _).symm
  rwa [← rest] at permuted

/-- The files of a write are no longer than its texts, each with at most two names. -/
theorem Matches.sum_files_le {world : PlanDirectory} (matched : Matches base past world views)
    {view : Writer × Phase} (member : view ∈ views) :
    (view.2.files.map fun entry => (world.nodes entry.2).length).sum ≤
      2 * (view.1.binding.length + view.1.plan.length) := by
  have short : ∀ text ∈ view.2.texts view.1, (world.nodes text.1).length ≤ text.2.2.length := by
    intro text known
    obtain ⟨written, content⟩ := matched.texts view member text known
    rw [content]
    exact written.length_le
  obtain ⟨writer, phase⟩ := view
  cases phase <;>
    simp only [Phase.files, Phase.texts, List.forall_mem_cons, List.map_cons, List.map_nil,
      List.sum_cons, List.sum_nil] at short ⊢ <;> omega

/-- The directory stays within its bounds. -/
theorem Matches.bounds {world : PlanDirectory} (matched : Matches base past world views)
    (room : store.Room base (views.map Prod.fst)) : store.Bounds world := by
  have extension := matched.extension
  constructor
  · have files := room.files
    rw [List.length_map] at files
    have names := length_flatMap_bounds_le views
    have same : ∀ view : Writer × Phase, (view.2.bounds view.1).length = view.2.files.length := by
      intro view
      have named := congrArg List.length (view.2.map_bounds view.1)
      rwa [List.length_map, List.length_map] at named
    simp only [List.length_flatMap, same] at names
    rw [extension.entries.length_eq, List.length_append, List.length_flatMap]
    omega
  · have bytes := room.bytes
    rw [List.map_map] at bytes
    have older : (base.entries.map fun entry => (world.nodes entry.2).length) =
        base.entries.map fun entry => (base.nodes entry.2).length := by
      apply List.map_congr_left
      intro entry member
      rw [extension.nodes _ (base.numbered entry member)]
    rw [(extension.entries.map _).sum_eq, List.map_append, List.sum_append, older]
    exact (Nat.add_le_add_left (sum_flatMap_le fun _ => matched.sum_files_le) _).trans bytes

/-- What a write has published can be loaded, whatever the other writes do. -/
theorem Matches.load {world : PlanDirectory} (matched : Matches base past world views)
    (room : store.Room base (views.map Prod.fst)) {request : PlanWrite} {digest : String}
    (ready : request.Ready digest store platform library) {draft : Draft}
    (member : (request.texts digest, .published draft) ∈ views) :
    store.load platform library world draft.reference =
      .ok { reference := draft.reference, plan := request.plan
            binding := request.binding digest } := by
  have linked : ∀ entry ∈ Phase.files (.published draft), entry ∈ world.entries := by
    intro entry listed
    exact matched.extension.mem.mpr (.inr (List.mem_flatMap.mpr ⟨_, member, listed⟩))
  have different : draft.bindingName ≠ draft.planName :=
    ne_of_length_ne (by simp [Draft.bindingName, Draft.planName])
  have plan := linked (draft.planName, draft.planFile) List.mem_cons_self
  have binding : (draft.bindingName, draft.bindingFile) ∈ (world.remove draft.planName).entries :=
    List.mem_filter.mpr ⟨linked _ (List.mem_cons_of_mem _ List.mem_cons_self),
      decide_eq_true different⟩
  have extension := ((extends_remove binding).trans (extends_remove plan)).perm (.swap _ _ _)
  have texts := matched.texts _ member
  have planSmall := ready.fits.plan
  have bindingSmall := ready.fits.binding
  rw [PlanWrite.texts, List.length_append, List.length_singleton] at planSmall bindingSmall
  have published : Published store ((world.remove draft.planName).remove draft.bindingName)
      draft.reference (prettyBytes request.plan.serialize)
      (prettyBytes (request.binding digest).serialize) world :=
    ⟨draft.planFile, draft.bindingFile, extension,
      (texts _ (List.mem_cons_of_mem _ List.mem_cons_self)).2, (texts _ List.mem_cons_self).2,
      planSmall, bindingSmall, matched.bounds room⟩
  exact load_published ready.accepted ready.restores published

/-- Writes draw different references. -/
theorem Matches.references_ne {world : PlanDirectory} (matched : Matches base past world views)
    {first second : Nat} {left right : Writer × Phase} (different : first ≠ second)
    (here : views[first]? = some left) (there : views[second]? = some right)
    {value : ArtifactRef} (drawn : value ∈ left.2.values) : value ∉ right.2.values := by
  have apart := List.pairwise_iff_getElem.mp (List.nodup_flatMap.mp matched.values).2
  obtain ⟨below, rfl⟩ := List.getElem?_eq_some_iff.mp here
  obtain ⟨limit, rfl⟩ := List.getElem?_eq_some_iff.mp there
  intro shared
  obtain before | behind := Nat.lt_or_gt_of_ne different
  · exact apart first second below limit before drawn shared
  · exact apart second first limit below behind shared drawn

/-- In every order of their steps, accepted writes to one directory all return artifacts, under
different references, each of which stands for the plan of its write from then on; the files of
earlier writes stay, and when all writes have returned there are exactly two more names for each.
No step may fail on its own, random values do not repeat, a pending name is not unlinked between the
listing and the inspection of another write, and the bounds leave room for every file twice. -/
theorem concurrent_writes_kept
    (ready : ∀ job ∈ jobs, job.1.Ready job.2 store platform library)
    (room : store.Room base (jobs.map fun job => job.1.texts job.2))
    {final : List (Program PlanAnswer (Except String PlanArtifact))}
    (run : Concurrent performs (jobs.map fun job => (store.write platform library job.1).run) base
      log final after)
    (orderly : ∀ front step back, log = front ++ step :: back →
      Orderly jobs.length base front step) :
    store.Bounds after ∧
    (∀ entry ∈ base.entries, entry ∈ after.entries ∧ after.nodes entry.2 = base.nodes entry.2) ∧
    (∀ (thread : Nat) (outcome : Except String PlanArtifact),
      final[thread]? = some (.done outcome) → ∃ job artifact, jobs[thread]? = some job ∧
        outcome = .ok artifact ∧ store.load platform library after artifact.reference =
          .ok { reference := artifact.reference, plan := job.1.plan
                binding := job.1.binding job.2 }) ∧
    (∀ (first second : Nat) (left right : PlanArtifact), first ≠ second →
      final[first]? = some (.done (.ok left)) → final[second]? = some (.done (.ok right)) →
        left.reference ≠ right.reference) ∧
    ((∀ program ∈ final, ∃ outcome, program = .done outcome) →
      after.entries.length = base.entries.length + 2 * jobs.length) := by
  obtain ⟨views, matched, writers, count, returned⟩ := concurrent_writes_match ready room run orderly
  have space : store.Room base (views.map Prod.fst) := by
    rw [writers]
    exact room
  refine ⟨matched.bounds space, fun entry member => ?_, fun thread outcome found => ?_,
    fun first second left right different here there => ?_, fun ended => ?_⟩
  · exact ⟨matched.extension.mem.mpr (.inl member),
      matched.extension.nodes _ (base.numbered entry member)⟩
  · obtain ⟨job, view, artifact, known, seen, rfl, draft, rfl, rfl⟩ := returned thread outcome found
    exact ⟨job, _, known, rfl, matched.load space (ready job (List.mem_of_getElem? known))
      (List.mem_of_getElem? seen)⟩
  · obtain ⟨_, _, _, _, firstView, firstSame, firstDraft, rfl, rfl⟩ := returned first _ here
    obtain ⟨_, _, _, _, secondView, secondSame, secondDraft, rfl, rfl⟩ := returned second _ there
    obtain rfl := Except.ok.inj firstSame
    obtain rfl := Except.ok.inj secondSame
    intro same
    have equal : firstDraft.reference = secondDraft.reference := same
    have drawn : firstDraft.reference ∈ Phase.values (.published firstDraft) := List.mem_cons_self
    apply matched.references_ne different firstView secondView drawn
    rw [equal]
    exact List.mem_cons_self
  · have total : views.length = jobs.length := by
      have lengths := congrArg List.length writers
      rwa [List.length_map, List.length_map] at lengths
    have two : ∀ view ∈ views, view.2.files.length = 2 := by
      intro view member
      obtain ⟨thread, below, rfl⟩ := List.mem_iff_getElem.mp member
      have inside : thread < final.length := by omega
      obtain ⟨outcome, done⟩ := ended _ (List.getElem_mem inside)
      obtain ⟨_, other, _, _, seen, _, draft, published, _⟩ :=
        returned thread outcome (by rw [List.getElem?_eq_getElem inside, done])
      rw [List.getElem?_eq_getElem below, Option.some.injEq] at seen
      rw [seen, published]
      rfl
    rw [matched.extension.entries.length_eq, List.length_append, List.length_flatMap,
      List.map_congr_left two, List.map_const', List.sum_replicate_nat, total]
    omega

end

/-! ## Two writes of one plan -/

/-- Whether a step is orderly. -/
def isOrderly (threads : Nat) (base : PlanDirectory)
    (past : List (ThreadStep PlanAnswer PlanDirectory)) (step : ThreadStep PlanAnswer PlanDirectory) :
    Bool :=
  match step.event with
  | ⟨.random, .ok value⟩ =>
      (past.all fun earlier =>
        match earlier.event with
        | ⟨.random, .ok other⟩ => other != value
        | _ => true) &&
      (base.find? (planPath value)).isNone && (base.find? (bindingPath value)).isNone
  | ⟨.remove name, _⟩ =>
      (List.range threads).all fun thread =>
        thread == step.thread || !(uninspected thread past).contains name
  | _ => true

theorem orderly_of_isOrderly {threads : Nat} {base : PlanDirectory}
    {past : List (ThreadStep PlanAnswer PlanDirectory)} {step : ThreadStep PlanAnswer PlanDirectory}
    (checked : isOrderly threads base past step = true) : Orderly threads base past step := by
  obtain ⟨thread, before, ⟨call, answer⟩⟩ := step
  cases call with
  | random =>
      cases answer with
      | error => trivial
      | ok value =>
          simp only [isOrderly, Bool.and_eq_true, Option.isNone_iff_eq_none, List.all_eq_true]
            at checked
          obtain ⟨⟨fresh, plan⟩, binding⟩ := checked
          refine ⟨fun earlier member same => ?_, plan, binding⟩
          have different := fresh earlier member
          rw [same] at different
          simp at different
  | remove name =>
      intro other below different
      have apart := List.all_eq_true.mp checked other (List.mem_range.mpr below)
      have distinct : (other == thread) = false := beq_false_of_ne different
      rw [distinct, Bool.false_or, Bool.not_eq_true', List.contains_eq_mem, decide_eq_false_iff_not]
        at apart
      exact apart
  | _ => trivial

/-- The steps of a log, each with those before it. -/
def allOrderly (threads : Nat) (base : PlanDirectory)
    (past : List (ThreadStep PlanAnswer PlanDirectory)) :
    List (ThreadStep PlanAnswer PlanDirectory) → Bool
  | [] => true
  | step :: rest => isOrderly threads base past step && allOrderly threads base (past ++ [step]) rest

theorem orderly_of_allOrderly {threads : Nat} {base : PlanDirectory}
    {past log : List (ThreadStep PlanAnswer PlanDirectory)}
    (checked : allOrderly threads base past log = true)
    {front back : List (ThreadStep PlanAnswer PlanDirectory)}
    {step : ThreadStep PlanAnswer PlanDirectory} (split : log = front ++ step :: back) :
    Orderly threads base (past ++ front) step := by
  induction front generalizing past log with
  | nil =>
      rw [split, List.nil_append, allOrderly, Bool.and_eq_true] at checked
      rw [List.append_nil]
      exact orderly_of_isOrderly checked.1
  | cons first rest induction =>
      rw [split, List.cons_append, allOrderly, Bool.and_eq_true] at checked
      have later := induction checked.2 rfl
      rwa [List.append_assoc, List.singleton_append] at later

/-- A store of eight files and eight mebibytes. -/
def sharedPlanStore : PlanStore :=
  { maximumBytes := 2 ^ 20, maximumStoreBytes := 2 ^ 23, maximumFiles := 8 }

/-- Two writes of the sample plan. -/
def sampleJobs : List (PlanWrite × String) :=
  [(samplePlanWrite, samplePlanDigest), (samplePlanWrite, samplePlanDigest)]

/-- The second write prepares its files before the first one scans the directory. -/
def sampleSchedule : List Nat :=
  List.replicate 12 0 ++ List.replicate 12 1 ++ List.replicate 12 0 ++ List.replicate 16 1

/-- Their run from an empty directory. -/
def sampleRun : Option (List (ThreadStep PlanAnswer PlanDirectory) ×
    List (Program PlanAnswer (Except String PlanArtifact)) × PlanDirectory × List ArtifactRef) :=
  scheduled Prod.fst working sampleSchedule
    (sampleJobs.map fun job =>
      (sharedPlanStore.write .reference sampleJsonLibrary job.1).run)
    (emptyPlans, [⟨1⟩, ⟨2⟩, ⟨3⟩, ⟨4⟩])

theorem sampleRun_done : sampleRun.any (fun ran =>
    ran.2.1.all Program.isDone && allOrderly 2 emptyPlans [] ran.1) = true := by
  decide +kernel

theorem samplePlanWrite_valid : samplePlanWrite.plan.validate .reference = .ok () := by
  decide +kernel

theorem samplePlanWrite_ready : samplePlanWrite.Ready samplePlanDigest sharedPlanStore .reference
    sampleJsonLibrary where
  accepted :=
    { plan := samplePlanWrite_valid
      inputs := by decide +kernel
      digest := by rw [uploadPlanSha256, samplePlanWrite_valid]; rfl }
  fits :=
    { plan := by decide +kernel
      binding := by decide +kernel }
  restores := JsonLibrary.reading_restores _ _

/-- Both writes of the sample return, and leave four files. -/
theorem concurrent_writes_kept_sample : ∃ log final after,
    Concurrent performs (sampleJobs.map fun job =>
        (sharedPlanStore.write .reference sampleJsonLibrary job.1).run) emptyPlans log final after ∧
      (∀ program ∈ final, ∃ artifact, program = .done (.ok artifact)) ∧
      after.entries.length = 4 := by
  obtain ⟨⟨log, final, after, supply⟩, ran, ended⟩ := (Option.any_eq_true _ _).mp sampleRun_done
  rw [Bool.and_eq_true, List.all_eq_true] at ended
  have run := Concurrent.of_scheduled (fun _ _ _ _ => performs_working) ran
  have ready : ∀ job ∈ sampleJobs, job.1.Ready job.2 sharedPlanStore .reference sampleJsonLibrary := by
    intro job member
    obtain rfl | rfl := List.mem_pair.mp member <;> exact samplePlanWrite_ready
  have room : sharedPlanStore.Room emptyPlans (sampleJobs.map fun job => job.1.texts job.2) :=
    { regular := nofun
      files := by decide
      bytes := by
        have plan := samplePlanWrite_ready.fits.plan
        have binding := samplePlanWrite_ready.fits.binding
        simp only [sharedPlanStore, maxBindingBytes, sampleJobs, emptyPlans, List.map_cons,
          List.map_nil, List.sum_cons, List.sum_nil] at plan binding ⊢
        omega }
  have done : ∀ program ∈ final, ∃ outcome, program = .done outcome := by
    intro program member
    cases program with
    | done outcome => exact ⟨outcome, rfl⟩
    | request call next => cases ended.1 _ member
  obtain ⟨_, _, returned, _, count⟩ := concurrent_writes_kept ready room run
    fun front step back split => by
      have checked := orderly_of_allOrderly ended.2 split
      rwa [List.nil_append] at checked
  refine ⟨log, final, after, run, fun program member => ?_, count done⟩
  obtain ⟨outcome, rfl⟩ := done program member
  obtain ⟨thread, found⟩ := List.mem_iff_getElem?.mp member
  obtain ⟨_, artifact, _, rfl, _⟩ := returned thread outcome found
  exact ⟨artifact, rfl⟩

end ImmichRs.Web
