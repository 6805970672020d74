import ImmichRs.Interaction.Concurrent
import ImmichRs.Web.PlanFaults

/-!
# The view of a plan write

The local view of a write is how far it has come; in it nothing goes wrong.  Against such a view an
accepted write whose texts fit returns an artifact.
-/

namespace ImmichRs.Web

open Files Interaction

/-! ## Views -/

/-- The two texts of a write. -/
structure Writer where
  plan : List UInt8
  binding : List UInt8

/-- The references and the files of an attempt. -/
structure Draft where
  reference : ArtifactRef
  nonce : ArtifactRef
  bindingFile : Nat
  planFile : Nat

/-- How far a write has come. -/
inductive Phase
  | idle
  | drawn (reference : ArtifactRef)
  | named (reference nonce : ArtifactRef)
  | binding (reference nonce : ArtifactRef) (file : Nat) (written : List UInt8)
  | plan (draft : Draft) (written : List UInt8)
  /-- The names which are left to inspect, with bounds of their lengths. -/
  | scan (draft : Draft) (unseen : List (String × Nat))
  | bindingLinked (draft : Draft)
  | bindingPublished (draft : Draft)
  | planLinked (draft : Draft)
  | published (draft : Draft)

namespace Draft

/-- The final path of the plan. -/
def planName (draft : Draft) : String := planPath draft.reference

/-- The final path of the binding. -/
def bindingName (draft : Draft) : String := bindingPath draft.reference

/-- The pending path of the plan. -/
def pendingName (draft : Draft) : String := pendingPath draft.reference draft.nonce

/-- The pending path of the binding. -/
def pendingBindingName (draft : Draft) : String :=
  pendingBindingPath draft.reference draft.nonce

end Draft

/-- The request which a write sends next. -/
def Expects (view : Writer × Phase) (call : PlanCall) : Prop :=
  match view.2 with
  | .idle => call = .random
  | .drawn reference =>
      call = .pathExists (planPath reference) ∨ call = .pathExists (bindingPath reference) ∨
        call = .random
  | .named reference nonce => call = .create (pendingBindingPath reference nonce)
  | .binding reference nonce file written =>
      (∃ piece, call = .append file piece ∧ written ++ piece <+: view.1.binding) ∨
        (written = view.1.binding ∧
          (call = .sync file ∨ call = .create (pendingPath reference nonce)))
  | .plan draft written =>
      (∃ piece, call = .append draft.planFile piece ∧ written ++ piece <+: view.1.plan) ∨
        (written = view.1.plan ∧ (call = .sync draft.planFile ∨ call = .readDirectory))
  | .scan draft [] => call = .link draft.pendingBindingName draft.bindingName
  | .scan _ (entry :: _) => call = .inspect entry.1
  | .bindingLinked draft => call = .remove draft.pendingBindingName
  | .bindingPublished draft => call = .link draft.pendingName draft.planName
  | .planLinked draft => call = .remove draft.pendingName
  | .published _ => call = .syncDirectory

/-- The answers of an undisturbed directory, and how far a write has come with them. -/
def Advances (store : PlanStore) : Environment PlanAnswer (Writer × Phase)
  | (writer, .idle), ⟨.random, .ok reference⟩, after => after = (writer, .drawn reference)
  | (writer, .drawn reference), ⟨.pathExists _, false⟩, after => after = (writer, .drawn reference)
  | (writer, .drawn reference), ⟨.random, .ok nonce⟩, after =>
      after = (writer, .named reference nonce)
  | (writer, .named reference nonce), ⟨.create _, .ok file⟩, after =>
      after = (writer, .binding reference nonce file [])
  | (writer, .binding reference nonce file written), ⟨.append _ piece, .ok ()⟩, after =>
      after = (writer, .binding reference nonce file (written ++ piece))
  | (writer, .binding reference nonce file written), ⟨.sync _, .ok ()⟩, after =>
      after = (writer, .binding reference nonce file written)
  | (writer, .binding reference nonce file _), ⟨.create _, .ok planFile⟩, after =>
      after = (writer, .plan ⟨reference, nonce, file, planFile⟩ [])
  | (writer, .plan draft written), ⟨.append _ piece, .ok ()⟩, after =>
      after = (writer, .plan draft (written ++ piece))
  | (writer, .plan draft written), ⟨.sync _, .ok ()⟩, after => after = (writer, .plan draft written)
  | (writer, .plan draft _), ⟨.readDirectory, .ok names⟩, after =>
      ∃ unseen : List (String × Nat), after = (writer, .scan draft unseen) ∧
        names = unseen.map Prod.fst ∧ unseen.length ≤ store.maximumFiles ∧
        (unseen.map Prod.snd).sum ≤ store.maximumStoreBytes
  | (writer, .scan draft (entry :: rest)), ⟨.inspect _, .ok metadata⟩, after =>
      metadata.isFile = true ∧ metadata.length ≤ entry.2 ∧ after = (writer, .scan draft rest)
  | (writer, .scan draft []), ⟨.link _ _, .ok ()⟩, after => after = (writer, .bindingLinked draft)
  | (writer, .bindingLinked draft), ⟨.remove _, .ok ()⟩, after =>
      after = (writer, .bindingPublished draft)
  | (writer, .bindingPublished draft), ⟨.link _ _, .ok ()⟩, after =>
      after = (writer, .planLinked draft)
  | (writer, .planLinked draft), ⟨.remove _, .ok ()⟩, after => after = (writer, .published draft)
  | (writer, .published draft), ⟨.syncDirectory, .ok ()⟩, after =>
      after = (writer, .published draft)
  | _, _, _ => False

/-! ## A write against its view -/

/-- Against its view a program returns a value which satisfies `post`. -/
def Keeps {α : Type} (store : PlanStore) (program : PlanProgram α) (view : Writer × Phase)
    (post : α → Writer × Phase → Prop) : Prop :=
  program.run.Follows Expects (Advances store) view fun outcome after =>
    ∃ value, outcome = .ok value ∧ post value after

section Keeps

variable {α β : Type} {store : PlanStore} {view : Writer × Phase}

theorem keeps_pure {value : α} {post : α → Writer × Phase → Prop} (holds : post value view) :
    Keeps store (pure value) view post :=
  ⟨value, rfl, holds⟩

theorem keeps_ofResult {result : Except String α} {value : α} {post : α → Writer × Phase → Prop}
    (returned : result = .ok value) (holds : post value view) :
    Keeps store (PlanProgram.ofResult result) view post :=
  ⟨value, returned, holds⟩

theorem keeps_bind {program : PlanProgram α} {next : α → PlanProgram β}
    {post : β → Writer × Phase → Prop}
    (keeps : Keeps store program view fun value after => Keeps store (next value) after post) :
    Keeps store (program >>= next) view post := by
  rw [Keeps, Program.Follows, Program.ensures_exceptT_bind]
  refine Program.Ensures.post keeps fun outcome after reached => ?_
  obtain ⟨value, rfl, rest⟩ := reached
  exact rest

theorem keeps_tryCatch {program : PlanProgram α} {handler : String → PlanProgram α}
    {post : α → Writer × Phase → Prop} (keeps : Keeps store program view post) :
    Keeps store (tryCatch program handler) view post := by
  rw [Keeps, Program.Follows, run_tryCatch, Program.ensures_bind]
  refine Program.Ensures.post keeps fun outcome after reached => ?_
  obtain ⟨value, rfl, holds⟩ := reached
  exact ⟨value, rfl, holds⟩

theorem Keeps.mono {program : PlanProgram α} {post broader : α → Writer × Phase → Prop}
    (keeps : Keeps store program view post)
    (weaker : ∀ value after, post value after → broader value after) :
    Keeps store program view broader := by
  refine Program.Ensures.post keeps fun outcome after reached => ?_
  obtain ⟨value, returned, holds⟩ := reached
  exact ⟨value, returned, weaker value after holds⟩

/-- One expected request. -/
theorem keeps_request {call : PlanCall} {convert : PlanAnswer call → Except String α}
    {post : α → Writer × Phase → Prop} (expected : Expects view call)
    (answered : ∀ answer after, Advances store view ⟨call, answer⟩ after →
      ∃ value, convert answer = .ok value ∧ post value after) :
    Keeps store (ExceptT.mk (.request call fun answer => .done (convert answer))) view post :=
  fun answer after advanced => ⟨expected, answered answer after (advanced expected)⟩

end Keeps

section Writing

variable {store : PlanStore} {writer : Writer} {text : List UInt8} {file : Nat}
  {phase : List UInt8 → Phase}

/-- The phases in which a text is written to a file. -/
structure Writes (store : PlanStore) (writer : Writer) (text : List UInt8) (file : Nat)
    (phase : List UInt8 → Phase) : Prop where
  expectsAppend : ∀ written piece, written ++ piece <+: text →
    Expects (writer, phase written) (.append file piece)
  append : ∀ written piece answer after,
    Advances store (writer, phase written) ⟨.append file piece, answer⟩ after →
      answer = .ok () ∧ after = (writer, phase (written ++ piece))
  expectsSync : Expects (writer, phase text) (.sync file)
  sync : ∀ answer after, Advances store (writer, phase text) ⟨.sync file, answer⟩ after →
    answer = .ok () ∧ after = (writer, phase text)

theorem writes_binding (reference nonce : ArtifactRef) :
    Writes store writer writer.binding file (.binding reference nonce file) where
  expectsAppend _ piece within := .inl ⟨piece, rfl, within⟩
  append _ _ answer _ advanced := by
    cases answer with
    | ok => exact ⟨rfl, advanced⟩
    | error => cases advanced
  expectsSync := .inr ⟨rfl, .inl rfl⟩
  sync answer _ advanced := by
    cases answer with
    | ok => exact ⟨rfl, advanced⟩
    | error => cases advanced

theorem writes_plan (draft : Draft) :
    Writes store writer writer.plan draft.planFile (.plan draft) where
  expectsAppend _ piece within := .inl ⟨piece, rfl, within⟩
  append _ _ answer _ advanced := by
    cases answer with
    | ok => exact ⟨rfl, advanced⟩
    | error => cases advanced
  expectsSync := .inr ⟨rfl, .inl rfl⟩
  sync answer _ advanced := by
    cases answer with
    | ok => exact ⟨rfl, advanced⟩
    | error => cases advanced

theorem Writes.keeps_append (writes : Writes store writer text file phase) {message : String}
    {written piece : List UInt8} (within : written ++ piece <+: text)
    {post : Unit → Writer × Phase → Prop} (holds : post () (writer, phase (written ++ piece))) :
    Keeps store (PlanProgram.append message file piece) (writer, phase written) post := by
  refine keeps_request (writes.expectsAppend written piece within) fun answer after advanced => ?_
  obtain ⟨rfl, rfl⟩ := writes.append written piece answer after advanced
  exact ⟨(), rfl, holds⟩

theorem Writes.keeps_writePieces (writes : Writes store writer text file phase)
    {pieces : List (List UInt8)} {written : List UInt8} {remaining : Nat}
    (within : written ++ pieces.flatten <+: text) (room : pieces.flatten.length ≤ remaining)
    {post : Nat → Writer × Phase → Prop}
    (holds : ∀ left, left + pieces.flatten.length = remaining →
      post left (writer, phase (written ++ pieces.flatten))) :
    Keeps store (writePieces file remaining pieces) (writer, phase written) post := by
  induction pieces generalizing written remaining with
  | nil =>
      have finished := holds remaining rfl
      rw [List.flatten_nil, List.append_nil] at finished
      exact keeps_pure finished
  | cons piece rest induction =>
      rw [List.flatten_cons, ← List.append_assoc] at within
      rw [List.flatten_cons, List.length_append] at room
      have fits : reject (decide (remaining < piece.length)) "cannot serialize plan state" =
          .ok () := by
        rw [reject_eq_ok, decide_eq_false_iff_not]
        omega
      refine keeps_bind (keeps_ofResult fits (keeps_bind (writes.keeps_append ?_ ?_)))
      · exact (List.prefix_append _ _).trans within
      · refine induction within (by omega) fun left total => ?_
        rw [List.append_assoc]
        refine holds left ?_
        rw [List.flatten_cons, List.length_append]
        omega

/-- The rest of `write_json` once the file is there. -/
theorem Writes.keeps_rest {library : JsonLibrary} {body : List UInt8} {maximum : Nat}
    (writes : Writes store writer text file phase) (complete : text = body ++ [10])
    (small : body.length + 1 ≤ maximum) {post : Unit → Writer × Phase → Prop}
    (holds : post () (writer, phase text)) :
    Keeps store (do
      let remaining ← writePieces file maximum (library.pieces body)
      PlanProgram.ofResult
        (reject (decide (remaining < 1)) "plan state size limit exceeded")
      PlanProgram.append "plan state size limit exceeded" file [10]
      PlanProgram.sync file) (writer, phase []) post := by
  subst complete
  refine keeps_bind (writes.keeps_writePieces ?_ ?_ fun left total => ?_)
  · rw [library.pieces_flatten, List.nil_append]
    exact List.prefix_append _ _
  · rw [library.pieces_flatten]
    omega
  · rw [library.pieces_flatten] at total ⊢
    rw [List.nil_append]
    have fits : reject (decide (left < 1)) "plan state size limit exceeded" = .ok () := by
      rw [reject_eq_ok, decide_eq_false_iff_not]
      omega
    refine keeps_bind (keeps_ofResult fits (keeps_bind (writes.keeps_append (List.prefix_refl _) ?_)))
    refine keeps_request writes.expectsSync fun answer after advanced => ?_
    obtain ⟨rfl, rfl⟩ := writes.sync answer after advanced
    exact ⟨(), rfl, holds⟩

end Writing

section Publishing

variable {store : PlanStore} {writer : Writer}

/-- A scan which finds what its view promises. -/
theorem keeps_inspectEntries {draft : Draft} {unseen : List (String × Nat)} {files bytes : Nat}
    {post : Unit → Writer × Phase → Prop}
    (fewFiles : files + unseen.length ≤ store.maximumFiles)
    (fewBytes : bytes + (unseen.map Prod.snd).sum ≤ store.maximumStoreBytes)
    (holds : post () (writer, .scan draft [])) :
    Keeps store (store.inspectEntries (unseen.map Prod.fst) files bytes)
      (writer, .scan draft unseen) post := by
  induction unseen generalizing files bytes with
  | nil => exact keeps_pure holds
  | cons entry rest induction =>
      rw [List.length_cons] at fewFiles
      rw [List.map_cons, List.sum_cons] at fewBytes
      refine keeps_bind (keeps_request rfl fun answer after advanced => ?_)
      cases answer with
      | error => cases advanced
      | ok metadata =>
          obtain ⟨isFile, small, rfl⟩ := advanced
          have regular : reject (!metadata.isFile) "plan directory entry is invalid" = .ok () := by
            rw [reject_eq_ok, isFile]
            rfl
          have within : reject (decide (store.maximumFiles < files + 1) ||
              decide (store.maximumStoreBytes < bytes + metadata.length))
                "plan storage bound exceeded" = .ok () := by
            rw [reject_eq_ok, Bool.or_eq_false_iff, decide_eq_false_iff_not,
              decide_eq_false_iff_not]
            omega
          refine ⟨metadata, rfl, keeps_bind (keeps_ofResult regular (keeps_bind ?_))⟩
          exact keeps_ofResult within (induction (by omega) (by omega))

/-- The texts which a write stores. -/
def PlanWrite.texts (request : PlanWrite) (digest : String) : Writer :=
  { plan := prettyBytes request.plan.serialize ++ [10]
    binding := prettyBytes (request.binding digest).serialize ++ [10] }

theorem keeps_link {message : String} {view next : Writer × Phase} {pending final : String}
    (expected : Expects view (.link pending final))
    (advances : ∀ answer after, Advances store view ⟨.link pending final, answer⟩ after →
      answer = .ok () ∧ after = next) {post : Unit → Writer × Phase → Prop} (holds : post () next) :
    Keeps store (PlanProgram.link message pending final) view post := by
  refine keeps_request expected fun answer after advanced => ?_
  obtain ⟨rfl, rfl⟩ := advances answer after advanced
  exact ⟨(), rfl, holds⟩

theorem keeps_remove {message : String} {view next : Writer × Phase} {name : String}
    (expected : Expects view (.remove name))
    (advances : ∀ answer after, Advances store view ⟨.remove name, answer⟩ after →
      answer = .ok () ∧ after = next) {post : Unit → Writer × Phase → Prop} (holds : post () next) :
    Keeps store (PlanProgram.remove message name) view post := by
  refine keeps_request expected fun answer after advanced => ?_
  obtain ⟨rfl, rfl⟩ := advances answer after advanced
  exact ⟨(), rfl, holds⟩

/-- Publishing both files after the scan. -/
theorem keeps_publishFiles {reference nonce : ArtifactRef} {bindingFile planFile : Nat}
    {post : Unit → Writer × Phase → Prop}
    (holds : post () (writer, .published ⟨reference, nonce, bindingFile, planFile⟩)) :
    Keeps store (do
      publishNew "cannot publish plan binding" (pendingBindingPath reference nonce)
        (bindingPath reference)
      tryCatch (publishNew "cannot publish upload plan" (pendingPath reference nonce)
        (planPath reference)) fun error => do
          liftM (PlanProgram.discard (bindingPath reference))
          throw error
      PlanProgram.syncDirectory)
      (writer, .scan ⟨reference, nonce, bindingFile, planFile⟩ []) post := by
  let draft : Draft := ⟨reference, nonce, bindingFile, planFile⟩
  have expectsLinkBinding : Expects (writer, .scan draft [])
      (.link (pendingBindingPath reference nonce) (bindingPath reference)) := rfl
  have linkBinding : ∀ answer after, Advances store (writer, .scan draft [])
      ⟨.link (pendingBindingPath reference nonce) (bindingPath reference), answer⟩ after →
        answer = .ok () ∧ after = (writer, .bindingLinked draft) := by
    rintro (_ | _) after advanced
    · cases advanced
    · exact ⟨rfl, advanced⟩
  have expectsRemoveBinding : Expects (writer, .bindingLinked draft)
      (.remove (pendingBindingPath reference nonce)) := rfl
  have removeBinding : ∀ answer after, Advances store (writer, .bindingLinked draft)
      ⟨.remove (pendingBindingPath reference nonce), answer⟩ after →
        answer = .ok () ∧ after = (writer, .bindingPublished draft) := by
    rintro (_ | _) after advanced
    · cases advanced
    · exact ⟨rfl, advanced⟩
  have expectsLinkPlan : Expects (writer, .bindingPublished draft)
      (.link (pendingPath reference nonce) (planPath reference)) := rfl
  have linkPlan : ∀ answer after, Advances store (writer, .bindingPublished draft)
      ⟨.link (pendingPath reference nonce) (planPath reference), answer⟩ after →
        answer = .ok () ∧ after = (writer, .planLinked draft) := by
    rintro (_ | _) after advanced
    · cases advanced
    · exact ⟨rfl, advanced⟩
  have expectsRemovePlan : Expects (writer, .planLinked draft)
      (.remove (pendingPath reference nonce)) := rfl
  have removePlan : ∀ answer after, Advances store (writer, .planLinked draft)
      ⟨.remove (pendingPath reference nonce), answer⟩ after →
        answer = .ok () ∧ after = (writer, .published draft) := by
    rintro (_ | _) after advanced
    · cases advanced
    · exact ⟨rfl, advanced⟩
  have expectsSync : Expects (writer, .published draft) .syncDirectory := rfl
  refine keeps_bind (keeps_bind (keeps_link expectsLinkBinding linkBinding ?_))
  refine keeps_remove expectsRemoveBinding removeBinding (keeps_bind (keeps_tryCatch ?_))
  refine keeps_bind (keeps_link expectsLinkPlan linkPlan ?_)
  refine keeps_remove expectsRemovePlan removePlan ?_
  refine keeps_request expectsSync fun answer after advanced => ?_
  cases answer with
  | error => cases advanced
  | ok =>
      cases advanced
      exact ⟨(), rfl, holds⟩

theorem keeps_publish {library : JsonLibrary} {reference nonce : ArtifactRef}
    {plan binding : List UInt8} (planText : writer.plan = plan ++ [10])
    (bindingText : writer.binding = binding ++ [10])
    (planSmall : plan.length + 1 ≤ store.maximumBytes)
    (bindingSmall : binding.length + 1 ≤ maxBindingBytes) {post : Unit → Writer × Phase → Prop}
    (holds : ∀ draft : Draft, draft.reference = reference → post () (writer, .published draft)) :
    Keeps store (store.publish library reference nonce plan binding)
      (writer, .named reference nonce) post := by
  refine keeps_bind (keeps_bind (keeps_request rfl fun answer after advanced => ?_))
  cases answer with
  | error => cases advanced
  | ok file =>
      cases advanced
      refine ⟨file, rfl, (writes_binding reference nonce).keeps_rest bindingText bindingSmall ?_⟩
      have expectsCreate : Expects (writer, .binding reference nonce file writer.binding)
          (.create (pendingPath reference nonce)) := .inr ⟨rfl, .inr rfl⟩
      refine keeps_bind (keeps_bind (keeps_request expectsCreate fun answer after advanced => ?_))
      cases answer with
      | error => cases advanced
      | ok planFile =>
          cases advanced
          let draft : Draft := ⟨reference, nonce, file, planFile⟩
          refine ⟨planFile, rfl, (writes_plan draft).keeps_rest planText planSmall ?_⟩
          have expectsScan : Expects (writer, .plan draft writer.plan) .readDirectory :=
            .inr ⟨rfl, .inr rfl⟩
          refine keeps_bind (keeps_bind (keeps_request expectsScan fun answer after advanced => ?_))
          cases answer with
          | error => cases advanced
          | ok names =>
              obtain ⟨unseen, rfl, rfl, fewFiles, fewBytes⟩ := advanced
              refine ⟨_, rfl, keeps_inspectEntries ?_ ?_ ?_⟩
              · rwa [Nat.zero_add]
              · rwa [Nat.zero_add]
              · exact keeps_publishFiles (holds _ rfl)

theorem keeps_writeNew {library : JsonLibrary} {reference : ArtifactRef}
    {plan binding : List UInt8} (planText : writer.plan = plan ++ [10])
    (bindingText : writer.binding = binding ++ [10])
    (planSmall : plan.length + 1 ≤ store.maximumBytes)
    (bindingSmall : binding.length + 1 ≤ maxBindingBytes) {post : Bool → Writer × Phase → Prop}
    (holds : ∀ draft : Draft, draft.reference = reference →
      post true (writer, .published draft)) :
    Keeps store (store.writeNew library reference plan binding) (writer, .drawn reference) post := by
  have expectsBinding : Expects (writer, .drawn reference)
      (.pathExists (bindingPath reference)) := .inr (.inl rfl)
  have expectsNonce : Expects (writer, .drawn reference) .random := .inr (.inr rfl)
  refine keeps_bind (keeps_request (.inl rfl) fun answer after advanced => ?_)
  cases answer with
  | true => cases advanced
  | false =>
      cases advanced
      refine ⟨false, rfl, keeps_bind (keeps_request expectsBinding fun answer after advanced => ?_)⟩
      cases answer with
      | true => cases advanced
      | false =>
          cases advanced
          refine ⟨false, rfl, keeps_bind (keeps_request expectsNonce fun answer after advanced => ?_)⟩
          cases answer with
          | error => cases advanced
          | ok nonce =>
              cases advanced
              refine ⟨nonce, rfl, keeps_bind (keeps_tryCatch ?_)⟩
              exact keeps_publish planText bindingText planSmall bindingSmall fun draft same =>
                keeps_pure (holds draft same)

/-- The texts of a write fit into their files. -/
structure PlanWrite.Fits (request : PlanWrite) (store : PlanStore) (digest : String) : Prop where
  plan : (request.texts digest).plan.length ≤ store.maximumBytes
  binding : (request.texts digest).binding.length ≤ maxBindingBytes

/-- A write has published its texts, and returned the artifact of their reference. -/
def Wrote (request : PlanWrite) (digest : String) (artifact : PlanArtifact)
    (view : Writer × Phase) : Prop :=
  ∃ draft : Draft, view = (request.texts digest, .published draft) ∧
    artifact =
      { reference := draft.reference
        schemaVersion := request.plan.schemaVersion
        planSha256 := digest
        maxLogicalEffects := logicalEffects request.plan }

/-- Undisturbed, an accepted write whose texts fit returns an artifact. -/
theorem keeps_write {platform : Platform} {library : JsonLibrary} {request : PlanWrite}
    {digest : String} (accepted : request.Accepted platform digest)
    (fits : request.Fits store digest) :
    Keeps store (store.write platform library request) (request.texts digest, .idle)
      (Wrote request digest) := by
  have planSmall := fits.plan
  have bindingSmall := fits.binding
  rw [PlanWrite.texts, List.length_append, List.length_singleton] at planSmall bindingSmall
  refine keeps_bind (keeps_ofResult (mapError_eq_ok.mpr accepted.plan) ?_)
  refine keeps_bind (keeps_ofResult accepted.inputs (keeps_bind ?_))
  refine keeps_ofResult (mapError_eq_ok.mpr accepted.digest) ?_
  generalize texts : request.texts digest = writer
  have planText := congrArg Writer.plan texts.symm
  have bindingText := congrArg Writer.binding texts.symm
  refine keeps_bind (keeps_request rfl fun answer after advanced => ?_)
  cases answer with
  | error => cases advanced
  | ok reference =>
      cases advanced
      refine ⟨reference, rfl, keeps_bind ?_⟩
      apply keeps_writeNew planText bindingText planSmall bindingSmall
      rintro draft rfl
      apply keeps_pure
      exact ⟨draft, by rw [texts], rfl⟩

end Publishing

end ImmichRs.Web
