import ImmichRs.Core.Production
import ImmichRs.Files.Directory
import ImmichRs.Interaction.Program
import ImmichRs.Web.Store

/-!
# The plan store

Every stored plan is two files in one directory, the plan and what it is bound to.  Both are written
under pending names, counted with everything else in the directory, linked to their final names and
unlinked from the pending ones.  The store is a program over the steps of the file system.
-/

namespace ImmichRs.Web

open Files Interaction

/-! ## Names -/

/-- One digit of URL-safe base 64. -/
def urlSafeDigit (value : Nat) : Char :=
  if value < 26 then Char.ofNat ('A'.toNat + value)
  else if value < 52 then Char.ofNat ('a'.toNat + (value - 26))
  else if value < 62 then Char.ofNat ('0'.toNat + (value - 52))
  else if value = 62 then '-'
  else '_'

/-- `ArtifactRef::encode`: sixteen bytes in URL-safe base 64 without padding. -/
def ArtifactRef.encode (reference : ArtifactRef) : String :=
  String.ofList ((List.range 22).map fun position =>
    urlSafeDigit (reference.bytes.toNat * 2 ^ 4 / 64 ^ (21 - position) % 64))

/-- `plan_path`. -/
def planPath (reference : ArtifactRef) : String := reference.encode ++ ".json"

/-- `binding_path`. -/
def bindingPath (reference : ArtifactRef) : String := reference.encode ++ ".binding.json"

/-- `pending_path`. -/
def pendingPath (reference nonce : ArtifactRef) : String :=
  "." ++ reference.encode ++ "-" ++ nonce.encode ++ ".pending"

/-- The pending path with the extension `binding.pending`. -/
def pendingBindingPath (reference nonce : ArtifactRef) : String :=
  "." ++ reference.encode ++ "-" ++ nonce.encode ++ ".binding.pending"

theorem mod_pow_eq_of_digits {first second base count : Nat}
    (digits : ∀ position < count,
      first / base ^ position % base = second / base ^ position % base) :
    first % base ^ count = second % base ^ count := by
  induction count with
  | zero => rw [Nat.pow_zero, Nat.mod_one, Nat.mod_one]
  | succ count induction =>
      have lower := induction fun position below => digits position (Nat.lt_succ_of_lt below)
      rw [Nat.mod_pow_succ, Nat.mod_pow_succ, lower, digits count (Nat.lt_succ_self count)]

theorem urlSafeDigit_injective {first second : Nat} (left : first < 64) (right : second < 64)
    (same : urlSafeDigit first = urlSafeDigit second) : first = second := by
  have table : ∀ first < 64, ∀ second < 64, urlSafeDigit first = urlSafeDigit second →
      first = second := by decide +kernel
  exact table first left second right same

/-- References are determined by their texts. -/
theorem ArtifactRef.encode_injective {first second : ArtifactRef}
    (same : first.encode = second.encode) : first = second := by
  have listed := String.ofList_injective same
  have digits : ∀ position < 22, first.bytes.toNat * 2 ^ 4 / 64 ^ position % 64 =
      second.bytes.toNat * 2 ^ 4 / 64 ^ position % 64 := by
    intro position below
    have member : 21 - position ∈ List.range 22 := List.mem_range.mpr (by omega)
    have digit := List.map_inj_left.mp listed _ member
    rw [show 21 - (21 - position) = position by omega] at digit
    exact urlSafeDigit_injective (Nat.mod_lt _ (by decide)) (Nat.mod_lt _ (by decide)) digit
  have numbers := mod_pow_eq_of_digits digits
  have firstSmall := first.bytes.isLt
  have secondSmall := second.bytes.isLt
  rw [Nat.mod_eq_of_lt (by omega), Nat.mod_eq_of_lt (by omega)] at numbers
  have bytes : first.bytes = second.bytes := BitVec.eq_of_toNat_eq (by omega)
  cases first
  cases second
  exact congrArg ArtifactRef.mk bytes

@[simp] theorem ArtifactRef.length_encode (reference : ArtifactRef) :
    reference.encode.length = 22 := by
  rw [encode, String.length_ofList, List.length_map, List.length_range]

@[simp] theorem length_planPath (reference : ArtifactRef) : (planPath reference).length = 27 := by
  rw [planPath, String.length_append, ArtifactRef.length_encode]
  rfl

@[simp] theorem length_bindingPath (reference : ArtifactRef) :
    (bindingPath reference).length = 35 := by
  rw [bindingPath, String.length_append, ArtifactRef.length_encode]
  rfl

@[simp] theorem length_pendingPath (reference nonce : ArtifactRef) :
    (pendingPath reference nonce).length = 54 := by
  simp only [pendingPath, String.length_append, ArtifactRef.length_encode]
  rfl

@[simp] theorem length_pendingBindingPath (reference nonce : ArtifactRef) :
    (pendingBindingPath reference nonce).length = 62 := by
  simp only [pendingBindingPath, String.length_append, ArtifactRef.length_encode]
  rfl

theorem planPath_injective {first second : ArtifactRef} (same : planPath first = planPath second) :
    first = second := by
  have lists := congrArg String.toList same
  rw [planPath, planPath, String.toList_append, String.toList_append] at lists
  exact ArtifactRef.encode_injective (String.toList_injective (List.append_cancel_right lists))

theorem bindingPath_injective {first second : ArtifactRef}
    (same : bindingPath first = bindingPath second) : first = second := by
  have lists := congrArg String.toList same
  rw [bindingPath, bindingPath, String.toList_append, String.toList_append] at lists
  exact ArtifactRef.encode_injective (String.toList_injective (List.append_cancel_right lists))

theorem pending_injective {first second firstNonce secondNonce : ArtifactRef} {suffix : String}
    (same : "." ++ first.encode ++ "-" ++ firstNonce.encode ++ suffix =
      "." ++ second.encode ++ "-" ++ secondNonce.encode ++ suffix) :
    first = second ∧ firstNonce = secondNonce := by
  have lists := congrArg String.toList same
  simp only [String.toList_append] at lists
  have bodies := List.append_cancel_right lists
  have lengths : firstNonce.encode.toList.length = secondNonce.encode.toList.length := by
    rw [String.length_toList, String.length_toList, ArtifactRef.length_encode,
      ArtifactRef.length_encode]
  obtain ⟨heads, nonces⟩ := List.append_inj' bodies lengths
  have references := List.append_cancel_left (List.append_cancel_right heads)
  exact ⟨ArtifactRef.encode_injective (String.toList_injective references),
    ArtifactRef.encode_injective (String.toList_injective nonces)⟩

theorem pendingPath_injective {first second firstNonce secondNonce : ArtifactRef}
    (same : pendingPath first firstNonce = pendingPath second secondNonce) :
    first = second ∧ firstNonce = secondNonce :=
  pending_injective same

theorem pendingBindingPath_injective {first second firstNonce secondNonce : ArtifactRef}
    (same : pendingBindingPath first firstNonce = pendingBindingPath second secondNonce) :
    first = second ∧ firstNonce = secondNonce :=
  pending_injective same

/-! ## Texts -/

/-- The byte of an ASCII character. -/
def asciiByte (character : Char) : UInt8 := UInt8.ofNat character.toNat

/-- A line break with its indentation. -/
def prettyBreak (depth : Nat) : List UInt8 :=
  asciiByte '\n' :: List.replicate (2 * depth) (asciiByte ' ')

/-- Spread the bytes of a compact text over lines as `serde_json::to_writer_pretty` does: the first
argument says whether the text starts inside a string. -/
def prettyLines : Bool → Nat → List UInt8 → List UInt8
  | _, _, [] => []
  | true, depth, byte :: rest =>
      if byte = asciiByte '\\' then
        match rest with
        | [] => [byte]
        | escaped :: rest => byte :: escaped :: prettyLines true depth rest
      else
        byte :: prettyLines (byte != asciiByte '"') depth rest
  | false, depth, byte :: rest =>
      if byte = asciiByte '[' ∨ byte = asciiByte '{' then
        match rest with
        | [] => [byte]
        | next :: rest =>
            if next = asciiByte ']' ∨ next = asciiByte '}' then
              byte :: next :: prettyLines false depth rest
            else
              byte :: (prettyBreak (depth + 1) ++ prettyLines false (depth + 1) (next :: rest))
      else if byte = asciiByte ']' ∨ byte = asciiByte '}' then
        prettyBreak (depth - 1) ++ byte :: prettyLines false (depth - 1) rest
      else if byte = asciiByte ',' then
        byte :: (prettyBreak depth ++ prettyLines false depth rest)
      else if byte = asciiByte ':' then
        byte :: asciiByte ' ' :: prettyLines false depth rest
      else
        byte :: prettyLines (byte == asciiByte '"') depth rest

/-- The bytes of a compact text spread over lines. -/
def prettyBytes (compact : String) : List UInt8 := prettyLines false 0 (utf8Bytes compact)

/-- Serialization of a plan binding. -/
def PlanBinding.serialize (binding : PlanBinding) : String :=
  jsonObject
    [("schema_version", toString binding.schemaVersion),
      ("plan_sha256", jsonString binding.planSha256),
      ("source_profile_id", jsonString binding.sourceProfileId),
      ("source_profile_sha256", jsonString binding.sourceProfileSha256),
      ("server_profile_id", jsonString binding.serverProfileId),
      ("server_profile_sha256", jsonString binding.serverProfileSha256),
      ("credential_generation", toString binding.credentialGeneration),
      ("server_identity_sha256", jsonString binding.serverIdentitySha256),
      ("max_logical_effects", toString binding.maxLogicalEffects)]

/-- What the store takes from its libraries: the pieces in which a text reaches the writer, and the
parsers. -/
structure JsonLibrary where
  pieces : List UInt8 → List (List UInt8)
  pieces_flatten : ∀ text, (pieces text).flatten = text
  parsePlan : List UInt8 → Option UploadPlan
  parseBinding : List UInt8 → Option PlanBinding

/-! ## The directory -/

/-- What a name of the directory stands for. -/
inductive PlanNode
  | file (isPrivate : Bool) (bytes : List UInt8)
  /-- A directory, a symbolic link or a special file. -/
  | other
  deriving DecidableEq

/-- The length of a file. -/
def PlanNode.length : PlanNode → Nat
  | .file _ bytes => bytes.length
  | .other => 0

/-- Whether a node is a regular file. -/
def PlanNode.isFile : PlanNode → Bool
  | .file _ _ => true
  | .other => false

/-- Write at the end of a file. -/
def PlanNode.append (piece : List UInt8) : PlanNode → PlanNode
  | .file isPrivate bytes => .file isPrivate (bytes ++ piece)
  | .other => .other

/-- The directory of the plan store. -/
abbrev PlanDirectory := Directory String PlanNode

/-- What the store reads of `fs::Metadata`. -/
structure PlanMetadata where
  isFile : Bool
  length : Nat
  deriving DecidableEq

/-- The metadata of a node. -/
def PlanNode.metadata (node : PlanNode) : PlanMetadata :=
  { isFile := node.isFile, length := node.length }

/-! ## Calls -/

/-- Steps of the file system, and random references. -/
inductive PlanCall
  /-- `ArtifactRef::random`. -/
  | random
  /-- `Path::exists`. -/
  | pathExists (name : String)
  /-- `create_private_file`. -/
  | create (name : String)
  /-- A write to an open file. -/
  | append (file : Nat) (piece : List UInt8)
  /-- `File::sync_all`. -/
  | sync (file : Nat)
  /-- `fs::read_dir`, with the names it yields. -/
  | readDirectory
  /-- `fs::symlink_metadata`. -/
  | inspect (name : String)
  /-- `fs::hard_link`. -/
  | link (pending final : String)
  /-- `fs::remove_file`. -/
  | remove (name : String)
  /-- `sync_directory`. -/
  | syncDirectory
  deriving DecidableEq

/-- The type of the answer to each call. -/
def PlanAnswer : PlanCall → Type
  | .random => Except Unit ArtifactRef
  | .pathExists _ => Bool
  | .create _ => Except Unit Nat
  | .readDirectory => Except Unit (List String)
  | .inspect _ => Except Unit PlanMetadata
  | .append _ _ | .sync _ | .link _ _ | .remove _ | .syncDirectory => Except Unit Unit

/-- Programs of the plan store. -/
abbrev PlanProgram (α : Type) : Type := ExceptT String (Program PlanAnswer) α

/-- A random value which no pending name contains as its nonce: 128 random bits do not repeat. -/
def UnusedNonce (directory : PlanDirectory) (nonce : ArtifactRef) : Prop :=
  ∀ reference, directory.find? (pendingPath reference nonce) = none ∧
    directory.find? (pendingBindingPath reference nonce) = none

/-- The steps of a file system which works. -/
def performs : Environment PlanAnswer PlanDirectory
  | before, ⟨.random, .ok drawn⟩, after => UnusedNonce before drawn ∧ after = before
  | before, ⟨.pathExists name, present⟩, after =>
      present = (before.find? name).isSome ∧ after = before
  | before, ⟨.create name, .ok file⟩, after =>
      ∃ fresh, file = before.next ∧ after = before.create name (.file true []) fresh
  | before, ⟨.create name, .error ()⟩, after => before.find? name ≠ none ∧ after = before
  | before, ⟨.append file piece, .ok ()⟩, after =>
      after = before.update file ((before.nodes file).append piece)
  | before, ⟨.sync _, .ok ()⟩, after => after = before
  | before, ⟨.readDirectory, .ok names⟩, after =>
      names.Perm (before.entries.map Prod.fst) ∧ after = before
  | before, ⟨.inspect name, .ok metadata⟩, after =>
      ∃ node, before.find? name = some node ∧ metadata = (before.nodes node).metadata ∧
        after = before
  | before, ⟨.inspect name, .error ()⟩, after => before.find? name = none ∧ after = before
  | before, ⟨.link pending final, .ok ()⟩, after =>
      ∃ node present, before.find? pending = some node ∧
        ∃ fresh, after = before.link final node fresh present
  | before, ⟨.link pending final, .error ()⟩, after =>
      (before.find? pending = none ∨ before.find? final ≠ none) ∧ after = before
  | before, ⟨.remove name, .ok ()⟩, after =>
      before.find? name ≠ none ∧ after = before.remove name
  | before, ⟨.remove name, .error ()⟩, after => before.find? name = none ∧ after = before
  | before, ⟨.syncDirectory, .ok ()⟩, after => after = before
  | _, _, _ => False

/-- Whether a name has this nonce in the place where pending paths have it. -/
def usesNonce (nonce : ArtifactRef) (name : String) : Bool :=
  (name.toList.drop 24).take 22 == nonce.encode.toList

theorem usesNonce_pending (reference nonce : ArtifactRef) (suffix : String) :
    usesNonce nonce ("." ++ reference.encode ++ "-" ++ nonce.encode ++ suffix) = true := by
  have width : ∀ reference : ArtifactRef, reference.encode.toList.length = 22 := by
    intro reference
    rw [String.length_toList, ArtifactRef.length_encode]
  have start : ("." ++ reference.encode ++ "-").toList.length = 24 := by
    simp [String.toList_append, width]
  rw [usesNonce, String.toList_append, String.toList_append, List.append_assoc,
    List.drop_left' start, List.take_left' (width nonce), beq_self_eq_true]

theorem unusedNonce_of_all {directory : PlanDirectory} {nonce : ArtifactRef}
    (unused : directory.entries.all (fun entry => !usesNonce nonce entry.1) = true) :
    UnusedNonce directory nonce := by
  have missing : ∀ name, usesNonce nonce name = true → directory.find? name = none := by
    intro name used
    refine Directory.find?_eq_none.mpr fun listed => ?_
    obtain ⟨entry, member, rfl⟩ := List.mem_map.mp listed
    have other := List.all_eq_true.mp unused entry member
    rw [used] at other
    cases other
  exact fun reference => ⟨missing _ (usesNonce_pending reference nonce _),
    missing _ (usesNonce_pending reference nonce _)⟩

/-- A file system which works, with the values which `ArtifactRef::random` is going to draw. -/
def working (state : PlanDirectory × List ArtifactRef) : (call : PlanCall) →
    Option (PlanAnswer call × PlanDirectory × List ArtifactRef)
  | .random =>
      match state.2 with
      | [] => none
      | drawn :: rest =>
          if state.1.entries.all (fun entry => !usesNonce drawn entry.1) then
            some (.ok drawn, state.1, rest)
          else none
  | .pathExists name => some ((state.1.find? name).isSome, state)
  | .create name =>
      if fresh : state.1.find? name = none then
        some (.ok state.1.next, state.1.create name (.file true []) fresh, state.2)
      else some (.error (), state)
  | .append file piece =>
      some (.ok (), state.1.update file ((state.1.nodes file).append piece), state.2)
  | .sync _ => some (.ok (), state)
  | .readDirectory => some (.ok (state.1.entries.map Prod.fst), state)
  | .inspect name =>
      match state.1.find? name with
      | none => some (.error (), state)
      | some node => some (.ok (state.1.nodes node).metadata, state)
  | .link pending final =>
      match state.1.find? pending with
      | none => some (.error (), state)
      | some node =>
          if fresh : state.1.find? final = none then
            if present : node < state.1.next then
              some (.ok (), state.1.link final node fresh present, state.2)
            else none
          else some (.error (), state)
  | .remove name =>
      match state.1.find? name with
      | none => some (.error (), state)
      | some _ => some (.ok (), state.1.remove name, state.2)
  | .syncDirectory => some (.ok (), state)

theorem performs_working {before after : PlanDirectory × List ArtifactRef} {call : PlanCall}
    {answer : PlanAnswer call} (stepped : working before call = some (answer, after)) :
    performs before.1 ⟨call, answer⟩ after.1 := by
  cases call with
  | random =>
      rw [working] at stepped
      split at stepped
      · cases stepped
      · split at stepped
        · rename_i unused
          cases stepped
          exact ⟨unusedNonce_of_all unused, rfl⟩
        · cases stepped
  | pathExists name =>
      cases stepped
      exact ⟨rfl, rfl⟩
  | create name =>
      rw [working] at stepped
      split at stepped
      · rename_i fresh
        cases stepped
        exact ⟨fresh, rfl, rfl⟩
      · rename_i taken
        cases stepped
        exact ⟨taken, rfl⟩
  | append file piece =>
      cases stepped
      rfl
  | sync file =>
      cases stepped
      rfl
  | readDirectory =>
      cases stepped
      exact ⟨.refl _, rfl⟩
  | inspect name =>
      rw [working] at stepped
      split at stepped
      · rename_i missing
        cases stepped
        exact ⟨missing, rfl⟩
      · rename_i node present
        cases stepped
        exact ⟨node, present, rfl, rfl⟩
  | link pending final =>
      rw [working] at stepped
      split at stepped
      · rename_i missing
        cases stepped
        exact ⟨.inl missing, rfl⟩
      · rename_i node present
        split at stepped
        · rename_i fresh
          split at stepped
          · rename_i known
            cases stepped
            exact ⟨node, known, present, fresh, rfl⟩
          · cases stepped
        · rename_i taken
          cases stepped
          exact ⟨.inr taken, rfl⟩
  | remove name =>
      rw [working] at stepped
      split at stepped
      · rename_i missing
        cases stepped
        exact ⟨missing, rfl⟩
      · rename_i node present
        cases stepped
        refine ⟨?_, rfl⟩
        rw [present]
        nofun
  | syncDirectory =>
      cases stepped
      rfl

namespace PlanProgram

/-- A value, or an error which is returned. -/
def ofResult {α : Type} (value : Except String α) : PlanProgram α := ExceptT.mk (.done value)

/-- `ArtifactRef::random`. -/
def random : PlanProgram ArtifactRef :=
  ExceptT.mk (.request PlanCall.random fun answer =>
    .done (answer.mapError fun _ => "plan reference generation failed"))

/-- `Path::exists`. -/
def pathExists (name : String) : PlanProgram Bool :=
  ExceptT.mk (.request (PlanCall.pathExists name) fun answer => .done (.ok answer))

/-- `create_private_file`. -/
def create (name : String) : PlanProgram Nat :=
  ExceptT.mk (.request (PlanCall.create name) fun answer =>
    .done (answer.mapError fun _ => "cannot create plan state"))

/-- A write to an open file. -/
def append (message : String) (file : Nat) (piece : List UInt8) : PlanProgram Unit :=
  ExceptT.mk (.request (PlanCall.append file piece) fun answer =>
    .done (answer.mapError fun _ => message))

/-- `File::sync_all`. -/
def sync (file : Nat) : PlanProgram Unit :=
  ExceptT.mk (.request (PlanCall.sync file) fun answer =>
    .done (answer.mapError fun _ => "cannot sync plan state"))

/-- `fs::read_dir`. -/
def readDirectory : PlanProgram (List String) :=
  ExceptT.mk (.request PlanCall.readDirectory fun answer =>
    .done (answer.mapError fun _ => "cannot inspect plan directory"))

/-- `fs::symlink_metadata`. -/
def inspect (name : String) : PlanProgram PlanMetadata :=
  ExceptT.mk (.request (PlanCall.inspect name) fun answer =>
    .done (answer.mapError fun _ => "cannot inspect plan directory"))

/-- `fs::hard_link`. -/
def link (message pending final : String) : PlanProgram Unit :=
  ExceptT.mk (.request (PlanCall.link pending final) fun answer =>
    .done (answer.mapError fun _ => message))

/-- `fs::remove_file`. -/
def remove (message name : String) : PlanProgram Unit :=
  ExceptT.mk (.request (PlanCall.remove name) fun answer =>
    .done (answer.mapError fun _ => message))

/-- `fs::remove_file` whose failure is ignored. -/
def discard (name : String) : Program PlanAnswer Unit :=
  .request (PlanCall.remove name) fun _ => .done ()

/-- `sync_directory`. -/
def syncDirectory : PlanProgram Unit :=
  ExceptT.mk (.request PlanCall.syncDirectory fun answer =>
    .done (answer.mapError fun _ => "cannot sync plan directory"))

end PlanProgram

open PlanProgram

/-! ## Files -/

/-- Write pieces through a `BoundedWriter`, and return how much it has left. -/
def writePieces (file : Nat) : Nat → List (List UInt8) → PlanProgram Nat
  | remaining, [] => return remaining
  | remaining, piece :: rest => do
      ofResult (reject (decide (remaining < piece.length)) "cannot serialize plan state")
      PlanProgram.append "cannot serialize plan state" file piece
      writePieces file (remaining - piece.length) rest

/-- `write_json`. -/
def writeJson (library : JsonLibrary) (name : String) (text : List UInt8) (maximum : Nat) :
    PlanProgram Unit := do
  let file ← create name
  let remaining ← writePieces file maximum (library.pieces text)
  ofResult (reject (decide (remaining < 1)) "plan state size limit exceeded")
  PlanProgram.append "plan state size limit exceeded" file [10]
  sync file

/-- `publish_new`. -/
def publishNew (message pending final : String) : PlanProgram Unit := do
  link message pending final
  remove message pending

/-! ## The store -/

/-- `BINDING_SCHEMA_VERSION`. -/
def bindingSchemaVersion : Nat := 1

/-- `MAX_BINDING_BYTES`. -/
def maxBindingBytes : Nat := 16 * 1024

/-- `CREATE_ATTEMPTS`. -/
def createAttempts : Nat := 8

/-- The bounds of the store. -/
structure PlanStore where
  maximumBytes : Nat
  maximumStoreBytes : Nat
  maximumFiles : Nat

/-- Whether a character may stand in a profile identifier. -/
def isIdCharacter (character : Char) : Bool :=
  ('a' ≤ character && character ≤ 'z') || isAsciiDigit character

/-- `validate_id`. -/
def validateId (value : String) : Except String Unit :=
  reject (!(decide (1 ≤ byteLen value) && decide (byteLen value ≤ 64) &&
    (value.toList.head?.any isIdCharacter) &&
    value.toList.tail.all fun character =>
      isIdCharacter character || character == '-' || character == '_'))
    "profile identifier is invalid"

/-- `validate_binding_inputs`. -/
def validateBindingInputs (sourceId sourceSha256 serverId serverSha256 : String)
    (credentialGeneration : Nat) : Except String Unit := do
  validateId sourceId
  validateId serverId
  reject (credentialGeneration == 0 || !isSha256 sourceSha256 || !isSha256 serverSha256)
    "plan profile binding is invalid"

/-- `logical_effects`. -/
def logicalEffects (plan : UploadPlan) : Nat :=
  if plan.summary.maxMutations = 0 then plan.summary.operations else plan.summary.maxMutations

/-- The arguments of a write. -/
structure PlanWrite where
  plan : UploadPlan
  sourceProfileId : String
  sourceProfileSha256 : String
  serverProfileId : String
  serverProfileSha256 : String
  credentialGeneration : Nat

/-- The binding which a write stores. -/
def PlanWrite.binding (write : PlanWrite) (planSha256 : String) : PlanBinding :=
  { schemaVersion := bindingSchemaVersion, planSha256, sourceProfileId := write.sourceProfileId
    sourceProfileSha256 := write.sourceProfileSha256, serverProfileId := write.serverProfileId
    serverProfileSha256 := write.serverProfileSha256
    credentialGeneration := write.credentialGeneration
    serverIdentitySha256 := write.plan.server.identitySha256
    maxLogicalEffects := logicalEffects write.plan }

namespace PlanStore

variable (store : PlanStore) (platform : Platform) (library : JsonLibrary)

/-- The loop of `check_store_bound`. -/
def inspectEntries : List String → Nat → Nat → PlanProgram Unit
  | [], _, _ => return ()
  | name :: rest, files, bytes => do
      let metadata ← inspect name
      ofResult (reject (!metadata.isFile) "plan directory entry is invalid")
      ofResult (reject (decide (store.maximumFiles < files + 1) ||
        decide (store.maximumStoreBytes < bytes + metadata.length)) "plan storage bound exceeded")
      inspectEntries rest (files + 1) (bytes + metadata.length)

/-- `check_store_bound`. -/
def checkStoreBound : PlanProgram Unit := do
  let names ← readDirectory
  store.inspectEntries names 0 0

/-- The fallible part of `write_new`, with the texts of the plan and of its binding. -/
def publish (reference nonce : ArtifactRef) (plan binding : List UInt8) : PlanProgram Unit := do
  writeJson library (pendingBindingPath reference nonce) binding maxBindingBytes
  writeJson library (pendingPath reference nonce) plan store.maximumBytes
  store.checkStoreBound
  publishNew "cannot publish plan binding" (pendingBindingPath reference nonce)
    (bindingPath reference)
  tryCatch (publishNew "cannot publish upload plan" (pendingPath reference nonce)
    (planPath reference)) fun error => do
      liftM (discard (bindingPath reference))
      throw error
  syncDirectory

/-- The clean-up of `write_new`. -/
def cleanUp (reference nonce : ArtifactRef) : Program PlanAnswer Unit := do
  discard (pendingPath reference nonce)
  discard (pendingBindingPath reference nonce)

/-- `write_new`. -/
def writeNew (reference : ArtifactRef) (plan binding : List UInt8) : PlanProgram Bool := do
  if ← PlanProgram.pathExists (planPath reference) then
    return false
  if ← PlanProgram.pathExists (bindingPath reference) then
    return false
  let nonce ← random
  tryCatch (store.publish library reference nonce plan binding) fun error => do
    liftM (cleanUp reference nonce)
    throw error
  return true

/-- The attempts of `write`. -/
def writeAttempts (plan : UploadPlan) (binding : PlanBinding) : Nat → PlanProgram PlanArtifact
  | 0 => ofResult (.error "plan reference capacity exhausted")
  | attempts + 1 => do
      let reference ← random
      if ← store.writeNew library reference (prettyBytes plan.serialize)
          (prettyBytes binding.serialize) then
        return { reference, schemaVersion := plan.schemaVersion, planSha256 := binding.planSha256
                 maxLogicalEffects := binding.maxLogicalEffects }
      else
        writeAttempts plan binding attempts

/-- `PlanStore::write`. -/
def write (request : PlanWrite) : PlanProgram PlanArtifact := do
  ofResult ((request.plan.validate platform).mapError fun _ => "upload plan is invalid")
  ofResult (validateBindingInputs request.sourceProfileId request.sourceProfileSha256
    request.serverProfileId request.serverProfileSha256 request.credentialGeneration)
  let planSha256 ← ofResult ((uploadPlanSha256 platform request.plan).mapError fun _ =>
    "upload plan digest failed")
  store.writeAttempts library request.plan (request.binding planSha256) createAttempts

end PlanStore

/-! ## Loading -/

/-- The identity and the length of a file. -/
structure FileStamp where
  identity : Nat
  length : Nat
  deriving DecidableEq

/-- `stamp`. -/
def stamp (identity : Nat) (node : PlanNode) (maximum : Nat) : Except String FileStamp :=
  match node with
  | .file isPrivate bytes =>
      if bytes.length = 0 ∨ maximum < bytes.length ∨ isPrivate = false then
        .error "plan state file is invalid"
      else .ok { identity, length := bytes.length }
  | .other => .error "plan state file is invalid"

/-- `file_stamp`. -/
def fileStamp (directory : PlanDirectory) (name : String) (maximum : Nat) :
    Except String FileStamp :=
  match directory.find? name with
  | none => .error "cannot inspect plan state"
  | some identity => stamp identity (directory.nodes identity) maximum

/-- `load_json`, while nothing else changes the directory. -/
def loadJson {α : Type} (parse : List UInt8 → Option α) (directory : PlanDirectory) (name : String)
    (maximum : Nat) : Except String (α × FileStamp) := do
  let opened ← fileStamp directory name maximum
  match directory.nodes opened.identity with
  | .other => .error "cannot open plan state"
  | .file _ bytes =>
      match parse bytes with
      | none => .error "stored plan state is invalid"
      | some value => return (value, opened)

/-- `validate_loaded`. -/
def validateLoaded (platform : Platform) (plan : UploadPlan) (binding : PlanBinding) :
    Except String Unit := do
  (plan.validate platform).mapError fun _ => "stored upload plan is invalid"
  validateBindingInputs binding.sourceProfileId binding.sourceProfileSha256
    binding.serverProfileId binding.serverProfileSha256 binding.credentialGeneration
  let digest ← (uploadPlanSha256 platform plan).mapError fun _ =>
    "stored upload plan digest failed"
  reject (binding.schemaVersion != bindingSchemaVersion || digest != binding.planSha256 ||
    !isSha256 binding.serverIdentitySha256 ||
    plan.server.identitySha256 != binding.serverIdentitySha256 ||
    logicalEffects plan != binding.maxLogicalEffects) "stored upload plan binding changed"

/-- `PlanStore::load`. -/
def PlanStore.load (store : PlanStore) (platform : Platform) (library : JsonLibrary)
    (directory : PlanDirectory) (reference : ArtifactRef) : Except String StoredUploadPlan := do
  let (binding, bindingStamp) ← loadJson library.parseBinding directory (bindingPath reference)
    maxBindingBytes
  let (plan, _) ← loadJson library.parsePlan directory (planPath reference) store.maximumBytes
  let again ← fileStamp directory (bindingPath reference) maxBindingBytes
  reject (again != bindingStamp) "plan binding identity changed"
  validateLoaded platform plan binding
  return { reference, plan, binding }

end ImmichRs.Web
