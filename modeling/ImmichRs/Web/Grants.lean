import Mathlib.Data.Finset.Card
import Mathlib.Data.List.AList
import ImmichRs.Web.Limits
import ImmichRs.Web.Store

/-!
# Production grants

An owner who confirms a current dry run receives a grant: one entry of the store, bound to the
receipt and to a fresh idempotency key, which admits one apply job before its deadline.  Confirming
reads the console's profiles and stores before it takes the lock, so every operation is one step
on the store's state; what it read is its environment.
-/

namespace ImmichRs.Web

/-- Why a job was not admitted. -/
inductive AdmissionError
  | full | unknownProfile | unavailable
  deriving DecidableEq, Repr

/-- Why a grant was refused. -/
inductive GrantError
  | invalid | expired | unavailable
  | admission (error : AdmissionError)
  deriving DecidableEq, Repr

/-- The confirmation which an operator submits. -/
structure GrantRequest where
  receipt : ReceiptRef
  planSha256 : String
  maxLogicalEffects : Nat
  backupReference : String
  deriving DecidableEq

/-- What the operator is shown. -/
structure GrantView where
  idempotencyKey : String
  production : Bool
  deriving DecidableEq

/-- Everything which a grant is bound to. -/
structure GrantBinding where
  owner : Owner
  receipt : ReceiptRef
  dryRun : DryRunBinding
  sourceProfileId : String
  serverProfileId : String
  backupReferenceSha256 : Option String
  deriving DecidableEq

/-- The right to run one apply job. -/
structure ApplyCapability where
  prepared : PreparedUploadApply
  binding : GrantBinding
  deriving DecidableEq

/-! ## What the console reads -/

/-- Operator-selected access mode of a server. -/
inductive ServerMode
  | disposable | productionRead
  deriving DecidableEq, Repr

/-- The parts of a server profile which a grant is bound to. -/
structure ServerProfile where
  mode : ServerMode
  generationSha256 : String
  credentialGeneration : Nat
  deriving DecidableEq

/-- What confirming and admitting read of the console. -/
structure GrantEnvironment where
  /-- `now_unix`. -/
  nowUnix : Option Int
  /-- `HistoryStore::dry_run_receipt`; outside, whether the store could be read. -/
  dryRunReceipt : ReceiptRef → Option (Option DryRunReceipt)
  /-- `PlanStore::load`. -/
  loadPlan : ArtifactRef → Option StoredUploadPlan
  checkpoint : ArtifactRef → CheckpointFile
  server : String → Option ServerProfile
  /-- The generation digest of a source profile, as it resolves now. -/
  sourceGeneration : String → Option String
  /-- Whether the history profile resolves to the state which the store opened. -/
  matchesState : Bool

/-- `binding_is_current`. -/
def bindingIsCurrent (platform : Platform) (environment : GrantEnvironment)
    (grant : GrantBinding) : Bool :=
  match environment.dryRunReceipt grant.receipt,
    environment.loadPlan grant.dryRun.planReference,
    environment.server grant.serverProfileId,
    environment.sourceGeneration grant.sourceProfileId with
  | some (some receipt), some stored, some server, some generation =>
      receipt.binding == grant.dryRun && environment.matchesState &&
        stored.binding.planSha256 == grant.dryRun.planSha256 &&
        stored.binding.sourceProfileId == grant.sourceProfileId &&
        stored.binding.sourceProfileSha256 == generation &&
        sourceConfigurationDigest platform generation stored.plan.configurationSha256 ==
          grant.dryRun.sourceConfigurationSha256 &&
        stored.binding.serverProfileId == grant.serverProfileId &&
        stored.binding.serverIdentitySha256 == grant.dryRun.serverIdentitySha256 &&
        stored.binding.serverProfileSha256 == grant.dryRun.serverProfileSha256 &&
        stored.binding.credentialGeneration == grant.dryRun.credentialGeneration &&
        server.generationSha256 == grant.dryRun.serverProfileSha256 &&
        server.credentialGeneration == grant.dryRun.credentialGeneration &&
        stored.binding.maxLogicalEffects == grant.dryRun.maxLogicalEffects
  | _, _, _, _ => false

/-- `validate_receipt_age`. -/
def validateReceiptAge (environment : GrantEnvironment) (binding : DryRunBinding)
    (limits : WebLimits) : Except GrantError Unit :=
  match environment.nowUnix with
  | none => .error .unavailable
  | some now => do
      reject (decide (2 ^ 63 ≤ limits.dryRunReceiptSeconds)) .invalid
      reject (decide (now < binding.completedUnix) ||
        decide ((limits.dryRunReceiptSeconds : Int) < now - binding.completedUnix)) .expired

/-- `validate_backup`. -/
def validateBackup (platform : Platform) (reference : String) (production : Bool)
    (limits : WebLimits) : Except GrantError (Option String) :=
  if production then
    if acceptsBackupReference reference limits.backupReferenceBytes then
      .ok (some (platform.sha256 (utf8Bytes reference)))
    else
      .error .invalid
  else if reference.isEmpty then .ok none
  else .error .invalid

/-- The value of an optional result. -/
def okOr {ε α : Type} (value : Option α) (error : ε) : Except ε α :=
  match value with
  | some value => .ok value
  | none => .error error

@[simp] theorem okOr_eq_ok {ε α : Type} {value : Option α} {error : ε} {result : α} :
    okOr value error = .ok result ↔ value = some result := by
  cases value <;> simp [okOr]

/-- `GrantStore::prepare`. -/
def prepare (platform : Platform) (limits : WebLimits) (environment : GrantEnvironment)
    (owner : Owner) (request : GrantRequest) : Except GrantError (ApplyCapability × Bool) := do
  let receipt ← okOr (environment.dryRunReceipt request.receipt) .unavailable
  let receipt ← okOr receipt .invalid
  validateReceiptAge environment receipt.binding limits
  reject (request.planSha256 != receipt.binding.planSha256 ||
    request.maxLogicalEffects != receipt.binding.maxLogicalEffects) .invalid
  let stored ← okOr (environment.loadPlan receipt.binding.planReference) .invalid
  reject (stored.plan.schemaVersion != 1 && stored.plan.schemaVersion != 2) .invalid
  let newer ← (receiptIsNewerThanCheckpoint (environment.checkpoint receipt.binding.planReference)
    receipt.binding.completedUnix).mapError fun _ => .unavailable
  reject (!newer) .invalid
  let server ← okOr (environment.server stored.binding.serverProfileId) .invalid
  let production := server.mode == .productionRead
  let backupReferenceSha256 ← validateBackup platform request.backupReference production limits
  let productionRequest := if production then
    some (ProductionWriteRequest.mk request.planSha256 request.maxLogicalEffects
      request.backupReference) else none
  let prepared ← (prepareUploadApply platform stored.plan productionRequest).mapError fun _ =>
    .invalid
  let capability : ApplyCapability := .mk prepared
    (.mk owner request.receipt receipt.binding stored.binding.sourceProfileId
      stored.binding.serverProfileId backupReferenceSha256)
  reject (!bindingIsCurrent platform environment capability.binding) .invalid
  return (capability, production)

/-- What a prepared capability rests on. -/
structure Prepared (environment : GrantEnvironment) (owner : Owner) (request : GrantRequest)
    (capability : ApplyCapability) : Prop where
  owned : capability.binding.owner = owner
  receipt : capability.binding.receipt = request.receipt
  completed : ∃ receipt, environment.dryRunReceipt request.receipt = some (some receipt) ∧
    receipt.binding = capability.binding.dryRun
  aged : ∃ now, environment.nowUnix = some now ∧ capability.binding.dryRun.completedUnix ≤ now
  newer : receiptIsNewerThanCheckpoint
    (environment.checkpoint capability.binding.dryRun.planReference)
    capability.binding.dryRun.completedUnix = .ok true

theorem validateReceiptAge_eq_ok {environment : GrantEnvironment} {binding : DryRunBinding}
    {limits : WebLimits} (valid : validateReceiptAge environment binding limits = .ok ()) :
    ∃ now, environment.nowUnix = some now ∧ binding.completedUnix ≤ now := by
  unfold validateReceiptAge at valid
  split at valid
  · cases valid
  · rename_i now clock
    simp only [reject_bind_eq_ok, reject_eq_ok, Bool.or_eq_false_iff, decide_eq_false_iff_not,
      not_lt] at valid
    exact ⟨now, clock, valid.2.1⟩

theorem prepare_eq_ok {platform : Platform} {limits : WebLimits}
    {environment : GrantEnvironment} {owner : Owner} {request : GrantRequest}
    {capability : ApplyCapability} {production : Bool}
    (prepared : prepare platform limits environment owner request = .ok (capability, production)) :
    Prepared environment owner request capability := by
  simp only [prepare, bind_eq_ok, okOr_eq_ok, mapError_eq_ok] at prepared
  obtain ⟨_, read, receipt, found, ⟨⟩, age, _, -, stored, -, _, -, newer, checked, ⟨⟩, fresh, server,
    -, backup, -, admission, -, _, -, made⟩ := prepared
  obtain ⟨rfl, -⟩ := Prod.mk.inj (Except.ok.inj made)
  obtain rfl : newer = true := by simpa using fresh
  rw [found] at read
  exact ⟨rfl, rfl, ⟨receipt, read, rfl⟩, validateReceiptAge_eq_ok age, checked⟩

/-! ## The store -/

/-- A monotonic instant, in nanoseconds. -/
abbrev Instant := Nat

/-- Whether a grant has been used. -/
inductive GrantStatus
  | pending (capability : Option ApplyCapability)
  | consumed (jobId : String)
  deriving DecidableEq

/-- The grant of one owner. -/
structure GrantEntry where
  receipt : ReceiptRef
  idempotencyKey : String
  deadline : Instant
  status : GrantStatus
  deriving DecidableEq

/-- The state under the store's lock. -/
structure GrantState where
  entries : AList fun _ : Owner => GrantEntry
  spentReceipts : Finset ReceiptRef

/-- The state of `GrantStore::new`. -/
def GrantState.empty : GrantState := { entries := ∅, spentReceipts := ∅ }

/-- How an apply job was admitted. -/
inductive GrantAdmission
  | admitted (jobId : String)
  | existing (jobId : String)
  deriving DecidableEq

/-- The job which an admission names. -/
def GrantAdmission.jobId : GrantAdmission → String
  | .admitted jobId => jobId
  | .existing jobId => jobId

/-- What a store is opened with. -/
structure GrantStore where
  platform : Platform
  limits : WebLimits
  /-- The first instant which the clock cannot represent. -/
  horizon : Instant

/-- The lifetime of a grant, in nanoseconds. -/
def GrantStore.lifetime (store : GrantStore) : Nat :=
  1000000000 * store.limits.productionGrantSeconds

/-- `Instant::checked_add` of the lifetime of a grant. -/
def GrantStore.deadline (store : GrantStore) (now : Instant) : Option Instant :=
  if now + store.lifetime < store.horizon then some (now + store.lifetime) else none

theorem GrantStore.deadline_eq_some {store : GrantStore} {now deadline : Instant}
    (found : store.deadline now = some deadline) : deadline = now + store.lifetime := by
  unfold GrantStore.deadline at found
  split at found
  · exact (Option.some.inj found).symm
  · cases found

/-- `GrantStore::confirm_at`, with the random key or its failure. -/
def GrantStore.confirmAt (store : GrantStore) (state : GrantState) (owner : Owner)
    (request : GrantRequest) (now : Instant) (environment : GrantEnvironment)
    (randomKey : Option String) : GrantState × Except GrantError GrantView :=
  match prepare store.platform store.limits environment owner request with
  | .error error => (state, .error error)
  | .ok (capability, production) =>
      match randomKey with
      | none => (state, .error .unavailable)
      | some idempotencyKey =>
          match store.deadline now with
          | none => (state, .error .unavailable)
          | some deadline =>
              if request.receipt ∈ state.spentReceipts then
                (state, .error .invalid)
              else
                ({ state with
                    entries := state.entries.insert owner
                      { receipt := capability.binding.receipt
                        idempotencyKey
                        deadline
                        status := .pending (some capability) } },
                  .ok { idempotencyKey, production })

/-- What an admission returns, and the capability which it handed to the callback. -/
structure AdmissionReply where
  result : Except GrantError GrantAdmission
  handed : Option ApplyCapability

/-- A refusal before the callback. -/
def AdmissionReply.refused (error : GrantError) : AdmissionReply :=
  { result := .error error, handed := none }

/-- `state.entries.remove(&owner)`. -/
def GrantState.revokeOwner (state : GrantState) (owner : Owner) : GrantState :=
  { state with entries := state.entries.erase owner }

/-- `GrantStore::admit_locked`, with the callback's result for each capability. -/
def GrantStore.admitLocked (store : GrantStore) (state : GrantState) (owner : Owner)
    (receipt : ReceiptRef) (idempotencyKey : String) (now : Instant)
    (environment : GrantEnvironment) (admission : ApplyCapability → Except AdmissionError String) :
    GrantState × AdmissionReply :=
  match state.entries.lookup owner with
  | none => (state, .refused .invalid)
  | some entry =>
      if entry.receipt ≠ receipt ∨ entry.idempotencyKey ≠ idempotencyKey then
        (state, .refused .invalid)
      else if entry.deadline ≤ now then
        (state.revokeOwner owner, .refused .expired)
      else
        match entry.status with
        | .consumed jobId => (state, { result := .ok (.existing jobId), handed := none })
        | .pending slot =>
            if receipt ∈ state.spentReceipts ∨
                store.limits.historyRetainedRows ≤ state.spentReceipts.card then
              (state.revokeOwner owner, .refused .unavailable)
            else
              match slot with
              | none => (state, .refused .unavailable)
              | some capability =>
                  if capability.prepared.isProduction ≠
                        capability.binding.backupReferenceSha256.isSome ∨
                      bindingIsCurrent store.platform environment capability.binding = false then
                    (state.revokeOwner owner, .refused .invalid)
                  else
                    match admission capability with
                    | .error error =>
                        (state.revokeOwner owner,
                          { result := .error (.admission error), handed := some capability })
                    | .ok jobId =>
                        ({ entries := state.entries.insert owner
                              { entry with status := .consumed jobId }
                           spentReceipts := insert receipt state.spentReceipts },
                          { result := .ok (.admitted jobId), handed := some capability })

/-! ## A current dry run -/

/-- A dry run of `plan` for a disposable server, completed at the given time. -/
def sampleDryRun (platform : Platform) (plan : UploadPlan) (completedUnix : Int) :
    DryRunBinding where
  planReference := ⟨0#128⟩
  planSha256 := digestOf '1'
  sourceConfigurationSha256 :=
    sourceConfigurationDigest platform (digestOf '2') plan.configurationSha256
  serverIdentitySha256 := digestOf '3'
  serverProfileSha256 := digestOf '4'
  credentialGeneration := 1
  maxLogicalEffects := 1
  completedUnix

/-- What `plan` was stored with. -/
def sampleStored (plan : UploadPlan) : StoredUploadPlan where
  reference := ⟨0#128⟩
  plan
  binding :=
    { schemaVersion := 1
      planSha256 := digestOf '1'
      sourceProfileId := "photos"
      sourceProfileSha256 := digestOf '2'
      serverProfileId := "server"
      serverProfileSha256 := digestOf '4'
      credentialGeneration := 1
      serverIdentitySha256 := digestOf '3'
      maxLogicalEffects := 1 }

/-- A console whose profiles have not changed since the dry runs, which it completed at the given
times. -/
def sampleEnvironment (platform : Platform) (plan : UploadPlan) (now : Int)
    (completed : ReceiptRef → Int) (checkpoint : ArtifactRef → CheckpointFile) :
    GrantEnvironment where
  nowUnix := some now
  dryRunReceipt reference :=
    some (some { reference, binding := sampleDryRun platform plan (completed reference) })
  loadPlan _ := some (sampleStored plan)
  checkpoint
  server _ :=
    some { mode := .disposable, generationSha256 := digestOf '4', credentialGeneration := 1 }
  sourceGeneration _ := some (digestOf '2')
  matchesState := true

/-- The capability which confirming such a dry run prepares. -/
def sampleCapability (platform : Platform) (plan : UploadPlan) (owner : Owner)
    (receipt : ReceiptRef) (completedUnix : Int) : ApplyCapability where
  prepared := { plan, production := none }
  binding :=
    { owner
      receipt
      dryRun := sampleDryRun platform plan completedUnix
      sourceProfileId := "photos"
      serverProfileId := "server"
      backupReferenceSha256 := none }

/-- The confirmation of a receipt for a disposable server. -/
def sampleRequest (receipt : ReceiptRef) : GrantRequest where
  receipt
  planSha256 := digestOf '1'
  maxLogicalEffects := 1
  backupReference := ""

theorem sampleCapability_current (platform : Platform) (plan : UploadPlan) (owner : Owner)
    (receipt : ReceiptRef) (now : Int) (completed : ReceiptRef → Int)
    (checkpoint : ArtifactRef → CheckpointFile) :
    bindingIsCurrent platform (sampleEnvironment platform plan now completed checkpoint)
      (sampleCapability platform plan owner receipt (completed receipt)).binding = true := by
  simp [bindingIsCurrent, sampleEnvironment, sampleCapability, sampleDryRun, sampleStored]

theorem prepare_sample (platform : Platform) {plan : UploadPlan} (folder : plan.schemaVersion = 1)
    (owner : Owner) (receipt : ReceiptRef) {now : Int} {completed : ReceiptRef → Int}
    {checkpoint : ArtifactRef → CheckpointFile} (past : completed receipt ≤ now)
    (recent : now - completed receipt ≤ 300)
    (newer : receiptIsNewerThanCheckpoint (checkpoint ⟨0#128⟩) (completed receipt) = .ok true) :
    prepare platform .default (sampleEnvironment platform plan now completed checkpoint) owner
      (sampleRequest receipt) =
        .ok (sampleCapability platform plan owner receipt (completed receipt), false) := by
  have current := sampleCapability_current platform plan owner receipt now completed checkpoint
  have age : validateReceiptAge (sampleEnvironment platform plan now completed checkpoint)
      (sampleDryRun platform plan (completed receipt)) .default = .ok () := by
    have small : ¬ 2 ^ 63 ≤ WebLimits.default.dryRunReceiptSeconds := by decide
    have limit : (WebLimits.default.dryRunReceiptSeconds : Int) = 300 := rfl
    have inside : (decide (now < completed receipt) ||
        decide ((WebLimits.default.dryRunReceiptSeconds : Int) < now - completed receipt)) =
          false := by
      rw [limit]
      simp [past, recent]
    exact (reject_bind_eq_ok _ _ _ _).mpr ⟨decide_eq_false small, (reject_eq_ok _ _).mpr inside⟩
  have admitted : prepareUploadApply platform plan none = .ok { plan, production := none } := by
    simp [prepareUploadApply, validateProductionConfirmation, folder, uploadPlanSchemaVersion,
      reject, bind, Except.bind, pure, Except.pure]
  have stored : (sampleEnvironment platform plan now completed checkpoint).loadPlan
      (sampleDryRun platform plan (completed receipt)).planReference =
        some (sampleStored plan) := rfl
  have fresh : receiptIsNewerThanCheckpoint
      ((sampleEnvironment platform plan now completed checkpoint).checkpoint
        (sampleDryRun platform plan (completed receipt)).planReference)
      (sampleDryRun platform plan (completed receipt)).completedUnix = .ok true := newer
  rw [prepare, show (sampleEnvironment platform plan now completed checkpoint).dryRunReceipt
    (sampleRequest receipt).receipt = some (some (.mk receipt
      (sampleDryRun platform plan (completed receipt)))) from rfl]
  simp only [okOr, bind, Except.bind, age, stored, fresh]
  have server : (sampleEnvironment platform plan now completed checkpoint).server "server" =
      some { mode := .disposable, generationSha256 := digestOf '4', credentialGeneration := 1 } :=
    rfl
  simp only [sampleCapability, sampleDryRun] at current
  simp [sampleRequest, sampleDryRun, sampleStored, reject, folder, Except.mapError, server,
    validateBackup, admitted, sampleCapability, current, pure, Except.pure]

end ImmichRs.Web
