import ImmichRs.Core.Production

/-!
# Private state of the web console

References to stored plans and receipts, what a completed dry run is bound to, the records of the
terminal history, and the modification time of an apply checkpoint.  Times are in whole seconds
since the Unix epoch.
-/

namespace ImmichRs.Web

/-- A principal's protected session. -/
abbrev Owner := BitVec 256

/-- Reference to a stored plan. -/
structure ArtifactRef where
  bytes : BitVec 128
  deriving DecidableEq

/-- Reference to a stored dry-run receipt. -/
structure ReceiptRef where
  bytes : BitVec 128
  deriving DecidableEq

/-- Everything which a completed dry run is bound to. -/
structure DryRunBinding where
  planReference : ArtifactRef
  planSha256 : String
  sourceConfigurationSha256 : String
  serverIdentitySha256 : String
  serverProfileSha256 : String
  credentialGeneration : Nat
  maxLogicalEffects : Nat
  completedUnix : Int
  deriving DecidableEq

/-- A stored dry-run receipt. -/
structure DryRunReceipt where
  reference : ReceiptRef
  binding : DryRunBinding
  deriving DecidableEq

/-- What a stored plan is bound to. -/
structure PlanBinding where
  schemaVersion : Nat
  planSha256 : String
  sourceProfileId : String
  sourceProfileSha256 : String
  serverProfileId : String
  serverProfileSha256 : String
  credentialGeneration : Nat
  serverIdentitySha256 : String
  maxLogicalEffects : Nat
  deriving DecidableEq

/-- A plan which a job published. -/
structure PlanArtifact where
  reference : ArtifactRef
  schemaVersion : Nat
  planSha256 : String
  maxLogicalEffects : Nat
  deriving DecidableEq

/-- A stored plan. -/
structure StoredUploadPlan where
  reference : ArtifactRef
  plan : UploadPlan
  binding : PlanBinding
  deriving DecidableEq

/-- Kind of a finished job. -/
inductive HistoryKind
  | folderScan | folderPlan | googleTakeoutPlan | applePhotosPlan | picasaPlan | folderDryRun
  | googleTakeoutDryRun | applePhotosDryRun | picasaDryRun | folderApply | googleTakeoutApply
  | applePhotosApply | picasaApply
  deriving DecidableEq, Repr

/-- How a job ended. -/
inductive TerminalStatus
  | completed | failed | cancelled
  deriving DecidableEq, Repr

/-- Aggregate counters which may be stored. -/
structure SafeCounters where
  assets : Nat
  sidecars : Nat
  bytesRead : Nat
  warnings : Nat
  errors : Nat
  maxLogicalEffects : Nat
  deriving DecidableEq

/-- `SafeCounters::default`. -/
def SafeCounters.default : SafeCounters :=
  { assets := 0, sidecars := 0, bytesRead := 0, warnings := 0, errors := 0, maxLogicalEffects := 0 }

/-- One row of the terminal history. -/
structure TerminalRecord where
  recordedUnix : Int
  kind : HistoryKind
  status : TerminalStatus
  plan : Option (ArtifactRef × Nat)
  counters : SafeCounters
  deriving DecidableEq

/-- What lies at the path of an apply checkpoint. -/
inductive CheckpointFile
  | absent
  /-- A private regular file, with its modification time unless it precedes the epoch. -/
  | privateFile (modified : Option Nat)
  /-- Anything else. -/
  | invalid
  deriving DecidableEq, Repr

/-- `ConsoleStore::receipt_is_newer_than_checkpoint`. -/
def receiptIsNewerThanCheckpoint (checkpoint : CheckpointFile) (completedUnix : Int) :
    Except String Bool :=
  match checkpoint with
  | .absent => .ok true
  | .invalid => .error "apply checkpoint is invalid"
  | .privateFile none => .error "apply checkpoint time is invalid"
  | .privateFile (some modified) =>
      if 0 ≤ completedUnix then .ok (decide ((modified : Int) < completedUnix))
      else .error "dry-run receipt time is invalid"

theorem receiptIsNewerThanCheckpoint_eq_true {checkpoint : CheckpointFile} {completedUnix : Int} :
    receiptIsNewerThanCheckpoint checkpoint completedUnix = .ok true ↔
      checkpoint = .absent ∨
        ∃ modified, checkpoint = .privateFile (some modified) ∧ (modified : Int) < completedUnix := by
  constructor
  · intro newer
    cases checkpoint with
    | absent => exact .inl rfl
    | invalid => simp [receiptIsNewerThanCheckpoint] at newer
    | privateFile modified =>
        cases modified with
        | none => simp [receiptIsNewerThanCheckpoint] at newer
        | some modified =>
            rw [receiptIsNewerThanCheckpoint] at newer
            split at newer
            · exact .inr ⟨modified, rfl, of_decide_eq_true (Except.ok.inj newer)⟩
            · cases newer
  · rintro (rfl | ⟨modified, rfl, earlier⟩)
    · rfl
    · have nonnegative : 0 ≤ completedUnix := by omega
      rw [receiptIsNewerThanCheckpoint, if_pos nonnegative, decide_eq_true earlier]

/-- `source_configuration_digest`. -/
def sourceConfigurationDigest (platform : Platform) (source configuration : String) : String :=
  platform.sha256
    (utf8Bytes "immich-rs-web-source-configuration-v1" ++ [0] ++ utf8Bytes source ++ [0] ++
      utf8Bytes configuration)

end ImmichRs.Web
