import ImmichRs.Client.Requests
import ImmichRs.Core.Json
import ImmichRs.Sources.Scan

/-!
# Execution limits

The bounded concurrency and retry policy, its identity, and the deterministic backoff.  Durations
are in nanoseconds.
-/

namespace ImmichRs

/-- Executor failure class. -/
inductive ExecutorError
  | invalidConfiguration | invalidPlan | sourceDiagnostics | unsupportedMetadata | sourceChanged
  | cancelled | checkpoint | destination | client | invariant
  deriving DecidableEq, Repr

/-- Bounded scan, verification, concurrency and retry policy. -/
structure UploadExecutionConfig where
  scan : FolderScanConfig
  verificationBufferBytes : Nat
  concurrency : Nat
  maxAttemptsPerOperation : Nat
  maxRetriesPerRun : Nat
  retryBaseDelay : Nat
  retryDelayCap : Nat
  deriving DecidableEq, Repr

/-- `UploadExecutionConfig::default`. -/
def UploadExecutionConfig.default : UploadExecutionConfig :=
  { scan := .default
    verificationBufferBytes := 64 * 1024
    concurrency := 1
    maxAttemptsPerOperation := 3
    maxRetriesPerRun := 100
    retryBaseDelay := 100 * 1000000
    retryDelayCap := 10 * 1000000000 }

/-- `UploadExecutionConfig::validate`. -/
def UploadExecutionConfig.validate (config : UploadExecutionConfig) : Except ExecutorError Unit :=
  reject (!(within (4 * 1024) (4 * 1024 * 1024) config.verificationBufferBytes &&
    within 1 8 config.concurrency && within 1 10 config.maxAttemptsPerOperation &&
    decide (config.maxRetriesPerRun ≤ 10000) && config.retryBaseDelay != 0 &&
    decide (config.retryBaseDelay ≤ config.retryDelayCap) &&
    decide (config.retryDelayCap ≤ 300 * 1000000000))) .invalidConfiguration

/-- `duration_millis`, where a count above 64 bits is an error. -/
def durationMillis (duration : Nat) : Except ExecutorError Nat :=
  if duration / 1000000 < 2 ^ 64 then .ok (duration / 1000000) else .error .invalidConfiguration

/-- `UploadExecutionConfig::identity_sha256`. -/
def UploadExecutionConfig.identitySha256 (platform : Platform) (config : UploadExecutionConfig) :
    Except ExecutorError String := do
  config.validate
  let retryBaseDelayMs ← durationMillis config.retryBaseDelay
  let retryDelayCapMs ← durationMillis config.retryDelayCap
  return compactSha256 platform <| jsonObject
    [("scan_buffer_bytes", toString config.scan.bufferBytes),
      ("max_entries", toString config.scan.maxEntries),
      ("max_directory_entries", toString config.scan.maxDirectoryEntries),
      ("max_path_bytes", toString config.scan.maxPathBytes),
      ("case_sensitive", jsonBool config.scan.caseSensitive),
      ("verification_buffer_bytes", toString config.verificationBufferBytes),
      ("concurrency", toString config.concurrency),
      ("max_attempts_per_operation", toString config.maxAttemptsPerOperation),
      ("max_retries_per_run", toString config.maxRetriesPerRun),
      ("retry_base_delay_ms", toString retryBaseDelayMs),
      ("retry_delay_cap_ms", toString retryDelayCapMs)]

/-- The value of a hexadecimal digit in lower case. -/
def hexValue (digit : Char) : Nat :=
  if isAsciiDigit digit then digit.toNat - '0'.toNat else digit.toNat - 'a'.toNat + 10

/-- `u64::from_be_bytes(digest[..8])`, read from the hexadecimal digest. -/
def digestPrefix (digest : String) : Nat :=
  (digest.toList.take 16).foldl (fun value digit => value * 16 + hexValue digit) 0

/-- `u32::to_be_bytes`. -/
def u32BigEndian (value : Nat) : List UInt8 :=
  [24, 16, 8, 0].map fun shift => UInt8.ofNat (value / 2 ^ shift)

/-- `retry::delay`. -/
def retryDelay (platform : Platform) (operationId : String) (retryCount : Nat)
    (error : ClientError) (config : UploadExecutionConfig) : Nat :=
  match error.retryAfter with
  | some serverDelay => min serverDelay config.retryDelayCap
  | none =>
      let exponent := min (retryCount - 1) 20
      let exponential := min (config.retryBaseDelay * 2 ^ exponent) config.retryDelayCap
      let jitterWindow := min (config.retryBaseDelay / 1000000) (2 ^ 64 - 1) / 4
      if jitterWindow = 0 then
        exponential
      else
        let digest := platform.sha256 (utf8Bytes operationId ++ u32BigEndian retryCount)
        let jitter := digestPrefix digest % jitterWindow
        min (exponential + jitter * 1000000) config.retryDelayCap

/-- Every accepted policy makes at least one attempt and at most ten. -/
theorem UploadExecutionConfig.attempts_of_validate {config : UploadExecutionConfig}
    (valid : config.validate = .ok ()) :
    1 ≤ config.maxAttemptsPerOperation ∧ config.maxAttemptsPerOperation ≤ 10 := by
  simp only [UploadExecutionConfig.validate, reject_eq_ok, Bool.not_eq_false', Bool.and_eq_true,
    within, decide_eq_true_eq] at valid
  exact valid.1.1.1.1.2

/-- The backoff never exceeds the configured cap, whatever delay the server asks for. -/
theorem retryDelay_le_cap (platform : Platform) (operationId : String) (retryCount : Nat)
    (error : ClientError) (config : UploadExecutionConfig) :
    retryDelay platform operationId retryCount error config ≤ config.retryDelayCap := by
  cases requested : error.retryAfter with
  | some serverDelay =>
      simp only [retryDelay, requested]
      exact Nat.min_le_right _ _
  | none =>
      simp only [retryDelay, requested]
      split <;> exact Nat.min_le_right _ _

end ImmichRs
