import Mathlib.Algebra.Group.Nat.Defs
import Mathlib.Tactic.Common

/-!
# Resource limits of the web console

Every bound which an operator may lower, its default, and the validation of a whole record.
-/

namespace ImmichRs.Web

/-- The largest `usize`, and the largest `u64`. -/
def maxWord : Nat := 2 ^ 64 - 1

/-- `saturating_add`. -/
def saturatingAdd (left right : Nat) : Nat := min (left + right) maxWord

theorem saturatingAdd_of_le {left right : Nat} (small : left + right ≤ maxWord) :
    saturatingAdd left right = left + right :=
  Nat.min_eq_left small

/-- Validated resource bounds, configurable only below hard maxima. -/
structure WebLimits where
  requestHeaderBytes : Nat
  requestBodyBytes : Nat
  acceptedConnections : Nat
  headerReadSeconds : Nat
  responseSeconds : Nat
  maxSessions : Nat
  sessionIdleSeconds : Nat
  sessionAbsoluteSeconds : Nat
  bootstrapLifetimeSeconds : Nat
  concurrentJobs : Nat
  queuedJobs : Nat
  retainedJobs : Nat
  sseSubscribersPerSession : Nat
  sseSubscribersPerProcess : Nat
  sseReplayEvents : Nat
  sseHeartbeatSeconds : Nat
  dnsAddresses : Nat
  historyPageRows : Nat
  historyRetainedRows : Nat
  historyRetentionDays : Nat
  historyStoreBytes : Nat
  planFileBytes : Nat
  planStoreBytes : Nat
  dryRunReceiptSeconds : Nat
  productionGrantSeconds : Nat
  backupReferenceBytes : Nat
  oidcDiscoveryBytes : Nat
  oidcJwksBytes : Nat
  oidcSigningKeys : Nat
  oidcStateSeconds : Nat
  oidcTokenBytes : Nat
  deriving DecidableEq, Repr

/-- `WebLimits::default`. -/
def WebLimits.default : WebLimits where
  requestHeaderBytes := 16 * 1024
  requestBodyBytes := 16 * 1024
  acceptedConnections := 16
  headerReadSeconds := 5
  responseSeconds := 15
  maxSessions := 8
  sessionIdleSeconds := 30 * 60
  sessionAbsoluteSeconds := 8 * 60 * 60
  bootstrapLifetimeSeconds := 10 * 60
  concurrentJobs := 1
  queuedJobs := 4
  retainedJobs := 128
  sseSubscribersPerSession := 4
  sseSubscribersPerProcess := 16
  sseReplayEvents := 128
  sseHeartbeatSeconds := 15
  dnsAddresses := 4
  historyPageRows := 50
  historyRetainedRows := 5000
  historyRetentionDays := 30
  historyStoreBytes := 32 * 1024 * 1024
  planFileBytes := 128 * 1024 * 1024
  planStoreBytes := 512 * 1024 * 1024
  dryRunReceiptSeconds := 5 * 60
  productionGrantSeconds := 90
  backupReferenceBytes := 256
  oidcDiscoveryBytes := 64 * 1024
  oidcJwksBytes := 256 * 1024
  oidcSigningKeys := 8
  oidcStateSeconds := 3 * 60
  oidcTokenBytes := 32 * 1024

/-- `(minimum..=maximum).contains(&value)`. -/
def between (minimum maximum value : Nat) : Bool := minimum ≤ value && value ≤ maximum

@[simp] theorem between_eq_true {minimum maximum value : Nat} :
    between minimum maximum value = true ↔ minimum ≤ value ∧ value ≤ maximum := by
  simp [between]

/-- The bounds on requests and sessions. -/
def WebLimits.sessionsValid (limits : WebLimits) : Bool :=
  between 1 (32 * 1024) limits.requestHeaderBytes &&
    between 1 (64 * 1024) limits.requestBodyBytes && between 1 32 limits.acceptedConnections &&
    between 1 10 limits.headerReadSeconds && between 1 30 limits.responseSeconds &&
    between 1 16 limits.maxSessions && between 1 (60 * 60) limits.sessionIdleSeconds &&
    between 1 (12 * 60 * 60) limits.sessionAbsoluteSeconds &&
    limits.sessionIdleSeconds ≤ limits.sessionAbsoluteSeconds &&
    between 1 (15 * 60) limits.bootstrapLifetimeSeconds

/-- The bounds on jobs, events and history. -/
def WebLimits.jobsValid (limits : WebLimits) : Bool :=
  between 1 4 limits.concurrentJobs && between 1 8 limits.queuedJobs &&
    between 1 256 limits.retainedJobs &&
    saturatingAdd limits.concurrentJobs limits.queuedJobs ≤ limits.retainedJobs &&
    between 1 8 limits.sseSubscribersPerSession &&
    between 1 32 limits.sseSubscribersPerProcess &&
    limits.sseSubscribersPerSession ≤ limits.sseSubscribersPerProcess &&
    between 1 256 limits.sseReplayEvents && between 1 30 limits.sseHeartbeatSeconds &&
    between 1 8 limits.dnsAddresses && between 1 100 limits.historyPageRows &&
    between 1 10000 limits.historyRetainedRows &&
    limits.historyPageRows ≤ limits.historyRetainedRows &&
    between 1 90 limits.historyRetentionDays &&
    between (1024 * 1024) (64 * 1024 * 1024) limits.historyStoreBytes &&
    between (1024 * 1024) (256 * 1024 * 1024) limits.planFileBytes

/-- The bounds on stored plans and grants. -/
def WebLimits.grantsValid (limits : WebLimits) : Bool :=
  saturatingAdd limits.planFileBytes (16 * 1024) ≤ limits.planStoreBytes &&
    limits.planStoreBytes ≤ 4 * 1024 * 1024 * 1024 &&
    between 1 (10 * 60) limits.dryRunReceiptSeconds &&
    between 1 120 limits.productionGrantSeconds && between 1 256 limits.backupReferenceBytes

/-- The bounds on single sign-on. -/
def WebLimits.oidcValid (limits : WebLimits) : Bool :=
  between 1 (128 * 1024) limits.oidcDiscoveryBytes &&
    between 1 (512 * 1024) limits.oidcJwksBytes && between 1 16 limits.oidcSigningKeys &&
    between 1 (5 * 60) limits.oidcStateSeconds && between 1 (64 * 1024) limits.oidcTokenBytes

/-- `WebLimits::validate`. -/
def WebLimits.validate (limits : WebLimits) : Except String WebLimits :=
  if limits.sessionsValid && limits.jobsValid && limits.grantsValid && limits.oidcValid then
    .ok limits
  else
    .error "web resource limits are invalid"

/-- Limits which passed their validation. -/
def WebLimits.Accepted (limits : WebLimits) : Prop := limits.validate = .ok limits

theorem WebLimits.accepted_iff {limits : WebLimits} :
    limits.Accepted ↔ limits.sessionsValid = true ∧ limits.jobsValid = true ∧
      limits.grantsValid = true ∧ limits.oidcValid = true := by
  simp [Accepted, validate, and_assoc]

theorem WebLimits.default_accepted : WebLimits.default.Accepted :=
  accepted_iff.mpr (by decide)

/-- What the job manager relies on. -/
structure WebLimits.BoundsJobs (limits : WebLimits) : Prop where
  concurrent : 1 ≤ limits.concurrentJobs ∧ limits.concurrentJobs ≤ 4
  queued : 1 ≤ limits.queuedJobs ∧ limits.queuedJobs ≤ 8
  retained : limits.retainedJobs ≤ 256
  room : limits.concurrentJobs + limits.queuedJobs ≤ limits.retainedJobs
  replay : 1 ≤ limits.sseReplayEvents

theorem WebLimits.Accepted.boundsJobs {limits : WebLimits} (accepted : limits.Accepted) :
    limits.BoundsJobs := by
  obtain ⟨-, jobs, -, -⟩ := accepted_iff.mp accepted
  simp only [jobsValid, Bool.and_eq_true, between_eq_true, decide_eq_true_eq] at jobs
  have small : limits.concurrentJobs + limits.queuedJobs ≤ maxWord := by
    unfold maxWord
    omega
  rw [saturatingAdd_of_le small] at jobs
  constructor <;> omega

end ImmichRs.Web
