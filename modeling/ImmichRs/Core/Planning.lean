import ImmichRs.Core.Sha256
import Mathlib.Algebra.BigOperators.Group.List.Basic
import Mathlib.Data.List.Lex
import Mathlib.Data.Prod.Lex
import Mathlib.Data.UInt

/-!
# Normalized plans

The versioned output of a read-only scan and its validator.  Diagnostics are ordered by rule, code
and paths, as their derived order compares them.
-/

namespace ImmichRs

open Std (ExtTreeSet)

/-- Kind of input adapter that produced a plan. -/
inductive SourceKind
  | folder | googleTakeout | applePhotos | picasa | immich
  deriving DecidableEq, Repr

/-- Unicode normalization applied to portable paths. -/
inductive UnicodeNormalization
  | nfc
  deriving DecidableEq, Repr

/-- Media classification. -/
inductive MediaKind
  | image | video
  deriving DecidableEq, Repr

/-- Privacy-aware description of a scanned source. -/
structure SourceDescriptor where
  kind : SourceKind
  label : String
  fingerprintSha256 : String
  caseSensitive : Bool
  unicodeNormalization : UnicodeNormalization
  deriving DecidableEq, Repr

/-- Supported metadata sidecar family. -/
inductive MetadataKind
  | json | xmp
  deriving DecidableEq, Repr

/-- Role of an asset in a live-photo pair. -/
inductive LivePhotoRole
  | image | video
  deriving DecidableEq, Repr

/-- Explainable evidence used to make a planning decision. -/
structure RuleEvidence where
  ruleId : String
  outcome : String
  deriving DecidableEq, Repr

/-- A sidecar that may contribute metadata to an asset. -/
structure MetadataCandidate where
  relativePath : String
  kind : MetadataKind
  ruleId : String
  deriving DecidableEq, Repr

/-- Stable live-photo membership without an execution action. -/
structure LivePhotoMember where
  pairId : String
  role : LivePhotoRole
  deriving DecidableEq, Repr

/-- One source asset described without any server mutation capability. -/
structure CandidateAsset where
  operationId : String
  relativePath : String
  mediaKind : MediaKind
  byteLen : UInt64
  contentSha256 : String
  metadata : List MetadataCandidate
  normalizedMetadata : Option NormalizedMetadata
  livePhoto : Option LivePhotoMember
  evidence : List RuleEvidence
  deriving DecidableEq

/-- Explainable warning or error recorded in a normalized plan. -/
structure PlanDiagnostic where
  ruleId : String
  code : String
  paths : List String
  deriving DecidableEq, Repr

/-- The fields of a diagnostic in the order in which they are compared. -/
def PlanDiagnostic.key (diagnostic : PlanDiagnostic) : String ×ₗ String ×ₗ List String :=
  toLex (diagnostic.ruleId, toLex (diagnostic.code, diagnostic.paths))

theorem PlanDiagnostic.key_injective : Function.Injective PlanDiagnostic.key := by
  rintro ⟨_, _, _⟩ ⟨_, _, _⟩ equal
  simp only [PlanDiagnostic.key, toLex_inj, Prod.mk.injEq] at equal
  obtain ⟨rfl, rfl, rfl⟩ := equal
  rfl

instance : LinearOrder PlanDiagnostic :=
  LinearOrder.lift' PlanDiagnostic.key PlanDiagnostic.key_injective

/-- Read-only scan counters. -/
structure PlanSummary where
  assets : Nat
  sidecars : Nat
  bytesRead : Nat
  deriving DecidableEq

/-- Versioned immutable output of a read-only source scan. -/
structure NormalizedPlan where
  schemaVersion : Nat
  source : SourceDescriptor
  assets : List CandidateAsset
  warnings : List PlanDiagnostic
  errors : List PlanDiagnostic
  summary : PlanSummary
  deriving DecidableEq

/-- `NORMALIZED_PLAN_SCHEMA_VERSION`. -/
def normalizedPlanSchemaVersion : Nat := 1

/-- `NORMALIZED_PLAN_SCHEMA_VERSION_V2`. -/
def normalizedPlanSchemaVersionV2 : Nat := 2

/-- `NORMALIZED_PLAN_SCHEMA_VERSION_V3`. -/
def normalizedPlanSchemaVersionV3 : Nat := 3

/-- `NORMALIZED_PLAN_SCHEMA_VERSION_V4`. -/
def normalizedPlanSchemaVersionV4 : Nat := 4

/-- Reason a normalized plan failed its stable invariants. -/
inductive PlanValidationError
  | unsupportedSchema (version : Nat)
  | invalidSchemaSource
  | invalidSourceDescriptor
  | invalidAssetIdentity
  | assetsNotStrictlySorted
  | duplicateOperationId
  | missingRuleId
  | invalidNormalizedMetadata
  | summaryMismatch
  deriving DecidableEq, Repr

/-- `diagnostics.windows(2).all(|pair| pair[0] <= pair[1])`. -/
def diagnosticsSorted : List PlanDiagnostic → Bool
  | [] | [_] => true
  | first :: second :: rest => decide (first ≤ second) && diagnosticsSorted (second :: rest)

/-- The schema and source rules of `NormalizedPlan::validate`. -/
def NormalizedPlan.validateSchema (plan : NormalizedPlan) : Except PlanValidationError Unit := do
  reject (plan.schemaVersion != normalizedPlanSchemaVersion &&
    plan.schemaVersion != normalizedPlanSchemaVersionV2 &&
    plan.schemaVersion != normalizedPlanSchemaVersionV3 &&
    plan.schemaVersion != normalizedPlanSchemaVersionV4) (.unsupportedSchema plan.schemaVersion)
  reject (plan.schemaVersion == normalizedPlanSchemaVersionV2 &&
    plan.source.kind != .googleTakeout) .invalidSchemaSource
  reject (plan.schemaVersion == normalizedPlanSchemaVersionV3 &&
    plan.source.kind != .applePhotos) .invalidSchemaSource
  reject (plan.schemaVersion == normalizedPlanSchemaVersionV4 &&
    plan.source.kind != .picasa) .invalidSchemaSource
  reject (plan.source.kind == .applePhotos &&
    plan.schemaVersion != normalizedPlanSchemaVersionV3) .invalidSchemaSource
  reject (plan.source.kind == .picasa &&
    plan.schemaVersion != normalizedPlanSchemaVersionV4) .invalidSchemaSource
  reject (plan.source.kind == .immich) .invalidSchemaSource
  reject (plan.source.label.isEmpty || byteLen plan.source.fingerprintSha256 != 64)
    .invalidSourceDescriptor

section

variable (platform : Platform)

/-- The loop of `NormalizedPlan::validate` over the assets. -/
def validateAssets (schemaVersion : Nat) :
    List CandidateAsset → Option String → ExtTreeSet String → Except PlanValidationError Unit
  | [], _, _ => .ok ()
  | asset :: rest, previousPath, operationIds => do
      reject (asset.relativePath.isEmpty || byteLen asset.operationId != 64 ||
        byteLen asset.contentSha256 != 64) .invalidAssetIdentity
      reject (previousPath.any fun path => decide (asset.relativePath ≤ path))
        .assetsNotStrictlySorted
      reject (operationIds.contains asset.operationId) .duplicateOperationId
      reject ((asset.evidence.any fun evidence => evidence.ruleId.isEmpty) ||
        asset.metadata.any fun metadata => metadata.ruleId.isEmpty) .missingRuleId
      reject ((schemaVersion == normalizedPlanSchemaVersion && asset.normalizedMetadata.isSome) ||
        asset.normalizedMetadata.any fun metadata => !metadata.isValid platform)
        .invalidNormalizedMetadata
      validateAssets schemaVersion rest (some asset.relativePath)
        (operationIds.insert asset.operationId)

/-- `NormalizedPlan::validate`. -/
def NormalizedPlan.validate (plan : NormalizedPlan) : Except PlanValidationError Unit := do
  plan.validateSchema
  validateAssets platform plan.schemaVersion plan.assets none ∅
  reject (plan.summary.assets != plan.assets.length ||
    plan.summary.sidecars != (plan.assets.map fun asset => asset.metadata.length).sum ||
    !diagnosticsSorted plan.warnings || !diagnosticsSorted plan.errors) .summaryMismatch

/-! ## What an accepted plan satisfies -/

/-- The checks of one asset that do not depend on its position. -/
structure CandidateAsset.Valid (schemaVersion : Nat) (asset : CandidateAsset) : Prop where
  path : asset.relativePath.isEmpty = false
  operationId : ImmichRs.byteLen asset.operationId = 64
  content : ImmichRs.byteLen asset.contentSha256 = 64
  evidence : ∀ evidence ∈ asset.evidence, evidence.ruleId.isEmpty = false
  sidecars : ∀ sidecar ∈ asset.metadata, sidecar.ruleId.isEmpty = false
  bare : schemaVersion = normalizedPlanSchemaVersion → asset.normalizedMetadata = none
  metadata : ∀ metadata ∈ asset.normalizedMetadata, metadata.isValid platform = true

/-- The content of a successful `NormalizedPlan::validate`. -/
structure NormalizedPlan.Accepted (plan : NormalizedPlan) : Prop where
  schema : plan.validateSchema = .ok ()
  valid : ∀ asset ∈ plan.assets, asset.Valid platform plan.schemaVersion
  sorted : (plan.assets.map CandidateAsset.relativePath).Pairwise (· < ·)
  unique : (plan.assets.map CandidateAsset.operationId).Nodup
  assets : plan.summary.assets = plan.assets.length
  sidecars : plan.summary.sidecars = (plan.assets.map fun asset => asset.metadata.length).sum
  warnings : diagnosticsSorted plan.warnings = true
  errors : diagnosticsSorted plan.errors = true

theorem validateAssets_ok_iff (schemaVersion : Nat) (assets : List CandidateAsset)
    (previousPath : Option String) (ids : ExtTreeSet String) :
    validateAssets platform schemaVersion assets previousPath ids = .ok () ↔
      (∀ asset ∈ assets, asset.Valid platform schemaVersion) ∧
        (previousPath.toList ++ assets.map CandidateAsset.relativePath).Pairwise (· < ·) ∧
        (assets.map CandidateAsset.operationId).Nodup ∧
        ∀ asset ∈ assets, asset.operationId ∉ ids := by
  induction assets generalizing previousPath ids with
  | nil => cases previousPath <;> simp [validateAssets]
  | cons asset rest induction =>
      simp only [validateAssets, reject_bind_eq_ok, induction, Bool.or_eq_false_iff,
        bne_eq_false_iff_eq, Option.any_eq_false, decide_eq_false_iff_not, not_le,
        List.any_eq_false, Bool.not_eq_true, Bool.and_eq_false_iff, beq_eq_false_iff_ne,
        Bool.not_eq_false', Option.isSome_eq_false_iff, Option.isNone_iff_eq_none,
        ← Bool.not_eq_true (ids.contains _), ExtTreeSet.contains_iff_mem]
      constructor
      · rintro ⟨⟨⟨path, id⟩, content⟩, above, fresh, ⟨evidence, sidecars⟩, ⟨bare, metadata⟩,
          restValid, restSorted, restUnique, restFresh⟩
        simp only [Option.toList_some, List.singleton_append] at restSorted
        have valid : asset.Valid platform schemaVersion :=
          ⟨path, id, content, evidence, sidecars, fun same => bare.resolve_left (absurd same),
            metadata⟩
        refine ⟨List.forall_mem_cons.mpr ⟨valid, restValid⟩, ?_, ?_, ?_⟩
        · cases previousPath with
          | none => simpa using restSorted
          | some path =>
              have first : path < asset.relativePath := above path rfl
              refine List.pairwise_cons.mpr ⟨fun later member => ?_, restSorted⟩
              rcases List.mem_cons.mp member with rfl | member
              · exact first
              · exact first.trans ((List.pairwise_cons.mp restSorted).1 later member)
        · refine List.nodup_cons.mpr ⟨fun member => ?_, restUnique⟩
          obtain ⟨other, otherMember, same⟩ := List.mem_map.mp member
          have := restFresh other otherMember
          simp [ExtTreeSet.mem_insert, same] at this
        · intro other member
          rcases List.mem_cons.mp member with rfl | member
          · exact fresh
          · have := restFresh other member
            simp only [ExtTreeSet.mem_insert, not_or] at this
            exact this.2
      · rintro ⟨valid, sorted, unique, fresh⟩
        simp only [List.map_cons, List.nodup_cons] at unique
        have head := valid asset List.mem_cons_self
        refine ⟨⟨⟨head.path, head.operationId⟩, head.content⟩, ?_, fresh asset List.mem_cons_self,
          ⟨head.evidence, head.sidecars⟩, ⟨?_, head.metadata⟩,
          fun other member => valid other (List.mem_cons_of_mem _ member), ?_, unique.2, ?_⟩
        · rintro path rfl
          exact (List.pairwise_cons.mp sorted).1 _ List.mem_cons_self
        · by_cases first : schemaVersion = normalizedPlanSchemaVersion
          · exact .inr (head.bare first)
          · exact .inl first
        · exact (List.pairwise_append.mp sorted).2.1
        · intro other member
          simp only [ExtTreeSet.mem_insert, not_or, Std.compare_eq_iff_eq]
          refine ⟨fun same => unique.1 ?_, fresh other (List.mem_cons_of_mem _ member)⟩
          exact List.mem_map.mpr ⟨other, member, same.symm⟩

/-- `NormalizedPlan::validate` accepts exactly the plans which satisfy its rules. -/
theorem NormalizedPlan.validate_ok_iff (plan : NormalizedPlan) :
    plan.validate platform = .ok () ↔ plan.Accepted platform := by
  simp only [NormalizedPlan.validate, bind_eq_ok, reject_eq_ok, Bool.or_eq_false_iff,
    bne_eq_false_iff_eq, Bool.not_eq_false']
  constructor
  · rintro ⟨⟨⟩, schema, ⟨⟩, listed, ⟨⟨assets, sidecars⟩, warnings⟩, errors⟩
    obtain ⟨valid, sorted, unique, _⟩ := (validateAssets_ok_iff platform _ _ _ _).mp listed
    exact ⟨schema, valid, sorted, unique, assets, sidecars, warnings, errors⟩
  · intro accepted
    refine ⟨(), accepted.schema, (), (validateAssets_ok_iff platform _ _ _ _).mpr ?_,
      ⟨⟨accepted.assets, accepted.sidecars⟩, accepted.warnings⟩, accepted.errors⟩
    exact ⟨accepted.valid, accepted.sorted, accepted.unique, by simp⟩

end

end ImmichRs
