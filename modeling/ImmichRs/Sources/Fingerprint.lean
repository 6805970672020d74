import ImmichRs.Encoding.Splitting
import ImmichRs.Sources.Scanned

/-!
# What a source fingerprint binds

The fingerprint of a source hashes the fields of its assets, sidecars and diagnostics without a
count of any of them.  The second field of each record still tells which record it is: a digest
belongs to an asset, a rule to an attached sidecar and a decimal number to a sidecar; a diagnostic
starts with a rule, which no file has for its path.
-/

namespace ImmichRs

open Collections Encoding

/-! ## Fields -/

theorem length_u64LittleEndian (value : Nat) : (u64LittleEndian value).length = 8 := by
  simp [u64LittleEndian]

/-- Numbers of 64 bits are read back from their bytes. -/
theorem u64LittleEndian_injOn ⦃first second : Nat⦄ (firstFits : first < 2 ^ 64)
    (secondFits : second < 2 ^ 64) (same : u64LittleEndian first = u64LittleEndian second) :
    first = second := by
  have bytes : littleEndian 8 first = littleEndian 8 second := same
  apply littleEndian_injOn _ _ bytes
  · norm_num at firstFits ⊢
    exact firstFits
  · norm_num at secondFits ⊢
    exact secondFits

/-- A field which a 64-bit count can announce. -/
def Short (field : String) : Prop := byteLen field < 2 ^ 64

theorem fieldBytes_splits : Splits Short Anything fieldBytes := by
  have counted : Splits (fun content : List UInt8 => content.length < 2 ^ 64) Anything
      (fun content => u64LittleEndian content.length ++ content) :=
    Splits.counted length_u64LittleEndian u64LittleEndian_injOn
  have viewed : Splits Short Anything
      ((fun content => u64LittleEndian content.length ++ content) ∘ utf8Bytes) := by
    apply counted.comp utf8Bytes
    · intro field short
      rw [length_utf8Bytes]
      exact short
    · intro first second _ _ same
      exact utf8Bytes_injective same
  have fields : ((fun content => u64LittleEndian content.length ++ content) ∘ utf8Bytes) =
      fieldBytes := by
    funext field
    rw [Function.comp_apply, length_utf8Bytes]
    rfl
  rw [fields] at viewed
  exact viewed

section

variable (platform : SourcePlatform)

/-! ## Records -/

/-- A stream which starts with a source path and a second field of some form. -/
def Opens (second : String → Prop) (stream : List UInt8) : Prop :=
  ∃ path field rest, SourcePath platform path ∧ Short field ∧ second field ∧
    stream = fieldBytes path ++ (fieldBytes field ++ rest)

/-- The second field of an attached sidecar. -/
def IsSidecarRule (field : String) : Prop := field ∈ sidecarRules

/-- The second field of an asset. -/
def IsDigest (field : String) : Prop := isLowerSha256 field = true

/-- The second field of a sidecar. -/
def IsLength (field : String) : Prop := ∃ length : UInt64, field = toString length.toNat

variable {platform}

theorem SourcePath.isShort {path : String} (located : SourcePath platform path) : Short path :=
  located.short.trans_lt (by norm_num)

/-- The second field of a stream has one form only. -/
theorem Opens.unique {first second : String → Prop} {stream : List UInt8}
    (opensFirst : Opens platform first stream) (opensSecond : Opens platform second stream) :
    ∃ field, first field ∧ second field := by
  obtain ⟨path, field, rest, located, short, isFirst, rfl⟩ := opensFirst
  obtain ⟨other, otherField, otherRest, otherLocated, otherShort, isSecond, same⟩ := opensSecond
  have tails := (fieldBytes_splits located.isShort otherLocated.isShort trivial trivial same).2
  have fields := (fieldBytes_splits short otherShort trivial trivial tails).1
  exact ⟨field, isFirst, fields ▸ isSecond⟩

theorem underscore_of_isSidecarRule {field : String} (rule : IsSidecarRule field) :
    '_' ∈ field.toList := by
  have every : ∀ field ∈ sidecarRules, '_' ∈ field.toList := by decide
  exact every field rule

theorem underscore_of_isDigest {field : String} (digest : IsDigest field) : '_' ∉ field.toList := by
  intro member
  rw [IsDigest, isLowerSha256, Bool.and_eq_true, List.all_eq_true] at digest
  have underscore := digest.2 '_' member
  revert underscore
  decide

theorem toList_isLength (length : UInt64) :
    (toString length.toNat).toList = Nat.toDigits 10 length.toNat := by
  rw [Nat.toString_eq_ofList_toDigits, String.toList_ofList]

theorem underscore_of_isLength {field : String} (number : IsLength field) :
    '_' ∉ field.toList := by
  obtain ⟨length, rfl⟩ := number
  rw [toList_isLength]
  exact Nat.underscore_not_in_toDigits

/-- A decimal number of 64 bits has at most twenty digits. -/
theorem byteLen_toString_le (length : UInt64) : byteLen (toString length.toNat) ≤ 20 := by
  have ascii : ∀ digit ∈ Nat.toDigits 10 length.toNat, digit.utf8Size = 1 := by
    intro digit member
    have isDigit := Nat.isDigit_of_mem_toDigits (by decide) (by decide) member
    rw [Char.utf8Size_eq_one_iff, UInt32.le_iff_toNat_le]
    exact (Char.isDigit_iff_toNat.mp isDigit).2.trans (by decide)
  have digits : (Nat.toDigits 10 length.toNat).length ≤ 20 := by
    apply (Nat.length_toDigits_le_iff (by decide) (by decide)).mpr
    have bounded := length.toNat_lt
    omega
  rw [Nat.toString_eq_ofList_toDigits, byteLen_ofList_of_ascii ascii]
  exact digits

theorem isLength_not_isDigest {field : String} (number : IsLength field) : ¬ IsDigest field := by
  intro digest
  obtain ⟨length, rfl⟩ := number
  rw [IsDigest, isLowerSha256, Bool.and_eq_true, beq_iff_eq] at digest
  have bounded := byteLen_toString_le length
  omega

theorem toString_length_injective {first second : UInt64}
    (same : toString first.toNat = toString second.toNat) : first = second := by
  have digits := congrArg String.toList same
  rw [toList_isLength, toList_isLength] at digits
  have numbers := congrArg (Nat.ofDigitChars 10 · 0) digits
  simp only [Nat.ofDigitChars_ten_toDigits] at numbers
  exact UInt64.toNat_inj.mp numbers

theorem not_opens_two {first second : String → Prop} {stream : List UInt8}
    (opens : Opens platform first stream) (disjoint : ∀ field, first field → ¬ second field) :
    ¬ Opens platform second stream := by
  intro other
  obtain ⟨field, isFirst, isSecond⟩ := opens.unique other
  exact disjoint field isFirst isSecond

/-- An attached sidecar: its path and its rule. -/
def pairBytes (pair : String × String) : List UInt8 := fieldBytes pair.1 ++ fieldBytes pair.2

theorem IsSidecarRule.isShort {field : String} (rule : IsSidecarRule field) : Short field := by
  have every : ∀ field ∈ sidecarRules, ImmichRs.byteLen field < 100 := by decide
  exact (every field rule).trans (by norm_num)

theorem pairBytes_splits :
    Splits (fun pair : String × String => SourcePath platform pair.1 ∧ IsSidecarRule pair.2)
      Anything pairBytes := by
  have fields := fieldBytes_splits.seq fieldBytes_splits fun _ _ _ _ => trivial
  exact fields.mono (fun pair valid => ⟨valid.1.isShort, valid.2.isShort⟩) fun _ ends => ends

/-- What a fingerprint says of an asset. -/
structure AssetIdentity where
  relativePath : String
  contentSha256 : String
  byteLen : UInt64
  /-- The paths of the attached sidecars, with their rules. -/
  sidecars : List (String × String)
  deriving DecidableEq, Repr

/-- The identity of an asset. -/
def CandidateAsset.identity (asset : CandidateAsset) : AssetIdentity :=
  { relativePath := asset.relativePath
    contentSha256 := asset.contentSha256
    byteLen := asset.byteLen
    sidecars := asset.metadata.map fun metadata => (metadata.relativePath, metadata.ruleId) }

/-- The bytes of an asset. -/
def AssetIdentity.bytes (identity : AssetIdentity) : List UInt8 :=
  fieldBytes identity.relativePath ++ (fieldBytes identity.contentSha256 ++
    (fieldBytes (toString identity.byteLen.toNat) ++ identity.sidecars.flatMap pairBytes))

/-- The form of the assets which scans find. -/
structure AssetIdentity.Valid (platform : SourcePlatform) (identity : AssetIdentity) : Prop where
  path : SourcePath platform identity.relativePath
  content : IsDigest identity.contentSha256
  sidecars : ∀ pair ∈ identity.sidecars, SourcePath platform pair.1 ∧ IsSidecarRule pair.2

theorem IsDigest.isShort {field : String} (digest : IsDigest field) : Short field := by
  rw [IsDigest, isLowerSha256, Bool.and_eq_true, beq_iff_eq] at digest
  rw [Short, digest.1]
  norm_num

theorem isShort_length (length : UInt64) : Short (toString length.toNat) :=
  (byteLen_toString_le length).trans_lt (by norm_num)

theorem length_splits :
    Splits (fun _ : UInt64 => True) Anything (fieldBytes ∘ fun length => toString length.toNat) :=
  fieldBytes_splits.comp _ (fun length _ => isShort_length length) fun _ _ _ _ same =>
    toString_length_injective same

theorem pairs_splits :
    Splits (fun pairs : List (String × String) =>
        ∀ pair ∈ pairs, SourcePath platform pair.1 ∧ IsSidecarRule pair.2)
      (fun stream => Anything stream ∧ ¬ Opens platform IsSidecarRule stream)
      (fun pairs => pairs.flatMap pairBytes) := by
  apply pairBytes_splits.flatMap (Opens platform IsSidecarRule)
  · rintro ⟨path, rule⟩ stream ⟨located, known⟩
    exact ⟨path, rule, stream, located, known.isShort, known, List.append_assoc _ _ _⟩
  · exact fun _ _ => trivial

/-- The bytes of an asset split before everything but one more attached sidecar. -/
theorem AssetIdentity.bytes_splits :
    Splits (AssetIdentity.Valid platform) (fun stream => ¬ Opens platform IsSidecarRule stream)
      AssetIdentity.bytes := by
  have pairs := @pairs_splits platform
  have lengths := length_splits.seq pairs fun _ _ _ _ => trivial
  have contents := fieldBytes_splits.seq lengths fun _ _ _ _ => trivial
  have paths := fieldBytes_splits.seq contents fun _ _ _ _ => trivial
  have viewed : Splits (AssetIdentity.Valid platform)
      (fun stream => Anything stream ∧ ¬ Opens platform IsSidecarRule stream)
      AssetIdentity.bytes := by
    apply paths.comp fun identity : AssetIdentity => (identity.relativePath,
      identity.contentSha256, identity.byteLen, identity.sidecars)
    · intro identity valid
      exact ⟨valid.path.isShort, valid.content.isShort, trivial, valid.sidecars⟩
    · rintro ⟨path, content, length, sidecars⟩ ⟨_, _, _, _⟩ _ _ same
      simp only [Prod.mk.injEq] at same
      obtain ⟨rfl, rfl, rfl, rfl⟩ := same
      rfl
  exact viewed.mono (fun _ valid => valid) fun _ ends => ⟨trivial, ends⟩

theorem AssetIdentity.Valid.opens {identity : AssetIdentity} (valid : identity.Valid platform)
    (stream : List UInt8) : Opens platform IsDigest (identity.bytes ++ stream) := by
  refine ⟨identity.relativePath, identity.contentSha256,
    fieldBytes (toString identity.byteLen.toNat) ++ identity.sidecars.flatMap pairBytes ++ stream,
    valid.path, valid.content.isShort, valid.content, ?_⟩
  rw [AssetIdentity.bytes, List.append_assoc, List.append_assoc]

theorem isDigest_not_isSidecarRule (field : String) (digest : IsDigest field) :
    ¬ IsSidecarRule field :=
  fun rule => underscore_of_isDigest digest (underscore_of_isSidecarRule rule)

theorem assets_splits :
    Splits (fun assets : List AssetIdentity => ∀ asset ∈ assets, asset.Valid platform)
      (fun stream => ¬ Opens platform IsSidecarRule stream ∧ ¬ Opens platform IsDigest stream)
      (fun assets => assets.flatMap AssetIdentity.bytes) :=
  AssetIdentity.bytes_splits.flatMap _ (fun _ stream valid => valid.opens stream)
    fun _ opens => not_opens_two opens isDigest_not_isSidecarRule

/-- What a fingerprint says of a sidecar: its path, length and content. -/
abbrev SidecarIdentity : Type := String × UInt64 × String

/-- The identity of a sidecar. -/
def DiscoveredSidecar.identity (sidecar : DiscoveredSidecar) : SidecarIdentity :=
  (sidecar.relativePath, sidecar.byteLen, sidecar.contentSha256)

/-- The bytes of a sidecar. -/
def sidecarBytes (identity : SidecarIdentity) : List UInt8 :=
  fieldBytes identity.1 ++
    (fieldBytes (toString identity.2.1.toNat) ++ fieldBytes identity.2.2)

theorem sidecars_splits :
    Splits (fun sidecars : List SidecarIdentity => ∀ identity ∈ sidecars,
        SourcePath platform identity.1 ∧ IsDigest identity.2.2)
      (fun stream => Anything stream ∧ ¬ Opens platform IsLength stream)
      (fun sidecars => sidecars.flatMap sidecarBytes) := by
  have lengths := length_splits.seq fieldBytes_splits fun _ _ _ _ => trivial
  have paths := fieldBytes_splits.seq lengths fun _ _ _ _ => trivial
  have records : Splits (fun identity : SidecarIdentity =>
      SourcePath platform identity.1 ∧ IsDigest identity.2.2) Anything sidecarBytes :=
    paths.mono (fun identity valid => ⟨valid.1.isShort, trivial, valid.2.isShort⟩) fun _ ends => ends
  apply records.flatMap (Opens platform IsLength)
  · rintro ⟨path, length, content⟩ stream ⟨located, digest⟩
    refine ⟨path, toString length.toNat, fieldBytes content ++ stream, located,
      isShort_length length, ⟨length, rfl⟩, ?_⟩
    rw [sidecarBytes, List.append_assoc, List.append_assoc]
  · exact fun _ _ => trivial

/-! ## Diagnostics -/

theorem pathFileName_diagnosticRules :
    ∀ rule ∈ diagnosticRules, (pathFileName rule).bind (rsplitOnce · '.') = none := by
  decide +kernel

/-- A name without a dot is no path of a file. -/
theorem not_sourcePath_of_rsplitOnce {path : String}
    (undotted : (pathFileName path).bind (rsplitOnce · '.') = none) :
    ¬ SourcePath platform path := by
  intro located
  apply located.extension
  rw [extension]
  cases named : pathFileName path with
  | none => rfl
  | some name =>
      rw [named, Option.bind_some] at undotted
      simp only [undotted]

/-- No file has a rule for its path. -/
theorem not_sourcePath_of_diagnosticRule {rule : String} (known : rule ∈ diagnosticRules) :
    ¬ SourcePath platform rule :=
  not_sourcePath_of_rsplitOnce (pathFileName_diagnosticRules rule known)

/-- The bytes of diagnostics. -/
def diagnosticBytes (diagnostics : List PlanDiagnostic) : List UInt8 :=
  (diagnostics.flatMap PlanDiagnostic.fingerprintFields).flatMap fieldBytes

theorem not_opens_diagnosticBytes {second : String → Prop} {diagnostics : List PlanDiagnostic}
    (known : ∀ diagnostic ∈ diagnostics, diagnostic.ruleId ∈ diagnosticRules) :
    ¬ Opens platform second (diagnosticBytes diagnostics) := by
  rintro ⟨path, field, rest, located, _, _, same⟩
  cases diagnostics with
  | nil =>
      have lengths := congrArg List.length same
      simp only [diagnosticBytes, fieldBytes, List.flatMap_nil, List.length_nil,
        List.length_append, length_u64LittleEndian] at lengths
      omega
  | cons diagnostic others =>
      have rule := known diagnostic List.mem_cons_self
      have every : ∀ rule ∈ diagnosticRules, byteLen rule < 100 := by decide
      have short : Short diagnostic.ruleId := (every _ rule).trans (by norm_num)
      rw [diagnosticBytes, List.flatMap_cons, PlanDiagnostic.fingerprintFields, List.cons_append,
        List.flatMap_cons] at same
      have equal := (fieldBytes_splits short located.isShort trivial trivial same).1
      rw [← equal] at located
      exact not_sourcePath_of_diagnosticRule rule located

/-! ## Sources -/

/-- Assets and sidecars are read back from what follows the name of the format. -/
theorem source_splits :
    Splits (fun source : List AssetIdentity × List SidecarIdentity =>
        (∀ asset ∈ source.1, asset.Valid platform) ∧
          ∀ sidecar ∈ source.2, SourcePath platform sidecar.1 ∧ IsDigest sidecar.2.2)
      (fun stream => ∀ second, ¬ Opens platform second stream)
      (fun source => source.1.flatMap AssetIdentity.bytes ++ source.2.flatMap sidecarBytes) := by
  have sidecars : Splits (fun sidecars : List SidecarIdentity => ∀ identity ∈ sidecars,
        SourcePath platform identity.1 ∧ IsDigest identity.2.2)
      (fun stream => ∀ second, ¬ Opens platform second stream)
      (fun sidecars => sidecars.flatMap sidecarBytes) :=
    sidecars_splits.mono (fun _ valid => valid) fun _ closed => ⟨trivial, closed IsLength⟩
  apply assets_splits.seq sidecars
  intro rest stream valid closed
  cases rest with
  | nil => exact ⟨closed IsSidecarRule, closed IsDigest⟩
  | cons sidecar rest =>
      obtain ⟨path, length, content⟩ := sidecar
      obtain ⟨located, _⟩ := valid _ List.mem_cons_self
      have opens : Opens platform IsLength
          (((path, length, content) :: rest).flatMap sidecarBytes ++ stream) := by
        refine ⟨path, toString length.toNat,
          fieldBytes content ++ rest.flatMap sidecarBytes ++ stream, located,
          isShort_length length, ⟨length, rfl⟩, ?_⟩
        simp only [List.flatMap_cons, sidecarBytes, List.append_assoc]
      constructor
      · apply not_opens_two opens
        intro field number rule
        exact underscore_of_isLength number (underscore_of_isSidecarRule rule)
      · apply not_opens_two opens
        intro field number
        exact isLength_not_isDigest number

/-- The bytes which `source_fingerprint` hashes for a reconciled state. -/
def ScanState.sourceMessage (platform : SourcePlatform) (state : ScanState) : List UInt8 :=
  utf8Bytes "normalized-plan-source-v1\x00" ++
    ((sortBy CandidateAsset.relativePath (state.media.map (candidateAsset platform))).flatMap
        CandidateAsset.fingerprintFields ++
      state.sidecars.flatMap (fun sidecar =>
        [sidecar.relativePath, toString sidecar.byteLen.toNat, sidecar.contentSha256]) ++
      (state.warnings ++ state.errors).flatMap PlanDiagnostic.fingerprintFields).flatMap fieldBytes

theorem fingerprintSha256_normalized (contents : String → Option (List UInt8)) (adapter : Adapter)
    (label : String) (state : ScanState) :
    (adapter.normalized platform contents label state).source.fingerprintSha256 =
      platform.sha256 ((adapter.reconcile platform contents state).sourceMessage platform) := rfl

theorem sourceMessage_eq (state : ScanState) :
    state.sourceMessage platform = utf8Bytes "normalized-plan-source-v1\x00" ++
      ((((sortBy CandidateAsset.relativePath (state.media.map (candidateAsset platform))).map
          CandidateAsset.identity).flatMap AssetIdentity.bytes ++
        (state.sidecars.map DiscoveredSidecar.identity).flatMap sidecarBytes) ++
          diagnosticBytes (state.warnings ++ state.errors)) := by
  have assets : ∀ asset : CandidateAsset,
      asset.fingerprintFields.flatMap fieldBytes = asset.identity.bytes := by
    intro asset
    simp [CandidateAsset.fingerprintFields, AssetIdentity.bytes, CandidateAsset.identity,
      List.flatMap_assoc, List.flatMap_map, pairBytes]
  simp only [ScanState.sourceMessage, List.flatMap_append, List.flatMap_assoc, assets,
    List.flatMap_map, diagnosticBytes, List.append_assoc]
  simp [sidecarBytes, DiscoveredSidecar.identity]

section

variable {adapter : Adapter} {form : SourceForm} {state : ScanState}

/-- Sidecars are attached by their own rules, under paths of prepared sidecars. -/
theorem Adapter.metadata_matched (adapter : Adapter) {state : ScanState}
    (fresh : state.Fresh platform) (contents : String → Option (List UInt8))
    {admitted : String → Prop} (admits : ∀ sidecar ∈ state.prepare.sidecars,
      admitted sidecar.relativePath) :
    ∀ item ∈ (adapter.matched platform contents state).media, ∀ candidate ∈ item.metadata,
      admitted candidate.relativePath ∧ IsSidecarRule candidate.ruleId := by
  have kept : KeptByTakeout admitted (fun _ => True) (fun _ => True)
      (fun item => ∀ candidate ∈ item.metadata,
        admitted candidate.relativePath ∧ IsSidecarRule candidate.ruleId) :=
    { attach := by
        intro sidecar rule media located known held candidate member
        rcases List.mem_append.mp member with member | member
        · exact held candidate member
        · obtain rfl := List.mem_singleton.mp member
          exact ⟨located, known⟩
      describe := fun _ _ _ held => held
      album := fun _ _ _ held => held
      merge := by
        intro merge aliased held other
        have both : ∀ candidate ∈ merge.canonical.metadata ++ aliased.metadata,
            admitted candidate.relativePath ∧ IsSidecarRule candidate.ruleId :=
          fun candidate member => (List.mem_append.mp member).elim (held candidate) (other candidate)
        rw [mergeAlias]
        dsimp only
        split
        · exact both
        · split <;> exact both
      collapse := fun _ held => held }
  apply kept.matched platform contents adapter admits
  intro media member candidate attached
  rw [(fresh_prepare fresh media member).metadata] at attached
  cases attached

theorem Adapter.Scanned.metadata_matched (scanned : adapter.Scanned platform form state)
    (contents : String → Option (List UInt8)) :
    ∀ item ∈ (adapter.matched platform contents state).media, ∀ candidate ∈ item.metadata,
      SourcePath platform candidate.relativePath ∧ IsSidecarRule candidate.ruleId := by
  apply adapter.metadata_matched scanned.fresh contents
  intro sidecar member
  have listed := (mem_sortBy DiscoveredSidecar.relativePath).mp member
  exact scanned.located.sidecars sidecar (List.mem_filter.mp listed).1

/-- The assets of a scan have the form which their bytes are split by. -/
theorem Adapter.Scanned.assets_valid (lawful : platform.Lawful)
    (scanned : adapter.Scanned platform form state) (contents : String → Option (List UInt8))
    (label : String) : ∀ identity ∈ (adapter.normalized platform contents label state).assets.map
      CandidateAsset.identity, identity.Valid platform := by
  intro identity mapped
  obtain ⟨asset, member, rfl⟩ := List.mem_map.mp mapped
  obtain ⟨item, listed, rfl⟩ := mem_assets_normalized.mp member
  obtain ⟨original, originalListed, same⟩ := adapter.bare_matched platform contents state item listed
  have file : (reconciled platform (adapter.matched platform contents state).media item).file =
      original.file := (file_reconciled _ item).trans (file_eq_of_bare same)
  obtain ⟨bytes, _, digest⟩ := (scanned.fresh.media original originalListed).content
  constructor
  · have path : (candidateAsset platform (reconciled platform
        (adapter.matched platform contents state).media item)).identity.relativePath =
          original.relativePath := by
      have paths := congrArg DiscoveredMedia.relativePath file
      exact paths
    rw [path]
    exact scanned.located.media original originalListed
  · have content : (candidateAsset platform (reconciled platform
        (adapter.matched platform contents state).media item)).identity.contentSha256 =
          platform.sha256 bytes := by
      have contents := congrArg DiscoveredMedia.contentSha256 file
      exact contents.trans digest
    rw [content]
    exact lawful.digest bytes
  · intro pair attached
    obtain ⟨candidate, found, rfl⟩ := List.mem_map.mp attached
    apply scanned.metadata_matched contents item listed candidate
    have sorted := mem_sortDedup.mp found
    rw [metadata_memberOf] at sorted
    exact sorted

theorem identity_withDocument (contents : String → Option (List UInt8))
    (sidecar : DiscoveredSidecar) :
    (sidecar.withDocument platform contents).identity = sidecar.identity := by
  rw [DiscoveredSidecar.withDocument]
  split <;> rfl

theorem sidecars_reconcileSidecars (state : ScanState) :
    (reconcileSidecars state).sidecars = state.sidecars := by
  have step : ∀ (state : ScanState) (sidecar : DiscoveredSidecar),
      (reconcileSidecar state sidecar).sidecars = state.sidecars := by
    intro state sidecar
    rw [reconcileSidecar]
    split
    · rfl
    · split <;> rfl
  have loop : ∀ (sidecars : List DiscoveredSidecar) (state : ScanState),
      (sidecars.foldl reconcileSidecar state).sidecars = state.sidecars := by
    intro sidecars
    induction sidecars with
    | nil => exact fun _ => rfl
    | cons sidecar rest induction => exact fun state => (induction _).trans (step state sidecar)
  exact loop state.sidecars state

/-- Reconciliation keeps the sidecars, apart from their documents. -/
theorem sidecars_reconcile (contents : String → Option (List UInt8)) (adapter : Adapter)
    (state : ScanState) :
    (adapter.reconcile platform contents state).sidecars.map DiscoveredSidecar.identity =
      state.prepare.sidecars.map DiscoveredSidecar.identity := by
  have folder := sidecars_reconcileSidecars state.prepare
  rw [Adapter.reconcile_eq]
  cases adapter with
  | takeout config =>
      have described : (takeoutDescribed platform contents state.prepare).sidecars =
          state.prepare.sidecars.map (·.withDocument platform contents) :=
        (sidecars_attachAssetDocuments _ _).trans (sidecars_associate platform contents _)
      change (takeoutDescribed platform contents state.prepare).sidecars.map
        DiscoveredSidecar.identity = _
      rw [described, List.map_map]
      apply List.map_congr_left
      intro sidecar _
      exact identity_withDocument contents sidecar
  | folder _ => exact congrArg _ folder
  | applePhotos _ => exact congrArg _ folder
  | picasa _ _ => exact congrArg _ folder

theorem Adapter.Scanned.sidecars_valid (lawful : platform.Lawful)
    (scanned : adapter.Scanned platform form state) (contents : String → Option (List UInt8)) :
    ∀ identity ∈ (adapter.reconcile platform contents state).sidecars.map
      DiscoveredSidecar.identity, SourcePath platform identity.1 ∧ IsDigest identity.2.2 := by
  rw [sidecars_reconcile]
  intro identity member
  obtain ⟨sidecar, listed, rfl⟩ := List.mem_map.mp member
  have kept := (mem_sortBy DiscoveredSidecar.relativePath).mp listed
  have original := (List.mem_filter.mp kept).1
  obtain ⟨bytes, _, digest⟩ := (scanned.fresh.sidecars sidecar original).content
  have content : sidecar.identity.2.2 = platform.sha256 bytes := digest
  rw [content]
  exact ⟨scanned.located.sidecars sidecar original, lawful.digest bytes⟩

end

/-- No two of some messages have one digest. -/
def CollisionFree (platform : Platform) (messages : Set (List UInt8)) : Prop :=
  Set.InjOn platform.sha256 messages

/-- Scans with one source fingerprint have the same assets, with their contents, lengths and
attached sidecars, and the same sidecars, with their lengths and contents. -/
theorem Adapter.sourceFingerprint_binds (lawful : platform.Lawful)
    {firstAdapter secondAdapter : Adapter} {firstForm secondForm : SourceForm}
    {firstState secondState : ScanState}
    (firstScanned : firstAdapter.Scanned platform firstForm firstState)
    (secondScanned : secondAdapter.Scanned platform secondForm secondState)
    (firstContents secondContents : String → Option (List UInt8)) (firstLabel secondLabel : String)
    (collisionFree : CollisionFree platform.toPlatform
      {(firstAdapter.reconcile platform firstContents firstState).sourceMessage platform,
        (secondAdapter.reconcile platform secondContents secondState).sourceMessage platform})
    (same : (firstAdapter.normalized platform firstContents firstLabel
        firstState).source.fingerprintSha256 =
      (secondAdapter.normalized platform secondContents secondLabel
        secondState).source.fingerprintSha256) :
    (firstAdapter.normalized platform firstContents firstLabel firstState).assets.map
          CandidateAsset.identity =
        (secondAdapter.normalized platform secondContents secondLabel secondState).assets.map
          CandidateAsset.identity ∧
      (firstAdapter.reconcile platform firstContents firstState).sidecars.map
          DiscoveredSidecar.identity =
        (secondAdapter.reconcile platform secondContents secondState).sidecars.map
          DiscoveredSidecar.identity := by
  have closed : ∀ {adapter : Adapter} {form : SourceForm} {state : ScanState}
      (contents : String → Option (List UInt8)), adapter.Scanned platform form state →
      ∀ second, ¬ Opens platform second (diagnosticBytes
        ((adapter.reconcile platform contents state).warnings ++
          (adapter.reconcile platform contents state).errors)) := by
    intro adapter form state contents scanned second
    have diagnosed := @ScanState.Diagnosed.reconcile platform _ scanned.diagnosed adapter contents
    apply not_opens_diagnosticBytes
    intro diagnostic member
    exact (List.mem_append.mp member).elim (diagnosed.warnings diagnostic)
      (diagnosed.errors diagnostic)
  have messages := collisionFree (Set.mem_insert _ _) (Set.mem_insert_of_mem _ rfl) same
  rw [sourceMessage_eq, sourceMessage_eq, List.append_right_inj] at messages
  have unique := @source_splits platform
  have sources := (@unique (_, _) (_, _) _ _
    ⟨firstScanned.assets_valid lawful firstContents firstLabel,
      firstScanned.sidecars_valid lawful firstContents⟩
    ⟨secondScanned.assets_valid lawful secondContents secondLabel,
      secondScanned.sidecars_valid lawful secondContents⟩
    (closed firstContents firstScanned) (closed secondContents secondScanned) messages).1
  exact Prod.mk.inj sources

/-- A file which leaves no trace in a plan changes nothing that the fingerprint binds. -/
theorem sampleScan_binds :
    ((Adapter.folder .default).normalized .reference (fun _ => none) "photos"
        (sampleScan 2 [])).assets.map CandidateAsset.identity =
        ((Adapter.folder .default).normalized .reference (fun _ => none) "photos"
          (sampleScan 2 [some (.text "notes.txt", sampleFile 3)])).assets.map
            CandidateAsset.identity ∧
      ((Adapter.folder .default).reconcile .reference (fun _ => none)
        (sampleScan 2 [])).sidecars.map DiscoveredSidecar.identity =
        ((Adapter.folder .default).reconcile .reference (fun _ => none)
          (sampleScan 2 [some (.text "notes.txt", sampleFile 3)])).sidecars.map
            DiscoveredSidecar.identity := by
  have messages : ((Adapter.folder .default).reconcile .reference (fun _ => none)
      (sampleScan 2 [])).sourceMessage .reference =
        ((Adapter.folder .default).reconcile .reference (fun _ => none)
          (sampleScan 2 [some (.text "notes.txt", sampleFile 3)])).sourceMessage .reference := by
    decide +kernel
  apply Adapter.sourceFingerprint_binds SourcePlatform.reference_lawful
    (sampleScan_scanned rfl rfl rfl 2 [] (by decide +kernel))
    (sampleScan_scanned rfl rfl rfl 2 [some (.text "notes.txt", sampleFile 3)] (by decide +kernel))
  · rw [messages, Set.pair_eq_singleton]
    exact Set.injOn_singleton _ _
  · rw [fingerprintSha256_normalized, fingerprintSha256_normalized, messages]

end

end ImmichRs
