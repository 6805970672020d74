import ImmichRs.Executor.Verify

/-!
# The import journal

Effects are journalled under textual keys.  A run reads the last row of each key once, at its
start, and then only appends.
-/

namespace ImmichRs

open Interaction
open Std (ExtTreeMap ExtTreeSet)

/-- `asset_key`. -/
def assetKey (operationId : String) : String := "asset:" ++ operationId

/-- `metadata_key`. -/
def metadataKey (operationId : String) : String := "metadata:" ++ operationId

/-- The key of an album effect. -/
def albumKey (identity : String) : String := "album:" ++ identity

/-- The key of a membership effect. -/
def membershipKey (identity : String) : String := "membership:" ++ identity

/-- `album_identity`. -/
def albumIdentity (platform : Platform) (name : String) : String :=
  platform.sha256 (utf8Bytes name)

/-- An effect by its kind and identity. -/
inductive EffectKey
  | asset (operationId : String)
  | metadata (operationId : String)
  | album (identity : String)
  | membership (identity : String)
  deriving DecidableEq, Repr

/-- The textual key of an effect. -/
def EffectKey.render : EffectKey → String
  | .asset operationId => assetKey operationId
  | .metadata operationId => metadataKey operationId
  | .album identity => albumKey identity
  | .membership identity => membershipKey identity

/-- Different effects have different keys. -/
theorem EffectKey.render_injective : Function.Injective EffectKey.render := by
  intro first second same
  have text := congrArg String.toList same
  cases first <;> cases second <;>
    simp [EffectKey.render, assetKey, metadataKey, albumKey, membershipKey] at text ⊢ <;>
    exact String.toList_injective text

/-- `str::strip_prefix`. -/
def stripStart (value start : String) : Option String :=
  if start.toList.isPrefixOf value.toList then
    some (String.ofList (value.toList.drop start.toList.length))
  else
    none

/-- Outcomes which carry a remote identifier. -/
def ImportOutcome.expectsId : ImportOutcome → Bool
  | .created | .duplicate | .reused => true
  | .completed | .failed | .indeterminate => false

/-- Outcomes which finish an effect. -/
def ImportOutcome.isSuccess : ImportOutcome → Bool
  | .created | .duplicate | .reused | .completed => true
  | .failed | .indeterminate => false

/-- `validate_effect`. -/
def validateEffect (key : String) (outcome : ImportOutcome) (remoteId : Option String) :
    Except ExecutorError Unit :=
  let knownPrefix := ["asset:", "metadata:", "album:", "membership:"].any fun start =>
    (stripStart key start).any isLowerSha256
  let idValid := remoteId.any fun id => !id.isEmpty && byteLen id ≤ 4096
  reject (!(knownPrefix && outcome.expectsId == idValid)) .checkpoint

/-- The digest in the key of an effect. -/
def EffectKey.digest : EffectKey → String
  | .asset digest | .metadata digest | .album digest | .membership digest => digest

@[simp] theorem stripStart_append (start rest : String) :
    stripStart (start ++ rest) start = some rest := by
  simp [stripStart]

/-- The key of an effect with a lower-case digest is a known key. -/
theorem validateEffect_render {key : EffectKey} (lower : isLowerSha256 key.digest = true)
    {outcome : ImportOutcome} {remoteId : Option String}
    (identified : outcome.expectsId = remoteId.any fun id => !id.isEmpty && byteLen id ≤ 4096) :
    validateEffect key.render outcome remoteId = .ok () := by
  have known : (["asset:", "metadata:", "album:", "membership:"].any fun start =>
      (stripStart key.render start).any isLowerSha256) = true := by
    rw [List.any_eq_true]
    cases key with
    | asset digest =>
        exact ⟨"asset:", by simp, by simpa [EffectKey.render, EffectKey.digest, assetKey] using lower⟩
    | metadata digest =>
        exact ⟨"metadata:", by simp, by simpa [EffectKey.render, EffectKey.digest, metadataKey] using lower⟩
    | album digest =>
        exact ⟨"album:", by simp, by simpa [EffectKey.render, EffectKey.digest, albumKey] using lower⟩
    | membership digest =>
        exact ⟨"membership:", by simp, by simpa [EffectKey.render, EffectKey.digest, membershipKey] using lower⟩
  rw [validateEffect, reject_eq_ok, known, identified]
  simp

/-- `ImportJournal::append`. -/
def appendEffect (event : ImportEvent) : FallibleExecutor Unit := do
  ofExcept (validateEffect event.effectKey event.outcome event.remoteId)
  ExceptT.mk (.request (Call.appendEffect event) fun answer => .done answer)

/-- The last row of an effect. -/
structure StoredEffect where
  outcome : ImportOutcome
  remoteId : Option String
  deriving DecidableEq, Repr

/-- `ImportState`. -/
structure ImportState where
  latest : ExtTreeMap String StoredEffect

/-- The rows with the largest sequence number of their keys. -/
def latestEffects (rows : List ImportEvent) : ExtTreeMap String StoredEffect :=
  rows.foldl (fun latest row => latest.insert row.effectKey ⟨row.outcome, row.remoteId⟩) ∅

/-- One row of the query of `ImportJournal::state`. -/
def stateRow (latest : ExtTreeMap String StoredEffect) (row : String × StoredEffect) :
    Except ExecutorError (ExtTreeMap String StoredEffect) := do
  validateEffect row.1 row.2.outcome row.2.remoteId
  reject (latest.contains row.1) .checkpoint
  return latest.insert row.1 row.2

/-- `ImportJournal::state`. -/
def importState (rows : List ImportEvent) : Except ExecutorError ImportState := do
  let latest ← (latestEffects rows).toList.foldlM stateRow ∅
  return { latest }

namespace ImportState

/-- `ImportState::remote_id`. -/
def remoteId (state : ImportState) (key : String) (outcomes : List ImportOutcome) :
    Option String :=
  match state.latest[key]? with
  | none => none
  | some effect => if outcomes.contains effect.outcome then effect.remoteId else none

/-- `ImportState::completed`. -/
def completed (state : ImportState) (key : String) : Bool :=
  state.latest[key]?.any fun effect => effect.outcome == .completed

/-- `ImportState::asset_id`. -/
def assetId (state : ImportState) (operationId : String) : Option String :=
  state.remoteId (assetKey operationId) [.created, .duplicate]

/-- `ImportState::metadata_done`. -/
def metadataDone (state : ImportState) (operationId : String) : Bool :=
  state.completed (metadataKey operationId)

/-- `ImportState::album`. -/
def album (state : ImportState) (identity : String) : Option (ImportOutcome × String) :=
  match state.latest[albumKey identity]? with
  | none => none
  | some effect =>
      if effect.outcome = .created ∨ effect.outcome = .reused then
        effect.remoteId.map fun id => (effect.outcome, id)
      else
        none

/-- `ImportState::membership_done`. -/
def membershipDone (state : ImportState) (identity : String) : Bool :=
  state.completed (membershipKey identity)

end ImportState

/-- The keys which `validate_for_plan` allows for one operation. -/
def allowedKeys (platform : Platform) (operation : UploadOperation) : List String :=
  assetKey operation.operationId ::
    ((if operation.assignsMetadata then [metadataKey operation.operationId] else []) ++
      operation.albums.flatMap fun album =>
        [albumKey (albumIdentity platform album), membershipKey (albumIdentity platform album)])

/-- `ImportState::validate_for_plan`. -/
def ImportState.validateForPlan (platform : Platform) (plan : UploadPlan) (state : ImportState) :
    Except ExecutorError Unit :=
  let allowed := ExtTreeSet.ofList (plan.operations.flatMap (allowedKeys platform))
  reject (!state.latest.keys.all fun key => allowed.contains key) .checkpoint

/-! ## The last row of a key -/

/-- The last row of one key. -/
def lastEffect (rows : List ImportEvent) (key : String) : Option StoredEffect :=
  ((rows.filter fun row => row.effectKey == key).getLast?).map fun row =>
    ⟨row.outcome, row.remoteId⟩

theorem latestEffects_getElem? (rows : List ImportEvent) (key : String) :
    (latestEffects rows)[key]? = lastEffect rows key := by
  induction rows using List.reverseRecOn with
  | nil => simp [latestEffects, lastEffect]
  | append_singleton rows row induction =>
      rw [latestEffects, List.foldl_append, List.foldl_cons, List.foldl_nil,
        ExtTreeMap.getElem?_insert, ← latestEffects, induction, lastEffect, lastEffect,
        List.filter_append]
      by_cases same : row.effectKey = key
      · simp [same]
      · simp [same]

/-- The query of `ImportJournal::state` collects its rows unchanged, and they are all valid. -/
theorem foldlM_stateRow {entries : List (String × StoredEffect)}
    {latest result : ExtTreeMap String StoredEffect}
    (collected : entries.foldlM stateRow latest = .ok result) :
    (∀ key effect, result[key]? = some effect ↔
        latest[key]? = some effect ∨ (key, effect) ∈ entries) ∧
      ∀ entry ∈ entries, validateEffect entry.1 entry.2.outcome entry.2.remoteId = .ok () := by
  induction entries generalizing latest with
  | nil =>
      simp only [List.foldlM_nil, pure, Except.pure, Except.ok.injEq] at collected
      simp [collected]
  | cons entry rest induction =>
      rw [List.foldlM_cons, bind_eq_ok] at collected
      obtain ⟨middle, added, collected⟩ := collected
      simp only [stateRow, bind_eq_ok, pure, Except.pure, Except.ok.injEq] at added
      obtain ⟨⟨⟩, valid, ⟨⟩, fresh, rfl⟩ := added
      obtain ⟨members, tail⟩ := induction collected
      refine ⟨fun key effect => ?_, List.forall_mem_cons.mpr ⟨valid, tail⟩⟩
      rw [members, ExtTreeMap.getElem?_insert]
      by_cases same : entry.1 = key
      · have absent : latest[key]? = none := by
          rw [reject_eq_ok, same, ExtTreeMap.contains_eq_isSome_getElem?,
            Option.isSome_eq_false_iff] at fresh
          exact Option.isNone_iff_eq_none.mp fresh
        simp [same, absent, Prod.ext_iff, eq_comm]
      · simp [same, Prod.ext_iff, Ne.symm same]

/-- The state of a journal is the last row of each key, and all of these are valid. -/
theorem importState_ok {rows : List ImportEvent} {state : ImportState}
    (read : importState rows = .ok state) (key : String) :
    state.latest[key]? = lastEffect rows key ∧
      ∀ effect, lastEffect rows key = some effect →
        validateEffect key effect.outcome effect.remoteId = .ok () := by
  simp only [importState, bind_eq_ok, pure, Except.pure, Except.ok.injEq] at read
  obtain ⟨latest, collected, rfl⟩ := read
  obtain ⟨members, valid⟩ := foldlM_stateRow collected
  have listed : ∀ effect, (key, effect) ∈ (latestEffects rows).toList ↔
      lastEffect rows key = some effect := by
    intro effect
    rw [ExtTreeMap.mem_toList_iff_getElem?_eq_some, latestEffects_getElem?]
  refine ⟨Option.ext fun effect => ?_, fun effect last => ?_⟩
  · rw [members, listed, ExtTreeMap.getElem?_empty]
    simp
  · exact valid (key, effect) ((listed effect).mpr last)

end ImmichRs
