import ImmichRs.Executor.ImportSteps

/-!
# Parts of an import run

What the events of any part of a run say about the requests, rows and mutations of the effects it
works on, and the loop over the operations.
-/

namespace ImmichRs

open Interaction
open Std (ExtTreeMap ExtTreeSet)

/-! ## Parts of a run -/

/-- What is known about the events of a part of a run which works on the effects of `scope`, in
this order. -/
structure Scoped (platform : Platform) (members : String → List String → Prop) (attempts : Nat)
    (scope : List EffectKey) (events : List (Event Answer)) : Prop where
  requests : ∀ key ∈ requestedKeys platform events, key ∈ scope
  rows : ((attemptedRows events).map ImportEvent.effectKey).Sublist (scope.map EffectKey.render)
  typed : ∀ row ∈ attemptedRows events, ∃ key, row.RowOf key
  cost : events.countP mutates ≤ scope.length + events.countP granted
  each : scope.Nodup → ∀ key, mutationsFor platform key events ≤ attempts
  justified : Throughout (Justified members) events

section

variable {platform : Platform} {members : String → List String → Prop} {attempts : Nat}

theorem scoped_nil : Scoped platform members attempts [] [] :=
  ⟨by simp [requestedKeys], by simp [attemptedRows], by simp [attemptedRows], by simp,
    fun _ _ => Nat.zero_le _, throughout_nil _⟩

theorem Scoped.mono {scope wider : List EffectKey} {events : List (Event Answer)}
    (part : Scoped platform members attempts scope events) (sublist : scope.Sublist wider) :
    Scoped platform members attempts wider events :=
  { part with
    requests := fun key member => sublist.subset (part.requests key member)
    rows := part.rows.trans (sublist.map _)
    cost := part.cost.trans (Nat.add_le_add_right sublist.length_le _)
    each := fun distinct => part.each (distinct.sublist sublist) }

/-- Membership requests may be judged by a weaker rule. -/
theorem Scoped.weaken {wider : String → List String → Prop} {scope : List EffectKey}
    {events : List (Event Answer)} (part : Scoped platform members attempts scope events)
    (more : ∀ identity assetIds, members identity assetIds → wider identity assetIds) :
    Scoped platform wider attempts scope events :=
  { part with
    justified := fun before event after split =>
      (part.justified before event after split).mono more }

theorem Scoped.append {first second : List EffectKey} {left right : List (Event Answer)}
    (head : Scoped platform members attempts first left)
    (tail : Scoped platform members attempts second right) :
    Scoped platform members attempts (first ++ second) (left ++ right) where
  requests key member := by
    rw [requestedKeys_append, List.mem_append] at member
    rw [List.mem_append]
    exact member.imp (head.requests key) (tail.requests key)
  rows := by
    rw [attemptedRows_append, List.map_append, List.map_append]
    exact head.rows.append tail.rows
  typed row member := by
    rw [attemptedRows_append, List.mem_append] at member
    exact member.elim (head.typed row) (tail.typed row)
  cost := by
    rw [List.countP_append, List.countP_append, List.length_append]
    have := head.cost
    have := tail.cost
    omega
  each distinct key := by
    obtain ⟨firstDistinct, secondDistinct, disjoint⟩ := List.nodup_append'.mp distinct
    rw [mutationsFor_append]
    -- Disjoint scopes leave at most one part which requests the effect.
    by_cases inside : key ∈ requestedKeys platform left
    · have outside : key ∉ requestedKeys platform right := fun other =>
        disjoint (head.requests key inside) (tail.requests key other)
      rw [mutationsFor_eq_zero outside, Nat.add_zero]
      exact head.each firstDistinct key
    · rw [mutationsFor_eq_zero inside, Nat.zero_add]
      exact tail.each secondDistinct key
  justified := head.justified.append (extendable_justified members) tail.justified

theorem scoped_plain {event : Event Answer} (plain : event.1.isPlain = true) :
    Scoped platform members attempts [] [event] := by
  obtain ⟨unrequested, silent, calm, justified⟩ := plain_event platform plain
  exact
    { requests := by simp [requestedKeys, unrequested]
      rows := by simp [attemptedRows, silent]
      typed := by simp [attemptedRows, silent]
      cost := by simp [calm]
      each := by simp [mutationsFor, calm]
      justified := throughout_singleton (justified members []) }

/-- An effect which has been recorded or given up. -/
theorem Closed.toScoped {key : EffectKey} {events : List (Event Answer)} {retries : Nat}
    (closed : Closed platform members key events (retries + 1) retries)
    (below : retries < attempts) : Scoped platform members attempts [key] events where
  requests other member := List.mem_singleton.mpr (closed.requests other member)
  rows := by
    rcases closed.rows with none | ⟨row, single, rowOf⟩
    · simp [none]
    · simp [single, rowOf.key_eq]
  typed row member := by
    rcases closed.rows with none | ⟨other, single, rowOf⟩
    · simp [none] at member
    · rw [single, List.mem_singleton] at member
      exact ⟨key, member ▸ rowOf⟩
  cost := by
    have := closed.mutations
    have := closed.grants
    simp only [List.length_singleton]
    omega
  each _ other := ((mutationsFor_le platform other events).trans closed.mutations).trans below
  justified := closed.justified

end

/-! ## Fallible parts -/

section

variable (platform : Platform) (members : String → List String → Prop) (attempts : Nat)

/-- A fallible program which works on the effects of `scope`, and what its value satisfies. -/
def Performs {α : Type} (scope : List EffectKey) (program : FallibleExecutor α)
    (post : List (Event Answer) → α → Prop) : Prop :=
  program.run.Traces fun events outcome =>
    Scoped platform members attempts scope events ∧ ∀ value, outcome = .ok value → post events value

variable {platform members attempts} {α β : Type}

theorem performs_pure {value : α} {post : List (Event Answer) → α → Prop}
    (holds : post [] value) : Performs platform members attempts [] (pure value) post := by
  refine ⟨scoped_nil, ?_⟩
  rintro _ ⟨⟩
  exact holds

theorem performs_ofExcept (value : Except ExecutorError α) :
    Performs platform members attempts [] (ofExcept value) fun _ result => value = .ok result :=
  ⟨scoped_nil, fun _ returned => returned⟩

/-- A check in front of a program. -/
theorem traces_ofExcept_bind (value : Except ExecutorError α) (next : α → FallibleExecutor β)
    (post : List (Event Answer) → Except ExecutorError β → Prop) :
    (ofExcept value >>= next).run.Traces post ↔ match value with
      | .ok result => (next result).run.Traces post
      | .error error => post [] (.error error) := by
  rw [Program.traces_exceptT_bind]
  cases value <;> rfl

theorem Performs.mono {scope wider : List EffectKey} {program : FallibleExecutor α}
    {post broader : List (Event Answer) → α → Prop}
    (performs : Performs platform members attempts scope program post)
    (sublist : scope.Sublist wider)
    (result : ∀ events value, post events value → broader events value) :
    Performs platform members attempts wider program broader := by
  refine Program.Traces.mono performs fun events outcome reached => ?_
  exact ⟨reached.1.mono sublist, fun value returned => result events value (reached.2 value returned)⟩

theorem Performs.bind {first second : List EffectKey} {program : FallibleExecutor α}
    {next : α → FallibleExecutor β} {middle : List (Event Answer) → α → Prop}
    {post : List (Event Answer) → β → Prop}
    (head : Performs platform members attempts first program middle)
    (tail : ∀ events value, middle events value →
      Performs platform members attempts second (next value) fun later result =>
        post (events ++ later) result) :
    Performs platform members attempts (first ++ second) (program >>= next) post := by
  rw [Performs, Program.traces_exceptT_bind]
  refine Program.Traces.mono head fun events outcome reached => ?_
  cases outcome with
  | error error =>
      refine ⟨reached.1.mono (List.sublist_append_left _ _), ?_⟩
      rintro _ ⟨⟩
  | ok value =>
      refine Program.Traces.mono (tail events value (reached.2 value rfl)) fun later result rest => ?_
      exact ⟨reached.1.append rest.1, rest.2⟩

/-- A part which works on no effect, in front of a program. -/
theorem Performs.before {scope : List EffectKey} {program : FallibleExecutor α}
    {next : α → FallibleExecutor β} {middle : List (Event Answer) → α → Prop}
    {post : List (Event Answer) → β → Prop}
    (head : Performs platform members attempts [] program middle)
    (tail : ∀ events value, middle events value →
      Performs platform members attempts scope (next value) fun later result =>
        post (events ++ later) result) :
    Performs platform members attempts scope (program >>= next) post :=
  Performs.bind head tail

/-- A plain request whose answer decides whether to go on. -/
theorem performs_ask {call : Call} (plain : call.isPlain = true)
    (value : Answer call → Except ExecutorError α) :
    Performs platform members attempts []
      (ExceptT.mk (.request call fun answer => .done (value answer))) fun events result =>
        ∃ answer, events = [⟨call, answer⟩] ∧ value answer = .ok result :=
  fun answer => ⟨scoped_plain plain, fun _ returned => ⟨answer, rfl, returned⟩⟩

/-- One plain request in front of a program. -/
theorem performs_request {call : Call} (plain : call.isPlain = true)
    {scope : List EffectKey} {post : List (Event Answer) → β → Prop}
    {next : Answer call → FallibleExecutor β}
    (tail : ∀ answer, Performs platform members attempts scope (next answer) fun later result =>
      post (⟨call, answer⟩ :: later) result) :
    Performs platform members attempts scope
      (ExceptT.mk (.request call fun answer => (next answer).run)) post := by
  intro answer
  refine Program.Traces.mono (tail answer) fun later result rest => ?_
  exact ⟨(scoped_plain plain).append rest.1, rest.2⟩

end

/-! ## Effects of one operation -/

/-- Whether the journal of a run has no success for an effect. -/
def ImportState.isOpen (state : ImportState) : EffectKey → Bool
  | .asset operationId => (state.assetId operationId).isNone
  | .metadata operationId => !state.metadataDone operationId
  | .album identity => (state.album identity).isNone
  | .membership identity => !state.membershipDone identity

/-- The effects of one operation. -/
def operationKeys (operation : UploadOperation) : List EffectKey :=
  .asset operation.operationId ::
    if operation.assignsMetadata then [.metadata operation.operationId] else []

/-- A success row of an asset which the journal has stored. -/
def StoredAsset (events : List (Event Answer)) (operationId assetId : String) : Prop :=
  ∃ row, (⟨.appendEffect row, .ok ()⟩ : Event Answer) ∈ events ∧
    row.effectKey = assetKey operationId ∧
    (row.outcome = .created ∨ row.outcome = .duplicate) ∧ row.remoteId = some assetId

theorem StoredAsset.mono {events wider : List (Event Answer)} {operationId assetId : String}
    (stored : StoredAsset events operationId assetId) (subset : events ⊆ wider) :
    StoredAsset wider operationId assetId := by
  obtain ⟨row, member, rest⟩ := stored
  exact ⟨row, subset member, rest⟩

section

variable (state : ImportState) (operation : UploadOperation) (report : ImportApplyReport)

/-- What the asset of one operation leaves behind. -/
structure AssetReferred (events : List (Event Answer))
    (found : Option String × ImportApplyReport) : Prop where
  tally : Tally report found.2 1 (events.countP granted)
  missing : found.1 = none → found.2.cancelled = true ∨ report.unsettled < found.2.unsettled
  durable : ∀ assetId, found.1 = some assetId →
    state.assetId operation.operationId = some assetId ∨
      StoredAsset events operation.operationId assetId

variable {platform : Platform} {members : String → List String → Prop}
  {config : UploadExecutionConfig}

theorem counts_created : Counts fun report => { report with created := report.created + 1 } where
  total report := by simp only [ImportApplyReport.total]; omega
  unsettled _ := rfl
  retried _ := rfl
  cancelled _ := rfl

theorem counts_duplicate :
    Counts fun report => { report with duplicate := report.duplicate + 1 } where
  total report := by simp only [ImportApplyReport.total]; omega
  unsettled _ := rfl
  retried _ := rfl
  cancelled _ := rfl

/-- A recorded upload is counted once. -/
theorem tally_countAsset (kind : OutcomeKind) (retries : Nat) :
    Tally report ((report.addRetries retries).countAsset kind) 1 retries ∧
      (kind.isSettled = false →
        report.unsettled < ((report.addRetries retries).countAsset kind).unsettled) := by
  cases kind with
  | created => exact ⟨counts_created.tally report retries, by simp [OutcomeKind.isSettled]⟩
  | duplicate => exact ⟨counts_duplicate.tally report retries, by simp [OutcomeKind.isSettled]⟩
  | failed =>
      obtain ⟨tally, more⟩ := tally_fail report false retries
      exact ⟨tally, fun _ => more⟩
  | indeterminate =>
      obtain ⟨tally, more⟩ := tally_fail report true retries
      exact ⟨tally, fun _ => more⟩

/-- Recording the result of an upload ends its segment. -/
theorem recordAsset_rule {result : OperationResult} {past : List (Event Answer)}
    (spent : OperationSpent platform members config operation past result) :
    (recordAsset operation result report).run.Traces fun events outcome =>
      Scoped platform members config.maxAttemptsPerOperation [.asset operation.operationId]
          (past ++ events) ∧
        ∀ found, outcome = .ok found →
          AssetReferred state operation report (past ++ events) found := by
  obtain ⟨retries, below, segment, reports⟩ := spent
  have claims : ∀ events, retries ≤ (past ++ events).countP granted := by
    intro events
    rw [List.countP_append]
    exact segment.grants.trans (Nat.le_add_right _ _)
  match result with
  | .cancelled none =>
      refine ⟨?_, ?_⟩
      · rw [List.append_nil]
        exact segment.closed.toScoped below
      · rintro _ ⟨⟩
        exact ⟨(tally_cancel report).widen (Nat.zero_le _) (.inl rfl) |>.mono (Nat.zero_le _),
          fun _ => .inl rfl, by simp⟩
  | .cancelled (some outcome) =>
      obtain rfl : outcome.retries = retries := reports
      have row := append_return segment none outcome.retries
        (failure_mem_outcomes (.asset operation.operationId) true) (by simp)
        ((none : Option String), (report.cancel.addRetries outcome.retries).fail true)
      refine row.mono fun events stored reached => ⟨reached.1.toScoped below, fun found same => ?_⟩
      rw [(reached.2 found same).1]
      refine ⟨?_, fun _ => .inl rfl, by simp⟩
      have tally := (tally_cancel report).trans
        (tally_fail report.cancel true outcome.retries).1
      rw [Nat.zero_add] at tally
      exact tally.mono (by simpa using claims events)
  | .completed outcome =>
      obtain ⟨same, rfl, settled⟩ := reports
      obtain ⟨tally, unsettled⟩ := tally_countAsset report outcome.kind outcome.retries
      have allowed : outcome.kind.importOutcome ∈
          (EffectKey.asset operation.operationId).outcomes := by
        cases outcome.kind <;> simp [EffectKey.outcomes, OutcomeKind.importOutcome]
      have row := append_return segment outcome.assetId outcome.retries allowed (by simp)
        (outcome.assetId, (report.addRetries outcome.retries).countAsset outcome.kind)
      rw [recordAsset, recordCompletedAsset, same]
      refine row.mono fun events stored reached => ⟨reached.1.toScoped below, fun found equal => ?_⟩
      obtain ⟨rfl, member⟩ := reached.2 found equal
      refine ⟨tally.mono (claims events), fun absent => .inr (unsettled ?_),
        fun assetId present => ?_⟩
      · rw [← settled]
        simpa using absent
      · refine .inr ⟨_, List.mem_append_right past member, rfl, ?_, present⟩
        have success : outcome.kind.isSettled = true := by
          rw [← settled]
          exact Option.isSome_of_eq_some present
        cases kind : outcome.kind <;> simp_all [rowFor, OutcomeKind.isSettled,
          OutcomeKind.importOutcome]

theorem assetReference_performs (positive : 1 ≤ config.maxAttemptsPerOperation)
    (assetIds : ExtTreeMap String String) :
    Performs platform members config.maxAttemptsPerOperation
      ([EffectKey.asset operation.operationId].filter state.isOpen)
      (assetReference platform config state assetIds operation report)
      (AssetReferred state operation report) := by
  rw [assetReference]
  cases known : state.assetId operation.operationId with
  | some assetId =>
      refine (performs_pure ?_).mono (List.nil_sublist _) fun _ _ => id
      exact ⟨tally_resume report, by simp, fun other same => .inl (same ▸ known)⟩
  | none =>
      have scope : [EffectKey.asset operation.operationId].filter state.isOpen =
          [.asset operation.operationId] := by
        simp [ImportState.isOpen, known]
      rw [scope]
      simp only
      split
      · have nothing : Segment platform members (.asset operation.operationId) [] 1 0 :=
          segment_nil.mono (Nat.zero_le _) le_rfl
        have row := append_return nothing none 0
          (failure_mem_outcomes (.asset operation.operationId) false) (by simp) (report.fail false)
        rw [Performs, Program.traces_exceptT_bind]
        refine row.mono fun events outcome reached => ?_
        cases outcome with
        | error error => exact ⟨reached.1.toScoped positive, by simp⟩
        | ok after =>
            refine ⟨by simpa using reached.1.toScoped positive, ?_⟩
            rintro found ⟨⟩
            rw [(reached.2 after rfl).1]
            obtain ⟨tally, more⟩ := tally_fail report false 0
            exact ⟨tally.mono (Nat.zero_le _), fun _ => .inr more, by simp⟩
      · refine performs_request rfl fun answer => ?_
        cases answer with
        | error error =>
            exact ⟨(scoped_nil).mono (List.nil_sublist _), by simp⟩
        | ok source =>
            rw [Performs]
            refine (Program.traces_lift_bind _ _ _).mpr ?_
            refine (applyOperation_spent platform members config operation source
              (liveVideoId operation assetIds) positive).mono fun events result spent => ?_
            refine (recordAsset_rule state operation report spent).mono
              fun later outcome reached => ⟨reached.1, fun found same => ?_⟩
            obtain ⟨tally, missing, durable⟩ := reached.2 found same
            refine ⟨tally, missing, fun assetId present => (durable assetId present).imp_right ?_⟩
            intro stored
            exact stored.mono (List.subset_cons_self _ _)

/-- The metadata update of an operation is counted once, if there is one. -/
theorem applyMetadata_performs (positive : 1 ≤ config.maxAttemptsPerOperation)
    (assetId : String) :
    Performs platform members config.maxAttemptsPerOperation
      ((if operation.assignsMetadata then [EffectKey.metadata operation.operationId]
        else []).filter state.isOpen)
      (applyMetadata platform config state operation assetId report)
      fun events next => Tally report next.2 (operation.assignsMetadata.toNat)
          (events.countP granted) ∧ (next.1 = false → next.2.cancelled = true) := by
  have assigns : operation.assignsMetadata =
      (operation.normalizedMetadata.filter hasAssignment).isSome := by
    rw [UploadOperation.assignsMetadata]
    cases operation.normalizedMetadata with
    | none => rfl
    | some metadata => cases assigned : hasAssignment metadata <;> simp [assigned]
  rw [applyMetadata, assigns]
  cases operation.normalizedMetadata.filter hasAssignment with
  | none => exact performs_pure ⟨tally_refl report, by simp⟩
  | some metadata =>
      simp only [Option.isSome_some, if_true]
      cases done : state.metadataDone operation.operationId with
      | true =>
          refine (performs_pure ?_).mono (List.nil_sublist _) fun _ _ => id
          exact ⟨tally_resume report, by simp⟩
      | false =>
          have scope : [EffectKey.metadata operation.operationId].filter state.isOpen =
              [.metadata operation.operationId] := by
            simp [ImportState.isOpen, done]
          rw [scope]
          refine (settleEffect_rule positive
            (requests_updateAssetMetadata platform members operation.operationId assetId metadata)
            (by simp [EffectKey.outcomes]) counts_metadataUpdated report).mono
              fun events outcome settled => ?_
          obtain ⟨retries, below, closed, counted⟩ := settled
          refine ⟨closed.toScoped below, fun next returned => ?_⟩
          obtain ⟨tally, stopped⟩ := counted next.1 next.2 returned
          exact ⟨tally.mono closed.grants, stopped⟩

end

/-! ## The loop over the operations -/

theorem granted_append (first second : List (Event Answer)) :
    (first ++ second).countP granted = first.countP granted + second.countP granted :=
  List.countP_append

section

variable {platform : Platform} {members : String → List String → Prop}
  {config : UploadExecutionConfig}

/-- The number of effects of a list of operations. -/
def operationEffects (operations : List UploadOperation) : Nat :=
  (operations.flatMap operationKeys).length

/-- What a run of the operations leaves behind. -/
structure OperationsApplied (state : ImportState) (operations : List UploadOperation)
    (report : ImportApplyReport) (assetIds : ExtTreeMap String String)
    (events : List (Event Answer)) (result : ImportApplyReport × ExtTreeMap String String) :
    Prop where
  tally : Tally report result.1 (operationEffects operations) (events.countP granted)
  durable : ∀ operationId assetId, result.2[operationId]? = some assetId →
    assetIds[operationId]? = some assetId ∨ StoredAsset events operationId assetId
  known : ∀ operationId, result.2.contains operationId = true →
    assetIds.contains operationId = true ∨
      operationId ∈ operations.map UploadOperation.operationId
  covered : result.1.cancelled = false → result.1.unsettled = report.unsettled →
    ∀ operation ∈ operations, result.2.contains operation.operationId = true
  grows : ∀ operationId, assetIds.contains operationId = true →
    result.2.contains operationId = true

/-- How the asset ids change over one operation. -/
structure Tracks (operation : UploadOperation) (events : List (Event Answer))
    (assetIds tracked : ExtTreeMap String String) : Prop where
  durable : ∀ operationId assetId, tracked[operationId]? = some assetId →
    assetIds[operationId]? = some assetId ∨ StoredAsset events operationId assetId
  known : ∀ operationId, tracked.contains operationId = true →
    assetIds.contains operationId = true ∨ operationId = operation.operationId
  grows : ∀ operationId, assetIds.contains operationId = true →
    tracked.contains operationId = true

theorem tracks_refl (operation : UploadOperation) (events : List (Event Answer))
    (assetIds : ExtTreeMap String String) : Tracks operation events assetIds assetIds :=
  ⟨fun _ _ => .inl, fun _ => .inl, fun _ => id⟩

theorem tracks_trackAsset {state : ImportState} {operation : UploadOperation} {assetId : String}
    {events : List (Event Answer)} {assetIds : ExtTreeMap String String}
    (resumed : ∀ assetId, state.assetId operation.operationId = some assetId →
      assetIds[operation.operationId]? = some assetId)
    (durable : state.assetId operation.operationId = some assetId ∨
      StoredAsset events operation.operationId assetId) :
    Tracks operation events assetIds (trackAsset state operation assetId assetIds) ∧
      (trackAsset state operation assetId assetIds).contains operation.operationId = true ∧
      ∀ operationId, operationId ≠ operation.operationId →
        (trackAsset state operation assetId assetIds)[operationId]? = assetIds[operationId]? := by
  rw [trackAsset]
  cases known : state.assetId operation.operationId with
  | some other =>
      refine ⟨tracks_refl operation events assetIds, ?_, fun _ _ => rfl⟩
      rw [ExtTreeMap.contains_eq_isSome_getElem?, resumed other known]
      rfl
  | none =>
      have stored : StoredAsset events operation.operationId assetId :=
        durable.resolve_left (by simp [known])
      refine ⟨⟨fun operationId found present => ?_, fun operationId present => ?_,
        fun operationId present => ?_⟩, by simp, fun operationId different => ?_⟩
      · rw [ExtTreeMap.getElem?_insert] at present
        split at present
        · next same =>
            cases present
            rw [← Std.LawfulEqCmp.eq_of_compare same]
            exact .inr stored
        · exact .inl present
      · rw [ExtTreeMap.contains_insert, Bool.or_eq_true, beq_iff_eq] at present
        exact present.symm.imp_right fun same => (Std.LawfulEqCmp.eq_of_compare same).symm
      · rw [ExtTreeMap.contains_insert, present, Bool.or_true]
      · rw [ExtTreeMap.getElem?_insert, if_neg]
        exact fun same => different (Std.LawfulEqCmp.eq_of_compare same).symm

theorem operationEffects_cons (operation : UploadOperation) (rest : List UploadOperation) :
    operationEffects (operation :: rest) =
      1 + operation.assignsMetadata.toNat + operationEffects rest := by
  rw [operationEffects, List.flatMap_cons, List.length_append, operationKeys, ← operationEffects]
  cases operation.assignsMetadata <;> simp

/-- One operation in front of the others. -/
theorem OperationsApplied.cons {state : ImportState} {operation : UploadOperation}
    {rest : List UploadOperation} {report after : ImportApplyReport}
    {assetIds tracked : ExtTreeMap String String} {first second : List (Event Answer)}
    {result : ImportApplyReport × ExtTreeMap String String}
    (tally : Tally report after (1 + operation.assignsMetadata.toNat) (first.countP granted))
    (tracks : Tracks operation first assetIds tracked)
    (covered : after.cancelled = false → after.unsettled = report.unsettled →
      tracked.contains operation.operationId = true)
    (tail : OperationsApplied state rest after tracked second result) :
    OperationsApplied state (operation :: rest) report assetIds (first ++ second) result where
  tally := by
    rw [operationEffects_cons, granted_append]
    exact tally.trans tail.tally
  durable operationId assetId found := by
    rcases tail.durable operationId assetId found with earlier | stored
    · refine (tracks.durable operationId assetId earlier).imp_right fun stored => ?_
      exact stored.mono (List.subset_append_left _ _)
    · exact .inr (stored.mono (List.subset_append_right _ _))
  known operationId found := by
    rw [List.map_cons, List.mem_cons, ← or_assoc]
    exact (tail.known operationId found).imp_left (tracks.known operationId)
  covered running settled := by
    have lower := tally.unsettled_le
    have upper := tail.tally.unsettled_le
    have running' : after.cancelled = false := by
      cases stopped : after.cancelled with
      | false => rfl
      | true =>
          rw [tail.tally.cancelled stopped] at running
          cases running
    refine List.forall_mem_cons.mpr ⟨?_, tail.covered running (by omega)⟩
    exact tail.grows _ (covered running' (by omega))
  grows operationId present := tail.grows operationId (tracks.grows operationId present)

/-- A run which cancellation stopped. -/
theorem operationsApplied_stop {state : ImportState} {operation : UploadOperation}
    {rest : List UploadOperation} {report after : ImportApplyReport}
    {assetIds tracked : ExtTreeMap String String} {events : List (Event Answer)} {effects : Nat}
    (tally : Tally report after effects (events.countP granted))
    (few : effects ≤ 1 + operation.assignsMetadata.toNat) (stopped : after.cancelled = true)
    (tracks : Tracks operation events assetIds tracked) :
    OperationsApplied state (operation :: rest) report assetIds events (after, tracked) where
  tally := by
    refine tally.widen ?_ (.inl stopped)
    rw [operationEffects_cons]
    omega
  durable := tracks.durable
  known operationId found := by
    rw [List.map_cons, List.mem_cons, ← or_assoc]
    exact .inl (tracks.known operationId found)
  covered running := by
    rw [stopped] at running
    cases running
  grows := tracks.grows

theorem mem_operationKeys {operation : UploadOperation} {key : EffectKey}
    (member : key ∈ operationKeys operation) :
    key = .asset operation.operationId ∨ key = .metadata operation.operationId := by
  rw [operationKeys, List.mem_cons] at member
  refine member.imp_right fun listed => ?_
  split at listed
  · exact List.mem_singleton.mp listed
  · cases listed

/-- Operations with different identifiers have different effects. -/
theorem nodup_operationKeys {operations : List UploadOperation}
    (distinct : (operations.map UploadOperation.operationId).Nodup) :
    (operations.flatMap operationKeys).Nodup := by
  induction operations with
  | nil => exact List.nodup_nil
  | cons operation rest induction =>
      rw [List.map_cons, List.nodup_cons] at distinct
      rw [List.flatMap_cons, List.nodup_append']
      refine ⟨?_, induction distinct.2, fun key here there => ?_⟩
      · rw [operationKeys]
        split <;> simp
      · obtain ⟨other, member, listed⟩ := List.mem_flatMap.mp there
        have same : other.operationId = operation.operationId := by
          rcases mem_operationKeys here with rfl | rfl <;>
            rcases mem_operationKeys listed with equal | equal <;> simp_all
        exact distinct.1 (List.mem_map.mpr ⟨other, member, same⟩)

theorem applyOperationsLoop_performs (positive : 1 ≤ config.maxAttemptsPerOperation)
    (state : ImportState) (operations : List UploadOperation)
    (distinct : (operations.map UploadOperation.operationId).Nodup)
    (report : ImportApplyReport) (assetIds : ExtTreeMap String String)
    (resumed : ∀ operation ∈ operations, ∀ assetId,
      state.assetId operation.operationId = some assetId →
        assetIds[operation.operationId]? = some assetId) :
    Performs platform members config.maxAttemptsPerOperation
      ((operations.flatMap operationKeys).filter state.isOpen)
      (applyOperationsLoop platform config state operations report assetIds)
      (OperationsApplied state operations report assetIds) := by
  induction operations generalizing report assetIds with
  | nil =>
      refine performs_pure ⟨tally_refl report, fun _ _ found => .inl found,
        fun _ found => .inl found, by simp, fun _ => id⟩
  | cons operation rest induction =>
      rw [List.map_cons, List.nodup_cons] at distinct
      rw [List.flatMap_cons, operationKeys, ← List.singleton_append, List.append_assoc,
        List.filter_append, List.filter_append]
      have fewer := List.forall_mem_cons.mp resumed
      refine performs_request rfl fun stopped => ?_
      cases stopped with
      | true =>
          refine (performs_pure ?_).mono (List.nil_sublist _) fun _ _ => id
          exact operationsApplied_stop ((tally_cancel report).mono (Nat.zero_le _))
            (Nat.zero_le _) rfl (tracks_refl _ _ _)
      | false =>
          refine Performs.bind
            (assetReference_performs state operation report positive assetIds)
            fun first found referred => ?_
          obtain ⟨asset, after⟩ := found
          have tally : Tally report after 1
              ((⟨.isCancelled, false⟩ :: first : List (Event Answer)).countP granted) := by
            refine referred.tally.mono ?_
            rw [List.countP_cons]
            exact Nat.le_add_right _ _
          cases asset with
          | none =>
              have widened := tally.widen (Nat.le_add_right 1 operation.assignsMetadata.toNat)
                (referred.missing rfl)
              simp only
              by_cases ended : after.cancelled = true
              · rw [if_pos ended]
                refine (performs_pure ?_).mono (List.nil_sublist _) fun _ _ => id
                rw [List.append_nil]
                exact operationsApplied_stop tally (Nat.le_add_right _ _) ended
                  (tracks_refl _ _ _)
              · rw [if_neg ended]
                refine (induction distinct.2 after assetIds fewer.2).mono
                  (List.sublist_append_right _ _) fun second result applied => ?_
                refine OperationsApplied.cons widened (tracks_refl _ _ _)
                  (fun going same => ?_) applied
                have more : report.unsettled < after.unsettled :=
                  (referred.missing rfl).resolve_left ended
                omega
          | some assetId =>
              have durable := (referred.durable assetId rfl).imp_right fun stored =>
                stored.mono (List.subset_cons_self ⟨.isCancelled, false⟩ first)
              obtain ⟨tracks, present, others⟩ := tracks_trackAsset fewer.1 durable
              have later : ∀ other ∈ rest, ∀ id, state.assetId other.operationId = some id →
                  (trackAsset state operation assetId assetIds)[other.operationId]? = some id := by
                intro other member id known
                have different : other.operationId ≠ operation.operationId := fun same =>
                  distinct.1 (List.mem_map.mpr ⟨other, member, same⟩)
                rw [others _ different]
                exact fewer.2 other member id known
              refine Performs.bind
                (applyMetadata_performs state operation after positive assetId)
                fun second next counted => ?_
              obtain ⟨proceed, done⟩ := next
              have both : Tally report done (1 + operation.assignsMetadata.toNat)
                  ((⟨.isCancelled, false⟩ :: (first ++ second) :
                    List (Event Answer)).countP granted) := by
                have sum := tally.trans counted.1
                rwa [← granted_append, List.cons_append] at sum
              have widely : Tracks operation (⟨.isCancelled, false⟩ :: (first ++ second)) assetIds
                  (trackAsset state operation assetId assetIds) := by
                refine ⟨fun id asset found => ?_, tracks.known, tracks.grows⟩
                refine (tracks.durable id asset found).imp_right fun stored => stored.mono ?_
                exact List.cons_subset_cons _ (List.subset_append_left _ _)
              cases proceed with
              | true =>
                  refine (induction distinct.2 done _ later).mono (List.Sublist.refl _)
                    fun third result applied => ?_
                  have whole := OperationsApplied.cons both widely (fun _ _ => present) applied
                  simpa using whole
              | false =>
                  refine (performs_pure ?_).mono (List.nil_sublist _) fun _ _ => id
                  rw [List.append_nil]
                  exact operationsApplied_stop both le_rfl (counted.2 rfl) widely

end

end ImmichRs
