import ImmichRs.Web.HistoryStore

/-!
# Dry-run receipts

Whether a recorded receipt can be read back.  The columns of a receipt determine it, and pruning
keeps the newest receipts by their completion times; so a receipt which is recorded while the table
is full of later ones is deleted by the pass which follows its insertion.
-/

namespace ImmichRs.Web

open Collections Interaction

/-! ## Columns -/

/-- A hexadecimal digit in lower case. -/
def isLowerHex (digit : Char) : Bool := isAsciiDigit digit || ('a' ≤ digit && digit ≤ 'f')

theorem hexDigit_hexDigitValue {digit : Char} (lower : isLowerHex digit = true) :
    hexDigitValue digit < 16 ∧ hexDigit (hexDigitValue digit) = digit := by
  have table : ∀ code < 103, isLowerHex (Char.ofNat code) = true →
      hexDigitValue (Char.ofNat code) < 16 ∧
        hexDigit (hexDigitValue (Char.ofNat code)) = Char.ofNat code := by decide +kernel
  have small : digit.toNat < 103 := by
    simp only [isLowerHex, isAsciiDigit, Bool.or_eq_true, Bool.and_eq_true, decide_eq_true_eq,
      Char.le_def, UInt32.le_iff_toNat_le] at lower
    change digit.val.toNat < 103
    rcases lower with ⟨_, below⟩ | ⟨_, below⟩
    · exact below.trans_lt (by decide)
    · exact below.trans_lt (by decide)
  have named := table digit.toNat small
  rw [Char.ofNat_toNat] at named
  exact named lower

theorem length_hexBytes {digits : List Char} {count : Nat} (even : digits.length = 2 * count) :
    (hexBytes digits).length = count := by
  induction count generalizing digits with
  | zero =>
      rw [List.length_eq_zero_iff.mp even]
      rfl
  | succ count induction =>
      obtain _ | ⟨high, _ | ⟨low, rest⟩⟩ := digits
      · cases even
      · simp at even
        omega
      · rw [hexBytes, List.length_cons, induction (by simp at even; omega)]

theorem hexPairs_hexBytes {digits : List Char} {count : Nat} (even : digits.length = 2 * count)
    (lower : ∀ digit ∈ digits, isLowerHex digit = true) : hexPairs (hexBytes digits) = digits := by
  induction count generalizing digits with
  | zero =>
      rw [List.length_eq_zero_iff.mp even]
      rfl
  | succ count induction =>
      obtain _ | ⟨high, _ | ⟨low, rest⟩⟩ := digits
      · cases even
      · simp at even
        omega
      · simp only [List.forall_mem_cons] at lower
        obtain ⟨highSmall, highDigit⟩ := hexDigit_hexDigitValue lower.1
        obtain ⟨lowSmall, lowDigit⟩ := hexDigit_hexDigitValue lower.2.1
        have tail := induction (by simp at even; omega) lower.2.2
        have value : (UInt8.ofNat (hexDigitValue high * 16 + hexDigitValue low)).toNat =
            hexDigitValue high * 16 + hexDigitValue low := by
          rw [UInt8.toNat_ofNat']
          exact Nat.mod_eq_of_lt (by omega)
        rw [hexPairs, hexBytes, List.flatMap_cons, ← hexPairs, tail, value]
        have first : (hexDigitValue high * 16 + hexDigitValue low) / 16 = hexDigitValue high := by
          omega
        have second : (hexDigitValue high * 16 + hexDigitValue low) % 16 = hexDigitValue low := by
          omega
        rw [first, second, highDigit, lowDigit]
        rfl

/-- A digest in its column has 32 bytes, and they determine it. -/
theorem encodeSha256_of_decodeSha256 {value : String} {bytes : List UInt8}
    (decoded : decodeSha256 value = .ok bytes) :
    bytes.length = 32 ∧ encodeSha256 bytes = .ok value := by
  rw [decodeSha256] at decoded
  split at decoded
  · rename_i valid
    cases decoded
    rw [isLowerSha256, Bool.and_eq_true, beq_iff_eq, List.all_eq_true] at valid
    obtain ⟨length, lower⟩ := valid
    have ascii : ∀ digit ∈ value.toList, digit.utf8Size = 1 := by
      intro digit member
      have digits := lower digit member
      simp only [isAsciiDigit, Bool.or_eq_true, Bool.and_eq_true, decide_eq_true_eq,
        Char.le_def] at digits
      refine Char.utf8Size_eq_one_iff.mpr ?_
      rcases digits with ⟨_, below⟩ | ⟨_, below⟩
      · exact UInt32.le_trans below (by decide)
      · exact UInt32.le_trans below (by decide)
    have count : value.toList.length = 2 * 32 := by
      have measured := byteLen_ofList_of_ascii ascii
      rw [String.ofList_toList, length] at measured
      exact measured.symm
    have size := length_hexBytes count
    rw [encodeSha256, if_neg (not_not.mpr size), hexPairs_hexBytes count lower,
      String.ofList_toList]
    exact ⟨size, rfl⟩
  · cases decoded

theorem checkedU64_eq_ok {message : String} {value : Nat} {column : Int} :
    checkedU64 message value = .ok column ↔ value < 2 ^ 63 ∧ column = value := by
  rw [checkedU64]
  split
  · rename_i small
    rw [Except.ok.injEq, and_iff_right small, eq_comm]
  · rename_i large
    exact ⟨nofun, fun both => absurd both.1 large⟩

theorem readU64Value_natCast (value : Nat) : readU64Value value = .ok value :=
  if_pos (Int.natCast_nonneg value)

/-- The columns of a valid receipt satisfy the constraints of the table, and are read back as the
receipt. -/
theorem receiptColumns_eq_ok {reference : ReceiptRef} {binding : DryRunBinding}
    {columns : ReceiptColumns} (written : receiptColumns reference binding = .ok columns) :
    columns.receiptRef = reference.bytes ∧ columns.completedUnix = binding.completedUnix ∧
      columns.receipt reference = .ok { reference, binding } ∧
      (binding.credentialGeneration ≠ 0 → columns.check = true) := by
  simp only [receiptColumns, bind_eq_ok] at written
  obtain ⟨plan, planDecoded, source, sourceDecoded, identity, identityDecoded, profile,
    profileDecoded, generation, generationChecked, effects, effectsChecked, assembled⟩ := written
  cases assembled
  obtain ⟨planLength, planEncoded⟩ := encodeSha256_of_decodeSha256 planDecoded
  obtain ⟨sourceLength, sourceEncoded⟩ := encodeSha256_of_decodeSha256 sourceDecoded
  obtain ⟨identityLength, identityEncoded⟩ := encodeSha256_of_decodeSha256 identityDecoded
  obtain ⟨profileLength, profileEncoded⟩ := encodeSha256_of_decodeSha256 profileDecoded
  obtain ⟨_, rfl⟩ := checkedU64_eq_ok.mp generationChecked
  obtain ⟨_, rfl⟩ := checkedU64_eq_ok.mp effectsChecked
  refine ⟨rfl, rfl, ?_, fun positive => ?_⟩
  · rw [ReceiptColumns.receipt, planEncoded, sourceEncoded, identityEncoded, profileEncoded,
      readU64Value_natCast, readU64Value_natCast]
    rfl
  · simp [ReceiptColumns.check, planLength, sourceLength, identityLength, profileLength]
    omega

/-! ## Transactions -/

/-- Whatever the database answers, a program which returns a value satisfies `post`. -/
def Ends {α : Type} (program : HistoryProgram α) (world : HistoryWorld)
    (post : α → HistoryWorld → Prop) : Prop :=
  program.run.Ensures historyEnvironment (fun _ _ _ => True) world fun outcome after =>
    ∀ value, outcome = .ok value → post value after

section Rules

variable {α β : Type} {world : HistoryWorld}

theorem ends_pure {value : α} {post : α → HistoryWorld → Prop} :
    Ends (pure value) world post ↔ post value world :=
  ⟨fun ends => ends value rfl, fun holds _ same => Except.ok.inj same ▸ holds⟩

theorem ends_bind {program : HistoryProgram α} {next : α → HistoryProgram β}
    {post : β → HistoryWorld → Prop} :
    Ends (program >>= next) world post ↔
      Ends program world fun value after => Ends (next value) after post := by
  rw [Ends, Program.ensures_exceptT_bind]
  constructor
  · refine fun ensures => ensures.post fun outcome after rest value same => ?_
    subst same
    exact rest
  · refine fun ensures => ensures.post fun outcome after rest => ?_
    cases outcome with
    | ok value => exact rest value rfl
    | error error => nofun

theorem ends_ofResult {value : Except String α} {post : α → HistoryWorld → Prop} :
    Ends (HistoryProgram.ofResult value) world post ↔
      ∀ result, value = .ok result → post result world := Iff.rfl

theorem Ends.post {program : HistoryProgram α} {post broader : α → HistoryWorld → Prop}
    (ends : Ends program world post)
    (result : ∀ value after, post value after → broader value after) :
    Ends program world broader :=
  Program.Ensures.post ends fun _ after holds value same => result value after (holds value same)

theorem ends_checkSize {post : Unit → HistoryWorld → Prop} (holds : post () world) :
    Ends HistoryProgram.checkSize world post := by
  rintro (_ | _) after step
  · exact ⟨trivial, nofun⟩
  · cases step
    exact ⟨trivial, fun _ _ => holds⟩

theorem ends_checkpoint {post : Unit → HistoryWorld → Prop} (holds : post () world) :
    Ends HistoryProgram.checkpoint world post := by
  rintro (_ | _) after step
  · exact ⟨trivial, nofun⟩
  · cases step
    exact ⟨trivial, fun _ _ => holds⟩

theorem ends_protectFiles {post : Unit → HistoryWorld → Prop} (holds : post () world) :
    Ends HistoryProgram.protectFiles world post := by
  rintro (_ | _) after step
  · exact ⟨trivial, nofun⟩
  · cases step
    exact ⟨trivial, fun _ _ => holds⟩

theorem ends_randomReceipt {post : ReceiptRef → HistoryWorld → Prop}
    (holds : ∀ reference, post reference world) :
    Ends HistoryProgram.randomReceipt world post := by
  rintro (_ | reference) after step
  · exact ⟨trivial, nofun⟩
  · cases step
    exact ⟨trivial, fun _ same => Except.ok.inj same ▸ holds reference⟩

/-- A transaction starts from the stored tables. -/
theorem ends_begin {post : Unit → HistoryWorld → Prop}
    (holds : post () ⟨world.stored, world.stored⟩) : Ends HistoryProgram.begin world post := by
  rintro (_ | _) after step
  · exact ⟨trivial, nofun⟩
  · cases step
    exact ⟨trivial, fun _ _ => holds⟩

/-- A committed transaction is stored. -/
theorem ends_commit {post : Unit → HistoryWorld → Prop}
    (holds : post () ⟨world.working, world.working⟩) : Ends HistoryProgram.commit world post := by
  rintro (_ | _) after step
  · exact ⟨trivial, nofun⟩
  · cases step
    exact ⟨trivial, fun _ _ => holds⟩

/-- A statement changes what the transaction sees. -/
theorem ends_execute {statement : Tables.Statement} {post : Nat → HistoryWorld → Prop}
    (holds : ∀ tables result, world.working.execute statement = some (tables, result) →
      post result ⟨world.stored, tables⟩) :
    Ends (HistoryProgram.execute statement) world post := by
  rintro (_ | result) after step
  · exact ⟨trivial, nofun⟩
  · obtain ⟨tables, executed, rfl⟩ := step
    exact ⟨trivial, fun _ same => Except.ok.inj same ▸ holds tables result executed⟩

end Rules

/-! ## Pruning -/

/-- The four deletions of a pruning pass. -/
def Tables.prune (tables : Tables) (store : HistoryStore) (now : Int) : Tables :=
  let cutoff := saturatingSubI64 now store.retentionSeconds
  (((tables.deleteHistoryBefore cutoff).keepNewestHistory store.retainedRows).deleteReceiptsBefore
    cutoff).keepNewestReceipts store.retainedRows

variable {store : HistoryStore} {world : HistoryWorld}

/-- A pruning pass which succeeds has pruned the stored tables. -/
theorem ends_maintain (now : Int) :
    Ends (store.maintain now) world fun _ after => after.stored = world.stored.prune store now := by
  have bounded : ∀ limit, store.limit = .ok limit → limit = store.retainedRows := by
    intro limit returned
    rw [HistoryStore.limit] at returned
    split at returned
    · exact (Except.ok.inj returned).symm
    · cases returned
  refine ends_bind.mpr (ends_checkSize (ends_bind.mpr (ends_begin ?_)))
  apply ends_bind.mpr
  refine ends_execute fun tables result executed => ?_
  cases executed
  refine ends_bind.mpr (ends_ofResult.mpr fun limit returned => ?_)
  cases bounded limit returned
  apply ends_bind.mpr
  refine ends_execute fun tables result executed => ?_
  cases executed
  apply ends_bind.mpr
  refine ends_execute fun tables result executed => ?_
  cases executed
  refine ends_bind.mpr (ends_ofResult.mpr fun limit returned => ?_)
  cases bounded limit returned
  apply ends_bind.mpr
  refine ends_execute fun tables result executed => ?_
  cases executed
  refine ends_bind.mpr (ends_commit (ends_bind.mpr (ends_checkpoint ?_)))
  exact ends_bind.mpr (ends_protectFiles (ends_checkSize rfl))

/-- After a pruning pass both tables are within their bound. -/
theorem Tables.length_prune_le (tables : Tables) (now : Int) :
    (tables.prune store now).history.length ≤ store.retainedRows ∧
      (tables.prune store now).receipts.length ≤ store.retainedRows := by
  constructor
  · exact length_keepFirst_le (tables.deleteHistoryBefore _).sequences
  · exact length_keepFirst_le (Tables.deleteReceiptsBefore _ _).rowids

/-- The receipts which complete later than `completed`. -/
def Tables.laterReceipts (tables : Tables) (completed : Int) : Nat :=
  tables.receipts.countP fun row => completed < row.columns.completedUnix

theorem Tables.receiptOrder_nodup (tables : Tables) : (tables.receipts.map receiptOrder).Nodup := by
  have paired := tables.rowids
  rw [List.nodup_map_iff_inj_on (List.Nodup.of_map _ paired)]
  intro row member other listed same
  have rowid : row.rowid = other.rowid :=
    congrArg (fun key : (Int ×ₗ Nat)ᵒᵈ => (ofLex (OrderDual.ofDual key)).2) same
  exact List.inj_on_of_nodup_map paired member listed rowid

/-- A receipt within the retention is pruned exactly when the table is full of newer ones. -/
theorem Tables.mem_prune_iff {tables : Tables} {now : Int} {row : ReceiptRow}
    (member : row ∈ tables.receipts)
    (recent : saturatingSubI64 now store.retentionSeconds ≤ row.columns.completedUnix) :
    row ∈ (tables.prune store now).receipts ↔
      tables.receipts.countP (fun other => receiptOrder other < receiptOrder row) <
        store.retainedRows := by
  let cutoff := saturatingSubI64 now store.retentionSeconds
  let kept := ((tables.deleteHistoryBefore cutoff).keepNewestHistory
    store.retainedRows).deleteReceiptsBefore cutoff
  have listed : row ∈ kept.receipts := List.mem_filter.mpr ⟨member, decide_eq_true recent⟩
  have counted : kept.receipts.countP (fun other => receiptOrder other < receiptOrder row) =
      tables.receipts.countP (fun other => receiptOrder other < receiptOrder row) := by
    change (tables.receipts.filter _).countP _ = _
    rw [List.countP_filter]
    refine List.countP_congr fun other _ => ?_
    rw [Bool.and_eq_true, decide_eq_true_eq, decide_eq_true_eq, and_iff_left_iff_imp]
    intro newer
    have later := Prod.Lex.lt_iff.mp (OrderDual.toDual_lt_toDual.mp newer)
    rcases later with later | ⟨same, _⟩
    · exact recent.trans (le_of_lt later)
    · exact recent.trans (le_of_eq same)
  change row ∈ keepFirst ReceiptRow.rowid receiptOrder store.retainedRows kept.receipts ↔ _
  rw [mem_keepFirst_iff kept.rowids (receiptOrder_nodup kept) listed, counted]

theorem saturatingSubI64_le {now : Int} (nonnegative : 0 ≤ now) (seconds : Nat) :
    saturatingSubI64 now seconds ≤ now := by
  rw [saturatingSubI64]
  omega

/-- The receipt of a dry run outlives the pass which follows its insertion exactly when fewer than
`retainedRows` receipts are later. -/
theorem Tables.mem_prune_insertReceipt {tables : Tables} {columns : ReceiptColumns}
    {terminal : TerminalRecord} (nonnegative : 0 ≤ columns.completedUnix) :
    (⟨tables.nextRowid, columns⟩ : ReceiptRow) ∈
        (((tables.insertReceipt columns).insertHistory terminal).prune store
          columns.completedUnix).receipts ↔
      tables.laterReceipts columns.completedUnix < store.retainedRows := by
  have member : (⟨tables.nextRowid, columns⟩ : ReceiptRow) ∈
      ((tables.insertReceipt columns).insertHistory terminal).receipts :=
    List.mem_append_right _ (List.mem_singleton_self _)
  rw [Tables.mem_prune_iff member (saturatingSubI64_le nonnegative _)]
  have counted : ((tables.insertReceipt columns).insertHistory terminal).receipts.countP
      (fun other => receiptOrder other < receiptOrder ⟨tables.nextRowid, columns⟩) =
        tables.laterReceipts columns.completedUnix := by
    change (tables.receipts ++ [(⟨tables.nextRowid, columns⟩ : ReceiptRow)]).countP _ = _
    rw [List.countP_append, List.countP_singleton, if_neg (by simp), Nat.add_zero]
    refine List.countP_congr fun other listed => ?_
    have older := rowid_lt_nextRowid listed
    rw [decide_eq_true_eq, decide_eq_true_eq, receiptOrder, receiptOrder,
      OrderDual.toDual_lt_toDual, Prod.Lex.toLex_lt_toLex]
    exact ⟨fun newer => newer.resolve_right fun both => lt_asymm older both.2, .inl⟩
  rw [counted]

/-! ## Recording -/

theorem ends_insertTerminal {terminal : TerminalRecord} {post : Unit → HistoryWorld → Prop}
    (holds : post () ⟨world.stored, world.working.insertHistory terminal⟩) :
    Ends (insertTerminal terminal) world post := by
  refine ends_bind.mpr (ends_ofResult.mpr fun _ _ => ends_bind.mpr ?_)
  refine ends_execute fun tables result executed => ?_
  rw [Tables.execute] at executed
  split at executed
  · cases executed
  · cases executed
    exact ends_pure.mpr holds

theorem ends_recordTerminal (record : TerminalRecord) :
    Ends (store.recordTerminal record) world fun _ after =>
      after.stored = (world.stored.insertHistory record).prune store record.recordedUnix := by
  refine ends_bind.mpr (ends_ofResult.mpr fun _ _ => ends_bind.mpr (ends_checkSize ?_))
  refine ends_bind.mpr (ends_begin (ends_bind.mpr (ends_ofResult.mpr fun _ _ => ?_)))
  apply ends_bind.mpr
  refine ends_execute fun tables result executed => ?_
  rw [Tables.execute] at executed
  split at executed
  · cases executed
  · cases executed
    refine ends_bind.mpr (ends_commit (ends_bind.mpr (ends_checkpoint (ends_bind.mpr ?_))))
    exact (ends_maintain record.recordedUnix).post fun _ _ pruned => ends_pure.mpr pruned

/-- What a recorded dry run leaves: its receipt under an unused reference, its terminal record, and
both tables pruned at its completion time. -/
structure DryRunRecorded (store : HistoryStore) (binding : DryRunBinding)
    (terminal : TerminalRecord) (before : Tables) (receipt : DryRunReceipt) (after : Tables) :
    Prop where
  same : receipt.binding = binding
  inserted : ∃ columns, receiptColumns receipt.reference binding = .ok columns ∧
    (∀ row ∈ before.receipts, row.columns.receiptRef ≠ columns.receiptRef) ∧
    after = ((before.insertReceipt columns).insertHistory terminal).prune store
      binding.completedUnix

theorem ends_dryRunAttempts (binding : DryRunBinding) (terminal : TerminalRecord)
    (attempts : Nat) :
    Ends (store.dryRunAttempts binding terminal attempts) world fun receipt after =>
      DryRunRecorded store binding terminal world.stored receipt after.stored := by
  induction attempts generalizing world with
  | zero => exact ends_ofResult.mpr nofun
  | succ attempts induction =>
      refine ends_bind.mpr (ends_randomReceipt fun reference => ends_bind.mpr (ends_begin ?_))
      refine ends_bind.mpr (ends_ofResult.mpr fun columns written => ends_bind.mpr ?_)
      refine ends_execute fun tables result executed => ?_
      rw [Tables.execute] at executed
      split at executed
      · cases executed
        rw [if_neg (by decide), if_neg (by decide)]
        exact ends_bind.mpr (ends_commit (ends_bind.mpr (ends_checkpoint induction)))
      · rename_i fresh
        cases executed
        rw [if_pos rfl, if_pos rfl]
        refine ends_bind.mpr (ends_insertTerminal (ends_bind.mpr (ends_commit ?_)))
        refine ends_bind.mpr (ends_checkpoint (ends_bind.mpr ?_))
        refine (ends_maintain binding.completedUnix).post fun _ after pruned => ?_
        refine ends_pure.mpr ⟨rfl, columns, written, fun row listed same => fresh ?_, pruned⟩
        rw [Bool.or_eq_true, List.any_eq_true]
        exact .inl ⟨row, listed, beq_iff_eq.mpr same⟩

/-- A valid dry run which is recorded. -/
theorem ends_recordDryRun (binding : DryRunBinding) (terminal : TerminalRecord) :
    Ends (store.recordDryRun binding terminal) world fun receipt after =>
      0 ≤ binding.completedUnix ∧
        DryRunRecorded store binding terminal world.stored receipt after.stored := by
  refine ends_bind.mpr (ends_ofResult.mpr fun _ valid => ends_bind.mpr ?_)
  refine ends_ofResult.mpr fun _ _ => ends_bind.mpr (ends_checkSize ?_)
  refine (ends_dryRunAttempts binding terminal 8).post fun receipt after recorded => ?_
  refine ⟨?_, recorded⟩
  rw [validateDryRun, reject_eq_ok] at valid
  simp only [Bool.or_eq_false_iff, decide_eq_false_iff_not, not_lt] at valid
  exact valid.1.1.1.1.1

/-- A recorded receipt is read back as it was returned when there was room for it, and is gone
otherwise. -/
theorem DryRunRecorded.dryRunReceipt_eq {binding : DryRunBinding} {terminal : TerminalRecord}
    {before after : Tables} {receipt : DryRunReceipt}
    (recorded : DryRunRecorded store binding terminal before receipt after)
    (nonnegative : 0 ≤ binding.completedUnix) :
    after.dryRunReceipt receipt.reference =
      .ok (if before.laterReceipts binding.completedUnix < store.retainedRows then some receipt
        else none) := by
  obtain ⟨same, columns, written, fresh, rfl⟩ := recorded
  obtain ⟨reference, completed, readBack, _⟩ := receiptColumns_eq_ok written
  rw [← completed] at nonnegative ⊢
  have room := @Tables.mem_prune_insertReceipt store before columns terminal nonnegative
  set after := ((before.insertReceipt columns).insertHistory terminal).prune store
    columns.completedUnix
  have kept : ∀ row ∈ after.receipts, row ∈ (before.insertReceipt columns).receipts := by
    intro row member
    exact List.filter_sublist.subset (keepFirst_sublist.subset member)
  have only : ∀ row ∈ after.receipts, row.columns.receiptRef = receipt.reference.bytes →
      row = ⟨before.nextRowid, columns⟩ := by
    intro row member matching
    rcases List.mem_append.mp (kept row member) with old | new
    · exact absurd (matching.trans reference.symm) (fresh row old)
    · exact List.mem_singleton.mp new
  rw [Tables.dryRunReceipt]
  cases found : after.receipts.find? fun row =>
      row.columns.receiptRef == receipt.reference.bytes with
  | none =>
      have missing : (⟨before.nextRowid, columns⟩ : ReceiptRow) ∉ after.receipts := by
        intro member
        exact absurd (beq_iff_eq.mpr reference) (List.find?_eq_none.mp found _ member)
      rw [if_neg (mt room.mpr missing)]
  | some row =>
      have member := List.mem_of_find?_eq_some found
      have matching := List.find?_some found
      have inserted := only row member (beq_iff_eq.mp matching)
      subst inserted
      change (columns.receipt receipt.reference).map some = _
      rw [if_pos (room.mp member), readBack, ← same]
      rfl

theorem DryRunRecorded.readable_iff {binding : DryRunBinding} {terminal : TerminalRecord}
    {before after : Tables} {receipt : DryRunReceipt}
    (recorded : DryRunRecorded store binding terminal before receipt after)
    (nonnegative : 0 ≤ binding.completedUnix) :
    after.dryRunReceipt receipt.reference = .ok (some receipt) ↔
      before.laterReceipts binding.completedUnix < store.retainedRows := by
  rw [recorded.dryRunReceipt_eq nonnegative]
  split
  · rename_i room
    exact iff_of_true rfl room
  · rename_i full
    exact iff_of_false nofun full

/-! ## Runs -/

/-- One call of the store. -/
inductive HistoryOperation
  | recordTerminal (record : TerminalRecord)
  | recordDryRun (binding : DryRunBinding) (terminal : TerminalRecord)
  | maintain (now : Int)
  deriving DecidableEq

/-- The program of a call, with the receipt which it returns. -/
def HistoryOperation.program (store : HistoryStore) :
    HistoryOperation → HistoryProgram (Option DryRunReceipt)
  | .recordTerminal record => do
      let _ ← store.recordTerminal record
      return none
  | .recordDryRun binding terminal => do
      let receipt ← store.recordDryRun binding terminal
      return some receipt
  | .maintain now => do
      store.maintain now
      return none

/-- A call of a run: the stored tables around it and what it returned. -/
structure HistoryStep where
  operation : HistoryOperation
  before : Tables
  outcome : Except String (Option DryRunReceipt)
  after : Tables

/-- Calls one after the other, each finished, whatever fails inside them. -/
inductive HistoryRun (store : HistoryStore) : Tables → List HistoryStep → Tables → Prop
  | nil (tables : Tables) : HistoryRun store tables [] tables
  | call {operation : HistoryOperation} {start finish : Tables} {world : HistoryWorld}
      {events : List (Event HistoryAnswer)} {outcome : Except String (Option DryRunReceipt)}
      {steps : List HistoryStep} :
      Execution historyEnvironment (operation.program store).run ⟨start, start⟩ events
        (.done outcome) world →
      HistoryRun store world.stored steps finish →
      HistoryRun store start (⟨operation, start, outcome, world.stored⟩ :: steps) finish

namespace HistoryStep

/-- What is expected of a call which succeeds: a returned receipt is bound to what was recorded and
can be read back at once, and both tables are within their bound. -/
def Kept (store : HistoryStore) (step : HistoryStep) : Prop :=
  (∀ binding terminal receipt, step.operation = .recordDryRun binding terminal →
    step.outcome = .ok (some receipt) →
      receipt.binding = binding ∧
        step.after.dryRunReceipt receipt.reference = .ok (some receipt)) ∧
    ∀ result, step.outcome = .ok result →
      step.after.history.length ≤ store.retainedRows ∧
        step.after.receipts.length ≤ store.retainedRows

/-- Fewer receipts than are retained complete later than the recorded dry run. -/
def HasRoom (store : HistoryStore) (step : HistoryStep) : Prop :=
  ∀ binding terminal, step.operation = .recordDryRun binding terminal →
    step.before.laterReceipts binding.completedUnix < store.retainedRows

/-- The call returned without an error. -/
def Succeeded (step : HistoryStep) : Prop := ∃ result, step.outcome = .ok result

end HistoryStep

/-- What each successful call leaves. -/
theorem ends_operation (operation : HistoryOperation) :
    Ends (operation.program store) world fun result after =>
      (∃ tables now, after.stored = Tables.prune tables store now) ∧
        ∀ binding terminal, operation = .recordDryRun binding terminal →
          ∃ receipt, result = some receipt ∧ 0 ≤ binding.completedUnix ∧
            DryRunRecorded store binding terminal world.stored receipt after.stored := by
  cases operation with
  | recordTerminal record =>
      refine ends_bind.mpr ((ends_recordTerminal record).post fun _ after pruned => ?_)
      exact ends_pure.mpr ⟨⟨_, _, pruned⟩, nofun⟩
  | recordDryRun binding terminal =>
      refine ends_bind.mpr ((ends_recordDryRun binding terminal).post fun receipt after ended => ?_)
      obtain ⟨nonnegative, recorded⟩ := ended
      obtain ⟨columns, _, _, pruned⟩ := recorded.inserted
      refine ends_pure.mpr ⟨⟨_, _, pruned⟩, fun _ _ same => ?_⟩
      cases same
      exact ⟨receipt, rfl, nonnegative, recorded⟩
  | maintain now =>
      refine ends_bind.mpr ((ends_maintain now).post fun _ after pruned => ?_)
      exact ends_pure.mpr ⟨⟨_, _, pruned⟩, nofun⟩

/-- One call keeps what is expected exactly when a successful dry run had room. -/
theorem HistoryStep.kept_iff {operation : HistoryOperation} {start : Tables} {world : HistoryWorld}
    {events : List (Event HistoryAnswer)} {outcome : Except String (Option DryRunReceipt)}
    (execution : Execution historyEnvironment (operation.program store).run ⟨start, start⟩ events
      (.done outcome) world) :
    Kept store ⟨operation, start, outcome, world.stored⟩ ↔
      (Succeeded ⟨operation, start, outcome, world.stored⟩ →
        HasRoom store ⟨operation, start, outcome, world.stored⟩) := by
  have ended := execution.result (ends_operation operation)
  constructor
  · rintro ⟨readable, -⟩ ⟨result, rfl⟩ binding terminal rfl
    obtain ⟨receipt, rfl, nonnegative, recorded⟩ := (ended result rfl).2 binding terminal rfl
    exact (recorded.readable_iff nonnegative).mp (readable binding terminal receipt rfl rfl).2
  · intro room
    constructor
    · rintro binding terminal receipt rfl rfl
      obtain ⟨_, same, nonnegative, recorded⟩ := (ended _ rfl).2 binding terminal rfl
      cases same
      have enough := room ⟨_, rfl⟩ binding terminal rfl
      exact ⟨recorded.same, (recorded.readable_iff nonnegative).mpr enough⟩
    · rintro result rfl
      obtain ⟨tables, now, pruned⟩ := (ended result rfl).1
      change world.stored.history.length ≤ _ ∧ world.stored.receipts.length ≤ _
      rw [pruned]
      exact tables.length_prune_le now

/-! ## Runs which take place -/

/-- The database may let a program return a value which satisfies `post`. -/
def Can {α : Type} (program : HistoryProgram α) (world : HistoryWorld)
    (post : α → HistoryWorld → Prop) : Prop :=
  program.run.Reaches historyEnvironment world fun _ outcome after =>
    ∃ value, outcome = .ok value ∧ post value after

section Rules

variable {α β : Type}

theorem can_pure {value : α} {post : α → HistoryWorld → Prop} (holds : post value world) :
    Can (pure value) world post :=
  ⟨value, rfl, holds⟩

theorem can_ofResult {value : Except String α} {result : α} {post : α → HistoryWorld → Prop}
    (returned : value = .ok result) (holds : post result world) :
    Can (HistoryProgram.ofResult value) world post :=
  ⟨result, returned, holds⟩

theorem can_bind {program : HistoryProgram α} {next : α → HistoryProgram β}
    {post : β → HistoryWorld → Prop}
    (can : Can program world fun value after => Can (next value) after post) :
    Can (program >>= next) world post :=
  Program.reaches_exceptT_bind can

theorem can_checkSize {post : Unit → HistoryWorld → Prop} (holds : post () world) :
    Can HistoryProgram.checkSize world post :=
  ⟨.ok (), world, rfl, (), rfl, holds⟩

theorem can_checkpoint {post : Unit → HistoryWorld → Prop} (holds : post () world) :
    Can HistoryProgram.checkpoint world post :=
  ⟨.ok (), world, rfl, (), rfl, holds⟩

theorem can_protectFiles {post : Unit → HistoryWorld → Prop} (holds : post () world) :
    Can HistoryProgram.protectFiles world post :=
  ⟨.ok (), world, rfl, (), rfl, holds⟩

theorem can_randomReceipt (reference : ReceiptRef) {post : ReceiptRef → HistoryWorld → Prop}
    (holds : post reference world) : Can HistoryProgram.randomReceipt world post :=
  ⟨.ok reference, world, rfl, reference, rfl, holds⟩

theorem can_begin {post : Unit → HistoryWorld → Prop}
    (holds : post () ⟨world.stored, world.stored⟩) : Can HistoryProgram.begin world post :=
  ⟨.ok (), _, rfl, (), rfl, holds⟩

theorem can_commit {post : Unit → HistoryWorld → Prop}
    (holds : post () ⟨world.working, world.working⟩) : Can HistoryProgram.commit world post :=
  ⟨.ok (), _, rfl, (), rfl, holds⟩

theorem can_execute {statement : Tables.Statement} {tables : Tables} {result : Nat}
    {post : Nat → HistoryWorld → Prop}
    (executed : world.working.execute statement = some (tables, result))
    (holds : post result ⟨world.stored, tables⟩) :
    Can (HistoryProgram.execute statement) world post :=
  ⟨.ok result, _, ⟨tables, executed, rfl⟩, result, rfl, holds⟩

end Rules

theorem can_maintain (small : store.retainedRows < 2 ^ 63) (now : Int) :
    Can (store.maintain now) world fun _ after => after.stored = world.stored.prune store now := by
  have limit : store.limit = .ok store.retainedRows := if_pos small
  refine can_bind (can_checkSize (can_bind (can_begin (can_bind (can_execute rfl ?_)))))
  refine can_bind (can_ofResult limit (can_bind (can_execute rfl ?_)))
  refine can_bind (can_execute rfl (can_bind (can_ofResult limit ?_)))
  refine can_bind (can_execute rfl (can_bind (can_commit (can_bind (can_checkpoint ?_)))))
  exact can_bind (can_protectFiles (can_checkSize rfl))

/-- A valid dry run can be recorded under every unused reference. -/
theorem can_recordDryRun {binding : DryRunBinding} {terminal : TerminalRecord}
    {reference : ReceiptRef} {columns : ReceiptColumns} (small : store.retainedRows < 2 ^ 63)
    (bindingValid : validateDryRun binding = .ok ())
    (terminalValid : validateTerminal binding terminal = .ok ())
    (counted : terminal.counters.checked "receipt counter is invalid" = .ok ())
    (written : receiptColumns reference binding = .ok columns)
    (fresh : ∀ row ∈ world.stored.receipts, row.columns.receiptRef ≠ columns.receiptRef) :
    Can (store.recordDryRun binding terminal) world fun receipt _ =>
      receipt = { reference, binding } := by
  have generation : binding.credentialGeneration ≠ 0 := by
    rw [validateDryRun, reject_eq_ok] at bindingValid
    simp only [Bool.or_eq_false_iff, beq_eq_false_iff_ne] at bindingValid
    exact bindingValid.1.1.1.1.2
  have check := (receiptColumns_eq_ok written).2.2.2 generation
  have unused : (world.stored.receipts.any fun row =>
      row.columns.receiptRef == columns.receiptRef) = false := by
    refine List.any_eq_false.mpr fun row member => ?_
    rw [beq_iff_eq]
    exact fresh row member
  have receiptInserted : world.stored.execute (.insertReceipt columns) =
      some (world.stored.insertReceipt columns, 1) := by
    rw [Tables.execute, unused, check]
    rfl
  have planned : (terminal.plan.any fun plan => plan.2 == 0) = false := by
    rw [validateTerminal, reject_eq_ok] at terminalValid
    simp only [Bool.or_eq_false_iff, Bool.not_eq_false'] at terminalValid
    cases listed : terminal.plan with
    | none => rfl
    | some plan =>
        have matching := terminalValid.2
        rw [listed] at matching
        simp at matching ⊢
        omega
  have historyInserted : (world.stored.insertReceipt columns).execute (.insertHistory terminal) =
      some ((world.stored.insertReceipt columns).insertHistory terminal,
        (world.stored.insertReceipt columns).lastSequence + 1) := by
    rw [Tables.execute, planned]
    rfl
  refine can_bind (can_ofResult bindingValid (can_bind (can_ofResult terminalValid ?_)))
  refine can_bind (can_checkSize (can_bind (can_randomReceipt reference (can_bind ?_))))
  refine can_begin (can_bind (can_ofResult written (can_bind (can_execute receiptInserted ?_))))
  rw [if_pos rfl, if_pos rfl]
  refine can_bind (can_bind (can_ofResult counted (can_bind (can_execute historyInserted ?_))))
  refine can_pure (can_bind (can_commit (can_bind (can_checkpoint (can_bind ?_)))))
  refine (can_maintain small binding.completedUnix).mono fun _ outcome after ended => ?_
  obtain ⟨value, returned, _⟩ := ended
  exact ⟨value, returned, can_pure rfl⟩

/-- A valid dry run is one step of a run. -/
theorem HistoryRun.recordDryRun {start : Tables} {binding : DryRunBinding}
    {terminal : TerminalRecord} {reference : ReceiptRef} {columns : ReceiptColumns}
    (small : store.retainedRows < 2 ^ 63) (bindingValid : validateDryRun binding = .ok ())
    (terminalValid : validateTerminal binding terminal = .ok ())
    (counted : terminal.counters.checked "receipt counter is invalid" = .ok ())
    (written : receiptColumns reference binding = .ok columns)
    (fresh : ∀ row ∈ start.receipts, row.columns.receiptRef ≠ columns.receiptRef) :
    ∃ after, DryRunRecorded store binding terminal start { reference, binding } after ∧
      ∀ steps finish, HistoryRun store after steps finish →
        HistoryRun store start (⟨.recordDryRun binding terminal, start,
          .ok (some { reference, binding }), after⟩ :: steps) finish := by
  let operation := HistoryOperation.recordDryRun binding terminal
  have can : Can (operation.program store) ⟨start, start⟩ fun result _ =>
      result = some { reference, binding } := by
    refine can_bind ((can_recordDryRun small bindingValid terminalValid counted written fresh).mono
      fun _ outcome after reached => ?_)
    obtain ⟨_, rfl, rfl⟩ := reached
    exact ⟨_, rfl, can_pure rfl⟩
  obtain ⟨events, outcome, after, execution, _, rfl, rfl⟩ := can.execution
  have ended := execution.result (ends_operation operation)
  obtain ⟨_, same, _, recorded⟩ := (ended _ rfl).2 binding terminal rfl
  cases same
  exact ⟨after.stored, recorded, fun steps finish rest => .call execution rest⟩

/-- **Receipts.** In every run, over every stored history, a receipt which is returned can be read
back and the tables stay within their bounds, exactly when each recorded dry run found fewer later
receipts than are retained. -/
theorem HistoryRun.receipts_kept_iff {start finish : Tables} {steps : List HistoryStep}
    (run : HistoryRun store start steps finish) :
    (∀ step ∈ steps, step.Kept store) ↔ ∀ step ∈ steps, step.Succeeded → step.HasRoom store := by
  induction run with
  | nil => exact iff_of_true (List.forall_mem_nil _) (List.forall_mem_nil _)
  | call execution _ induction =>
      rw [List.forall_mem_cons, List.forall_mem_cons, HistoryStep.kept_iff execution, induction]


/-- A dry run of the folder plan with reference zero. -/
def datedDryRun (completedUnix : Int) : DryRunBinding :=
  { planReference := ⟨0⟩, planSha256 := digestOf 'a', sourceConfigurationSha256 := digestOf 'b'
    serverIdentitySha256 := digestOf 'c', serverProfileSha256 := digestOf 'd'
    credentialGeneration := 1, maxLogicalEffects := 0, completedUnix }

/-- Its terminal record. -/
def datedTerminal (recordedUnix : Int) : TerminalRecord :=
  { recordedUnix, kind := .folderDryRun, status := .completed, plan := some (⟨0⟩, 1)
    counters := .default }

/-- A store which retains one row for a day. -/
def sampleHistory : HistoryStore := { retainedRows := 1, retentionSeconds := 86400 }

theorem datedDryRun_written (reference : ReceiptRef) (completedUnix : Int) :
    ∃ columns, receiptColumns reference (datedDryRun completedUnix) = .ok columns ∧
      columns.receiptRef = reference.bytes := by
  have plan : decodeSha256 (digestOf 'a') = .ok _ := if_pos (by decide +kernel)
  have source : decodeSha256 (digestOf 'b') = .ok _ := if_pos (by decide +kernel)
  have identity : decodeSha256 (digestOf 'c') = .ok _ := if_pos (by decide +kernel)
  have profile : decodeSha256 (digestOf 'd') = .ok _ := if_pos (by decide +kernel)
  rw [receiptColumns, datedDryRun, plan, source, identity, profile]
  exact ⟨_, rfl, rfl⟩

/-- A single dry run has room, and its receipt is kept. -/
theorem HistoryRun.datedDryRun_kept :
    ∃ steps finish, HistoryRun sampleHistory .empty steps finish ∧
      steps.map HistoryStep.operation = [.recordDryRun (datedDryRun 100) (datedTerminal 100)] ∧
        ∀ step ∈ steps, step.Succeeded ∧ step.Kept sampleHistory := by
  obtain ⟨columns, written, _⟩ := datedDryRun_written ⟨1⟩ 100
  obtain ⟨after, _, extend⟩ := @HistoryRun.recordDryRun sampleHistory .empty (datedDryRun 100)
    (datedTerminal 100) ⟨1⟩ columns (by decide) (by decide +kernel) (by decide +kernel)
    (by decide +kernel) written nofun
  have run := extend [] after (.nil after)
  refine ⟨_, _, run, rfl, fun step member => ⟨?_, ?_⟩⟩
  · cases List.mem_singleton.mp member
    exact ⟨_, rfl⟩
  · refine (HistoryRun.receipts_kept_iff run).mpr (fun step member _ => ?_) step member
    cases List.mem_singleton.mp member
    rintro _ _ ⟨⟩
    exact Nat.zero_lt_one

/-- A dry run which completes after the clock has stepped back loses its receipt at once. -/
theorem HistoryRun.earlier_receipt_pruned :
    ∃ steps finish, HistoryRun sampleHistory .empty steps finish ∧
      steps.map HistoryStep.operation =
        [.recordDryRun (datedDryRun 100) (datedTerminal 100),
          .recordDryRun (datedDryRun 50) (datedTerminal 50)] ∧
        ∃ step ∈ steps, ∃ receipt, step.outcome = .ok (some receipt) ∧
          step.after.dryRunReceipt receipt.reference = .ok none := by
  obtain ⟨columns, written, reference⟩ := datedDryRun_written ⟨1⟩ 100
  obtain ⟨between, recorded, extend⟩ := @HistoryRun.recordDryRun sampleHistory .empty
    (datedDryRun 100) (datedTerminal 100) ⟨1⟩ columns (by decide) (by decide +kernel)
    (by decide +kernel) (by decide +kernel) written nofun
  -- The first receipt is stored and fills the table.
  obtain ⟨_, firstColumns, firstWritten, _, rfl⟩ := recorded
  cases written.symm.trans firstWritten
  have completed : columns.completedUnix = 100 := (receiptColumns_eq_ok written).2.1
  set between := ((Tables.empty.insertReceipt columns).insertHistory (datedTerminal 100)).prune
    sampleHistory (datedDryRun 100).completedUnix with stored
  have rows : ∀ row ∈ between.receipts, row = ⟨Tables.empty.nextRowid, columns⟩ := by
    intro row member
    have inserted := List.filter_sublist.subset (keepFirst_sublist.subset member)
    exact List.mem_singleton.mp inserted
  have first : (⟨Tables.empty.nextRowid, columns⟩ : ReceiptRow) ∈ between.receipts := by
    rw [stored, show (datedDryRun 100).completedUnix = columns.completedUnix from completed.symm]
    refine (Tables.mem_prune_insertReceipt (by omega)).mpr ?_
    exact Nat.zero_lt_one
  -- The second dry run completes earlier.
  obtain ⟨secondColumns, secondWritten, secondReference⟩ := datedDryRun_written ⟨2⟩ 50
  have fresh : ∀ row ∈ between.receipts, row.columns.receiptRef ≠ secondColumns.receiptRef := by
    intro row member
    rw [rows row member, reference, secondReference]
    decide
  obtain ⟨after, secondRecorded, extendAgain⟩ := @HistoryRun.recordDryRun sampleHistory between
    (datedDryRun 50) (datedTerminal 50) ⟨2⟩ secondColumns (by decide) (by decide +kernel)
    (by decide +kernel) (by decide +kernel) secondWritten fresh
  have run := extend _ after (extendAgain [] after (.nil after))
  refine ⟨_, _, run, rfl, _, List.mem_cons_of_mem _ (List.mem_singleton_self _), _, rfl, ?_⟩
  have later : ¬ between.laterReceipts 50 < sampleHistory.retainedRows := by
    have counted : 0 < between.laterReceipts 50 :=
      List.countP_pos_iff.mpr ⟨_, first, by simp [completed]⟩
    exact Nat.not_lt.mpr counted
  have missing := secondRecorded.dryRunReceipt_eq (by decide)
  rwa [show (datedDryRun 50).completedUnix = 50 from rfl, if_neg later] at missing

end ImmichRs.Web
