import ImmichRs.Collections.Newest
import ImmichRs.Core.JsonText
import ImmichRs.Interaction.Program
import ImmichRs.Web.Store

/-!
# The history database

Two tables: the terminal history, and the receipts of completed dry runs.  Every insertion is
followed by a pruning pass, which deletes the rows before a cut-off and keeps the newest of the
others: the history in the order of its sequence, the receipts in the order of their completion
times.  The store is a program over the statements which it executes; any of them may fail.
-/

namespace ImmichRs.Web

open Collections Interaction

/-! ## Digests in columns -/

/-- The bytes behind pairs of hexadecimal digits. -/
def hexBytes : List Char → List UInt8
  | high :: low :: rest =>
      UInt8.ofNat (hexDigitValue high * 16 + hexDigitValue low) :: hexBytes rest
  | _ => []

/-- `decode_sha256`. -/
def decodeSha256 (value : String) : Except String (List UInt8) :=
  if isLowerSha256 value then .ok (hexBytes value.toList)
  else .error "receipt digest is invalid"

/-- Two hexadecimal digits of each byte. -/
def hexPairs (bytes : List UInt8) : List Char :=
  bytes.flatMap fun byte => [hexDigit (byte.toNat / 16), hexDigit (byte.toNat % 16)]

/-- `encode_sha256`. -/
def encodeSha256 (bytes : List UInt8) : Except String String :=
  if bytes.length ≠ 32 then .error "history database operation failed"
  else .ok (String.ofList (hexPairs bytes))

/-- `checked_u64`: an unsigned counter in a signed column. -/
def checkedU64 (message : String) (value : Nat) : Except String Int :=
  if value < 2 ^ 63 then .ok value else .error message

/-- `read_u64_value`. -/
def readU64Value (value : Int) : Except String Nat :=
  if 0 ≤ value then .ok value.toNat else .error "history database operation failed"

/-- `i64::saturating_sub`. -/
def saturatingSubI64 (left right : Int) : Int :=
  max (-2 ^ 63) (min (2 ^ 63 - 1) (left - right))

/-! ## Tables -/

/-- A row of the table `history`. -/
structure HistoryRow where
  sequence : Nat
  record : TerminalRecord
  deriving DecidableEq

/-- The columns of the table `dry_run_receipts`. -/
structure ReceiptColumns where
  receiptRef : BitVec 128
  planRef : BitVec 128
  planSha256 : List UInt8
  sourceConfigurationSha256 : List UInt8
  serverIdentitySha256 : List UInt8
  serverProfileSha256 : List UInt8
  credentialGeneration : Int
  maxLogicalEffects : Int
  completedUnix : Int
  deriving DecidableEq

/-- The `CHECK` constraints of the table `dry_run_receipts`. -/
def ReceiptColumns.check (columns : ReceiptColumns) : Bool :=
  columns.planSha256.length == 32 && columns.sourceConfigurationSha256.length == 32 &&
    columns.serverIdentitySha256.length == 32 && columns.serverProfileSha256.length == 32 &&
    decide (0 < columns.credentialGeneration) && decide (0 ≤ columns.maxLogicalEffects)

/-- A row of the table `dry_run_receipts` with its implicit row number. -/
structure ReceiptRow where
  rowid : Nat
  columns : ReceiptColumns
  deriving DecidableEq

/-- The database: rows in the order of their insertion, with the keys which SQLite keeps unique. -/
structure Tables where
  history : List HistoryRow
  lastSequence : Nat
  receipts : List ReceiptRow
  sequences : (history.map HistoryRow.sequence).Nodup
  bounded : ∀ row ∈ history, row.sequence ≤ lastSequence
  rowids : (receipts.map ReceiptRow.rowid).Nodup

namespace Tables

/-- A new database. -/
def empty : Tables where
  history := []
  lastSequence := 0
  receipts := []
  sequences := List.nodup_nil
  bounded := by simp
  rowids := List.nodup_nil

/-- The row number of the next receipt: one more than the largest in use. -/
def nextRowid (tables : Tables) : Nat :=
  (tables.receipts.map ReceiptRow.rowid).foldr max 0 + 1

theorem rowid_lt_nextRowid {tables : Tables} {row : ReceiptRow} (member : row ∈ tables.receipts) :
    row.rowid < tables.nextRowid := by
  have below : ∀ rowids : List Nat, ∀ rowid ∈ rowids, rowid ≤ rowids.foldr max 0 := by
    intro rowids
    induction rowids with
    | nil => simp
    | cons head rest induction =>
        refine List.forall_mem_cons.mpr ⟨le_max_left _ _, fun rowid inside => ?_⟩
        exact (induction rowid inside).trans (le_max_right _ _)
  exact Nat.lt_succ_of_le (below _ _ (List.mem_map_of_mem member))

/-- `INSERT INTO history`. -/
def insertHistory (tables : Tables) (record : TerminalRecord) : Tables :=
  { tables with
    history := tables.history ++ [⟨tables.lastSequence + 1, record⟩]
    lastSequence := tables.lastSequence + 1
    sequences := by
      rw [List.map_append, List.nodup_append']
      refine ⟨tables.sequences, by simp, fun sequence old new => ?_⟩
      obtain ⟨row, member, rfl⟩ := List.mem_map.mp old
      have fresh := tables.bounded row member
      simp only [List.map_cons, List.map_nil, List.mem_singleton] at new
      omega
    bounded := by
      intro row member
      rcases List.mem_append.mp member with old | new
      · exact Nat.le_succ_of_le (tables.bounded row old)
      · rw [List.mem_singleton.mp new] }

/-- `INSERT INTO dry_run_receipts`. -/
def insertReceipt (tables : Tables) (columns : ReceiptColumns) : Tables :=
  { tables with
    receipts := tables.receipts ++ [⟨tables.nextRowid, columns⟩]
    rowids := by
      rw [List.map_append, List.nodup_append']
      refine ⟨tables.rowids, by simp, fun rowid old new => ?_⟩
      obtain ⟨row, member, rfl⟩ := List.mem_map.mp old
      have fresh := rowid_lt_nextRowid member
      simp only [List.map_cons, List.map_nil, List.mem_singleton] at new
      omega }

/-- Delete rows of the history. -/
def selectHistory (tables : Tables) (kept : List HistoryRow)
    (sublist : kept.Sublist tables.history) : Tables :=
  { tables with
    history := kept
    sequences := tables.sequences.sublist (sublist.map _)
    bounded := fun row member => tables.bounded row (sublist.subset member) }

/-- Delete rows of the receipts. -/
def selectReceipts (tables : Tables) (kept : List ReceiptRow)
    (sublist : kept.Sublist tables.receipts) : Tables :=
  { tables with
    receipts := kept
    rowids := tables.rowids.sublist (sublist.map _) }

/-- `DELETE FROM history WHERE recorded_unix < cutoff`. -/
def deleteHistoryBefore (tables : Tables) (cutoff : Int) : Tables :=
  tables.selectHistory (tables.history.filter fun row => decide (cutoff ≤ row.record.recordedUnix))
    List.filter_sublist

/-- `DELETE FROM history WHERE sequence NOT IN (SELECT .. ORDER BY sequence DESC LIMIT limit)`. -/
def keepNewestHistory (tables : Tables) (limit : Nat) : Tables :=
  tables.selectHistory
    (keepFirst HistoryRow.sequence (fun row => OrderDual.toDual row.sequence) limit tables.history)
    keepFirst_sublist

/-- `DELETE FROM dry_run_receipts WHERE completed_unix < cutoff`. -/
def deleteReceiptsBefore (tables : Tables) (cutoff : Int) : Tables :=
  tables.selectReceipts
    (tables.receipts.filter fun row => decide (cutoff ≤ row.columns.completedUnix))
    List.filter_sublist

/-- The order `completed_unix DESC, rowid DESC`. -/
def receiptOrder (row : ReceiptRow) : (Int ×ₗ Nat)ᵒᵈ :=
  OrderDual.toDual (toLex (row.columns.completedUnix, row.rowid))

/-- `DELETE FROM dry_run_receipts WHERE rowid NOT IN (SELECT .. LIMIT limit)`. -/
def keepNewestReceipts (tables : Tables) (limit : Nat) : Tables :=
  tables.selectReceipts (keepFirst ReceiptRow.rowid receiptOrder limit tables.receipts)
    keepFirst_sublist

/-- One statement which the store executes inside a transaction. -/
inductive Statement
  | insertHistory (record : TerminalRecord)
  /-- `INSERT OR IGNORE`. -/
  | insertReceipt (columns : ReceiptColumns)
  | deleteHistoryBefore (cutoff : Int)
  | keepNewestHistory (limit : Nat)
  | deleteReceiptsBefore (cutoff : Int)
  | keepNewestReceipts (limit : Nat)

/-- Execute a statement: the tables after it, with the sequence of an inserted history row or the
number of inserted receipts.  A violated constraint fails the insertion into the history, and is
ignored by that into the receipts. -/
def execute (tables : Tables) : Statement → Option (Tables × Nat)
  | .insertHistory record =>
      if record.plan.any fun plan => plan.2 == 0 then none
      else some (tables.insertHistory record, tables.lastSequence + 1)
  | .insertReceipt columns =>
      if tables.receipts.any (fun row => row.columns.receiptRef == columns.receiptRef) ||
          !columns.check then
        some (tables, 0)
      else
        some (tables.insertReceipt columns, 1)
  | .deleteHistoryBefore cutoff => some (tables.deleteHistoryBefore cutoff, 0)
  | .keepNewestHistory limit => some (tables.keepNewestHistory limit, 0)
  | .deleteReceiptsBefore cutoff => some (tables.deleteReceiptsBefore cutoff, 0)
  | .keepNewestReceipts limit => some (tables.keepNewestReceipts limit, 0)

end Tables

/-! ## Calls -/

/-- What the store asks of its surroundings. -/
inductive HistoryCall
  /-- `check_size`. -/
  | checkSize
  /-- `ReceiptRef::random`. -/
  | randomReceipt
  /-- The lock and `BEGIN IMMEDIATE`. -/
  | begin
  | execute (statement : Tables.Statement)
  | commit
  /-- `PRAGMA wal_checkpoint`. -/
  | checkpoint
  /-- `protect_database_files`. -/
  | protectFiles

/-- The type of the answer to each call. -/
def HistoryAnswer : HistoryCall → Type
  | .checkSize | .begin | .commit | .checkpoint | .protectFiles => Except String Unit
  | .randomReceipt => Except String ReceiptRef
  | .execute _ => Except String Nat

/-- Programs of the history store. -/
abbrev HistoryProgram (α : Type) : Type := ExceptT String (Program HistoryAnswer) α

/-- The tables as they are stored, and as the running transaction sees them. -/
structure HistoryWorld where
  stored : Tables
  working : Tables

/-- SQLite executes statements as written; any call may fail.  A failed statement changes nothing,
a failed commit may have stored the transaction, and the next transaction forgets one which was
not committed. -/
def historyEnvironment : Environment HistoryAnswer HistoryWorld
  | world, ⟨.begin, .ok ()⟩, after => after = ⟨world.stored, world.stored⟩
  | world, ⟨.execute statement, .ok result⟩, after =>
      ∃ tables, world.working.execute statement = some (tables, result) ∧
        after = ⟨world.stored, tables⟩
  | world, ⟨.commit, .ok ()⟩, after => after = ⟨world.working, world.working⟩
  | world, ⟨.commit, .error _⟩, after => after = world ∨ after = ⟨world.working, world.working⟩
  | world, _, after => after = world

namespace HistoryProgram

/-- A value, or an error which is returned. -/
def ofResult {α : Type} (value : Except String α) : HistoryProgram α := ExceptT.mk (.done value)

/-- `check_size`. -/
def checkSize : HistoryProgram Unit :=
  ExceptT.mk (.request HistoryCall.checkSize fun answer => .done answer)

/-- `ReceiptRef::random`. -/
def randomReceipt : HistoryProgram ReceiptRef :=
  ExceptT.mk (.request HistoryCall.randomReceipt fun answer => .done answer)

/-- Lock the connection and open an immediate transaction. -/
def begin : HistoryProgram Unit :=
  ExceptT.mk (.request HistoryCall.begin fun answer => .done answer)

/-- `Transaction::execute`. -/
def execute (statement : Tables.Statement) : HistoryProgram Nat :=
  ExceptT.mk (.request (HistoryCall.execute statement) fun answer => .done answer)

/-- `Transaction::commit`. -/
def commit : HistoryProgram Unit :=
  ExceptT.mk (.request HistoryCall.commit fun answer => .done answer)

/-- `checkpoint`. -/
def checkpoint : HistoryProgram Unit :=
  ExceptT.mk (.request HistoryCall.checkpoint fun answer => .done answer)

/-- `protect_database_files`. -/
def protectFiles : HistoryProgram Unit :=
  ExceptT.mk (.request HistoryCall.protectFiles fun answer => .done answer)

end HistoryProgram

/-! ## The store -/

/-- The bounds of the store. -/
structure HistoryStore where
  retainedRows : Nat
  retentionSeconds : Nat

open HistoryProgram

/-- `validate_dry_run`. -/
def validateDryRun (binding : DryRunBinding) : Except String Unit :=
  reject (decide (binding.completedUnix < 0) || binding.credentialGeneration == 0 ||
    !isLowerSha256 binding.planSha256 || !isLowerSha256 binding.sourceConfigurationSha256 ||
    !isLowerSha256 binding.serverIdentitySha256 || !isLowerSha256 binding.serverProfileSha256)
    "dry-run receipt is invalid"

/-- Whether a kind of job is a dry run. -/
def HistoryKind.isDryRun : HistoryKind → Bool
  | .folderDryRun | .googleTakeoutDryRun | .applePhotosDryRun | .picasaDryRun => true
  | _ => false

/-- `validate_terminal`. -/
def validateTerminal (binding : DryRunBinding) (terminal : TerminalRecord) : Except String Unit :=
  let matchingPlan := terminal.plan.any fun plan =>
    plan.1 == binding.planReference && decide (0 < plan.2)
  reject (terminal.recordedUnix != binding.completedUnix || terminal.status != .completed ||
    !terminal.kind.isDryRun || terminal.counters.maxLogicalEffects != binding.maxLogicalEffects ||
    !matchingPlan) "dry-run terminal record is invalid"

/-- The conversions of counters into columns. -/
def SafeCounters.checked (message : String) (counters : SafeCounters) : Except String Unit := do
  let _ ← checkedU64 message counters.assets
  let _ ← checkedU64 message counters.sidecars
  let _ ← checkedU64 message counters.bytesRead
  let _ ← checkedU64 message counters.warnings
  let _ ← checkedU64 message counters.errors
  let _ ← checkedU64 message counters.maxLogicalEffects

/-- The parameters of the insertion of a receipt. -/
def receiptColumns (reference : ReceiptRef) (binding : DryRunBinding) :
    Except String ReceiptColumns := do
  let planSha256 ← decodeSha256 binding.planSha256
  let sourceConfigurationSha256 ← decodeSha256 binding.sourceConfigurationSha256
  let serverIdentitySha256 ← decodeSha256 binding.serverIdentitySha256
  let serverProfileSha256 ← decodeSha256 binding.serverProfileSha256
  let credentialGeneration ← checkedU64 "receipt counter is invalid" binding.credentialGeneration
  let maxLogicalEffects ← checkedU64 "receipt counter is invalid" binding.maxLogicalEffects
  return { receiptRef := reference.bytes, planRef := binding.planReference.bytes, planSha256
           sourceConfigurationSha256, serverIdentitySha256, serverProfileSha256
           credentialGeneration, maxLogicalEffects, completedUnix := binding.completedUnix }

/-- `insert_terminal`. -/
def insertTerminal (terminal : TerminalRecord) : HistoryProgram Unit := do
  ofResult (terminal.counters.checked "receipt counter is invalid")
  let _ ← execute (.insertHistory terminal)

namespace HistoryStore

variable (store : HistoryStore)

/-- `to_i64(self.retained_rows)`. -/
def limit : Except String Nat :=
  if store.retainedRows < 2 ^ 63 then .ok store.retainedRows
  else .error "history limit is invalid"

/-- `HistoryStore::maintain`. -/
def maintain (now : Int) : HistoryProgram Unit := do
  checkSize
  begin
  let cutoff := saturatingSubI64 now store.retentionSeconds
  let _ ← execute (.deleteHistoryBefore cutoff)
  let _ ← execute (.keepNewestHistory (← ofResult store.limit))
  let _ ← execute (.deleteReceiptsBefore cutoff)
  let _ ← execute (.keepNewestReceipts (← ofResult store.limit))
  commit
  checkpoint
  protectFiles
  checkSize

/-- `HistoryStore::record_terminal`. -/
def recordTerminal (record : TerminalRecord) : HistoryProgram Nat := do
  ofResult (reject (decide (record.recordedUnix < 0) || record.plan.any fun plan => plan.2 == 0)
    "terminal history record is invalid")
  checkSize
  begin
  ofResult (record.counters.checked "history counter is invalid")
  let sequence ← execute (.insertHistory record)
  commit
  checkpoint
  store.maintain record.recordedUnix
  return sequence

/-- The attempts of `record_dry_run`. -/
def dryRunAttempts (binding : DryRunBinding) (terminal : TerminalRecord) :
    Nat → HistoryProgram DryRunReceipt
  | 0 => ofResult (.error "receipt reference capacity exhausted")
  | attempts + 1 => do
      let reference ← randomReceipt
      begin
      let columns ← ofResult (receiptColumns reference binding)
      let inserted ← execute (.insertReceipt columns)
      if inserted = 1 then
        insertTerminal terminal
      commit
      checkpoint
      if inserted = 1 then
        store.maintain binding.completedUnix
        return { reference, binding }
      else
        dryRunAttempts binding terminal attempts

/-- `HistoryStore::record_dry_run`. -/
def recordDryRun (binding : DryRunBinding) (terminal : TerminalRecord) :
    HistoryProgram DryRunReceipt := do
  ofResult (validateDryRun binding)
  ofResult (validateTerminal binding terminal)
  checkSize
  store.dryRunAttempts binding terminal 8

end HistoryStore

/-- The receipt in the columns of a row. -/
def ReceiptColumns.receipt (columns : ReceiptColumns) (reference : ReceiptRef) :
    Except String DryRunReceipt := do
  let planSha256 ← encodeSha256 columns.planSha256
  let sourceConfigurationSha256 ← encodeSha256 columns.sourceConfigurationSha256
  let serverIdentitySha256 ← encodeSha256 columns.serverIdentitySha256
  let serverProfileSha256 ← encodeSha256 columns.serverProfileSha256
  let credentialGeneration ← readU64Value columns.credentialGeneration
  let maxLogicalEffects ← readU64Value columns.maxLogicalEffects
  return { reference
           binding :=
            { planReference := ⟨columns.planRef⟩, planSha256, sourceConfigurationSha256
              serverIdentitySha256, serverProfileSha256, credentialGeneration, maxLogicalEffects
              completedUnix := columns.completedUnix } }

/-- `HistoryStore::dry_run_receipt`. -/
def Tables.dryRunReceipt (tables : Tables) (reference : ReceiptRef) :
    Except String (Option DryRunReceipt) :=
  match tables.receipts.find? fun row => row.columns.receiptRef == reference.bytes with
  | none => .ok none
  | some row => (row.columns.receipt reference).map some

end ImmichRs.Web
