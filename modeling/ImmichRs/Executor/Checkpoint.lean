import ImmichRs.Executor.ImportJournal
import ImmichRs.Collections.Maps

/-!
# Opening a checkpoint

The SQLite database at the checkpoint path, as far as the two journals see it: the two numbers of
its header, and its tables and indexes with their rows.  Opening a journal stamps the header and
creates the schema, each statement in a transaction of its own, before anything is checked.

Names of columns and schema objects are folded to lower case.  Tables which SQLite keeps for itself
are left out.
-/

namespace ImmichRs

open Std (ExtTreeMap)

/-! ## Databases -/

/-- A stored value. -/
inductive SqlValue
  | null
  | number (value : Rat)
  | text (value : String)
  | blob (bytes : List UInt8)
  deriving DecidableEq

/-- `row.get::<_, String>`. -/
def SqlValue.string : SqlValue → Option String
  | .text value => some value
  | .null | .number _ | .blob _ => none

/-- The order of stored values: numbers come before texts, texts before blobs. -/
def SqlValue.precedes : SqlValue → SqlValue → Bool
  | .null, other => other != .null
  | .number _, .null => false
  | .number first, .number second => decide (first < second)
  | .number _, _ => true
  | .text first, .text second => decide (first < second)
  | .text _, .blob _ => true
  | .text _, _ => false
  | .blob first, .blob second => decide (first < second)
  | .blob _, _ => false

/-- A table, or a view with the rows it shows. -/
structure Table where
  columns : List String
  rows : List (String → SqlValue)
  /-- A view cannot be indexed. -/
  isView : Bool
  /-- Whether the constraints of the table admit a new row with this key and value. -/
  accepts : String → String → Bool

/-- An entry of the schema. -/
inductive SchemaObject
  | table (table : Table)
  | index (table : String) (columns : List String)

/-- A database file. -/
structure Database where
  applicationId : Int
  userVersion : Int
  objects : List (String × SchemaObject)

/-- A new database, which nothing was written to. -/
def Database.Empty (database : Database) : Prop :=
  database.applicationId = 0 ∧ database.userVersion = 0 ∧ database.objects = []

/-- The table or view of a name. -/
def tableNamed (objects : List (String × SchemaObject)) (name : String) : Option Table :=
  match objects.lookup name with
  | some (.table table) => some table
  | some (.index _ _) | none => none

/-- A statement of the journal schemas. -/
inductive SchemaStatement
  | createTable (name : String) (columns : List String)
  | createIndex (name table : String) (columns : List String)
  deriving DecidableEq

/-- A table which has just been created. -/
def Table.fresh (columns : List String) : Table :=
  { columns := columns, rows := [], isView := false, accepts := fun _ _ => true }

/-- `CREATE .. IF NOT EXISTS`; nothing is returned where the statement fails. -/
def SchemaStatement.run (objects : List (String × SchemaObject)) :
    SchemaStatement → Option (List (String × SchemaObject))
  | .createTable name columns =>
      match objects.lookup name with
      | some (.table _) => some objects
      | some (.index _ _) => none
      | none => some (objects ++ [(name, .table (.fresh columns))])
  | .createIndex name table columns =>
      match tableNamed objects table with
      | none => none
      | some indexed =>
          if indexed.isView then
            none
          else
            match objects.lookup name with
            | some (.table _) => none
            | some (.index _ _) => some objects
            | none =>
                if columns.all (indexed.columns.contains ·) then
                  some (objects ++ [(name, .index table columns)])
                else
                  none

/-- `execute_batch`: every statement commits, and the first failure ends the batch. -/
def executeBatch :
    List SchemaStatement → List (String × SchemaObject) → List (String × SchemaObject) × Bool
  | [], objects => (objects, true)
  | statement :: rest, objects =>
      match statement.run objects with
      | none => (objects, false)
      | some created => executeBatch rest created

/-! ## The two journals -/

/-- What distinguishes the two journals. -/
structure JournalLayout where
  applicationId : Int
  userVersion : Int
  /-- The table of the log. -/
  log : String
  logColumns : List String
  /-- The index of the log. -/
  index : String
  indexColumns : List String
  /-- `expected_binding`. -/
  expectedBinding : Platform → UploadPlan → Option String → ExtTreeMap String String
  separate : ["metadata", log, index].Nodup
  indexed : indexColumns ⊆ logColumns
  named : applicationId ≠ 0
  bound : ∀ platform plan backup, (expectedBinding platform plan backup)["schema"]?.isSome

/-- The entries which `expected_binding` adds for a production run. -/
def scopedBinding (backupReferenceSha256 : Option String) (binding : ExtTreeMap String String) :
    ExtTreeMap String String :=
  match backupReferenceSha256 with
  | none => binding
  | some digest =>
      (binding.insert "execution_scope" "production").insert "backup_reference_sha256" digest

/-- The entries which both journals bind. -/
def planBinding (platform : Platform) (schema : String) (plan : UploadPlan) :
    List (String × String) :=
  [("schema", schema), ("upload_plan_sha256", compactSha256 platform plan.serialize),
    ("normalized_plan_sha256", plan.normalizedPlanSha256),
    ("source_sha256", plan.source.fingerprintSha256),
    ("configuration_sha256", plan.configurationSha256),
    ("server_identity_sha256", plan.server.identitySha256)]

/-- `major.minor.patch`. -/
def versionText (version : ServerVersion) : String :=
  toString version.major ++ "." ++ toString version.minor ++ "." ++ toString version.patch

/-- A map from its entries. -/
def bindingOf (entries : List (String × String)) : ExtTreeMap String String :=
  Collections.fill Prod.fst Prod.snd entries ∅

/-- A map from entries with different keys holds them and nothing else. -/
theorem getElem?_bindingOf {entries : List (String × String)}
    (distinct : (entries.map Prod.fst).Nodup) (key value : String) :
    (bindingOf entries)[key]? = some value ↔ (key, value) ∈ entries := by
  rw [bindingOf, Collections.getElem?_fill _ distinct (by simp)]
  simp [Prod.exists]

theorem isSome_scopedBinding {entries : List (String × String)} {schema : String}
    (distinct : (entries.map Prod.fst).Nodup) (member : ("schema", schema) ∈ entries)
    (backupReferenceSha256 : Option String) :
    (scopedBinding backupReferenceSha256 (bindingOf entries))["schema"]?.isSome = true := by
  have found := (getElem?_bindingOf distinct "schema" schema).mpr member
  cases backupReferenceSha256 with
  | none => simp [scopedBinding, found]
  | some digest =>
      rw [scopedBinding, Collections.getElem?_insert_of_ne (by decide),
        Collections.getElem?_insert_of_ne (by decide), found]
      rfl

/-- `journal.rs`. -/
def folderLayout : JournalLayout where
  applicationId := 0x49525331
  userVersion := 1
  log := "events"
  logColumns :=
    ["sequence", "operation_id", "outcome", "asset_id", "retry_count", "recorded_unix_ms"]
  index := "events_operation_sequence"
  indexColumns := ["operation_id", "sequence"]
  expectedBinding platform plan backupReferenceSha256 :=
    scopedBinding backupReferenceSha256 (bindingOf
      (planBinding platform "checkpoint-v1" plan ++
        [("server_version", versionText plan.server.version)]))
  separate := by decide
  indexed := by decide
  named := by decide
  bound platform plan :=
    isSome_scopedBinding (by simp [planBinding]) (List.mem_append_left _ List.mem_cons_self)

/-- `import_journal_db.rs`. -/
def importLayout : JournalLayout where
  applicationId := 0x49525332
  userVersion := 2
  log := "effects"
  logColumns :=
    ["sequence", "effect_key", "outcome", "remote_id", "retry_count", "recorded_unix_ms"]
  index := "effects_key_sequence"
  indexColumns := ["effect_key", "sequence"]
  expectedBinding platform plan backupReferenceSha256 :=
    scopedBinding backupReferenceSha256 (bindingOf
      (planBinding platform "checkpoint-v2" plan))
  separate := by decide
  indexed := by decide
  named := by decide
  bound platform plan :=
    isSome_scopedBinding (by simp [planBinding]) List.mem_cons_self

/-- Whether `SELECT key, value` is a query of the table. -/
def Table.holdsBinding (table : Table) : Bool :=
  ["key", "value"].all (table.columns.contains ·)

/-- One row of `read_binding`. -/
def bindingRow (binding : ExtTreeMap String String) (row : String → SqlValue) :
    Except ExecutorError (ExtTreeMap String String) :=
  match (row "key").string, (row "value").string with
  | some key, some value =>
      if binding.contains key then .error .checkpoint else .ok (binding.insert key value)
  | _, _ => .error .checkpoint

/-- The row of `INSERT INTO metadata(key, value)`. -/
def metadataRow (entry : String × String) : String → SqlValue := fun column =>
  if column = "key" then .text entry.1 else if column = "value" then .text entry.2 else .null

/-- Append the entries of a binding to the metadata table. -/
def insertBinding (binding : ExtTreeMap String String) (database : Database) : Database :=
  { database with objects := database.objects.map fun object =>
      match object with
      | ("metadata", .table table) =>
          ("metadata", .table { table with rows := table.rows ++ binding.toList.map metadataRow })
      | other => other }

namespace JournalLayout

variable (layout : JournalLayout)

/-- The statements of `create_schema`. -/
def schema : List SchemaStatement :=
  [.createTable "metadata" ["key", "value"], .createTable layout.log layout.logColumns,
    .createIndex layout.index layout.log layout.indexColumns]

/-- `configure` and `create_schema`, with whether they succeed. -/
def openConnection (database : Database) : Database × Bool :=
  let created := executeBatch layout.schema database.objects
  ({ applicationId := layout.applicationId, userVersion := layout.userVersion
     objects := created.1 }, created.2)

/-- `validate_application`. -/
def validateApplication (database : Database) : Except ExecutorError Unit :=
  reject (database.applicationId != layout.applicationId ||
    database.userVersion != layout.userVersion) .checkpoint

/-- `read_binding`. -/
def readBinding (database : Database) : Except ExecutorError (ExtTreeMap String String) := do
  layout.validateApplication database
  match tableNamed database.objects "metadata" with
  | none => .error .checkpoint
  | some table =>
      reject (!table.holdsBinding) .checkpoint
      table.rows.foldlM bindingRow ∅

/-- `bind_or_validate`. -/
def bindOrValidate (platform : Platform) (plan : UploadPlan)
    (backupReferenceSha256 : Option String) (database : Database) :
    Database × Except ExecutorError Unit :=
  let expected := layout.expectedBinding platform plan backupReferenceSha256
  match tableNamed database.objects "metadata" with
  | none => (database, .error .checkpoint)
  | some table =>
      if table.rows.length = 0 then
        if table.holdsBinding && expected.toList.all fun entry => table.accepts entry.1 entry.2 then
          (insertBinding expected database, .ok ())
        else
          (database, .error .checkpoint)
      else
        (database, do reject ((← layout.readBinding database) != expected) .checkpoint)

/-- `open_with_scope`, after the plan was accepted. -/
def openWithScope (platform : Platform) (plan : UploadPlan)
    (backupReferenceSha256 : Option String) (database : Database) :
    Database × Except ExecutorError Unit :=
  let opened := layout.openConnection database
  if opened.2 then
    layout.bindOrValidate platform plan backupReferenceSha256 opened.1
  else
    (opened.1, .error .checkpoint)

end JournalLayout

/-- Checks which are made before the database is touched. -/
def afterCheck (check : Except ExecutorError Unit) (database : Database)
    (next : Database → Database × Except ExecutorError Unit) :
    Database × Except ExecutorError Unit :=
  match check with
  | .error error => (database, .error error)
  | .ok () => next database

/-- The check of `open_production` on the backup reference. -/
def requireBackupReference (backupReferenceSha256 : Option String) : Except ExecutorError Unit :=
  reject (backupReferenceSha256.any fun digest => !isLowerSha256 digest) .checkpoint

/-- `validate_plan` of the import journal. -/
def validateImportPlan (platform : Platform) (plan : UploadPlan) : Except ExecutorError Unit := do
  (plan.validate platform).mapError fun _ => ExecutorError.invalidPlan
  reject (plan.schemaVersion != 2) .invalidPlan

/-- `Journal::open` and, with a backup reference, `Journal::open_production`. -/
def Journal.open (platform : Platform) (plan : UploadPlan)
    (backupReferenceSha256 : Option String) (database : Database) :
    Database × Except ExecutorError Unit :=
  afterCheck (requireBackupReference backupReferenceSha256) database
    (folderLayout.openWithScope platform plan backupReferenceSha256)

/-- `ImportJournal::open` and, with a backup reference, `ImportJournal::open_production`. -/
def ImportJournal.open (platform : Platform) (plan : UploadPlan)
    (backupReferenceSha256 : Option String) (database : Database) :
    Database × Except ExecutorError Unit :=
  afterCheck
    (do requireBackupReference backupReferenceSha256; validateImportPlan platform plan) database
    (importLayout.openWithScope platform plan backupReferenceSha256)

/-! ## The read-only validation -/

/-- `MAX(sequence)` over the rows of one operation. -/
def latestSequence (rows : List (String → SqlValue)) (operationId : SqlValue) : SqlValue :=
  (rows.filter fun row => row "operation_id" = operationId).foldl
    (fun latest row => if latest.precedes (row "sequence") then row "sequence" else latest) .null

/-- The query of `completed_assets`: rows of the log which are a success and carry the last
sequence number of some operation. -/
def completedQuery (rows : List (String → SqlValue)) : List (SqlValue × SqlValue) :=
  rows.flatMap fun event =>
    if event "outcome" = .text "created" ∨ event "outcome" = .text "duplicate" then
      ((rows.map (· "operation_id")).eraseDups.filter fun operationId =>
        latestSequence rows operationId != .null &&
          latestSequence rows operationId = event "sequence").map
        fun _ => (event "operation_id", event "asset_id")
    else
      []

/-- One row of the loop of `completed_assets`. -/
def completedQueryRow (completed : ExtTreeMap String String) (row : SqlValue × SqlValue) :
    Except ExecutorError (ExtTreeMap String String) :=
  match row.1.string, row.2.string with
  | some operationId, some assetId =>
      if operationId.isEmpty || assetId.isEmpty || decide (4096 < byteLen assetId) ||
          completed.contains operationId then
        .error .checkpoint
      else
        .ok (completed.insert operationId assetId)
  | _, _ => .error .checkpoint

/-- `completed_assets` of a database. -/
def Database.completedAssets (database : Database) :
    Except ExecutorError (ExtTreeMap String String) :=
  match tableNamed database.objects "events" with
  | none => .error .checkpoint
  | some table => do
      reject (!(["operation_id", "asset_id", "sequence", "outcome"].all (table.columns.contains ·)))
        .checkpoint
      (completedQuery table.rows).foldlM completedQueryRow ∅

/-- The scope which `validate_binding_any_scope` admits. -/
def validScope (scope backup : Option String) : Bool :=
  match scope, backup with
  | none, none => true
  | some scope, some digest => scope == "production" && isLowerSha256 digest
  | _, _ => false

/-- `validate_binding_any_scope`. -/
def validateBindingAnyScope (platform : Platform) (plan : UploadPlan) (database : Database) :
    Except ExecutorError Unit := do
  let actual ← folderLayout.readBinding database
  let bound := (actual.erase "execution_scope").erase "backup_reference_sha256"
  reject (!validScope actual["execution_scope"]? actual["backup_reference_sha256"]? ||
    bound != folderLayout.expectedBinding platform plan none) .checkpoint

/-- `Journal::validate_existing` of a database which exists. -/
def Journal.validateExisting (platform : Platform) (plan : UploadPlan) (database : Database) :
    Except ExecutorError (ExtTreeMap String String) := do
  folderLayout.validateApplication database
  validateBindingAnyScope platform plan database
  database.completedAssets

/-! ## Which databases are opened safely -/

/-- How a statement of the schema finds the database. -/
inductive Standing
  | present
  | blocked
  | missing
  deriving DecidableEq

/-- The standing of a name which a table or an index is to take. -/
def SchemaStatement.standing (objects : List (String × SchemaObject)) :
    SchemaStatement → Standing
  | .createTable name _ =>
      match objects.lookup name with
      | some (.table _) => .present
      | some (.index _ _) => .blocked
      | none => .missing
  | .createIndex name table columns =>
      let fits := (tableNamed objects table).all fun indexed =>
        !indexed.isView && columns.all (indexed.columns.contains ·)
      let viewed := (tableNamed objects table).any (·.isView)
      match objects.lookup name with
      | some (.table _) => .blocked
      | some (.index _ _) => if viewed then .blocked else .present
      | none => if fits then .missing else .blocked

namespace JournalLayout

variable (layout : JournalLayout)

/-- No name of the schema is taken by something else. -/
def Clear (database : Database) : Prop :=
  ∀ statement ∈ layout.schema, statement.standing database.objects ≠ .blocked

/-- Nothing is to be created before the first name which is taken by something else. -/
def Settled (database : Database) : Prop :=
  ∀ statement ∈ layout.schema.takeWhile (·.standing database.objects ≠ .blocked),
    statement.standing database.objects = .present

/-- The header names this journal. -/
def Stamped (database : Database) : Prop :=
  database.applicationId = layout.applicationId ∧ database.userVersion = layout.userVersion

/-- The database is stamped and bound to the plan. -/
def Carries (platform : Platform) (plan : UploadPlan) (backupReferenceSha256 : Option String)
    (database : Database) : Prop :=
  layout.readBinding database = .ok (layout.expectedBinding platform plan backupReferenceSha256)

/-- A metadata table without rows which takes the binding. -/
def Bindable (platform : Platform) (plan : UploadPlan) (backupReferenceSha256 : Option String)
    (database : Database) : Prop :=
  ∃ table, tableNamed database.objects "metadata" = some table ∧ table.rows = [] ∧
    table.holdsBinding = true ∧
    (layout.expectedBinding platform plan backupReferenceSha256).toList.all
      (fun entry => table.accepts entry.1 entry.2) = true

/-- The databases which opening a journal treats as it should: new ones, its own checkpoints of the
plan whose log can be read, and databases with its header which it has nothing to add to. -/
def Recognises (platform : Platform) (plan : UploadPlan) (backupReferenceSha256 : Option String)
    (readable : Prop) (database : Database) : Prop :=
  database.Empty ∨
    layout.Stamped database ∧
      (layout.Clear database ∧ layout.Carries platform plan backupReferenceSha256 database ∧
          readable ∨
        layout.Settled database ∧
          (layout.Clear database →
            ¬layout.Carries platform plan backupReferenceSha256 database ∧
              ¬layout.Bindable platform plan backupReferenceSha256 database))

/-- A database is accepted because it is new or carries the binding and passes the read-only
validation; a refused database is left as it was. -/
structure OpensSafely (platform : Platform) (plan : UploadPlan)
    (backupReferenceSha256 : Option String) (validated : Prop) (database : Database)
    (outcome : Database × Except ExecutorError Unit) : Prop where
  accepted : outcome.2 = .ok () → database.Empty ∨
    layout.Carries platform plan backupReferenceSha256 database ∧ validated
  refused : outcome.2 ≠ .ok () → outcome.1 = database

end JournalLayout

/-! ## What the schema statements do -/

theorem tableNamed_append_of_ne {objects : List (String × SchemaObject)} {name other : String}
    {object : SchemaObject} (different : other ≠ name) :
    (objects ++ [(name, object)]).lookup other = objects.lookup other := by
  have free : (other == name) = false := beq_false_of_ne different
  rw [List.lookup_append, List.lookup_cons, free]
  simp

/-- What a statement which succeeds leaves behind. -/
structure Extends (statement : SchemaStatement) (name : String)
    (before objects after : List (String × SchemaObject)) : Prop where
  grown : ∃ added, after = objects ++ added ∧ (added = [] ↔ statement.standing before = .present)
  others : ∀ other, other ≠ name → after.lookup other = objects.lookup other

theorem run_createTable_blocked {objects : List (String × SchemaObject)} {name : String}
    {columns : List String}
    (blocked : (SchemaStatement.createTable name columns).standing objects = .blocked) :
    (SchemaStatement.createTable name columns).run objects = none := by
  simp only [SchemaStatement.standing] at blocked
  simp only [SchemaStatement.run]
  split at blocked <;> simp_all

/-- A table which can be created or is there is there afterwards. -/
theorem run_createTable {objects : List (String × SchemaObject)} {name : String}
    {columns : List String}
    (clear : (SchemaStatement.createTable name columns).standing objects ≠ .blocked) :
    ∃ after table, (SchemaStatement.createTable name columns).run objects = some after ∧
      Extends (.createTable name columns) name objects objects after ∧
      tableNamed after name = some table ∧
      (tableNamed objects name = some table ∨
        objects.lookup name = none ∧ table = .fresh columns) := by
  cases found : objects.lookup name with
  | none =>
      have missing : (SchemaStatement.createTable name columns).standing objects = .missing := by
        simp [SchemaStatement.standing, found]
      have lookup : (objects ++ [(name, SchemaObject.table (.fresh columns))]).lookup name =
          some (.table (.fresh columns)) := by
        rw [List.lookup_append, found]
        simp
      refine ⟨objects ++ [(name, .table (.fresh columns))], .fresh columns, ?_, ?_, ?_, ?_⟩
      · simp [SchemaStatement.run, found]
      · exact ⟨⟨_, rfl, by simp [missing]⟩, fun other => tableNamed_append_of_ne⟩
      · simp [tableNamed, lookup]
      · exact .inr ⟨rfl, rfl⟩
  | some object =>
      cases object with
      | table table =>
          have present : (SchemaStatement.createTable name columns).standing objects =
              .present := by
            simp [SchemaStatement.standing, found]
          have named : tableNamed objects name = some table := by simp [tableNamed, found]
          refine ⟨objects, table, ?_, ?_, named, .inl named⟩
          · simp [SchemaStatement.run, found]
          · exact ⟨⟨[], by simp, by simp [present]⟩, fun _ _ => rfl⟩
      | index table indexColumns =>
          exact absurd (by simp [SchemaStatement.standing, found]) clear

section

variable {before objects : List (String × SchemaObject)} {name log : String}
  {columns logColumns : List String} {table : Table}
  (same : objects.lookup name = before.lookup name)
  (named : tableNamed objects log = some table)
  (origin : tableNamed before log = some table ∨
    before.lookup log = none ∧ table = .fresh logColumns)
  (indexed : columns ⊆ logColumns)

include same named origin indexed

/-- An index is judged by the table which the statement before it leaves. -/
theorem standing_createIndex :
    (SchemaStatement.createIndex name log columns).standing before =
      (SchemaStatement.createIndex name log columns).standing objects := by
  have fresh : columns.all ((Table.fresh logColumns).columns.contains ·) = true := by
    rw [List.all_eq_true]
    intro column member
    exact List.contains_iff_mem.mpr (indexed member)
  obtain found | ⟨absent, rfl⟩ := origin
  · simp only [SchemaStatement.standing, found, named, same]
  · have missing : tableNamed before log = none := by simp [tableNamed, absent]
    simp only [SchemaStatement.standing, missing, named, same, Option.all_some, Option.any_some,
      Option.all_none, Option.any_none, fresh]
    simp [Table.fresh]

theorem run_createIndex_blocked
    (blocked : (SchemaStatement.createIndex name log columns).standing before = .blocked) :
    (SchemaStatement.createIndex name log columns).run objects = none := by
  rw [standing_createIndex same named origin indexed] at blocked
  simp only [SchemaStatement.standing, named, Option.all_some, Option.any_some] at blocked
  simp only [SchemaStatement.run, named]
  cases viewed : table.isView with
  | true => rfl
  | false =>
      rw [viewed] at blocked
      cases found : objects.lookup name with
      | none =>
          cases fits : columns.all (table.columns.contains ·) with
          | true =>
              simp only [found, fits, Bool.not_false, Bool.and_self, if_true] at blocked
              cases blocked
          | false => rfl
      | some object =>
          cases object with
          | table other => rfl
          | index other otherColumns => simp [found] at blocked

theorem run_createIndex
    (clear : (SchemaStatement.createIndex name log columns).standing before ≠ .blocked) :
    ∃ after, (SchemaStatement.createIndex name log columns).run objects = some after ∧
      Extends (.createIndex name log columns) name before objects after := by
  have agree := standing_createIndex same named origin indexed
  rw [agree] at clear
  cases found : objects.lookup name with
  | none =>
      have fits : (!table.isView && columns.all (table.columns.contains ·)) = true := by
        by_contra unfit
        apply clear
        simp only [SchemaStatement.standing, found, named, Option.all_some]
        exact if_neg unfit
      have missing : (SchemaStatement.createIndex name log columns).standing objects =
          .missing := by
        simp only [SchemaStatement.standing, found, named, Option.all_some]
        exact if_pos fits
      simp only [Bool.and_eq_true, Bool.not_eq_true'] at fits
      refine ⟨objects ++ [(name, .index log columns)], ?_, ⟨_, rfl, ?_⟩,
        fun other => tableNamed_append_of_ne⟩
      · simp only [SchemaStatement.run, named, found, fits.1, fits.2, if_true, Bool.false_eq_true,
          if_false]
      · simp [agree, missing]
  | some object =>
      cases object with
      | table other => exact absurd (by simp [SchemaStatement.standing, found]) clear
      | index other otherColumns =>
          have proper : table.isView = false := by
            by_contra view
            apply clear
            simp only [SchemaStatement.standing, found, named, Option.any_some]
            exact if_pos (Bool.eq_true_of_not_eq_false view)
          have present : (SchemaStatement.createIndex name log columns).standing objects =
              .present := by
            simp [SchemaStatement.standing, found, named, proper]
          refine ⟨objects, ?_, ⟨[], by simp, by simp [agree, present]⟩, fun _ _ => rfl⟩
          simp [SchemaStatement.run, named, found, proper]

end

/-! ## What opening does -/

namespace JournalLayout

variable (layout : JournalLayout)

/-- A metadata table was there already or has just been created. -/
def MetadataFrom (before : List (String × SchemaObject)) (table : Table) : Prop :=
  tableNamed before "metadata" = some table ∨
    before.lookup "metadata" = none ∧ table = .fresh ["key", "value"]

/-- What the two tables of the schema leave for the index. -/
structure TablesCreated (before objects : List (String × SchemaObject)) : Prop where
  grown : ∃ added, objects = before ++ added ∧ (added = [] ↔
    (SchemaStatement.createTable "metadata" ["key", "value"]).standing before = .present ∧
    (SchemaStatement.createTable layout.log layout.logColumns).standing before = .present)
  metadata : ∃ table, tableNamed objects "metadata" = some table ∧ MetadataFrom before table
  log : ∃ table, tableNamed objects layout.log = some table ∧
    (tableNamed before layout.log = some table ∨
      before.lookup layout.log = none ∧ table = .fresh layout.logColumns)
  index : objects.lookup layout.index = before.lookup layout.index

/-- Without a name that is taken both tables are there for the index. -/
theorem executeBatch_tables {before : List (String × SchemaObject)}
    (metadataClear :
      (SchemaStatement.createTable "metadata" ["key", "value"]).standing before ≠ .blocked)
    (logClear :
      (SchemaStatement.createTable layout.log layout.logColumns).standing before ≠ .blocked) :
    ∃ objects, executeBatch layout.schema before =
        executeBatch [.createIndex layout.index layout.log layout.indexColumns] objects ∧
      layout.TablesCreated before objects := by
  obtain ⟨metadataLog, metadataIndex, logIndex⟩ : "metadata" ≠ layout.log ∧
      "metadata" ≠ layout.index ∧ layout.log ≠ layout.index := by
    simpa [and_assoc] using layout.separate
  obtain ⟨first, metadata, ran, extended, named, origin⟩ := run_createTable metadataClear
  have sameLog : first.lookup layout.log = before.lookup layout.log :=
    extended.others _ metadataLog.symm
  have standing : (SchemaStatement.createTable layout.log layout.logColumns).standing first =
      (SchemaStatement.createTable layout.log layout.logColumns).standing before := by
    simp only [SchemaStatement.standing, sameLog]
  have logNamed : tableNamed first layout.log = tableNamed before layout.log := by
    simp only [tableNamed, sameLog]
  rw [← standing] at logClear
  obtain ⟨second, log, ranLog, extendedLog, namedLog, originLog⟩ := run_createTable logClear
  refine ⟨second, ?_, ?_, ⟨metadata, ?_, origin⟩, ⟨log, namedLog, ?_⟩, ?_⟩
  · simp only [schema, executeBatch, ran, ranLog]
  · obtain ⟨firstAdded, rfl, firstNil⟩ := extended.grown
    obtain ⟨secondAdded, rfl, secondNil⟩ := extendedLog.grown
    rw [standing] at secondNil
    exact ⟨firstAdded ++ secondAdded, List.append_assoc .., by
      rw [List.append_eq_nil_iff, firstNil, secondNil]⟩
  · rw [tableNamed, extendedLog.others _ metadataLog, ← tableNamed, named]
  · rw [← logNamed, ← sameLog]
    exact originLog
  · rw [extendedLog.others _ logIndex.symm, extended.others _ metadataIndex.symm]

/-- The batch fails where a name is taken, and has then created what comes before that name. -/
theorem executeBatch_blocked {database : Database} (blocked : ¬layout.Clear database) :
    ∃ added, executeBatch layout.schema database.objects = (database.objects ++ added, false) ∧
      (added = [] ↔ layout.Settled database) := by
  by_cases metadataClear :
      (SchemaStatement.createTable "metadata" ["key", "value"]).standing database.objects =
        .blocked
  · refine ⟨[], ?_, ?_⟩
    · simp [schema, executeBatch, run_createTable_blocked metadataClear]
    · simp [Settled, schema, metadataClear]
  by_cases logClear :
      (SchemaStatement.createTable layout.log layout.logColumns).standing database.objects =
        .blocked
  · obtain ⟨first, _, ran, extended, -, -⟩ := run_createTable metadataClear
    obtain ⟨added, rfl, addedNil⟩ := extended.grown
    have separate : layout.log ≠ "metadata" := by
      intro same
      simpa [same] using layout.separate
    have same := extended.others _ separate
    refine ⟨added, ?_, ?_⟩
    · simp only [schema, executeBatch, ran]
      rw [run_createTable_blocked (by simpa only [SchemaStatement.standing, same] using logClear)]
    · rw [addedNil]
      simp [Settled, schema, metadataClear, logClear]
  · obtain ⟨objects, ran, created⟩ := layout.executeBatch_tables metadataClear logClear
    obtain ⟨table, named, origin⟩ := created.log
    have indexBlocked : (SchemaStatement.createIndex layout.index layout.log
        layout.indexColumns).standing database.objects = .blocked := by
      by_contra indexClear
      apply blocked
      simpa [Clear, schema] using ⟨metadataClear, logClear, indexClear⟩
    obtain ⟨added, rfl, addedNil⟩ := created.grown
    refine ⟨added, ?_, ?_⟩
    · rw [ran, executeBatch,
        run_createIndex_blocked created.index named origin layout.indexed indexBlocked]
    · rw [addedNil]
      simp [Settled, schema, metadataClear, logClear, indexBlocked]

/-- The batch succeeds where no name is taken. -/
theorem executeBatch_clear {database : Database} (clear : layout.Clear database) :
    ∃ added table,
      executeBatch layout.schema database.objects = (database.objects ++ added, true) ∧
      (added = [] ↔ layout.Settled database) ∧
      tableNamed (database.objects ++ added) "metadata" = some table ∧
      MetadataFrom database.objects table := by
  obtain ⟨metadataClear, logClear, indexClear⟩ :
      (SchemaStatement.createTable "metadata" ["key", "value"]).standing database.objects ≠
          .blocked ∧
        (SchemaStatement.createTable layout.log layout.logColumns).standing database.objects ≠
          .blocked ∧
        (SchemaStatement.createIndex layout.index layout.log layout.indexColumns).standing
          database.objects ≠ .blocked := by
    simpa [Clear, schema] using clear
  obtain ⟨metadataIndex, _⟩ : "metadata" ≠ layout.index ∧ layout.log ≠ layout.index := by
    have separate := layout.separate
    simp only [List.nodup_cons, List.mem_cons, List.not_mem_nil, or_false, not_or] at separate
    exact ⟨separate.1.2, separate.2.1⟩
  obtain ⟨objects, ran, created⟩ := layout.executeBatch_tables metadataClear logClear
  obtain ⟨log, namedLog, originLog⟩ := created.log
  obtain ⟨metadata, named, origin⟩ := created.metadata
  obtain ⟨after, ranIndex, extended⟩ :=
    run_createIndex created.index namedLog originLog layout.indexed indexClear
  obtain ⟨added, rfl, addedNil⟩ := created.grown
  obtain ⟨addedIndex, rfl, addedIndexNil⟩ := extended.grown
  refine ⟨added ++ addedIndex, metadata, ?_, ?_, ?_, origin⟩
  · rw [ran, executeBatch, ranIndex]
    simp [executeBatch]
  · rw [List.append_eq_nil_iff, addedNil, addedIndexNil]
    simp [Settled, schema, metadataClear, logClear, indexClear, and_assoc]
  · rw [← List.append_assoc, tableNamed, extended.others _ metadataIndex, ← tableNamed, named]

section

variable {layout} {platform : Platform} {plan : UploadPlan}
  {backupReferenceSha256 : Option String} {validated readable : Prop} {database : Database}
  {table : Table} {outcome : Database × Except ExecutorError Unit}

/-- An opened database is the one it was before if the header was ours and nothing was added. -/
theorem opened_eq_iff {added : List (String × SchemaObject)} :
    (⟨layout.applicationId, layout.userVersion, database.objects ++ added⟩ : Database) =
      database ↔ layout.Stamped database ∧ added = [] := by
  cases database
  simp only [Database.mk.injEq, List.append_right_eq_self, Stamped]
  tauto

theorem opensSafely_of_error (refused : outcome.2 ≠ .ok ()) :
    layout.OpensSafely platform plan backupReferenceSha256 validated database outcome ↔
      outcome.1 = database :=
  ⟨fun safe => safe.refused refused, fun unchanged =>
    ⟨fun accepted => absurd accepted refused, fun _ => unchanged⟩⟩

theorem opensSafely_of_ok (accepted : outcome.2 = .ok ()) :
    layout.OpensSafely platform plan backupReferenceSha256 validated database outcome ↔
      database.Empty ∨ layout.Carries platform plan backupReferenceSha256 database ∧ validated :=
  ⟨fun safe => safe.accepted accepted, fun carried =>
    ⟨fun _ => carried, fun refused => absurd accepted refused⟩⟩

/-- The binding of a database which has a metadata table. -/
theorem readBinding_eq (found : tableNamed database.objects "metadata" = some table)
    (stamped : layout.Stamped database) :
    layout.readBinding database = (do
      reject (!table.holdsBinding) .checkpoint
      table.rows.foldlM bindingRow ∅) := by
  have valid : layout.validateApplication database = .ok () := by
    simp [validateApplication, stamped.1, stamped.2]
  rw [readBinding, valid, found]
  rfl

theorem stamped_of_carries
    (carried : layout.Carries platform plan backupReferenceSha256 database) :
    layout.Stamped database := by
  rw [Carries, readBinding, bind_eq_ok] at carried
  obtain ⟨⟨⟩, valid, _⟩ := carried
  simpa [validateApplication, Stamped] using valid

theorem expectedBinding_ne_empty :
    layout.expectedBinding platform plan backupReferenceSha256 ≠ ∅ := by
  intro empty
  have bound := layout.bound platform plan backupReferenceSha256
  rw [empty] at bound
  simp at bound

/-- A metadata table without rows carries no binding. -/
theorem not_carries_of_rows (found : tableNamed database.objects "metadata" = some table)
    (rowless : table.rows = []) :
    ¬layout.Carries platform plan backupReferenceSha256 database := by
  intro carried
  rw [Carries, readBinding_eq found (stamped_of_carries carried), rowless,
    reject_bind_eq_ok] at carried
  exact expectedBinding_ne_empty (Except.ok.inj carried.2).symm

theorem not_carries_of_missing (missing : database.objects.lookup "metadata" = none) :
    ¬layout.Carries platform plan backupReferenceSha256 database := by
  intro carried
  rw [Carries, readBinding, bind_eq_ok] at carried
  obtain ⟨_, _, read⟩ := carried
  simp [tableNamed, missing] at read

theorem not_empty_of_table (found : tableNamed database.objects "metadata" = some table) :
    ¬database.Empty := by
  rintro ⟨-, -, bare⟩
  simp [tableNamed, bare] at found

theorem clear_of_empty (empty : database.Empty) : layout.Clear database := by
  intro statement member
  simp only [schema, List.mem_cons, List.not_mem_nil, or_false] at member
  obtain rfl | rfl | rfl := member <;> simp [SchemaStatement.standing, tableNamed, empty.2.2]

/-- A database whose header is new does not name the journal. -/
theorem not_empty_of_stamped (stamped : layout.Stamped database) : ¬database.Empty :=
  fun empty => layout.named (stamped.1.symm.trans empty.1)

/-- A metadata table which was there: its rows decide. -/
theorem bindOrValidate_existing
    (agree : layout.Carries platform plan backupReferenceSha256 database →
      (validated ↔ readable))
    (clear : layout.Clear database) {added : List (String × SchemaObject)}
    (addedNil : added = [] ↔ layout.Settled database)
    (named : tableNamed (database.objects ++ added) "metadata" = some table)
    (found : tableNamed database.objects "metadata" = some table) :
    layout.OpensSafely platform plan backupReferenceSha256 validated database
        (layout.bindOrValidate platform plan backupReferenceSha256
          ⟨layout.applicationId, layout.userVersion, database.objects ++ added⟩) ↔
      layout.Recognises platform plan backupReferenceSha256 readable database := by
  have occupied := not_empty_of_table found
  have bindable : layout.Bindable platform plan backupReferenceSha256 database ↔
      table.rows = [] ∧ (table.holdsBinding &&
        (layout.expectedBinding platform plan backupReferenceSha256).toList.all
          fun entry => table.accepts entry.1 entry.2) = true := by
    simp [Bindable, found]
  by_cases rowless : table.rows = []
  · have unbound : ¬layout.Carries platform plan backupReferenceSha256 database :=
      not_carries_of_rows found rowless
    by_cases takes : (table.holdsBinding &&
        (layout.expectedBinding platform plan backupReferenceSha256).toList.all
          fun entry => table.accepts entry.1 entry.2) = true
    · rw [bindOrValidate, named]
      simp only [rowless, List.length_nil, if_true, takes]
      rw [opensSafely_of_ok rfl]
      have bound := bindable.mpr ⟨rowless, takes⟩
      simp [Recognises, occupied, unbound, bound, clear]
    · rw [bindOrValidate, named]
      simp only [rowless, List.length_nil, if_true, takes, Bool.false_eq_true, if_false]
      rw [opensSafely_of_error (by simp), opened_eq_iff, addedNil]
      have unbindable : ¬layout.Bindable platform plan backupReferenceSha256 database :=
        fun bound => takes (bindable.mp bound).2
      simp [Recognises, occupied, unbound, unbindable, clear]
  · have unbindable : ¬layout.Bindable platform plan backupReferenceSha256 database :=
      fun bound => rowless (bindable.mp bound).1
    have read : layout.readBinding
          ⟨layout.applicationId, layout.userVersion, database.objects ++ added⟩ = _ :=
      readBinding_eq named ⟨rfl, rfl⟩
    have carried : layout.Carries platform plan backupReferenceSha256 database ↔
        layout.Stamped database ∧ layout.readBinding
          ⟨layout.applicationId, layout.userVersion, database.objects ++ added⟩ =
            .ok (layout.expectedBinding platform plan backupReferenceSha256) := by
      constructor
      · intro carried
        have stamped := stamped_of_carries carried
        rw [Carries, readBinding_eq found stamped, ← read] at carried
        exact ⟨stamped, carried⟩
      · intro stamped
        rw [Carries, readBinding_eq found stamped.1, ← read]
        exact stamped.2
    rw [bindOrValidate, named]
    simp only [List.length_eq_zero_iff, rowless, if_false]
    by_cases bound : layout.readBinding
        ⟨layout.applicationId, layout.userVersion, database.objects ++ added⟩ =
          .ok (layout.expectedBinding platform plan backupReferenceSha256)
    · rw [opensSafely_of_ok (by simp [bound, bind, Except.bind, reject])]
      by_cases stamped : layout.Stamped database
      · have carries := carried.mpr ⟨stamped, bound⟩
        simp [Recognises, occupied, clear, stamped, carries, agree carries]
      · have strange : ¬layout.Carries platform plan backupReferenceSha256 database :=
          fun carries => stamped (carried.mp carries).1
        simp [Recognises, occupied, stamped, strange]
    · have strange : ¬layout.Carries platform plan backupReferenceSha256 database :=
        fun carries => bound (carried.mp carries).2
      rw [opensSafely_of_error, opened_eq_iff, addedNil]
      · simp [Recognises, occupied, strange, unbindable]
      · rw [ne_eq, bind_eq_ok]
        rintro ⟨actual, returned, same⟩
        rw [reject_eq_ok, bne_eq_false_iff_eq] at same
        exact bound (same ▸ returned)

/-- A metadata table which opening has created takes the binding. -/
theorem bindOrValidate_created {added : List (String × SchemaObject)}
    (named : tableNamed (database.objects ++ added) "metadata" =
      some (Table.fresh ["key", "value"]))
    (missing : database.objects.lookup "metadata" = none) :
    layout.OpensSafely platform plan backupReferenceSha256 validated database
        (layout.bindOrValidate platform plan backupReferenceSha256
          ⟨layout.applicationId, layout.userVersion, database.objects ++ added⟩) ↔
      layout.Recognises platform plan backupReferenceSha256 readable database := by
  have unbound : ¬layout.Carries platform plan backupReferenceSha256 database :=
    not_carries_of_missing missing
  have unsettled : ¬layout.Settled database := by
    intro settled
    have present := settled (.createTable "metadata" ["key", "value"])
      (by simp [schema, SchemaStatement.standing, missing])
    simp [SchemaStatement.standing, missing] at present
  rw [bindOrValidate, named]
  simp only [Table.fresh, List.length_nil, if_true]
  rw [opensSafely_of_ok (by simp [Table.holdsBinding])]
  simp [Recognises, unbound, unsettled]

/-- Opening a database whose names are free or taken by the journal's own schema. -/
theorem openWithScope_clear (agree : layout.Carries platform plan backupReferenceSha256 database →
    (validated ↔ readable)) (clear : layout.Clear database) :
    layout.OpensSafely platform plan backupReferenceSha256 validated database
        (layout.openWithScope platform plan backupReferenceSha256 database) ↔
      layout.Recognises platform plan backupReferenceSha256 readable database := by
  obtain ⟨added, table, ran, addedNil, named, origin⟩ := layout.executeBatch_clear clear
  have opened : layout.openWithScope platform plan backupReferenceSha256 database =
      layout.bindOrValidate platform plan backupReferenceSha256
        ⟨layout.applicationId, layout.userVersion, database.objects ++ added⟩ := by
    simp [openWithScope, openConnection, ran]
  rw [opened]
  obtain found | ⟨missing, rfl⟩ := origin
  · exact bindOrValidate_existing agree clear addedNil named found
  · exact bindOrValidate_created named missing

/-- Opening a database in which a name of the schema is taken by something else. -/
theorem openWithScope_blocked (blocked : ¬layout.Clear database) :
    layout.OpensSafely platform plan backupReferenceSha256 validated database
        (layout.openWithScope platform plan backupReferenceSha256 database) ↔
      layout.Recognises platform plan backupReferenceSha256 readable database := by
  obtain ⟨added, ran, addedNil⟩ := layout.executeBatch_blocked blocked
  have opened : layout.openWithScope platform plan backupReferenceSha256 database =
      (⟨layout.applicationId, layout.userVersion, database.objects ++ added⟩,
        .error .checkpoint) := by
    simp [openWithScope, openConnection, ran]
  have occupied : ¬database.Empty := fun empty => blocked (clear_of_empty empty)
  rw [opened, opensSafely_of_error (by simp), opened_eq_iff, addedNil]
  simp [Recognises, occupied, blocked]

/-- The databases which `open_with_scope` treats as it should. -/
theorem openWithScope_opensSafely_iff
    (agree : layout.Carries platform plan backupReferenceSha256 database →
      (validated ↔ readable)) :
    layout.OpensSafely platform plan backupReferenceSha256 validated database
        (layout.openWithScope platform plan backupReferenceSha256 database) ↔
      layout.Recognises platform plan backupReferenceSha256 readable database := by
  by_cases clear : layout.Clear database
  · exact openWithScope_clear agree clear
  · exact openWithScope_blocked clear

/-- Whatever the database was, opening it leaves the header of the journal. -/
theorem openWithScope_stamps (database : Database) :
    layout.Stamped (layout.openWithScope platform plan backupReferenceSha256 database).1 := by
  have bound : ∀ opened : Database, layout.Stamped opened → layout.Stamped
      (layout.bindOrValidate platform plan backupReferenceSha256 opened).1 := by
    intro opened stamped
    rw [bindOrValidate]
    split
    · exact stamped
    · split
      · split <;> exact stamped
      · exact stamped
  rw [openWithScope]
  split
  · exact bound _ ⟨rfl, rfl⟩
  · exact ⟨rfl, rfl⟩

/-- A failed check before opening leaves the database alone. -/
theorem afterCheck_opensSafely_iff {check : Except ExecutorError Unit}
    {next : Database → Database × Except ExecutorError Unit} {condition : Prop}
    (passed : layout.OpensSafely platform plan backupReferenceSha256 validated database
      (next database) ↔ condition) :
    layout.OpensSafely platform plan backupReferenceSha256 validated database
        (afterCheck check database next) ↔ check ≠ .ok () ∨ condition := by
  cases check with
  | error error => simp [afterCheck, opensSafely_of_error]
  | ok value => simpa [afterCheck] using passed

end

end JournalLayout

/-! ## The two journals and the read-only validation -/

/-- A scope adds two entries to a binding which does not have them, and they can be removed. -/
theorem erase_scopedBinding {binding : ExtTreeMap String String}
    (scope : binding["execution_scope"]? = none)
    (backup : binding["backup_reference_sha256"]? = none) (backupReferenceSha256 : Option String) :
    ((scopedBinding backupReferenceSha256 binding).erase "execution_scope").erase
        "backup_reference_sha256" = binding := by
  apply ExtTreeMap.ext_getElem?
  intro key
  cases backupReferenceSha256 <;>
    grind [scopedBinding, Std.LawfulEqOrd.compare_eq_iff_eq]

/-- The scope of an accepted backup reference is one which the read-only validation admits. -/
theorem validScope_scopedBinding {binding : ExtTreeMap String String}
    (scope : binding["execution_scope"]? = none)
    (backup : binding["backup_reference_sha256"]? = none) {backupReferenceSha256 : Option String}
    (referenced : requireBackupReference backupReferenceSha256 = .ok ()) :
    validScope (scopedBinding backupReferenceSha256 binding)["execution_scope"]?
      (scopedBinding backupReferenceSha256 binding)["backup_reference_sha256"]? = true := by
  cases backupReferenceSha256 with
  | none => simp [scopedBinding, scope, backup, validScope]
  | some digest =>
      have lower : isLowerSha256 digest = true := by
        simpa [requireBackupReference] using referenced
      rw [scopedBinding, ExtTreeMap.getElem?_insert_self,
        Collections.getElem?_insert_of_ne (by decide), ExtTreeMap.getElem?_insert_self]
      simp [validScope, lower]

/-- The read-only validation of a checkpoint which carries the binding only has to read its log. -/
theorem Journal.validateExisting_of_carries {platform : Platform} {plan : UploadPlan}
    {backupReferenceSha256 : Option String} {database : Database}
    (referenced : requireBackupReference backupReferenceSha256 = .ok ())
    (carried : folderLayout.Carries platform plan backupReferenceSha256 database) :
    Journal.validateExisting platform plan database = database.completedAssets := by
  have distinct : ((planBinding platform "checkpoint-v1" plan ++
      [("server_version", versionText plan.server.version)]).map Prod.fst).Nodup := by
    simp [planBinding]
  have absent : ∀ key ∈ ["execution_scope", "backup_reference_sha256"],
      (bindingOf (planBinding platform "checkpoint-v1" plan ++
        [("server_version", versionText plan.server.version)]))[key]? = none := by
    intro key member
    rw [Option.eq_none_iff_forall_ne_some]
    intro value found
    rw [getElem?_bindingOf distinct] at found
    simp only [List.mem_cons, List.not_mem_nil, or_false] at member
    obtain rfl | rfl := member <;> simp [planBinding] at found
  have scope := absent "execution_scope" (by simp)
  have backup := absent "backup_reference_sha256" (by simp)
  have stamped := JournalLayout.stamped_of_carries carried
  have application : folderLayout.validateApplication database = .ok () := by
    simp [JournalLayout.validateApplication, stamped.1, stamped.2]
  have binding : validateBindingAnyScope platform plan database = .ok () := by
    rw [validateBindingAnyScope, carried]
    show reject _ _ = _
    rw [reject_eq_ok]
    simp only [folderLayout]
    rw [validScope_scopedBinding scope backup referenced, erase_scopedBinding scope backup]
    simp [scopedBinding]
  rw [Journal.validateExisting, application, binding]
  rfl

/-- The databases at the checkpoint path which the two journals treat as they should. -/
theorem journals_openSafely_iff (platform : Platform) (plan : UploadPlan)
    (backupReferenceSha256 : Option String) (database : Database) :
    (folderLayout.OpensSafely platform plan backupReferenceSha256
        (∃ completed, Journal.validateExisting platform plan database = .ok completed) database
        (Journal.open platform plan backupReferenceSha256 database) ↔
      requireBackupReference backupReferenceSha256 ≠ .ok () ∨
        folderLayout.Recognises platform plan backupReferenceSha256
          (∃ completed, database.completedAssets = .ok completed) database) ∧
    (importLayout.OpensSafely platform plan backupReferenceSha256 True database
        (ImportJournal.open platform plan backupReferenceSha256 database) ↔
      (requireBackupReference backupReferenceSha256 ≠ .ok () ∨
          validateImportPlan platform plan ≠ .ok ()) ∨
        importLayout.Recognises platform plan backupReferenceSha256 True database) := by
  constructor
  · by_cases referenced : requireBackupReference backupReferenceSha256 = .ok ()
    · apply JournalLayout.afterCheck_opensSafely_iff
      apply JournalLayout.openWithScope_opensSafely_iff
      intro carried
      rw [Journal.validateExisting_of_carries referenced carried]
    · obtain ⟨error, refused⟩ : ∃ error, requireBackupReference backupReferenceSha256 =
          .error error := by
        cases checked : requireBackupReference backupReferenceSha256 with
        | error error => exact ⟨error, rfl⟩
        | ok value => exact absurd checked referenced
      rw [Journal.open, refused, afterCheck, JournalLayout.opensSafely_of_error (by simp)]
      simp
  · have both : (do requireBackupReference backupReferenceSha256
                    validateImportPlan platform plan : Except ExecutorError Unit) ≠ .ok () ↔
        requireBackupReference backupReferenceSha256 ≠ .ok () ∨
          validateImportPlan platform plan ≠ .ok () := by
      rw [ne_eq, bind_eq_ok]
      simp only [not_exists, not_and_or, ne_eq]
      exact ⟨fun refused => refused (), fun refused _ => refused⟩
    rw [← both]
    apply JournalLayout.afterCheck_opensSafely_iff
    apply JournalLayout.openWithScope_opensSafely_iff
    intro _
    rfl

/-- An empty plan. -/
def emptyFolderPlan : UploadPlan := samplePlan .folder []

/-- A database of another program. -/
def foreignDatabase : Database :=
  { applicationId := 7, userVersion := 3, objects := [("notes", .table (.fresh ["text"]))] }

/-- An import checkpoint. -/
def importCheckpoint : Database :=
  { applicationId := 0x49525332, userVersion := 2
    objects :=
      [("metadata", .table { Table.fresh ["key", "value"] with
          rows := [metadataRow ("schema", "checkpoint-v2")] }),
        ("effects", .table (.fresh importLayout.logColumns)),
        ("effects_key_sequence", .index "effects" ["effect_key", "sequence"])] }

/-- A database of another program is accepted, and a checkpoint of the other journal gets the
header of this one. -/
theorem journal_restamps :
    ((Journal.open .reference emptyFolderPlan none foreignDatabase).2 = .ok () ∧
      ¬folderLayout.OpensSafely .reference emptyFolderPlan none
        (∃ completed, Journal.validateExisting .reference emptyFolderPlan foreignDatabase =
          .ok completed) foreignDatabase
        (Journal.open .reference emptyFolderPlan none foreignDatabase)) ∧
    ((Journal.open .reference emptyFolderPlan none importCheckpoint).1.applicationId =
        folderLayout.applicationId ∧
      ¬folderLayout.OpensSafely .reference emptyFolderPlan none
        (∃ completed, Journal.validateExisting .reference emptyFolderPlan importCheckpoint =
          .ok completed) importCheckpoint
        (Journal.open .reference emptyFolderPlan none importCheckpoint)) := by
  have opened : ∀ database : Database, Journal.open .reference emptyFolderPlan none database =
      folderLayout.openWithScope .reference emptyFolderPlan none database := fun _ => rfl
  have strange : ∀ database : Database, ¬database.Empty → ¬folderLayout.Stamped database →
      ¬folderLayout.OpensSafely .reference emptyFolderPlan none
        (∃ completed, Journal.validateExisting .reference emptyFolderPlan database =
          .ok completed)
        database (Journal.open .reference emptyFolderPlan none database) := by
    intro database occupied unstamped safe
    have agree : folderLayout.Carries .reference emptyFolderPlan none database →
        ((∃ completed, Journal.validateExisting .reference emptyFolderPlan database =
          .ok completed) ↔ True) :=
      fun carried => absurd (JournalLayout.stamped_of_carries carried) unstamped
    rw [opened, JournalLayout.openWithScope_opensSafely_iff agree] at safe
    exact safe.elim occupied fun stamped => unstamped stamped.1
  refine ⟨⟨?_, strange _ (by simp [Database.Empty, foreignDatabase])
      (by simp [JournalLayout.Stamped, folderLayout, foreignDatabase])⟩, ?_,
    strange _ (by simp [Database.Empty, importCheckpoint])
      (by simp [JournalLayout.Stamped, folderLayout, importCheckpoint])⟩
  · have named : (folderLayout.openConnection foreignDatabase).2 = true ∧
        tableNamed (folderLayout.openConnection foreignDatabase).1.objects "metadata" =
          some (.fresh ["key", "value"]) := ⟨by decide, by rfl⟩
    rw [opened, JournalLayout.openWithScope, if_pos named.1, JournalLayout.bindOrValidate, named.2]
    simp [Table.fresh, Table.holdsBinding]
  · rw [opened]
    exact (JournalLayout.openWithScope_stamps _).1

end ImmichRs
