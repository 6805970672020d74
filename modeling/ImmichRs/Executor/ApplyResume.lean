import ImmichRs.Executor.ApplyTrace

/-!
# Resuming a folder apply

Runs of one plan over one checkpoint, each ended at any point.  A run reads the journal once and
works only on operations without a success there, and it writes at most one row for each of them,
so a success stays the last row of its operation.
-/

namespace ImmichRs

open Interaction
open Std (ExtTreeMap)

/-! ## What the journal reports -/

/-- The last row of one operation. -/
def lastEvent (rows : List JournalEvent) (operationId : String) : Option JournalEvent :=
  (rows.filter fun row => row.operationId = operationId).getLast?

theorem latestEvents_getElem? (rows : List JournalEvent) (operationId : String) :
    (latestEvents rows)[operationId]? = lastEvent rows operationId := by
  have filled := Collections.getElem?_fill_last JournalEvent.operationId id rows ∅ operationId
  rw [Option.map_id, ExtTreeMap.getElem?_empty, Option.or_none] at filled
  exact filled

/-- Add the asset of a success. -/
def storeAsset (completed : ExtTreeMap String String) (operationId : String) :
    Option String → ExtTreeMap String String
  | some assetId => completed.insert operationId assetId
  | none => completed

theorem storeAsset_self {completed : ExtTreeMap String String} {operationId : String}
    (fresh : completed.contains operationId = false) (assetId : Option String) :
    (storeAsset completed operationId assetId)[operationId]? = assetId := by
  cases assetId with
  | none =>
      rw [ExtTreeMap.contains_eq_isSome_getElem?, Option.isSome_eq_false_iff,
        Option.isNone_iff_eq_none] at fresh
      exact fresh
  | some assetId => exact ExtTreeMap.getElem?_insert_self

theorem storeAsset_ne {completed : ExtTreeMap String String} {operationId other : String}
    (different : operationId ≠ other) (assetId : Option String) :
    (storeAsset completed operationId assetId)[other]? = completed[other]? := by
  cases assetId with
  | none => rfl
  | some assetId => exact Collections.getElem?_insert_of_ne different

/-- A valid row adds the asset of a success. -/
theorem completedRow_valid {completed : ExtTreeMap String String} {operationId : String}
    {row : JournalEvent} (named : operationId.isEmpty = false) (contract : assetContract row = true)
    (fresh : completed.contains operationId = false) :
    completedRow completed (operationId, row) =
      .ok (storeAsset completed operationId row.assetId) := by
  obtain ⟨_, kind, assetId, _⟩ := row
  cases kind <;> cases assetId <;> simp_all [assetContract, completedRow, storeAsset]

/-- Valid rows of different operations are collected with their assets. -/
theorem foldlM_completedRow {entries : List (String × JournalEvent)}
    {completed : ExtTreeMap String String} (distinct : (entries.map Prod.fst).Nodup)
    (valid : ∀ entry ∈ entries, entry.1.isEmpty = false ∧ assetContract entry.2 = true)
    (fresh : ∀ entry ∈ entries, completed.contains entry.1 = false) :
    ∃ result, entries.foldlM completedRow completed = .ok result ∧
      (∀ entry ∈ entries, result[entry.1]? = entry.2.assetId) ∧
        ∀ operationId, operationId ∉ entries.map Prod.fst →
          result[operationId]? = completed[operationId]? := by
  induction entries generalizing completed with
  | nil => exact ⟨completed, rfl, by simp, fun _ _ => rfl⟩
  | cons entry rest induction =>
      obtain ⟨operationId, row⟩ := entry
      obtain ⟨⟨named, contract⟩, others⟩ := List.forall_mem_cons.mp valid
      obtain ⟨absent, remaining⟩ := List.forall_mem_cons.mp fresh
      obtain ⟨apart, distinct⟩ := List.nodup_cons.mp distinct
      have unseen : ∀ entry ∈ rest,
          (storeAsset completed operationId row.assetId).contains entry.1 = false := by
        intro entry member
        have different : operationId ≠ entry.1 := by
          intro same
          exact apart (List.mem_map.mpr ⟨entry, member, same.symm⟩)
        rw [ExtTreeMap.contains_eq_isSome_getElem?, storeAsset_ne different,
          ← ExtTreeMap.contains_eq_isSome_getElem?]
        exact remaining entry member
      obtain ⟨result, collected, members, outside⟩ := induction distinct others unseen
      refine ⟨result, ?_, List.forall_mem_cons.mpr ⟨?_, members⟩, fun other missing => ?_⟩
      · rw [List.foldlM_cons, completedRow_valid named contract absent]
        exact collected
      · rw [outside operationId apart, storeAsset_self absent]
      · rw [List.map_cons, List.mem_cons, not_or] at missing
        rw [outside other missing.2, storeAsset_ne (Ne.symm missing.1)]

/-- The journal reports the asset of the last row of each operation. -/
theorem completedAssets_valid {rows : List JournalEvent} (valid : ∀ row ∈ rows, row.Valid) :
    ∃ completed, completedAssets rows = .ok completed ∧
      ∀ operationId, completed[operationId]? =
        (lastEvent rows operationId).bind JournalEvent.assetId := by
  have listed : ∀ operationId row, (operationId, row) ∈ (latestEvents rows).toList ↔
      lastEvent rows operationId = some row := by
    intro operationId row
    rw [ExtTreeMap.mem_toList_iff_getElem?_eq_some, latestEvents_getElem?]
  have last : ∀ entry ∈ (latestEvents rows).toList,
      entry.1.isEmpty = false ∧ assetContract entry.2 = true := by
    rintro ⟨operationId, row⟩ member
    have found := List.mem_of_getLast? ((listed operationId row).mp member)
    obtain ⟨inside, same⟩ := List.mem_filter.mp found
    obtain rfl := of_decide_eq_true same
    exact ⟨(valid row inside).named, (valid row inside).contract⟩
  have distinct : ((latestEvents rows).toList.map Prod.fst).Nodup := by
    rw [ExtTreeMap.map_fst_toList_eq_keys]
    exact ExtTreeMap.nodup_keys
  obtain ⟨completed, collected, members, outside⟩ := @foldlM_completedRow _ ∅ distinct last (by simp)
  refine ⟨completed, collected, fun operationId => ?_⟩
  cases found : lastEvent rows operationId with
  | some row => exact members _ ((listed operationId row).mpr found)
  | none =>
      rw [outside operationId, ExtTreeMap.getElem?_empty]
      · rfl
      · intro member
        obtain ⟨⟨_, row⟩, inside, rfl⟩ := List.mem_map.mp member
        rw [(listed _ row).mp inside] at found
        cases found

/-! ## The journal as an environment -/

/-- The journal answers with its rows and stores the rows which it confirms.  A row whose append
fails may have been stored or not.  All other answers are arbitrary. -/
def eventsEnvironment : Environment Answer (List JournalEvent)
  | rows, ⟨.readEvents, .ok read⟩, after => read = rows ∧ after = rows
  | rows, ⟨.appendEvent row, .ok ()⟩, after => after = rows ++ [row]
  | rows, ⟨.appendEvent row, .error _⟩, after => after = rows ∨ after = rows ++ [row]
  | rows, _, after => after = rows

/-- The rows which a list of events tries to append. -/
def attemptedEvents (events : List (Event Answer)) : List JournalEvent :=
  events.filterMap attemptedEvent

/-- The journal grows by some of the rows which events try to append. -/
def Grows (before : List JournalEvent) (events : List (Event Answer))
    (after : List JournalEvent) : Prop :=
  ∃ stored, after = before ++ stored ∧ stored.Sublist (attemptedEvents events)

theorem grows_refl (rows : List JournalEvent) : Grows rows [] rows :=
  ⟨[], by simp, List.nil_sublist _⟩

theorem Grows.trans {before middle after : List JournalEvent} {first second : List (Event Answer)}
    (head : Grows before first middle) (tail : Grows middle second after) :
    Grows before (first ++ second) after := by
  obtain ⟨earlier, rfl, one⟩ := head
  obtain ⟨later, rfl, more⟩ := tail
  refine ⟨earlier ++ later, by simp, ?_⟩
  rw [attemptedEvents, List.filterMap_append]
  exact one.append more

theorem grows_step {before after : List JournalEvent} {event : Event Answer}
    (step : eventsEnvironment before event after) : Grows before [event] after := by
  have unchanged : after = before → Grows before [event] after :=
    fun same => ⟨[], by simp [same], List.nil_sublist _⟩
  obtain ⟨call, answer⟩ := event
  cases call with
  | appendEvent row =>
      have grown : after = before ++ [row] → Grows before [⟨.appendEvent row, answer⟩] after :=
        fun same => ⟨[row], same, List.Sublist.refl _⟩
      cases answer with
      | ok stored => exact grown step
      | error error => exact step.elim unchanged grown
  | readEvents =>
      cases answer with
      | ok read => exact unchanged step.2
      | error error => exact unchanged step
  | _ => exact unchanged step

theorem Execution.grows {α : Type} {program final : Executor α} {before after : List JournalEvent}
    {events : List (Event Answer)}
    (execution : Execution eventsEnvironment program before events final after) :
    Grows before events after := by
  induction execution with
  | refl => exact grows_refl _
  | head step _ induction => exact (grows_step step).trans induction

theorem Drain.grows {limit : Nat} {pool final : Pool Answer GroupResult}
    {state state' : ApplyReport} {before after : List JournalEvent} {events : List (Event Answer)}
    {values : List GroupResult}
    (drain : Drain eventsEnvironment limit takeGroup pool state before events values final state'
      after) : Grows before events after := by
  induction drain with
  | refl => exact grows_refl _
  | start _ _ induction => exact induction
  | advance step _ induction => exact (grows_step step).trans induction
  | yield taken _ induction => exact (Execution.grows taken).trans induction

/-- Without rows to append the journal stays as it is. -/
theorem Grows.eq_of_silent {before after : List JournalEvent} {events : List (Event Answer)}
    (grows : Grows before events after) (silent : ∀ event ∈ events, SilentEvent event) :
    after = before := by
  obtain ⟨stored, rfl, inside⟩ := grows
  have none : attemptedEvents events = [] :=
    List.filterMap_eq_nil_iff.mpr fun event member => (silent event member).2
  rw [none, List.sublist_nil] at inside
  rw [inside, List.append_nil]

/-- The events and the value of every run which returns satisfy `post`. -/
def Yields {α : Type} (program : FallibleExecutor α) (post : List (Event Answer) → α → Prop) :
    Prop :=
  program.run.Traces fun events result => ∀ value, result = .ok value → post events value

theorem Yields.bind {α β : Type} {program : FallibleExecutor α} {next : α → FallibleExecutor β}
    {first : List (Event Answer) → α → Prop} {post : List (Event Answer) → β → Prop}
    (head : Yields program first)
    (tail : ∀ events value, first events value →
      Yields (next value) fun later result => post (events ++ later) result) :
    Yields (program >>= next) post := by
  rw [Yields, Program.traces_exceptT_bind]
  refine head.mono fun events outcome reached => ?_
  cases outcome with
  | error error => nofun
  | ok value => exact tail events value (reached value rfl)

/-- Parts whose events and values do not matter. -/
theorem Yields.after {α β : Type} (program : FallibleExecutor α) {next : α → FallibleExecutor β}
    {post : List (Event Answer) → β → Prop}
    (tail : ∀ events value, Yields (next value) fun later result => post (events ++ later) result) :
    Yields (program >>= next) post := by
  have anything : Yields program fun _ _ => True :=
    Program.traces_of_forall _ fun _ _ _ _ => trivial
  exact anything.bind fun events value _ => tail events value

/-- The opening of a run resumes from the rows which the journal answers. -/
theorem uploadStart_reads (platform : Platform) (plan : UploadPlan)
    (config : UploadExecutionConfig) (compatibility : ServerCompatibility)
    (backupReferenceSha256 : Option String) :
    Yields (uploadStart platform plan config compatibility backupReferenceSha256)
      fun events start => ∃ rows, (⟨.readEvents, .ok rows⟩ : Event Answer) ∈ events ∧
        completedAssets rows = .ok start.completed := by
  have read : Yields readEvents fun events rows =>
      (⟨.readEvents, .ok rows⟩ : Event Answer) ∈ events := by
    rintro answer rows returned
    obtain rfl : answer = .ok rows := returned
    exact List.mem_cons_self
  have collected : ∀ rows, Yields (ofExcept (completedAssets rows)) fun _ completed =>
      completedAssets rows = .ok completed := fun _ _ returned => returned
  refine .after _ fun _ _ => .after _ fun _ _ => .after _ fun _ verified => .after _ fun _ _ => ?_
  refine read.bind fun events rows member => ?_
  refine (collected rows).bind fun _ completed same => ?_
  refine .after _ fun _ _ => .after _ fun _ groups => ?_
  rintro _ ⟨⟩
  exact ⟨rows, by simp [member], same⟩

/-- Silent events read the journal as it was found. -/
theorem Execution.read_of_silent {α : Type} {program final : Executor α}
    {before after rows : List JournalEvent} {events : List (Event Answer)}
    (execution : Execution eventsEnvironment program before events final after)
    (silent : ∀ event ∈ events, SilentEvent event)
    (read : (⟨.readEvents, .ok rows⟩ : Event Answer) ∈ events) : rows = before := by
  induction execution with
  | refl => cases read
  | @head call next answer before middle after events final step _ induction =>
      obtain ⟨quiet, later⟩ := List.forall_mem_cons.mp silent
      obtain rfl : middle = before := (grows_step step).eq_of_silent (by simpa using quiet)
      rcases List.mem_cons.mp read with same | tail
      · cases same
        exact step.1
      · exact induction later tail

section

variable {platform : Platform} {plan : UploadPlan} {config : UploadExecutionConfig}
  {compatibility : ServerCompatibility} {backupReferenceSha256 : Option String}

theorem uploadStart_silent {World : Type} {environment : Environment Answer World}
    {before after : World} {events : List (Event Answer)}
    {final : Executor (Except ExecutorError UploadStart)}
    (execution : Execution environment
      (uploadStart platform plan config compatibility backupReferenceSha256).run before events final
      after) : ∀ event ∈ events, SilentEvent event :=
  silent_of_traces execution
    (Program.Traces.mono (prepares_uploadStart platform plan config compatibility
      backupReferenceSha256) fun _ _ reached => reached.1)

/-- A run starts its groups from what the journal reports as completed. -/
theorem uploadStart_resumes {before after : List JournalEvent} {events : List (Event Answer)}
    {start : UploadStart}
    (execution : Execution eventsEnvironment
      (uploadStart platform plan config compatibility backupReferenceSha256).run before events
      (.done (.ok start)) after) :
    after = before ∧ completedAssets before = .ok start.completed := by
  have silent := uploadStart_silent execution
  obtain ⟨rows, read, collected⟩ := execution.traces rfl
    (uploadStart_reads platform plan config compatibility backupReferenceSha256) start rfl
  obtain rfl := Execution.read_of_silent execution silent read
  exact ⟨(Execution.grows execution).eq_of_silent silent, collected⟩

/-! ## One run -/

/-- An upload for a live-photo image carries the asset which the journal or the server gave for the
video which the image names. -/
def NamesVideo (plan : UploadPlan) (completed : ExtTreeMap String String)
    (past : List (Event Answer)) (event : Event Answer) : Prop :=
  ∀ request, event.1 = .upload request → ∀ image ∈ plan.operations,
    image.operationId = request.operationId → ∀ videoOperationId,
      image.dependsOn videoOperationId = true →
        ∃ assetId, request.livePhotoVideoId = some assetId ∧
          Known completed past videoOperationId assetId

/-- What a run which resumes from `completed` requests and records. -/
structure RunRule (plan : UploadPlan) (completed : ExtTreeMap String String)
    (events : List (Event Answer)) : Prop where
  requests : ∀ event ∈ events, ∀ operationId, requestedOperation event = some operationId →
    completed.contains operationId = false
  once : ((attemptedEvents events).map JournalEvent.operationId).Nodup
  pending : ∀ row ∈ attemptedEvents events, completed.contains row.operationId = false
  valid : ∀ row ∈ attemptedEvents events, row.Valid
  video : Throughout (NamesVideo plan completed) events

theorem contains_of_mem_pendingIds {completed : ExtTreeMap String String}
    {group : List UploadOperation} {operationId : String}
    (member : operationId ∈ pendingIds completed group) : completed.contains operationId = false := by
  obtain ⟨operation, kept, rfl⟩ := List.mem_map.mp member
  have pending := (List.mem_filter.mp kept).2
  simpa using pending

/-- The rule of a group is a rule about the plan. -/
theorem GroupRule.namesVideo (accepted : plan.Accepted platform)
    {completed : ExtTreeMap String String} {opener : UploadOperation}
    {group : List UploadOperation} (opened : groupOf plan opener = some group)
    (openerMember : opener ∈ plan.operations) {past later : List (Event Answer)}
    {event : Event Answer} (rule : GroupRule completed group past event) (more : past ⊆ later) :
    NamesVideo plan completed later event := by
  intro request same image imageMember names videoOperationId depends
  have requested : requestedOperation event = some request.operationId := by
    obtain ⟨call, answer⟩ := event
    cases same
    rfl
  obtain ⟨member, kept, memberId⟩ := List.mem_map.mp (rule.request _ requested)
  have inside := (List.mem_filter.mp kept).1
  have scheduled : member ∈ plan.operations := by
    refine mem_operations_of_mem_groups (List.mem_flatten.mpr ⟨group, ?_, inside⟩)
    exact List.mem_filterMap.mpr ⟨opener, openerMember, opened⟩
  obtain rfl : member = image :=
    accepted.eq_of_operationId scheduled imageMember (memberId.trans names.symm)
  have role := isLivePhotoImage_of_dependsOn depends
  obtain ⟨video, videoInside, videoRole, assetId, carried, known⟩ :=
    rule.video request same member inside names role
  refine ⟨assetId, carried, ?_⟩
  -- The group is the video and the image selected for it.
  obtain ⟨openerRole, imageCase⟩ := mem_group_cases opened inside
  rcases imageCase with rfl | ⟨_, found⟩
  · rw [role] at openerRole
    cases openerRole
  · obtain rfl : opener.operationId = videoOperationId :=
      dependsOn_unique (imageOf_some found).2 depends
    rcases (mem_group_cases opened videoInside).2 with rfl | ⟨_, other⟩
    · exact known.mono more
    · have image := isLivePhotoImage_of_dependsOn (imageOf_some other).2
      rw [isLivePhotoImage_of_isLivePhotoVideo videoRole] at image
      cases image

/-- Every scheduled group is opened by an operation of the plan. -/
theorem Started.opener {start : UploadStart} (started : Started platform plan start)
    {group : List UploadOperation} (member : group ∈ start.groups) :
    ∃ opener ∈ plan.operations, groupOf plan opener = some group := by
  have listed := started.groups_perm.2.subset member
  exact List.mem_filterMap.mp (List.mem_filter.mp listed).1

/-- Silent events name no video. -/
theorem namesVideo_of_calm {completed : ExtTreeMap String String} {past : List (Event Answer)}
    {event : Event Answer} (calm : requestedOperation event = none) :
    NamesVideo plan completed past event := by
  intro request same
  obtain ⟨call, answer⟩ := event
  cases same
  cases calm

theorem extendable_namesVideo {completed : ExtTreeMap String String} :
    Extendable (NamesVideo plan completed) := by
  intro first before event names request same image member own videoOperationId depends
  obtain ⟨assetId, carried, known⟩ := names request same image member own videoOperationId depends
  exact ⟨assetId, carried, known.mono (List.subset_append_right _ _)⟩

theorem throughout_of_calm {completed : ExtTreeMap String String} {events : List (Event Answer)}
    (calm : ∀ event ∈ events, requestedOperation event = none) :
    Throughout (NamesVideo plan completed) events := by
  rintro front event back rfl
  exact namesVideo_of_calm (calm event (by simp))

/-- Outcomes whose rows a list of events records. -/
theorem Records.ids {outcomes : List OperationOutcome} {events : List (Event Answer)}
    (records : Records outcomes events) :
    ((attemptedEvents events).map JournalEvent.operationId).Sublist
      (outcomes.map OperationOutcome.operationId) := by
  have mapped := records.rows.map JournalEvent.operationId
  rw [List.map_map] at mapped
  exact mapped

variable {World : Type} {environment : Environment Answer World} {before after : World}
  {events last : List (Event Answer)} {start : UploadStart} {pool : Pool Answer GroupResult}
  {report : ApplyReport}

/-- Results which a pool has handed out or holds report on different pending members. -/
theorem reported_once {completed : ExtTreeMap String String} {group : List UploadOperation}
    (distinct : (group.map UploadOperation.operationId).Nodup)
    {residuals programs : List (Executor GroupResult)} {values extra : List GroupResult}
    (reported : (residuals.flatMap outcomeIds).Sublist (pendingIds completed group))
    (same : residuals.Perm (programs ++ values.map .done))
    (held : (extra.map Program.done).Sublist programs) :
    (((values ++ extra).flatMap GroupResult.outcomes).map OperationOutcome.operationId).Nodup ∧
      ((values ++ extra).flatMap GroupResult.outcomes).map OperationOutcome.operationId ⊆
        pendingIds completed group := by
  have ids : ∀ results : List GroupResult,
      (results.flatMap GroupResult.outcomes).map OperationOutcome.operationId =
        ((results.map Program.done).map outcomeIds).flatten := by
    intro results
    rw [List.map_flatMap, List.map_map, List.flatMap_def]
    rfl
  have inside : ((extra ++ values).map Program.done).Sublist (programs ++ values.map .done) := by
    rw [List.map_append]
    exact held.append (List.Sublist.refl _)
  have listed := (inside.map outcomeIds).flatten
  have moved := (same.map outcomeIds).flatten
  have turned : (((values ++ extra).flatMap GroupResult.outcomes).map
      OperationOutcome.operationId).Perm
        (((extra ++ values).flatMap GroupResult.outcomes).map OperationOutcome.operationId) :=
    (List.perm_append_comm.flatMap_right _).map _
  rw [← List.flatMap_def] at moved
  rw [← ids] at listed
  have once : (pendingIds completed group).Nodup := distinct.sublist (List.filter_sublist.map _)
  constructor
  · refine turned.nodup_iff.mpr (List.Nodup.sublist listed ?_)
    exact moved.nodup_iff.mp (once.sublist reported)
  · intro operationId member
    have found := listed.subset (turned.subset member)
    exact reported.subset (moved.symm.subset found)

/-- A run which has started its groups, together with what it records of further finished groups,
keeps the rule of a run. -/
theorem UploadRun.rule
    (run : UploadRun environment platform plan config compatibility backupReferenceSha256 before
      events start pool report after)
    {extra : List GroupResult} (held : (extra.map Program.done).Sublist pool.programs)
    (records : Records (extra.flatMap GroupResult.outcomes) last) :
    RunRule plan start.completed (events ++ last) := by
  obtain @⟨opening, draining, _, values, _, _, _, _, opened, drained⟩ := run
  have silent := uploadStart_silent opened
  obtain ⟨_, started⟩ := started_of_execution opened
  obtain ⟨_, distinct⟩ := started.groups_valid
  obtain ⟨runs, consumed, programs, residuals, taken, merged⟩ := drained.interleaved
  have main := consumed_records taken
  obtain ⟨keeps, reported⟩ := groupRuns_works
    (by simpa [UploadStart.pool, Pool.programs] using programs) distinct
  -- Every event of the pool belongs to a group or to the main loop.
  have located : ∀ front event back, draining = front ++ event :: back →
      requestedOperation event = none ∧ event ∈ consumed ∨
        ∃ group ∈ start.groups, ∃ past, past ⊆ front ∧
          GroupRule start.completed group past event := by
    intro front event back split
    obtain ⟨track, member, first, rest, cut, past⟩ := merged.locate split
    rcases List.mem_cons.mp member with rfl | local_
    · have inside : event ∈ track := by simp [cut]
      exact .inl ⟨main.calm event inside, inside⟩
    · obtain ⟨run, listed, rfl⟩ := List.mem_map.mp local_
      obtain ⟨group, scheduled, rule⟩ := keeps run listed
      exact .inr ⟨group, scheduled, first, past, rule first event rest cut⟩
  have idle : attemptedEvents (runs.map LocalRun.events).flatten = [] := by
    refine List.filterMap_eq_nil_iff.mpr fun event member => ?_
    obtain ⟨track, listed, inside⟩ := List.mem_flatten.mp member
    obtain ⟨run, runMember, rfl⟩ := List.mem_map.mp listed
    obtain ⟨group, _, rule⟩ := keeps run runMember
    obtain ⟨front, back, split⟩ := List.append_of_mem inside
    exact (rule front event back split).silent
  have opening_nil : attemptedEvents opening = [] :=
    List.filterMap_eq_nil_iff.mpr fun event member => (silent event member).2
  have rows : (attemptedEvents (opening ++ draining ++ last)).Perm
      (attemptedEvents (consumed ++ last)) := by
    have drainedRows := merged.perm.filterMap attemptedEvent
    rw [List.flatten_cons, List.filterMap_append] at drainedRows
    rw [attemptedEvents, List.filterMap_append, List.filterMap_append, ← attemptedEvents,
      opening_nil, List.nil_append, attemptedEvents, List.filterMap_append]
    refine List.Perm.append_right _ ?_
    rwa [← attemptedEvents.eq_def (runs.map LocalRun.events).flatten, idle,
      List.append_nil] at drainedRows
  have whole : Records ((values ++ extra).flatMap GroupResult.outcomes) (consumed ++ last) := by
    rw [List.flatMap_append]
    exact main.append records
  obtain ⟨distinctIds, pendingOnly⟩ := reported_once distinct reported residuals held
  refine ⟨?_, ?_, fun row member => ?_, fun row member => ?_, ?_⟩
  · intro event member operationId requested
    rw [List.append_assoc, List.mem_append, List.mem_append] at member
    rcases member with inOpening | inDraining | inLast
    · rw [(silent event inOpening).1] at requested
      cases requested
    · obtain ⟨front, back, split⟩ := List.append_of_mem inDraining
      rcases located front event back split with ⟨calm, _⟩ | ⟨group, listed, past, _, rule⟩
      · rw [calm] at requested
        cases requested
      · exact contains_of_mem_pendingIds (rule.request operationId requested)
    · rw [records.calm event inLast] at requested
      cases requested
  · exact (rows.map _).nodup_iff.mpr (distinctIds.sublist whole.ids)
  · have listed := @List.mem_map_of_mem _ _ _ _ JournalEvent.operationId (rows.subset member)
    exact contains_of_mem_pendingIds (pendingOnly (whole.ids.subset listed))
  · exact whole.valid row (rows.subset member)
  · refine Throughout.append extendable_namesVideo (Throughout.append extendable_namesVideo
      (throughout_of_calm fun event member => (silent event member).1) ?_)
      (throughout_of_calm records.calm)
    intro front event back split
    rcases located front event back split with ⟨calm, _⟩ | ⟨group, listed, past, more, rule⟩
    · exact namesVideo_of_calm calm
    · obtain ⟨opener, member, opened⟩ := started.opener listed
      exact rule.namesVideo started.accepted opened member more

end

/-! ## Any number of runs -/

/-- One run of `apply_upload` over the journal, from one state of the journal to another, which is
ended at any point: while it opens, while its groups run, or while it records a finished group. -/
inductive ApplySession (platform : Platform) (plan : UploadPlan) :
    List JournalEvent → List (Event Answer) → List JournalEvent → Prop
  | opening {config : UploadExecutionConfig} {compatibility : ServerCompatibility}
      {backupReferenceSha256 : Option String} {before after : List JournalEvent}
      {events : List (Event Answer)} {final : Executor (Except ExecutorError UploadStart)} :
      Execution eventsEnvironment
        (uploadStart platform plan config compatibility backupReferenceSha256).run before events
        final after →
      ApplySession platform plan before events after
  | groups {config : UploadExecutionConfig} {compatibility : ServerCompatibility}
      {backupReferenceSha256 : Option String} {before after : List JournalEvent}
      {events : List (Event Answer)} {start : UploadStart} {pool : Pool Answer GroupResult}
      {report : ApplyReport} :
      UploadRun eventsEnvironment platform plan config compatibility backupReferenceSha256 before
        events start pool report after →
      ApplySession platform plan before events after
  | recording {config : UploadExecutionConfig} {compatibility : ServerCompatibility}
      {backupReferenceSha256 : Option String} {before middle after : List JournalEvent}
      {events last : List (Event Answer)} {start : UploadStart}
      {waiting left right : List (Executor GroupResult)} {value : GroupResult}
      {report : ApplyReport} {final : Executor (Except ExecutorError ApplyReport)} :
      UploadRun eventsEnvironment platform plan config compatibility backupReferenceSha256 before
        events start ⟨waiting, left ++ .done value :: right⟩ report middle →
      Execution eventsEnvironment (takeGroup report value) middle last final after →
      ApplySession platform plan before (events ++ last) after

/-- Runs of one plan over one checkpoint, one after the other. -/
inductive ApplySessions (platform : Platform) (plan : UploadPlan) :
    List JournalEvent → List (List (Event Answer)) → List JournalEvent → Prop
  | refl (rows : List JournalEvent) : ApplySessions platform plan rows [] rows
  | run {before middle after : List JournalEvent} {events : List (Event Answer)}
      {later : List (List (Event Answer))} :
      ApplySession platform plan before events middle →
      ApplySessions platform plan middle later after →
      ApplySessions platform plan before (events :: later) after

section

variable {platform : Platform} {plan : UploadPlan} {before after : List JournalEvent}
  {events : List (Event Answer)}

theorem UploadRun.grows {config : UploadExecutionConfig} {compatibility : ServerCompatibility}
    {backupReferenceSha256 : Option String} {start : UploadStart}
    {pool : Pool Answer GroupResult} {report : ApplyReport}
    (run : UploadRun eventsEnvironment platform plan config compatibility backupReferenceSha256
      before events start pool report after) :
    Grows before events after ∧ completedAssets before = .ok start.completed := by
  obtain ⟨opened, drained⟩ := run
  obtain ⟨rfl, collected⟩ := uploadStart_resumes opened
  exact ⟨(Execution.grows opened).trans (Drain.grows drained), collected⟩

/-- What a run does to the journal it finds: nothing, or it resumes and keeps the rule of a run. -/
theorem ApplySession.rule (session : ApplySession platform plan before events after) :
    Grows before events after ∧
      ((∀ event ∈ events, SilentEvent event) ∨
        ∃ completed, completedAssets before = .ok completed ∧ RunRule plan completed events) := by
  cases session with
  | opening execution => exact ⟨Execution.grows execution, .inl (uploadStart_silent execution)⟩
  | @groups _ _ _ _ _ _ _ pool _ run =>
      obtain ⟨grows, collected⟩ := run.grows
      have none : (([] : List GroupResult).map Program.done).Sublist pool.programs :=
        List.nil_sublist _
      have rule := run.rule none (records_nil [])
      rw [List.append_nil] at rule
      exact ⟨grows, .inr ⟨_, collected, rule⟩⟩
  | @recording _ _ _ _ _ _ _ _ _ waiting left right value _ _ run taken =>
      obtain ⟨grows, collected⟩ := run.grows
      have held : ([value].map Program.done).Sublist
          (Pool.programs ⟨waiting, left ++ .done value :: right⟩) := by
        rw [Pool.programs, List.map_singleton, List.singleton_sublist]
        simp
      have records := takeGroup_records taken
      rw [← List.append_nil value.outcomes] at records
      exact ⟨grows.trans (Execution.grows taken), .inr ⟨_, collected, run.rule held records⟩⟩

/-- Valid rows, where a success is the last row of its operation. -/
structure SucceedsOnce (rows : List JournalEvent) : Prop where
  valid : ∀ row ∈ rows, row.Valid
  last : rows.Pairwise fun earlier later =>
    earlier.operationId = later.operationId → earlier.assetId = none

theorem succeedsOnce_nil : SucceedsOnce [] :=
  ⟨by simp, List.Pairwise.nil⟩

/-- A success is the last row of its operation. -/
theorem SucceedsOnce.lastEvent {rows : List JournalEvent} (once : SucceedsOnce rows)
    {row : JournalEvent} (member : row ∈ rows) {assetId : String}
    (success : row.assetId = some assetId) : lastEvent rows row.operationId = some row := by
  obtain ⟨front, back, rfl⟩ := List.append_of_mem member
  have later : back.filter (fun other => other.operationId = row.operationId) = [] := by
    refine List.filter_eq_nil_iff.mpr fun other inside same => ?_
    obtain ⟨_, tail, _⟩ := List.pairwise_append.mp once.last
    have failed := (List.pairwise_cons.mp tail).1 other inside (of_decide_eq_true same).symm
    rw [success] at failed
    cases failed
  rw [ImmichRs.lastEvent, List.filter_append, List.filter_cons_of_pos (by simp), later,
    List.getLast?_append_of_ne_nil _ (by simp)]
  rfl

/-- The journal reports the asset of every success. -/
theorem SucceedsOnce.completed {rows : List JournalEvent} (once : SucceedsOnce rows) :
    ∃ completed, completedAssets rows = .ok completed ∧
      ∀ operationId assetId, completed[operationId]? = some assetId ↔
        ∃ row ∈ rows, row.operationId = operationId ∧ row.assetId = some assetId := by
  obtain ⟨completed, collected, reported⟩ := completedAssets_valid once.valid
  refine ⟨completed, collected, fun operationId assetId => ?_⟩
  rw [reported, Option.bind_eq_some_iff]
  constructor
  · rintro ⟨row, found, success⟩
    obtain ⟨member, same⟩ := List.mem_filter.mp (List.mem_of_getLast? found)
    exact ⟨row, member, of_decide_eq_true same, success⟩
  · rintro ⟨row, member, rfl, success⟩
    exact ⟨row, once.lastEvent member success, success⟩

/-- A run keeps successes last. -/
theorem ApplySession.succeedsOnce (session : ApplySession platform plan before events after)
    (once : SucceedsOnce before) : SucceedsOnce after := by
  obtain ⟨grows, silent | ⟨completed, collected, rule⟩⟩ := session.rule
  · rw [grows.eq_of_silent silent]
    exact once
  · obtain ⟨stored, rfl, inside⟩ := grows
    obtain ⟨_, same, reported⟩ := once.completed
    obtain rfl := Except.ok.inj (collected.symm.trans same)
    have distinct := rule.once.sublist (inside.map JournalEvent.operationId)
    refine ⟨fun row member => ?_, List.pairwise_append.mpr ⟨once.last, ?_, ?_⟩⟩
    · exact (List.mem_append.mp member).elim (once.valid row)
        fun new => rule.valid row (inside.subset new)
    · exact (List.pairwise_map.mp distinct).imp fun different same => absurd same different
    · intro old oldMember new newMember same
      cases success : old.assetId with
      | none => rfl
      | some assetId =>
          have known := (reported new.operationId assetId).mpr ⟨old, oldMember, same, success⟩
          have pending := rule.pending new (inside.subset newMember)
          rw [ExtTreeMap.contains_eq_isSome_getElem?, known] at pending
          cases pending

theorem ApplySession.grown (session : ApplySession platform plan before events after) :
    before <+: after := by
  obtain ⟨⟨stored, rfl, _⟩, _⟩ := session.rule
  exact List.prefix_append _ _

/-- A run leaves succeeded operations alone. -/
theorem ApplySession.untouched (session : ApplySession platform plan before events after)
    (once : SucceedsOnce before) {row : JournalEvent} (member : row ∈ before) {assetId : String}
    (success : row.assetId = some assetId) :
    (∀ event ∈ events, requestedOperation event ≠ some row.operationId) ∧
      ∀ other ∈ attemptedEvents events, other.operationId ≠ row.operationId := by
  obtain ⟨_, silent | ⟨completed, collected, rule⟩⟩ := session.rule
  · refine ⟨fun event inside requested => ?_, fun other attempt => ?_⟩
    · rw [(silent event inside).1] at requested
      cases requested
    · obtain ⟨event, inside, found⟩ := List.mem_filterMap.mp attempt
      rw [(silent event inside).2] at found
      cases found
  · obtain ⟨_, same, reported⟩ := once.completed
    obtain rfl := Except.ok.inj (collected.symm.trans same)
    have known : completed.contains row.operationId = true := by
      rw [ExtTreeMap.contains_eq_isSome_getElem?,
        (reported row.operationId assetId).mpr ⟨row, member, rfl, success⟩]
      rfl
    refine ⟨fun event inside requested => ?_, fun other attempt names => ?_⟩
    · rw [rule.requests event inside _ requested] at known
      cases known
    · have pending := rule.pending other attempt
      rw [names, known] at pending
      cases pending

/-- The asset which an upload for a live-photo image names was given for its video, by the journal
which the run found or by an answer earlier in the run. -/
def UploadsNameVideo (plan : UploadPlan) (before : List JournalEvent)
    (events : List (Event Answer)) : Prop :=
  ∀ past request answer later, events = past ++ ⟨.upload request, answer⟩ :: later →
    ∀ image ∈ plan.operations, image.operationId = request.operationId →
      ∀ videoOperationId, image.dependsOn videoOperationId = true →
        ∃ assetId, request.livePhotoVideoId = some assetId ∧
          ((∃ row ∈ before, row.operationId = videoOperationId ∧ row.assetId = some assetId) ∨
            ∃ event ∈ past, Gives videoOperationId assetId event)

theorem ApplySession.uploadsNameVideo (session : ApplySession platform plan before events after)
    (once : SucceedsOnce before) : UploadsNameVideo plan before events := by
  intro past request answer later split image member own videoOperationId depends
  obtain ⟨_, silent | ⟨completed, collected, rule⟩⟩ := session.rule
  · have requested := (silent ⟨.upload request, answer⟩ (by simp [split])).1
    cases requested
  · obtain ⟨_, same, reported⟩ := once.completed
    obtain rfl := Except.ok.inj (collected.symm.trans same)
    obtain ⟨assetId, carried, known⟩ := rule.video past _ later split request rfl image member own
      videoOperationId depends
    exact ⟨assetId, carried, known.imp_left (reported videoOperationId assetId).mp⟩

theorem ApplySessions.succeedsOnce {later : List (List (Event Answer))}
    (sessions : ApplySessions platform plan before later after) (once : SucceedsOnce before) :
    before <+: after ∧ SucceedsOnce after := by
  induction sessions with
  | refl => exact ⟨List.prefix_refl _, once⟩
  | run session _ induction =>
      obtain ⟨grown, kept⟩ := induction (session.succeedsOnce once)
      exact ⟨session.grown.trans grown, kept⟩

/-- No later run requests or records an operation which has succeeded. -/
theorem ApplySessions.untouched {later : List (List (Event Answer))}
    (sessions : ApplySessions platform plan before later after) (once : SucceedsOnce before)
    {row : JournalEvent} (member : row ∈ before) {assetId : String}
    (success : row.assetId = some assetId) :
    ∀ events ∈ later, (∀ event ∈ events, requestedOperation event ≠ some row.operationId) ∧
      ∀ other ∈ attemptedEvents events, other.operationId ≠ row.operationId := by
  induction sessions with
  | refl => simp
  | run session _ induction =>
      refine List.forall_mem_cons.mpr ⟨session.untouched once member success, ?_⟩
      exact induction (session.succeedsOnce once) (session.grown.subset member)

end

/-- A row of a success names its asset. -/
theorem JournalEvent.Valid.asset {row : JournalEvent} (valid : row.Valid)
    (success : row.kind = .created ∨ row.kind = .duplicate) :
    ∃ assetId, row.assetId = some assetId := by
  have contract := valid.contract
  cases asset : row.assetId with
  | some assetId => exact ⟨assetId, rfl⟩
  | none =>
      rw [assetContract, asset] at contract
      rcases success with kind | kind <;> simp [kind] at contract

/-- Beginnings of a journal keep its rule. -/
theorem SucceedsOnce.of_prefix {rows after : List JournalEvent} (once : SucceedsOnce after)
    (shorter : rows <+: after) : SucceedsOnce rows :=
  ⟨fun row member => once.valid row (shorter.subset member), once.last.sublist shorter.sublist⟩

/-- Over any number of runs of one plan, each ended at any point: once an operation has a success,
no later run requests or records it and the journal keeps reporting its asset, and every upload for
a live-photo image names the asset which was given for its own video. -/
theorem applySessions_resume {platform : Platform} {plan : UploadPlan}
    {earlier later : List (List (Event Answer))} {rows after : List JournalEvent}
    (first : ApplySessions platform plan [] earlier rows)
    (second : ApplySessions platform plan rows later after) :
    (∀ row ∈ rows, row.kind = .created ∨ row.kind = .duplicate →
      (∀ events ∈ later, (∀ event ∈ events, requestedOperation event ≠ some row.operationId) ∧
        ∀ other ∈ attemptedEvents events, other.operationId ≠ row.operationId) ∧
      ∃ assetId, row.assetId = some assetId ∧
        ∀ middle, rows <+: middle → middle <+: after →
          ∃ completed, completedAssets middle = .ok completed ∧
            completed[row.operationId]? = some assetId) ∧
      ∀ events last, ApplySession platform plan rows events last →
        UploadsNameVideo plan rows events := by
  obtain ⟨_, once⟩ := first.succeedsOnce succeedsOnce_nil
  obtain ⟨_, kept⟩ := second.succeedsOnce once
  refine ⟨fun row member success => ?_, fun events last session => session.uploadsNameVideo once⟩
  obtain ⟨assetId, named⟩ := (once.valid row member).asset success
  refine ⟨second.untouched once member named, assetId, named, fun middle longer shorter => ?_⟩
  obtain ⟨completed, collected, reported⟩ := (kept.of_prefix shorter).completed
  exact ⟨completed, collected,
    (reported row.operationId assetId).mpr ⟨row, longer.subset member, rfl, named⟩⟩

/-! ## A live photo which the server knows -/

/-- The outcomes of the live photo when the server knows both files. -/
def livePhotoKnown : List OperationOutcome :=
  [successful motionVideo .duplicate "v" 0, successful stillImage .duplicate "i" 0]

/-- The rows of a run of the live photo. -/
def livePhotoRows : List JournalEvent := livePhotoKnown.map OperationOutcome.event

/-- A run of the live photo over an empty journal records both of its files. -/
theorem livePhotoPlan_session :
    ∃ events, ApplySession .reference livePhotoPlan [] events livePhotoRows := by
  have path : Execution.Path eventsEnvironment [] livePhotoOpening [] := by
    repeat first
      | exact .nil _
      | refine .cons (show eventsEnvironment _ _ _ from rfl) ?_
      | refine .cons (show eventsEnvironment _ _ _ from ⟨rfl, rfl⟩) ?_
  have group := @livePhotoGroup_known (List JournalEvent) eventsEnvironment [] rfl
    fun _ _ _ => rfl
  have journal : Execution eventsEnvironment (takeGroup (ApplyReport.new 2) ⟨livePhotoKnown, false⟩)
      [] (livePhotoRows.map fun row => ⟨.appendEvent row, .ok ()⟩)
      (.done (.ok (livePhotoKnown.foldl recordReport (ApplyReport.new 2)))) livePhotoRows :=
    .head (show eventsEnvironment [] _ [_] from rfl) (.head rfl (.refl _ _))
  obtain ⟨first, start, run, _, _⟩ := livePhotoPlan_runs path group journal
  exact ⟨_, .groups run⟩

/-- After that run the journal reports both assets, and a run which is cut off at its start leaves
the files alone. -/
theorem livePhotoPlan_resumes :
    ∃ completed, completedAssets livePhotoRows = .ok completed ∧
      completed[motionVideo.operationId]? = some "v" := by
  obtain ⟨events, session⟩ := livePhotoPlan_session
  have cut : ApplySession .reference livePhotoPlan livePhotoRows [] livePhotoRows :=
    @ApplySession.opening _ _ .default livePhotoPlan.server none _ _ _ _ (.refl _ _)
  obtain ⟨reports, _⟩ := applySessions_resume (.run session (.refl _)) (.run cut (.refl _))
  obtain ⟨_, assetId, named, kept⟩ := reports _ List.mem_cons_self (.inr rfl)
  obtain ⟨completed, collected, found⟩ := kept _ (List.prefix_refl _) (List.prefix_refl _)
  exact ⟨completed, collected, found.trans (named.symm.trans rfl)⟩

end ImmichRs
