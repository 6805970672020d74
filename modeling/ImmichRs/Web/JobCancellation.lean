import ImmichRs.Executor.ImportCancellation
import ImmichRs.Web.JobWork

/-!
# Cancelled jobs

The token of a job may be set at any moment, and whichever step comes next may be the one to notice
it.  A watch follows the events of a job: whether a step has told it about the cancellation, and
whether that was inside the offline verification.
-/

namespace ImmichRs.Web

open Interaction
open Std (ExtTreeMap)

/-! ## Answers -/

/-- The answers which tell a job about a cancellation. -/
def reportsJob : Event JobAnswer → Bool
  | ⟨.executor call, answer⟩ => reportsCancellation ⟨call, answer⟩
  | ⟨.read .isCancelled, answer⟩ => (answer : Bool)
  | ⟨.read .version, answer⟩ => clientCancelled (answer : Except ClientError VersionResponse)
  | ⟨.read .user, answer⟩ => clientCancelled (answer : Except ClientError String)
  | ⟨.read (.search _), answer⟩ => clientCancelled (answer : Except ClientError ArchiveSearchAssets)
  | ⟨.read (.asset _), answer⟩ => clientCancelled (answer : Except ClientError ArchiveAssetResponse)
  | ⟨.scan _, answer⟩ => scanCancelled (answer : Except ScanError NormalizedPlan)
  | _ => false

/-- A token which is not set. -/
def deniesJob : Event JobAnswer → Bool
  | ⟨.executor call, answer⟩ => deniesCancellation ⟨call, answer⟩
  | ⟨.read .isCancelled, answer⟩ => !(answer : Bool)
  | _ => false

/-- The cancellation token of a job. -/
def jobCancellation : Interruption JobAnswer where
  reports := reportsJob
  denies := deniesJob
  exclusive := by
    rintro ⟨call, answer⟩ reported
    cases call with
    | executor call => exact cancellation.exclusive ⟨call, answer⟩ reported
    | read call =>
        cases call with
        | isCancelled =>
            have set : answer = true := reported
            rw [set]
            rfl
        | _ => rfl
    | _ => rfl

/-- The answers of surroundings in which the executors can do their part. -/
def CooperatesJob : Event JobAnswer → Prop
  | ⟨.executor call, answer⟩ => Cooperates ⟨call, answer⟩
  | _ => True

/-- The groups of a folder apply have ended because of a cancellation. -/
def endsCancelled : Event JobAnswer → Bool
  | ⟨.runGroups _ _, .ok report⟩ => report.cancelled
  | ⟨.runGroups _ _, .error error⟩ => error == .cancelled
  | _ => false

/-! ## Surroundings -/

section

variable {World : Type}

/-- What the executors meet of the surroundings of a job. -/
def executing (surroundings : Environment JobAnswer World) : Environment Answer World :=
  fun before event after => surroundings before ⟨.executor event.1, event.2⟩ after

/-- The surroundings of a job in which its groups run as a pool. -/
def pooled (platform : Platform) (surroundings : Environment JobAnswer World) :
    Environment JobAnswer World := fun before event after =>
  match event with
  | ⟨.runGroups config start, result⟩ =>
      ∃ events, Drained (executing surroundings) config.concurrency takeGroup
        (start.pool platform config) start.report before events result after
  | event => surroundings before event after

end

/-! ## The watch -/

/-- What a job has been told so far. -/
inductive Watch
  | unaware
  /-- Nothing yet, inside an offline verification. -/
  | verifying
  | aware
  /-- It was told inside an offline verification. -/
  | missed
  /-- Its groups have ended because of a cancellation. -/
  | drained
  deriving DecidableEq, Repr

namespace Watch

/-- Whether the job has been told nothing. -/
def calm : Watch → Bool
  | .unaware | .verifying => true
  | _ => false

/-- Whether a step has told the job. -/
def told : Watch → Bool
  | .aware | .missed => true
  | _ => false

/-- The watch after a report. -/
def report : Watch → Watch
  | .unaware => .aware
  | .verifying => .missed
  | watch => watch

/-- The watch after a step which is no report. -/
def pass : Watch → JobCall → Watch
  | .unaware, .unusedCheckpoint => .verifying
  | .verifying, .verifyCheckpointUnused _ => .unaware
  | watch, _ => watch

/-- The watch after an event. -/
def next (watch : Watch) (event : Event JobAnswer) : Watch :=
  if watch.calm then
    if reportsJob event then watch.report
    else if endsCancelled event then .drained
    else watch.pass event.1
  else
    watch

variable {start : Watch}

theorem told_report (calm : start.calm = true) : start.report.told = true := by
  cases start <;> first | rfl | cases calm

theorem next_report (event : Event JobAnswer) : start.report.next event = start.report := by
  cases start <;> rfl

theorem pass_executor (call : Call) : start.pass (.executor call) = start := by
  cases start <;> rfl

end Watch

/-- The watch of a job after its events. -/
def watchOf (events : List (Event JobAnswer)) : Watch :=
  events.foldl Watch.next .unaware

/-- The environment of a job which keeps its watch. -/
def watched : Environment JobAnswer Watch := fun before event after =>
  CooperatesJob event ∧ after = before.next event ∧ (before.told = true → deniesJob event = false)

/-- Groups are run after they have been opened. -/
def Scheduled (platform : Platform) (event : Event JobAnswer) : Prop :=
  ∀ config start, event.1 = .runGroups config start → ∃ plan, Started platform plan start

/-! ## Programs under watch -/

/-- The watch of a job which has been stopped since `start`. -/
def Watch.Stopped (start after : Watch) : Prop :=
  after = start.report ∨ start = .unaware ∧ after = .drained

section

variable {platform : Platform} {start : Watch} {α β ε ε' : Type} {marked valid : α → Prop}

/-- A program returns valid values; either nothing has stopped the job, or the value is marked. -/
def Follows (platform : Platform) (start : Watch) (marked valid : α → Prop)
    (program : JobProgram α) : Prop :=
  program.Ensures watched (fun _ event _ => Scheduled platform event) start fun value after =>
    valid value ∧ (after = start ∨ start.Stopped after ∧ marked value)

theorem follows_done {value : α} (holds : valid value) :
    Follows platform start marked valid (.done value) :=
  ⟨holds, .inl rfl⟩

theorem Follows.bind {program : JobProgram β} {next : β → JobProgram α} {hinted known : β → Prop}
    (first : Follows platform start hinted known program)
    (rest : ∀ value, known value → Follows platform start marked valid (next value))
    (ends : ∀ value, known value → hinted value →
      ∃ last, next value = .done last ∧ valid last ∧ marked last) :
    Follows platform start marked valid (program.bind next) := by
  rw [Follows, Program.ensures_bind]
  apply Program.Ensures.post first
  rintro value after ⟨holds, rfl | ⟨stopped, hint⟩⟩
  · exact rest value holds
  · obtain ⟨last, same, held⟩ := ends value holds hint
    rw [same]
    exact ⟨held.1, .inr ⟨stopped, held.2⟩⟩

/-- A request of which every report is marked. -/
theorem follows_request {call : JobCall} {next : JobAnswer call → JobProgram α}
    (calm : start.calm = true) (passes : start.pass call = start)
    (ungrouped : ∀ config groups, call ≠ .runGroups config groups)
    (rest : ∀ answer, CooperatesJob ⟨call, answer⟩ → reportsJob ⟨call, answer⟩ = false →
      Follows platform start marked valid (next answer))
    (ends : ∀ answer, reportsJob ⟨call, answer⟩ = true →
      ∃ last, next answer = .done last ∧ valid last ∧ marked last) :
    Follows platform start marked valid (.request call next) := by
  rintro answer _ ⟨cooperates, rfl, _⟩
  refine ⟨fun config groups same => absurd same (ungrouped config groups), ?_⟩
  have undrained : endsCancelled ⟨call, answer⟩ = false := by
    cases call with
    | runGroups config groups => exact absurd rfl (ungrouped config groups)
    | _ => rfl
  cases report : reportsJob ⟨call, answer⟩ with
  | true =>
      obtain ⟨last, same, held⟩ := ends answer report
      rw [same, Watch.next, if_pos calm, if_pos report]
      exact ⟨held.1, .inr ⟨.inl rfl, held.2⟩⟩
  | false =>
      have stays : start.next ⟨call, answer⟩ = start := by
        rw [Watch.next, if_pos calm, report, undrained]
        exact passes
      rw [stays]
      exact rest answer cooperates report

/-! ## Errors under watch -/

/-- How a program ends which has been stopped. -/
def Ceases (stopped : α → Prop) (failed : ε → Prop) : Except ε α → Prop
  | .ok value => stopped value
  | .error error => failed error

/-- A program which has been stopped returns what is `stopped`, or fails with such an error. -/
abbrev Quits (platform : Platform) (start : Watch) (stopped : α → Prop) (failed : ε → Prop)
    (program : FallibleJob ε α) : Prop :=
  Follows platform start (Ceases stopped failed) (fun _ => True) program.run

variable {stopped : α → Prop} {failed : ε → Prop} {failed' : ε' → Prop}

theorem quits_ofResult (result : Except ε α) :
    Quits platform start stopped failed (Program.ofResult result) :=
  follows_done trivial

theorem Quits.bind {program : FallibleJob ε β} {next : β → FallibleJob ε α}
    {halted : β → Prop} (first : Quits platform start halted failed program)
    (rest : ∀ value, Quits platform start stopped failed (next value))
    (ends : ∀ value, halted value →
      ∃ last, (next value).run = .done last ∧ Ceases stopped failed last) :
    Quits platform start stopped failed (program >>= next) := by
  apply Follows.bind first
  case rest =>
    intro outcome _
    cases outcome with
    | ok value => exact rest value
    | error error => exact follows_done trivial
  case ends =>
    intro outcome _ ceased
    cases outcome with
    | ok value =>
        obtain ⟨last, same, held⟩ := ends value ceased
        exact ⟨last, same, trivial, held⟩
    | error error => exact ⟨_, rfl, trivial, ceased⟩

/-- A program which fails where it is stopped. -/
theorem Quits.andThen {program : FallibleJob ε β} {next : β → FallibleJob ε α}
    (first : Quits platform start (fun _ => False) failed program)
    (rest : ∀ value, Quits platform start stopped failed (next value)) :
    Quits platform start stopped failed (program >>= next) :=
  first.bind rest fun _ never => never.elim

theorem Quits.convert {wrap : ε → ε'} {program : FallibleJob ε α}
    (quits : Quits platform start stopped failed program)
    (wraps : ∀ error, failed error → failed' (wrap error)) :
    Quits platform start stopped failed' (convert wrap program) := by
  have mapped : ∀ outcome, Ceases stopped failed outcome →
      Ceases stopped failed' (outcome.mapError wrap) := by
    intro outcome ceased
    cases outcome with
    | ok value => exact ceased
    | error error => exact wraps error ceased
  apply Follows.bind quits
  · exact fun _ _ => follows_done trivial
  · exact fun outcome _ ceased => ⟨_, rfl, trivial, mapped outcome ceased⟩

/-- An executor which notices a cancellation does so as a part of a job. -/
theorem follows_runExecutor {program : FallibleExecutor α}
    {marked valid : Except ExecutorError α → Prop} (calm : start.calm = true)
    (heeds : Heeds marked valid false program.run) :
    Follows platform start marked valid (runExecutor program).run := by
  have each : ∀ call (alert : Bool) (before : Watch),
      before = (if alert then start.report else start) →
        (Program.ask (JobCall.executor call) : JobProgram (Answer call)).Ensures watched
          (fun _ event _ => Scheduled platform event) before fun answer after =>
            ∃ next, notified alert ⟨call, answer⟩ next ∧
              after = (if next then start.report else start) := by
    rintro call alert _ rfl answer _ ⟨cooperates, rfl, told⟩
    have scheduled : Scheduled platform ⟨.executor call, answer⟩ := fun _ _ same => by cases same
    refine ⟨scheduled, _, ⟨cooperates, rfl, ?_⟩, ?_⟩
    · rintro rfl
      exact told (Watch.told_report calm)
    · cases alert with
      | true => exact Watch.next_report _
      | false =>
          cases report : cancellation.reports ⟨call, answer⟩ with
          | true =>
              have reported : reportsJob ⟨.executor call, answer⟩ = true := report
              simp only [Bool.false_eq_true, if_false, Watch.next, if_pos calm, if_pos reported]
              rfl
          | false =>
              have silent : reportsJob ⟨.executor call, answer⟩ = false := report
              simp only [Bool.false_eq_true, if_false, Watch.next, if_pos calm, silent]
              exact Watch.pass_executor call
  apply (Program.ensures_translate each heeds rfl).post
  rintro outcome _ ⟨alert, rfl, tells, holds⟩
  cases alert with
  | false => exact ⟨holds, .inl rfl⟩
  | true => exact ⟨holds, .inr ⟨.inl rfl, tells rfl⟩⟩

theorem quits_runExecutor {program : FallibleExecutor α} (calm : start.calm = true)
    (unwinds : Unwinds stopped false program) :
    Quits platform start stopped (· = .cancelled) (runExecutor program) := by
  have ceases : ∀ outcome, Halts stopped outcome → Ceases stopped (· = .cancelled) outcome := by
    intro outcome halted
    cases outcome <;> exact halted
  apply Program.Ensures.post (follows_runExecutor calm unwinds)
  exact fun outcome after reached =>
    ⟨reached.1, reached.2.imp_right fun ended => ⟨ended.1, ceases outcome ended.2⟩⟩

/-- A request of which every report becomes an error. -/
theorem quits_askFallible {call : JobCall} {read : JobAnswer call → Except ε α}
    (calm : start.calm = true) (passes : start.pass call = start)
    (ungrouped : ∀ config groups, call ≠ .runGroups config groups)
    (ends : ∀ answer, reportsJob ⟨call, answer⟩ = true → Ceases stopped failed (read answer)) :
    Quits platform start stopped failed (askFallible call read) := by
  apply follows_request calm passes ungrouped
  · exact fun _ _ _ => follows_done trivial
  · exact fun answer report => ⟨_, rfl, trivial, ends answer report⟩

/-- A step which tells nothing. -/
theorem ensures_silent {call : JobCall} {next : JobAnswer call → JobProgram α}
    {post : α → Watch → Prop} (ungrouped : ∀ config groups, call ≠ .runGroups config groups)
    (silent : ∀ answer, reportsJob ⟨call, answer⟩ = false)
    (rest : ∀ answer, (next answer).Ensures watched (fun _ event _ => Scheduled platform event)
      (start.pass call) post) :
    (Program.request call next).Ensures watched (fun _ event _ => Scheduled platform event) start
      post := by
  rintro answer _ ⟨_, rfl, _⟩
  refine ⟨fun config groups same => absurd same (ungrouped config groups), ?_⟩
  have undrained : endsCancelled ⟨call, answer⟩ = false := by
    cases call with
    | runGroups config groups => exact absurd rfl (ungrouped config groups)
    | _ => rfl
  have passed : start.next ⟨call, answer⟩ = start.pass call := by
    rw [Watch.next, silent answer, undrained]
    cases start <;> rfl
  rw [passed]
  exact rest answer

theorem ensures_ask {call : JobCall} {next : JobAnswer call → JobProgram α}
    {post : α → Watch → Prop} (ungrouped : ∀ config groups, call ≠ .runGroups config groups)
    (silent : ∀ answer, reportsJob ⟨call, answer⟩ = false)
    (rest : ∀ answer, (next answer).Ensures watched (fun _ event _ => Scheduled platform event)
      (start.pass call) post) :
    ((Program.ask call).bind next).Ensures watched (fun _ event _ => Scheduled platform event)
      start post :=
  ensures_silent ungrouped silent rest

end

/-! ## Probes -/

section

variable {platform : Platform}

/-- Failures of the client which a cancellation has caused. -/
abbrev RemoteCancelled (error : ClientError) : Prop := error.class_ = .cancelled

/-- Failures of a workflow which count as a cancellation. -/
abbrev WorkflowCancelled (error : UploadFailure) : Prop := error.class_ = .cancelled

/-- A program of the read client which fails as cancelled after a report. -/
abbrev Relinquishes {α : Type} (platform : Platform) (program : ReadProgram α) : Prop :=
  Quits platform .unaware (fun _ => False) RemoteCancelled (readRemote program)

theorem readRemote_bind {α β : Type} (program : ReadProgram α) (next : α → ReadProgram β) :
    readRemote (program >>= next) = readRemote program >>= fun value => readRemote (next value) := by
  have split := Program.translate_bind
    (fun call => (Program.ask (JobCall.read call) : JobProgram (ReadAnswer call))) program.run
    (ExceptT.bindCont next)
  apply (congrArg ExceptT.mk split).trans
  apply congrArg (Program.bind (readRemote program).run)
  funext outcome
  cases outcome <;> rfl

theorem Relinquishes.bind {α β : Type} {program : ReadProgram α} {next : α → ReadProgram β}
    (first : Relinquishes platform program) (rest : ∀ value, Relinquishes platform (next value)) :
    Relinquishes platform (program >>= next) := by
  rw [Relinquishes, readRemote_bind]
  exact first.andThen rest

theorem relinquishes_checked {α : Type} (result : Except ClientError α) :
    Relinquishes platform (checked result) :=
  follows_done trivial

theorem relinquishes_checkCancelled :
    Relinquishes platform ImmichReadClient.checkCancelled := by
  apply follows_request rfl rfl (fun _ _ same => by cases same)
  · exact fun _ _ _ => follows_done trivial
  · intro answer report
    have set : answer = true := report
    rw [set]
    exact ⟨_, rfl, trivial, rfl⟩

/-- A request of the client which tells of its cancellation. -/
theorem relinquishes_read {α : Type} {call : ReadCall} {read : ReadAnswer call → Except ClientError α}
    (reports : ∀ answer, reportsJob ⟨.read call, answer⟩ = clientCancelled (read answer)) :
    Relinquishes platform (ExceptT.mk (.request call fun answer => .done (read answer))) := by
  apply follows_request rfl rfl (fun _ _ same => by cases same)
  · exact fun _ _ _ => follows_done trivial
  · intro answer report
    refine ⟨_, rfl, trivial, ?_⟩
    rw [reports answer] at report
    cases outcome : read answer with
    | ok value =>
        rw [outcome] at report
        cases report
    | error error =>
        rw [outcome] at report
        exact beq_iff_eq.mp report

theorem relinquishes_probe (client : ImmichReadClient) :
    Relinquishes platform (client.probe platform) := by
  apply Relinquishes.bind relinquishes_checkCancelled
  intro _
  apply Relinquishes.bind (relinquishes_read fun _ => rfl)
  intro version
  apply Relinquishes.bind (relinquishes_checked _)
  intro _
  apply Relinquishes.bind relinquishes_checkCancelled
  intro _
  apply Relinquishes.bind (relinquishes_read fun _ => rfl)
  intro userId
  apply Relinquishes.bind (relinquishes_checked _)
  exact fun _ => relinquishes_checked (.ok _)

/-- A workflow which fails as cancelled after a report. -/
abbrev Withdraws {α : Type} (platform : Platform) (start : Watch)
    (program : FallibleJob UploadFailure α) : Prop :=
  Quits platform start (fun _ => False) WorkflowCancelled program

theorem withdraws_probe (client : JobClient) :
    Withdraws platform .unaware (convert .client (readRemote (client.client.probe platform))) := by
  apply (relinquishes_probe client.client).convert
  intro error cancelled
  have known : error.class_ = .cancelled := cancelled
  show (UploadFailure.client error).class_ = .cancelled
  rw [UploadFailure.class_, known]

/-! ## Dry runs -/

theorem withdraws_executor {α : Type} {start : Watch} {program : FallibleJob ExecutorError α}
    (quits : Quits platform start (fun _ => False) (· = .cancelled) program) :
    Withdraws platform start (convert .executor program) := by
  apply quits.convert
  rintro _ rfl
  rfl

theorem quits_dryRunUpload {start : Watch} (calm : start.calm = true) (plan : UploadPlan)
    (checkpoint : String) (config : UploadExecutionConfig) :
    Quits platform start (fun _ => False) (· = .cancelled)
      (dryRunUpload platform plan checkpoint config) := by
  apply Quits.andThen (quits_ofResult _)
  intro _
  apply Quits.andThen (quits_runExecutor calm (aborts_verifySource platform plan config))
  intro _
  apply Quits.andThen
  · apply quits_askFallible calm (by cases start <;> rfl) (fun _ _ same => by cases same)
    exact fun _ report => by cases report
  · intro completed
    apply Quits.andThen (quits_ofResult _)
    exact fun _ => follows_done trivial

theorem quits_dryRunImport {start : Watch} (calm : start.calm = true) (plan : UploadPlan)
    (checkpoint : String) (config : ImportConfig) :
    Quits platform start (fun _ => False) (· = .cancelled)
      (dryRunImport platform plan checkpoint config) := by
  apply Quits.andThen (quits_ofResult _)
  intro _
  apply Quits.andThen (quits_ofResult _)
  intro _
  apply Quits.andThen (quits_ofResult _)
  intro identity
  apply Quits.andThen (quits_ofResult _)
  intro _
  apply Quits.andThen
  · apply quits_askFallible calm (by cases start <;> rfl) (fun _ _ same => by cases same)
    exact fun _ report => by cases report
  · intro found
    apply Quits.andThen (quits_ofResult _)
    intro _
    apply Quits.andThen (quits_runExecutor calm (aborts_rescan platform plan config))
    exact fun _ => follows_done trivial

theorem withdraws_dryRunUploadPlan {start : Watch} (calm : start.calm = true) (plan : UploadPlan)
    (request : UploadRunRequest) :
    Withdraws platform start (dryRunUploadPlan platform plan request) := by
  rw [dryRunUploadPlan]
  split
  case isTrue folder =>
    apply Quits.andThen (quits_ofResult _)
    intro _
    apply Quits.andThen (withdraws_executor (quits_dryRunUpload calm _ _ _))
    exact fun _ => follows_done trivial
  case isFalse other =>
    split
    case isTrue imported =>
      apply Quits.andThen (quits_ofResult _)
      intro config
      apply Quits.andThen (withdraws_executor (quits_dryRunImport calm _ _ _))
      exact fun _ => follows_done trivial
    case isFalse unsupported => exact quits_ofResult _

/-! ## Plans -/

theorem withdraws_scanResolved (label : String) :
    Withdraws platform .unaware
      (askFallible (.executor (.scanResolved label)) (Except.mapError .scan)) := by
  apply quits_askFallible rfl rfl (fun _ _ same => by cases same)
  intro answer report
  cases answer with
  | ok resolved => cases report
  | error error =>
      have same : error = .cancelled := beq_iff_eq.mp report
      rw [same]
      rfl

theorem withdraws_planFolderUpload (label : String) (scan : FolderScanConfig) (client : JobClient) :
    Withdraws platform .unaware (planFolderUpload platform label scan client) := by
  apply Quits.andThen (withdraws_probe client)
  intro negotiated
  apply Quits.andThen (withdraws_scanResolved label)
  intro resolved
  apply ensures_silent (fun _ _ same => by cases same) (fun _ => rfl)
  exact fun _ => follows_done trivial

theorem withdraws_planImportUpload (label : String) (config : ImportConfig) (client : JobClient) :
    Withdraws platform .unaware (planImportUpload platform label config client) := by
  apply Quits.andThen (withdraws_probe client)
  intro negotiated
  apply Quits.andThen (withdraws_scanResolved label)
  exact fun _ => follows_done trivial

theorem withdraws_planSourceUpload (source : ResolvedSourceProfile) (client : JobClient) :
    Withdraws platform .unaware (planSourceUpload platform source client) := by
  obtain ⟨inputs, label, settings⟩ := source
  apply Quits.andThen (quits_ofResult _)
  intro _
  cases settings with
  | folder scan => exact withdraws_planFolderUpload label scan client
  | googleTakeout takeout upload =>
      exact withdraws_planImportUpload label (.takeout takeout upload) client
  | applePhotos apple upload =>
      exact withdraws_planImportUpload label (.applePhotos apple upload) client
  | picasa picasa upload => exact withdraws_planImportUpload label (.picasa picasa upload) client

/-! ## Applies -/

/-- Groups of a folder apply are run only after they have been opened. -/
theorem follows_uploadStart (plan : UploadPlan) (config : UploadExecutionConfig)
    (compatibility : ServerCompatibility) (backupReferenceSha256 : Option String) :
    Follows platform .unaware (Halts fun _ => False)
      (fun outcome => ∀ groups, outcome = .ok groups → Started platform plan groups)
      (runExecutor (uploadStart platform plan config compatibility backupReferenceSha256)).run := by
  have known : (uploadStart platform plan config compatibility backupReferenceSha256).run.Ensures
      notified (fun _ _ _ => True) false fun outcome _ =>
        ∀ groups, outcome = .ok groups → Started platform plan groups := by
    apply (Program.Traces.ensures (prepares_uploadStart _ _ _ _ _) fun _ _ _ step => step.1).post
    rintro outcome _ ⟨_, _, _, started⟩
    exact started
  apply follows_runExecutor rfl
  have aborts := aborts_uploadStart platform plan config compatibility backupReferenceSha256
  apply (Program.Ensures.and aborts known).mono fun _ _ _ _ => trivial
  exact fun outcome alert reached => ⟨reached.1.1, reached.2⟩

theorem quits_applyUpload (plan : UploadPlan) (config : UploadExecutionConfig)
    (client : AuthorizedClient) :
    Quits platform .unaware (fun report => report.cancelled = true) (· = .cancelled)
      (applyUpload platform plan config client) := by
  apply Quits.andThen (quits_ofResult _)
  intro _
  apply Follows.bind (follows_uploadStart plan config _ _)
  case ends =>
    intro outcome _ halted
    cases outcome with
    | ok groups => exact halted.elim
    | error error => exact ⟨_, rfl, trivial, halted⟩
  case rest =>
    intro outcome started
    cases outcome with
    | error error => exact follows_done trivial
    | ok groups =>
        rintro answer _ ⟨_, rfl, _⟩
        have opened : Scheduled platform ⟨.runGroups config groups, answer⟩ := by
          intro _ scheduled same
          injection same with _ same
          rw [← same]
          exact ⟨plan, started groups rfl⟩
        refine ⟨opened, trivial, ?_⟩
        cases ended : endsCancelled ⟨.runGroups config groups, answer⟩ with
        | false =>
            refine .inl ?_
            simp only [Watch.next, ended]
            rfl
        | true =>
            refine .inr ⟨.inr ⟨rfl, ?_⟩, ?_⟩
            · simp only [Watch.next, ended]
              rfl
            · cases answer with
              | ok report => exact ended
              | error error => exact beq_iff_eq.mp ended

theorem quits_applyAdapterImport (digests : ∀ bytes, isLowerSha256 (platform.sha256 bytes) = true)
    (plan : UploadPlan) (config : ImportConfig) (client : AuthorizedClient) :
    Quits platform .unaware (fun report => report.cancelled = true) (· = .cancelled)
      (applyAdapterImport platform plan config client) := by
  apply Quits.andThen (quits_ofResult _)
  exact fun _ => quits_runExecutor rfl (unwinds_applyImportInner digests _ _)

/-- A report which says that its run was cancelled is turned into that error. -/
theorem withdraws_report {α β : Type} {program : FallibleJob ExecutorError α} {cancelled : α → Bool}
    {wrap : α → β}
    (quits : Quits platform .unaware (fun report => cancelled report = true) (· = .cancelled)
      program) :
    Withdraws platform .unaware (do
      let report ← convert .executor program
      Program.ofResult (reject (cancelled report) .cancelled)
      return wrap report) := by
  have wraps : ∀ error, error = ExecutorError.cancelled →
      WorkflowCancelled (UploadFailure.executor error) := by
    rintro _ rfl
    rfl
  apply Quits.bind (quits.convert wraps)
  · intro report
    apply Quits.andThen (quits_ofResult _)
    exact fun _ => follows_done trivial
  · intro report told
    rw [told]
    exact ⟨_, rfl, rfl⟩

theorem withdraws_applyPreparedUpload
    (digests : ∀ bytes, isLowerSha256 (platform.sha256 bytes) = true)
    (prepared : PreparedUploadApply) (request : UploadRunRequest) (client : JobClient) :
    Withdraws platform .unaware (applyPreparedUpload platform prepared request client) := by
  apply Quits.andThen (withdraws_probe client)
  intro negotiated
  apply Quits.andThen (quits_ofResult _)
  intro _
  split
  case isTrue imported =>
    apply Quits.andThen (quits_ofResult _)
    intro config
    apply Quits.andThen (quits_ofResult _)
    exact fun authorized => withdraws_report (quits_applyAdapterImport digests _ _ authorized)
  case isFalse folder =>
    apply Quits.andThen (quits_ofResult _)
    intro _
    apply Quits.andThen (quits_ofResult _)
    exact fun authorized => withdraws_report (quits_applyUpload _ _ authorized)

end

end ImmichRs.Web
