import ImmichRs.Web.Subscriptions

/-!
# What the channels of jobs carry

The events of a job are sent one by one with the numbers from one on, the last of them alone may be
terminal, and the job keeps the last events which were sent; the sender goes with the job, after the
terminal event.
-/

namespace ImmichRs.Web

open Collections Interaction

variable {manager : JobManager} {limit : Nat} {sent : List JobEvent} {job : StoredJob}

/-- Whether the status of an event is terminal. -/
def JobEvent.ends (event : JobEvent) : Bool := event.status.terminal

/-- The terminal event was sent. -/
def Finished (sent : List JobEvent) : Prop := ∃ last, sent.getLast? = some last ∧ last.ends = true

/-- What is sent through a channel. -/
structure EventLog (sent : List JobEvent) : Prop where
  begun : sent ≠ []
  numbered : Numbered JobEvent.sequence sent
  once : EndsOnce JobEvent.ends sent

/-- A job keeps the last events which were sent of it. -/
structure StoredJob.Logged (limit : Nat) (sent : List JobEvent) (job : StoredJob) : Prop where
  events : job.events = sent.rtake limit
  sequence : job.nextEventSequence = sent.length
  status : sent.getLast?.map JobEvent.status = some job.status

theorem StoredJob.Logged.same (logged : job.Logged limit sent) {after : StoredJob}
    (same : job.SameLog after) : after.Logged limit sent :=
  ⟨same.events.trans logged.events, same.sequence.trans logged.sequence,
    logged.status.trans (congrArg some same.status.symm)⟩

/-- The status of the last event is that of the job. -/
theorem StoredJob.Logged.last (logged : job.Logged limit sent) {last : JobEvent}
    (at_ : sent.getLast? = some last) : last.ends = job.status.terminal := by
  have status := logged.status
  rw [at_, Option.map_some, Option.some.injEq] at status
  rw [JobEvent.ends, status]

theorem StoredJob.Logged.finished (logged : job.Logged limit sent)
    (ended : job.status.terminal = true) : Finished sent := by
  obtain ⟨last, at_, -⟩ := Option.map_eq_some_iff.mp logged.status
  exact ⟨last, at_, (logged.last at_).trans ended⟩

theorem StoredJob.Logged.not_finished (logged : job.Logged limit sent)
    (running : job.status.terminal = false) : ¬ Finished sent := by
  rintro ⟨last, at_, ended⟩
  rw [logged.last at_, running] at ended
  cases ended

/-! ## Pushed events -/

theorem getLast?_pushEvent (job : StoredJob) (limit : Nat) :
    ∃ event, (pushEvent job limit).events.getLast? = some event ∧
      event.sequence = saturatingAdd job.nextEventSequence 1 ∧ event.status = job.status ∧
      (pushEvent job limit).events =
        (if job.events.length = limit then job.events.tail else job.events) ++ [event] :=
  ⟨_, List.getLast?_concat .., rfl, rfl, rfl⟩

/-- A job which has not ended gets one more event. -/
theorem StoredJob.Logged.push (logged : job.Logged limit sent) (log : EventLog sent)
    (positive : 0 < limit) (few : sent.length < maxWord) (running : job.status.terminal = false)
    {changed : StoredJob} (events : changed.events = job.events)
    (sequence : changed.nextEventSequence = job.nextEventSequence) :
    ∃ event, (pushEvent changed limit).events.getLast? = some event ∧
      EventLog (sent ++ [event]) ∧ (pushEvent changed limit).Logged limit (sent ++ [event]) := by
  obtain ⟨event, last, number, status, kept⟩ := getLast?_pushEvent changed limit
  have next : event.sequence = sent.length + 1 := by
    rw [number, sequence, logged.sequence]
    exact saturatingAdd_of_le few
  refine ⟨event, last, ⟨?_, log.numbered.concat next, log.once.concat ?_ event⟩, ?_, ?_, ?_⟩
  · exact List.concat_ne_nil event sent
  · exact fun last at_ => (logged.last at_).trans running
  · rw [kept, events, logged.events]
    exact rtake_concat positive sent event
  · rw [List.length_append, List.length_singleton, ← next, number]
    rfl
  · rw [List.getLast?_concat, Option.map_some, status]
    rfl

/-- A new job has one event. -/
theorem StoredJob.Fresh.push (fresh : job.Fresh) (positive : 0 < limit) :
    ∃ event, (pushEvent job limit).events.getLast? = some event ∧ EventLog [event] ∧
      (pushEvent job limit).Logged limit [event] := by
  obtain ⟨event, last, number, status, kept⟩ := getLast?_pushEvent job limit
  have next : event.sequence = 1 := by
    rw [number, fresh.sequence]
    exact saturatingAdd_of_le (by decide)
  refine ⟨event, last, ⟨List.cons_ne_nil _ _, ?_, fun _ member => ?_⟩, ?_, ?_, ?_⟩
  · rw [Numbered, List.map_singleton, next]
    rfl
  · cases member
  · rw [kept, fresh.events]
    obtain ⟨rest, rfl⟩ := Nat.exists_eq_succ_of_ne_zero positive.ne'
    have whole := List.rtake_concat_succ (l := ([] : List JobEvent)) (n := rest) event
    rw [List.nil_append, List.rtake_nil] at whole
    rw [whole]
    rfl
  · exact number.symm.trans next
  · rw [List.getLast?_singleton, Option.map_some, status]
    rfl

/-! ## Steps -/

/-- What a step of the manager does to what was sent: nothing is sent after the terminal event. -/
def Extends (before after : List JobEvent) : Prop :=
  after = before ∨ ¬ Finished before ∧ ∃ event, after = before ++ [event]

/-- What holds of the channels and of the jobs which send into them. -/
structure JobFeed.Logs (limit : Nat) (feed : JobFeed) : Prop where
  held : ∀ (id : JobId) (job : StoredJob), feed.world.state.jobs.lookup id = some job →
    ∃ channel held, feed.senders.lookup id = some channel ∧
      feed.channels[channel]? = some held ∧ held.job = id ∧ job.Logged limit held.sent
  logs : ∀ (channel : Nat) (held : JobChannel), feed.channels[channel]? = some held →
    EventLog held.sent
  left : ∀ (channel : Nat) (held : JobChannel), feed.channels[channel]? = some held →
    feed.isOpen channel = false → Finished held.sent

variable {feed : JobFeed} {channel : Nat} {held : JobChannel} {action : Action} {next : World}

theorem JobFeed.isOpen_of_get (at_ : feed.channels[channel]? = some held) :
    feed.isOpen channel = true ↔
      held.job ∈ feed.world.state.jobs ∧ feed.senders.lookup held.job = some channel := by
  rw [JobFeed.isOpen, at_, Option.any_some, Bool.and_eq_true, decide_eq_true_iff,
    decide_eq_true_iff]

theorem JobFeed.sent_of_get (at_ : feed.channels[channel]? = some held) :
    feed.sent channel = held.sent := by
  rw [JobFeed.sent, at_]
  rfl

/-- The job which holds the sender of an open channel. -/
theorem JobFeed.Logs.sender (logs : feed.Logs limit)
    (at_ : feed.channels[channel]? = some held) (open_ : feed.isOpen channel = true) :
    ∃ job, feed.world.state.jobs.lookup held.job = some job ∧ job.Logged limit held.sent := by
  obtain ⟨member, sender⟩ := (JobFeed.isOpen_of_get at_).mp open_
  obtain ⟨job, found⟩ := Keyed.exists_of_mem member
  obtain ⟨other, channelHeld, same, present, -, logged⟩ := logs.held held.job job found
  rw [sender, Option.some.injEq] at same
  subst same
  rw [at_, Option.some.injEq] at present
  subst present
  exact ⟨job, found, logged⟩

theorem JobFeed.broadcast_job (feed : JobFeed) (manager : JobManager) (action : Action)
    (next : World) (channel : Nat) (held : JobChannel) :
    (feed.broadcast manager action next channel held).job = held.job := by
  unfold JobFeed.broadcast
  split_ifs <;> rfl

theorem JobFeed.broadcast_of_not_open (shut : feed.isOpen channel = false) :
    feed.broadcast manager action next channel held = held := by
  rw [JobFeed.broadcast, shut, Bool.false_and]
  rfl

theorem JobFeed.broadcast_of_quiet (quiet : manager.pushes feed.world action held.job = false) :
    feed.broadcast manager action next channel held = held := by
  rw [JobFeed.broadcast, quiet, Bool.and_false]
  rfl

/-- What a step of the manager does to an open channel: the job goes on with its log, or it has
ended and is gone. -/
theorem JobFeed.Logs.broadcast (logs : feed.Logs limit) (positive : 0 < limit)
    (few : held.sent.length < maxWord) (at_ : feed.channels[channel]? = some held)
    (open_ : feed.isOpen channel = true)
    (change : LogChange limit (manager.pushes feed.world action held.job)
      (decide (feed.world.enrolled next = some held.job))
      (feed.world.state.jobs.lookup held.job) (next.state.jobs.lookup held.job)) :
    EventLog (feed.broadcast manager action next channel held).sent ∧
      Extends held.sent (feed.broadcast manager action next channel held).sent ∧
      ((∃ job, next.state.jobs.lookup held.job = some job ∧
          feed.world.enrolled next ≠ some held.job ∧
          job.Logged limit (feed.broadcast manager action next channel held).sent) ∨
        Finished (feed.broadcast manager action next channel held).sent ∧
          (next.state.jobs.lookup held.job = none ∨
            feed.world.enrolled next = some held.job)) := by
  obtain ⟨job, found, logged⟩ := logs.sender at_ open_
  have log := logs.logs channel held at_
  rw [found] at change
  generalize nextJob : next.state.jobs.lookup held.job = after at change
  cases change with
  | keep quiet old same =>
      rw [JobFeed.broadcast_of_quiet quiet]
      exact ⟨log, .inl rfl, .inl ⟨_, rfl, of_decide_eq_false old, logged.same same⟩⟩
  | push pushes old running events sequence =>
      obtain ⟨event, last, extended, now⟩ :=
        logged.push log positive few running events sequence
      have told : JobFeed.lastEvent next held.job = [event] := by
        rw [JobFeed.lastEvent, nextJob, Option.bind_some, last]
        rfl
      have grown : (feed.broadcast manager action next channel held).sent =
          held.sent ++ [event] := by
        rw [JobFeed.broadcast, open_, pushes, told]
        rfl
      rw [grown]
      exact ⟨extended, .inr ⟨logged.not_finished running, event, rfl⟩,
        .inl ⟨_, rfl, of_decide_eq_false old, now⟩⟩
  | evict quiet old ended =>
      rw [JobFeed.broadcast_of_quiet quiet]
      exact ⟨log, .inl rfl, .inr ⟨logged.finished ended, .inl rfl⟩⟩
  | enrol quiet new ended fresh =>
      rw [JobFeed.broadcast_of_quiet quiet]
      exact ⟨log, .inl rfl,
        .inr ⟨logged.finished (ended job rfl), .inr (of_decide_eq_true new)⟩⟩

/-- A channel after a step of the manager is a channel from before or that of a new job. -/
theorem JobFeed.follow_channels :
    (feed.follow manager action next).channels[channel]? = some held ↔
      (∃ before, feed.channels[channel]? = some before ∧
        held = feed.broadcast manager action next channel before) ∨
      channel = feed.channels.length ∧ ∃ id, feed.world.enrolled next = some id ∧
        held = JobFeed.opened next id := by
  have split : (feed.follow manager action next).channels =
      feed.channels.mapIdx (feed.broadcast manager action next) ++
        (feed.world.enrolled next).toList.map (JobFeed.opened next) := rfl
  rw [split, List.getElem?_append, List.length_mapIdx]
  split_ifs with inside
  · rw [List.getElem?_mapIdx, Option.map_eq_some_iff]
    constructor
    · rintro ⟨before, at_, rfl⟩
      exact .inl ⟨before, at_, rfl⟩
    · rintro (⟨before, at_, rfl⟩ | ⟨rfl, -⟩)
      · exact ⟨before, at_, rfl⟩
      · exact absurd inside (Nat.lt_irrefl _)
  · have outside : feed.channels[channel]? = none := List.getElem?_eq_none (Nat.le_of_not_lt inside)
    rw [outside]
    cases feed.world.enrolled next with
    | none => simp
    | some id =>
        rw [Option.toList_some, List.map_singleton, List.getElem?_singleton]
        constructor
        · intro found
          split_ifs at found with first
          refine .inr ⟨by omega, id, rfl, (Option.some.inj found).symm⟩
        · rintro (⟨before, absent, -⟩ | ⟨rfl, other, same, rfl⟩)
          · cases absent
          · rw [if_pos (Nat.sub_self _), Option.some.inj same]

theorem JobFeed.follow_senders_ne {id : JobId} (old : feed.world.enrolled next ≠ some id) :
    (feed.follow manager action next).senders.lookup id = feed.senders.lookup id := by
  rw [JobFeed.follow]
  dsimp only
  split
  · rename_i other enrolled
    refine AList.lookup_insert_ne fun same => old ?_
    rw [enrolled, same]
  · rfl

theorem LogChange.fresh {pushed : Bool} {before after : Option StoredJob}
    (change : LogChange limit pushed true before after) :
    ∃ job : StoredJob, job.Fresh ∧ after = some (pushEvent job limit) := by
  cases change with
  | enrol quiet new ended fresh => exact ⟨_, fresh, rfl⟩
  | absent quiet old | keep quiet old | push quiet old | evict quiet old => cases old

/-- A new job has a channel with its first event. -/
theorem JobFeed.opened_of_change {id : JobId} {pushed : Bool} {before : Option StoredJob}
    (positive : 0 < limit)
    (change : LogChange limit pushed true before (next.state.jobs.lookup id)) :
    ∃ job, next.state.jobs.lookup id = some job ∧ EventLog (JobFeed.opened next id).sent ∧
      job.Logged limit (JobFeed.opened next id).sent := by
  obtain ⟨job, fresh, found⟩ := change.fresh
  obtain ⟨event, last, log, logged⟩ := fresh.push positive
  have told : (JobFeed.opened next id).sent = [event] := by
    rw [JobFeed.opened, JobFeed.lastEvent, found, Option.bind_some, last]
    rfl
  rw [told]
  exact ⟨_, found, log, logged⟩

/-- A step of the manager keeps the logs. -/
theorem JobFeed.Logs.follow (logs : feed.Logs limit) (positive : 0 < limit)
    (few : ∀ held ∈ feed.channels, held.sent.length < maxWord)
    (changes : ∀ id, LogChange limit (manager.pushes feed.world action id)
      (decide (feed.world.enrolled next = some id)) (feed.world.state.jobs.lookup id)
      (next.state.jobs.lookup id)) :
    (feed.follow manager action next).Logs limit := by
  have step : ∀ {channel : Nat} {held : JobChannel}, feed.channels[channel]? = some held →
      feed.isOpen channel = true → _ := fun {channel held} at_ open_ =>
    logs.broadcast positive (few _ (List.mem_of_getElem? at_)) at_ open_ (changes held.job)
  have news : ∀ {id : JobId}, feed.world.enrolled next = some id → _ := fun {id} enrolled =>
    JobFeed.opened_of_change positive (by
      have change := changes id
      rwa [decide_eq_true enrolled] at change)
  refine ⟨?_, ?_, ?_⟩
  · intro id job inTable
    have found : next.state.jobs.lookup id = some job := inTable
    by_cases enrolled : feed.world.enrolled next = some id
    · obtain ⟨other, present, -, logged⟩ := news enrolled
      rw [found, Option.some.injEq] at present
      subst present
      refine ⟨feed.channels.length, JobFeed.opened next id, ?_, ?_, rfl, logged⟩
      · rw [JobFeed.follow]
        dsimp only
        rw [enrolled]
        exact AList.lookup_insert _
      · exact JobFeed.follow_channels.mpr (.inr ⟨rfl, id, enrolled, rfl⟩)
    · have member : ∃ before, feed.world.state.jobs.lookup id = some before := by
        have change := changes id
        cases was : feed.world.state.jobs.lookup id with
        | some before => exact ⟨before, rfl⟩
        | none =>
            rw [was, found] at change
            cases change with
            | enrol quiet new => exact absurd (of_decide_eq_true new) enrolled
      obtain ⟨before, was⟩ := member
      obtain ⟨channel, held, sender, at_, rfl, -⟩ := logs.held id before was
      have open_ := (JobFeed.isOpen_of_get at_).mpr ⟨Keyed.mem_of_lookup was, sender⟩
      obtain ⟨-, -, ⟨other, present, -, logged⟩ | ⟨-, gone | new⟩⟩ := step at_ open_
      · rw [found, Option.some.injEq] at present
        subst present
        refine ⟨channel, _, ?_, JobFeed.follow_channels.mpr (.inl ⟨held, at_, rfl⟩),
          feed.broadcast_job _ _ _ _ _, logged⟩
        rw [JobFeed.follow_senders_ne enrolled]
        exact sender
      · rw [found] at gone
        cases gone
      · exact absurd new enrolled
  · intro channel held at_
    rcases JobFeed.follow_channels.mp at_ with ⟨before, was, rfl⟩ | ⟨rfl, id, enrolled, rfl⟩
    · by_cases open_ : feed.isOpen channel = true
      · exact (step was open_).1
      · rw [Bool.not_eq_true] at open_
        rw [JobFeed.broadcast_of_not_open open_]
        exact logs.logs channel before was
    · obtain ⟨-, -, log, -⟩ := news enrolled
      exact log
  · intro channel held at_ shut
    have closed : ¬ (held.job ∈ next.state.jobs ∧
        (feed.follow manager action next).senders.lookup held.job = some channel) := by
      intro both
      have open_ := (JobFeed.isOpen_of_get at_).mpr both
      rw [shut] at open_
      cases open_
    rcases JobFeed.follow_channels.mp at_ with ⟨before, was, rfl⟩ | ⟨rfl, id, enrolled, rfl⟩
    · by_cases open_ : feed.isOpen channel = true
      · obtain ⟨-, -, ⟨job, present, old, -⟩ | ⟨finished, -⟩⟩ := step was open_
        · refine absurd ⟨?_, ?_⟩ closed
          · rw [feed.broadcast_job]
            exact Keyed.mem_of_lookup present
          · rw [feed.broadcast_job, JobFeed.follow_senders_ne old]
            exact ((JobFeed.isOpen_of_get was).mp open_).2
        · exact finished
      · rw [Bool.not_eq_true] at open_
        rw [JobFeed.broadcast_of_not_open open_]
        exact logs.left channel before was open_
    · obtain ⟨job, present, -, -⟩ := news enrolled
      refine absurd ⟨Keyed.mem_of_lookup present, ?_⟩ closed
      rw [JobFeed.follow]
      dsimp only
      rw [enrolled]
      exact AList.lookup_insert _

end ImmichRs.Web
