import ImmichRs.Web.Deliveries

/-!
# Runs with subscriptions

However callers, workers and subscribers interleave, the events of a job are numbered without a gap,
every subscription gives them from its cursor on, and the leases are counted exactly.
-/

namespace ImmichRs.Web

open Collections Interaction

variable {manager : JobManager} {ring : Nat} {feed next : JobFeed} {action : FeedAction}

/-! ## Steps -/

/-- The subscription which `subscribe` makes for a job of the table. -/
structure JobManager.Subscribes (manager : JobManager) (feed : JobFeed) (id : JobId)
    (owner : Owner) (after : Option Nat) (next : JobFeed) : Prop where
  made : ∃ job replay, feed.world.state.jobs.lookup id = some job ∧ job.owner = owner ∧
    selectReplay job.events after = .ok replay ∧
    next = { feed with
      subscribers := saturatingAdd feed.subscribers 1
      subscribersByOwner := feed.subscribersByOwner.insert owner
        (saturatingAdd ((feed.subscribersByOwner.lookup owner).getD 0) 1)
      subscriptions := feed.subscriptions ++
        [{ owner
           channel := (feed.senders.lookup id).getD 0
           position := (feed.sent ((feed.senders.lookup id).getD 0)).length
           replay
           closeAfterReplay := job.status.terminal
           closed := false
           dropped := false
           after
           start := firstDue job.events after
           delivered := [] }] }
  session : (feed.subscribersByOwner.lookup owner).getD 0 < manager.limits.sseSubscribersPerSession
  process : feed.subscribers < manager.limits.sseSubscribersPerProcess

theorem JobManager.subscribes_of_ok {id : JobId} {owner : Owner} {after : Option Nat}
    (made : manager.subscribe feed id owner after = .ok next) :
    manager.Subscribes feed id owner after next := by
  unfold JobManager.subscribe at made
  split at made
  · cases made
  · rename_i job found
    obtain ⟨held, owns⟩ := Option.filter_eq_some_iff.mp found
    split at made
    · cases made
    · rename_i replay selected
      dsimp only at made
      split_ifs at made with session process
      refine ⟨⟨job, replay, held, eq_of_beq owns, selected, (Except.ok.inj made).symm⟩, ?_, ?_⟩
      · exact Nat.lt_of_not_le session
      · exact Nat.lt_of_not_le process

/-- What a step of the system can do. -/
inductive JobManager.FeedSteps (manager : JobManager) (ring : Nat) (feed : JobFeed) :
    FeedAction → JobFeed → Prop
  | act {action : Action} {world : World} (taken : manager.act feed.world action = some world) :
      manager.FeedSteps ring feed (.act action) (feed.follow manager action world)
  | subscribe {id : JobId} {owner : Owner} {after : Option Nat} {next : JobFeed}
      (subscribes : manager.Subscribes feed id owner after next) :
      manager.FeedSteps ring feed (.subscribe id owner after) next
  | refuse {id : JobId} {owner : Owner} {after : Option Nat} :
      manager.FeedSteps ring feed (.subscribe id owner after) feed
  | next {position : Nat} {timedOut : Bool} {subscription after : JobSubscription}
      {delivery : Option SubscriptionDelivery}
      (at_ : feed.subscriptions[position]? = some subscription)
      (live : subscription.dropped = false)
      (gives : subscription.Gives ring (feed.sent subscription.channel)
        (feed.isOpen subscription.channel) delivery after) :
      manager.FeedSteps ring feed (.next position timedOut)
        { feed with subscriptions := feed.subscriptions.set position (after.giving delivery) }
  | drop {position : Nat} {subscription : JobSubscription}
      (at_ : feed.subscriptions[position]? = some subscription)
      (live : subscription.dropped = false) :
      manager.FeedSteps ring feed (.drop position)
        { feed with
          subscribers := feed.subscribers - 1
          subscribersByOwner := withdraw feed.subscribersByOwner subscription.owner
          subscriptions := feed.subscriptions.set position { subscription with dropped := true } }

theorem JobManager.feedSteps_of_feedStep (taken : manager.feedStep ring feed action = some next) :
    manager.FeedSteps ring feed action next := by
  cases action with
  | act action =>
      obtain ⟨world, moved, rfl⟩ := Option.map_eq_some_iff.mp taken
      exact .act moved
  | subscribe id owner after =>
      simp only [JobManager.feedStep] at taken
      split at taken
      · rename_i made
        obtain rfl := Option.some.inj taken
        exact .subscribe (JobManager.subscribes_of_ok made)
      · obtain rfl := Option.some.inj taken
        exact .refuse
  | next position timedOut =>
      simp only [JobManager.feedStep, JobManager.deliver] at taken
      split at taken
      · cases taken
      · rename_i subscription at_
        split_ifs at taken with dropped
        rw [Bool.not_eq_true] at dropped
        obtain ⟨⟨delivery, after⟩, given, rfl⟩ := Option.map_eq_some_iff.mp taken
        exact .next at_ dropped (JobSubscription.gives_of_next given)
  | drop position =>
      simp only [JobManager.feedStep, JobManager.dropLease] at taken
      split at taken
      · cases taken
      · rename_i subscription at_
        split_ifs at taken with dropped
        rw [Bool.not_eq_true] at dropped
        obtain rfl := Option.some.inj taken
        exact .drop at_ dropped

/-! ## The invariant -/

/-- What holds in every state of the system. -/
structure JobManager.Tracked (manager : JobManager) (ring : Nat) (feed : JobFeed) : Prop where
  invariant : manager.Invariant feed.world
  logs : feed.Logs manager.limits.sseReplayEvents
  following : ∀ subscription ∈ feed.subscriptions, ∃ held,
    feed.channels[subscription.channel]? = some held ∧ subscription.Following ring held.sent

theorem JobManager.tracked_initial (manager : JobManager) (ring : Nat) :
    manager.Tracked ring .initial where
  invariant := manager.invariant_initial
  logs := ⟨by simp [JobFeed.initial, World.initial, JobsState.empty], by simp [JobFeed.initial],
    by simp [JobFeed.initial]⟩
  following := by simp [JobFeed.initial]

/-- A new subscription follows the channel of its job. -/
theorem JobManager.Subscribes.following {id : JobId} {owner : Owner} {after : Option Nat}
    (subscribes : manager.Subscribes feed id owner after next)
    (logs : feed.Logs manager.limits.sseReplayEvents)
    (positive : 0 < manager.limits.sseReplayEvents)
    (few : ∀ held ∈ feed.channels, held.sent.length < maxWord) :
    ∃ subscription held, next.subscriptions = feed.subscriptions ++ [subscription] ∧
      feed.channels[subscription.channel]? = some held ∧
      subscription.Following ring held.sent := by
  obtain ⟨job, replay, found, -, selected, rfl⟩ := subscribes.made
  obtain ⟨channel, held, sender, at_, -, logged⟩ := logs.held id job found
  have log := logs.logs channel held at_
  obtain ⟨first, begun, rest, due⟩ := logged.selected log positive
    (few held (List.mem_of_getElem? at_)) selected
  have tracks : Follower held.sent (firstDue job.events after - 1) [] replay held.sent.length := by
    rw [rest, due, Nat.add_sub_cancel]
    exact follower_start begun
  rw [sender, Option.getD_some, JobFeed.sent_of_get at_]
  refine ⟨_, held, rfl, at_, tracks, ?_, ?_, ?_, ?_, ?_⟩
  · show 0 < firstDue job.events after
    omega
  · intro cursor asked
    obtain rfl : after = some cursor := asked
    rfl
  · exact fun ended => ⟨logged.finished ended, rfl⟩
  · exact fun _ => ⟨List.not_mem_nil, fun _ member => by cases member⟩
  · exact fun closed => by cases closed

/-- A step of the manager keeps the place of every subscription. -/
theorem JobManager.Tracked.act (tracked : manager.Tracked ring feed)
    (bounds : manager.limits.BoundsJobs)
    (few : ∀ held ∈ feed.channels, held.sent.length < maxWord) {action : Action} {world : World}
    (taken : manager.act feed.world action = some world) :
    manager.Tracked ring (feed.follow manager action world) := by
  have changes := JobManager.logChange tracked.invariant bounds taken
  refine ⟨tracked.invariant.step bounds (JobManager.steps_of_act taken),
    tracked.logs.follow bounds.replay few changes, ?_⟩
  intro subscription member
  obtain ⟨held, at_, following⟩ := tracked.following subscription member
  refine ⟨_, JobFeed.follow_channels.mpr (.inl ⟨held, at_, rfl⟩), ?_⟩
  by_cases open_ : feed.isOpen subscription.channel = true
  · obtain ⟨-, extended, -⟩ := tracked.logs.broadcast bounds.replay
      (few held (List.mem_of_getElem? at_)) at_ open_ (changes held.job)
    exact following.extend extended
  · rw [Bool.not_eq_true] at open_
    rw [JobFeed.broadcast_of_not_open open_]
    exact following

/-- The channels do not depend on the subscriptions and their counts. -/
theorem JobManager.Tracked.resubscribe (tracked : manager.Tracked ring feed) {subscribers : Nat}
    {owners : Keyed Owner Nat} {subscriptions : List JobSubscription}
    (following : ∀ subscription ∈ subscriptions, ∃ held,
      feed.channels[subscription.channel]? = some held ∧
        subscription.Following ring held.sent) :
    manager.Tracked ring
      { feed with subscribers, subscribersByOwner := owners, subscriptions } :=
  ⟨tracked.invariant, ⟨tracked.logs.held, tracked.logs.logs, tracked.logs.left⟩, following⟩

theorem JobManager.Tracked.step (tracked : manager.Tracked ring feed)
    (bounds : manager.limits.BoundsJobs)
    (few : ∀ held ∈ feed.channels, held.sent.length < maxWord)
    (steps : manager.FeedSteps ring feed action next) : manager.Tracked ring next := by
  cases steps with
  | act taken => exact tracked.act bounds few taken
  | refuse => exact tracked
  | subscribe subscribes =>
      obtain ⟨subscription, held, subscriptions, at_, following⟩ :=
        subscribes.following tracked.logs bounds.replay few
      obtain ⟨job, replay, -, -, -, rfl⟩ := subscribes.made
      dsimp only at subscriptions
      apply tracked.resubscribe
      intro other member
      rw [subscriptions] at member
      rcases List.mem_append.mp member with before | new
      · exact tracked.following other before
      · rw [List.mem_singleton.mp new]
        exact ⟨held, at_, following⟩
  | next at_ live gives =>
      apply tracked.resubscribe
      intro other member
      rcases List.mem_or_eq_of_mem_set member with before | rfl
      · exact tracked.following other before
      · obtain ⟨held, channel, following⟩ := tracked.following _ (List.mem_of_getElem? at_)
        rw [JobFeed.sent_of_get channel] at gives
        refine ⟨held, ?_, following.give (tracked.logs.logs _ _ channel)
          (tracked.logs.left _ _ channel) gives⟩
        exact gives.same.1 ▸ channel
  | drop at_ live =>
      apply tracked.resubscribe
      intro other member
      rcases List.mem_or_eq_of_mem_set member with before | rfl
      · exact tracked.following other before
      · obtain ⟨held, channel, following⟩ := tracked.following _ (List.mem_of_getElem? at_)
        exact ⟨held, channel, ⟨following.follower, following.begun, following.cursor,
          following.waiting, following.open_, following.ended⟩⟩

/-! ## Leases -/

/-- The owners of the leases which are held. -/
def leaseholders (subscriptions : List JobSubscription) : List Owner :=
  (subscriptions.filter fun subscription => !subscription.dropped).map JobSubscription.owner

theorem leaseholders_append (first second : List JobSubscription) :
    leaseholders (first ++ second) = leaseholders first ++ leaseholders second := by
  rw [leaseholders, List.filter_append, List.map_append]
  rfl

theorem leaseholders_singleton (subscription : JobSubscription) :
    leaseholders [subscription] =
      if subscription.dropped then [] else [subscription.owner] := by
  cases held : subscription.dropped <;> simp [leaseholders, held]

/-- Replacing a subscription. -/
theorem leaseholders_set {subscriptions : List JobSubscription} {position : Nat}
    {subscription : JobSubscription} (at_ : subscriptions[position]? = some subscription) :
    ∃ others : List Owner,
      (leaseholders subscriptions).Perm (leaseholders [subscription] ++ others) ∧
        ∀ after, (leaseholders (subscriptions.set position after)).Perm
          (leaseholders [after] ++ others) := by
  obtain ⟨inside, here⟩ := List.getElem?_eq_some_iff.mp at_
  have replaced : ∀ after, (leaseholders (subscriptions.set position after)).Perm
      (leaseholders [after] ++ (leaseholders (subscriptions.take position) ++
        leaseholders (subscriptions.drop (position + 1)))) := by
    intro after
    rw [List.set_eq_take_cons_drop after inside, leaseholders_append, ← List.singleton_append,
      leaseholders_append]
    exact List.perm_append_comm_assoc _ _ _
  refine ⟨_, ?_, replaced⟩
  have same := replaced subscription
  rwa [← here, List.set_getElem_self, here] at same

/-- The leases are counted, and there are not too many. -/
structure JobFeed.Leased (limits : WebLimits) (feed : JobFeed) : Prop where
  total : feed.subscribers = (leaseholders feed.subscriptions).length
  tallies : Tallies feed.subscribersByOwner (leaseholders feed.subscriptions)
  process : (leaseholders feed.subscriptions).length ≤ limits.sseSubscribersPerProcess
  session : ∀ owner,
    (leaseholders feed.subscriptions).count owner ≤ limits.sseSubscribersPerSession

theorem JobFeed.leased_initial (limits : WebLimits) : JobFeed.initial.Leased limits :=
  ⟨rfl, tallies_nil, Nat.zero_le _, fun _ => Nat.zero_le _⟩

/-- The bounds on subscribers. -/
theorem WebLimits.Accepted.boundsSubscribers {limits : WebLimits} (accepted : limits.Accepted) :
    limits.sseSubscribersPerSession ≤ 32 ∧ limits.sseSubscribersPerProcess ≤ 32 := by
  obtain ⟨-, jobs, -, -⟩ := WebLimits.accepted_iff.mp accepted
  simp only [WebLimits.jobsValid, Bool.and_eq_true, between_eq_true, decide_eq_true_eq] at jobs
  omega

theorem JobFeed.Leased.perm {limits : WebLimits} (leased : feed.Leased limits)
    (same : (leaseholders next.subscriptions).Perm (leaseholders feed.subscriptions))
    (total : next.subscribers = feed.subscribers)
    (owners : next.subscribersByOwner = feed.subscribersByOwner) : next.Leased limits := by
  refine ⟨?_, ?_, ?_, fun owner => ?_⟩
  · rw [total, leased.total, same.length_eq]
  · rw [owners]
    exact leased.tallies.perm same.symm
  · rw [same.length_eq]
    exact leased.process
  · rw [same.count_eq]
    exact leased.session owner

theorem JobFeed.Leased.step (leased : feed.Leased manager.limits)
    (accepted : manager.limits.Accepted) (steps : manager.FeedSteps ring feed action next) :
    next.Leased manager.limits := by
  obtain ⟨perSession, perProcess⟩ := accepted.boundsSubscribers
  have large : 32 < maxWord := by decide
  cases steps with
  | act | refuse => exact ⟨leased.total, leased.tallies, leased.process, leased.session⟩
  | @subscribe id owner after next subscribes =>
      have session := subscribes.session
      have process := subscribes.process
      obtain ⟨job, replay, -, -, -, rfl⟩ := subscribes.made
      rw [leased.tallies.getD] at session
      rw [leased.total] at process
      have more := leased.tallies.insert owner
      have swapped : (owner :: leaseholders feed.subscriptions).Perm
          (leaseholders feed.subscriptions ++ [owner]) :=
        (List.perm_append_singleton owner _).symm
      rw [leased.tallies.getD] at more
      refine ⟨?_, ?_, ?_, ?_⟩ <;> dsimp only <;>
        rw [leaseholders_append, leaseholders_singleton, if_neg Bool.false_ne_true]
      · rw [leased.total, saturatingAdd_of_le (by omega), List.length_append,
          List.length_singleton]
      · rw [leased.tallies.getD, saturatingAdd_of_le (by omega)]
        exact more.perm swapped
      · rw [List.length_append, List.length_singleton]
        exact process
      · intro other
        have others := leased.session other
        rw [List.count_append, List.count_singleton]
        split_ifs with same
        · rw [← eq_of_beq same]
          exact session
        · exact others
  | @next position timedOut subscription after delivery at_ live gives =>
      obtain ⟨-, owner, dropped, -⟩ := gives.same
      obtain ⟨others, before, replaced⟩ := leaseholders_set at_
      have same : leaseholders [after.giving delivery] = leaseholders [subscription] := by
        rw [leaseholders_singleton, leaseholders_singleton]
        show (if after.dropped then [] else [after.owner]) = _
        rw [owner, dropped]
      have now := replaced (after.giving delivery)
      rw [same] at now
      exact leased.perm (now.trans before.symm) rfl rfl
  | @drop position subscription at_ live =>
      obtain ⟨others, before, replaced⟩ := leaseholders_set at_
      have now := replaced { subscription with dropped := true }
      rw [leaseholders_singleton, live, if_neg Bool.false_ne_true, List.singleton_append] at before
      rw [leaseholders_singleton, if_pos rfl, List.nil_append] at now
      have tallies := (leased.tallies.perm before).withdraw
      have fewer := before.length_eq
      rw [List.length_cons] at fewer
      refine ⟨?_, tallies.perm now.symm, ?_, fun other => ?_⟩
      · rw [now.length_eq, leased.total, fewer]
        rfl
      · rw [now.length_eq]
        have process := leased.process
        omega
      · rw [now.count_eq]
        have session := leased.session other
        rw [before.count_eq, List.count_cons] at session
        omega

/-! ## Runs -/

/-- Every step sends at most one event through each channel. -/
theorem JobManager.FeedSteps.short {count : Nat} (steps : manager.FeedSteps ring feed action next)
    (short : ∀ held ∈ feed.channels, held.sent.length ≤ count) :
    ∀ held ∈ next.channels, held.sent.length ≤ count + 1 := by
  have one : ∀ (world : World) (job : JobId), (JobFeed.lastEvent world job).length ≤ 1 := by
    intro world job
    rw [JobFeed.lastEvent, Option.length_toList]
    split_ifs <;> omega
  cases steps with
  | @act action world taken =>
      intro held member
      obtain ⟨channel, at_⟩ := List.mem_iff_getElem?.mp member
      rcases JobFeed.follow_channels.mp at_ with ⟨before, was, rfl⟩ | ⟨-, id, -, rfl⟩
      · have bound := short before (List.mem_of_getElem? was)
        have added := one world before.job
        unfold JobFeed.broadcast
        split_ifs
        · rw [List.length_append]
          omega
        · omega
      · exact (one world id).trans (Nat.succ_le_succ (Nat.zero_le _))
  | refuse | next | drop => exact fun held member => (short held member).trans (Nat.le_succ _)
  | subscribe subscribes =>
      obtain ⟨job, replay, -, -, -, rfl⟩ := subscribes.made
      exact fun held member => (short held member).trans (Nat.le_succ _)

theorem JobManager.FeedsTo.short {actions : List FeedAction}
    (run : manager.FeedsTo ring actions feed) :
    ∀ held ∈ feed.channels, held.sent.length ≤ actions.length := by
  induction run with
  | nil => exact fun held member => by cases member
  | step run taken induction =>
      rw [List.length_append, List.length_singleton]
      exact (JobManager.feedSteps_of_feedStep taken).short induction

/-- After fewer steps than numbers, no channel is out of numbers. -/
theorem JobManager.FeedsTo.unexhausted {actions : List FeedAction}
    (run : manager.FeedsTo ring actions feed) (few : actions.length < maxWord) :
    ∀ held ∈ feed.channels, held.sent.length < maxWord :=
  fun held member => (run.short held member).trans_lt few

theorem JobManager.FeedsTo.tracked {actions : List FeedAction}
    (run : manager.FeedsTo ring actions feed) (accepted : manager.limits.Accepted)
    (few : actions.length ≤ maxWord) : manager.Tracked ring feed := by
  induction run with
  | nil => exact manager.tracked_initial ring
  | step run taken induction =>
      rw [List.length_append, List.length_singleton] at few
      apply (induction (Nat.le_of_succ_le few)).step accepted.boundsJobs (run.unexhausted few)
      exact JobManager.feedSteps_of_feedStep taken

theorem JobManager.FeedsTo.leased {actions : List FeedAction}
    (run : manager.FeedsTo ring actions feed) (accepted : manager.limits.Accepted) :
    feed.Leased manager.limits := by
  induction run with
  | nil => exact JobFeed.leased_initial _
  | step run taken induction =>
      exact induction.step accepted (JobManager.feedSteps_of_feedStep taken)

/-! ## Catching up -/

/-- A subscription follows the channel which it names. -/
theorem JobManager.Tracked.follows (tracked : manager.Tracked ring feed) {position : Nat}
    {subscription : JobSubscription} {held : JobChannel}
    (at_ : feed.subscriptions[position]? = some subscription)
    (channel : feed.channels[subscription.channel]? = some held) :
    subscription.Following ring held.sent := by
  obtain ⟨other, same, following⟩ := tracked.following _ (List.mem_of_getElem? at_)
  rw [channel, Option.some.injEq] at same
  exact same ▸ following

/-- A subscription which owes events is asked for the next one. -/
theorem JobManager.Tracked.advance (tracked : manager.Tracked ring feed)
    {position owed : Nat} {subscription : JobSubscription} {held : JobChannel}
    (at_ : feed.subscriptions[position]? = some subscription)
    (live : subscription.dropped = false) (closed : subscription.closed = false)
    (channel : feed.channels[subscription.channel]? = some held)
    (near : held.sent.length - subscription.position ≤ ring)
    (owes : subscription.owed held.sent = owed + 1) :
    ∃ after, manager.feedStep ring feed (.next position false) =
        some { feed with subscriptions := feed.subscriptions.set position after } ∧
      after.dropped = false ∧ after.channel = subscription.channel ∧
      after.start = subscription.start ∧ after.owed held.sent = owed ∧
      held.sent.length - after.position ≤ ring ∧ (after.closed = true → owed = 0) := by
  have following := tracked.follows at_ channel
  have log := tracked.logs.logs _ held channel
  obtain ⟨delivery, after, given, less, nearer, last⟩ := following.pays log closed near
    (owes ▸ Nat.succ_pos owed) (feed.isOpen subscription.channel)
  obtain ⟨channels, -, drops, starts⟩ := (JobSubscription.gives_of_next given).same
  have count : after.owed held.sent = owed := by omega
  refine ⟨after.giving delivery, ?_, drops.trans live, channels, starts, count, nearer, ?_⟩
  · rw [JobManager.feedStep, JobManager.deliver, at_]
    dsimp only
    rw [live, if_neg Bool.false_ne_true, JobFeed.sent_of_get channel, given]
    rfl
  · exact fun ends => count.symm.trans (last ends)

/-- Asking a subscription as often as it owes events. -/
theorem JobManager.Tracked.drains (tracked : manager.Tracked ring feed)
    (bounds : manager.limits.BoundsJobs)
    (few : ∀ held ∈ feed.channels, held.sent.length < maxWord) {position owed : Nat}
    {subscription : JobSubscription} {held : JobChannel}
    (at_ : feed.subscriptions[position]? = some subscription)
    (live : subscription.dropped = false)
    (channel : feed.channels[subscription.channel]? = some held)
    (near : held.sent.length - subscription.position ≤ ring)
    (owes : subscription.owed held.sent = owed)
    (closed : subscription.closed = true → owed = 0) :
    ∃ next after, manager.feedRun ring feed (List.replicate owed (.next position false)) =
        some next ∧
      next.subscriptions[position]? = some after ∧
      after.events = held.sent.drop (subscription.start - 1) := by
  induction owed generalizing feed subscription with
  | zero =>
      have following := tracked.follows at_ channel
      have bounded := following.follower.bounded
      unfold JobSubscription.owed at owes
      refine ⟨feed, subscription, rfl, at_, following.complete ?_ (by omega)⟩
      exact List.eq_nil_of_length_eq_zero (by omega)
  | succ owed induction =>
      have running : subscription.closed = false := by
        rw [← Bool.not_eq_true]
        exact fun ended => Nat.succ_ne_zero _ (closed ended)
      obtain ⟨after, taken, lives, channels, starts, remaining, nearer, ended⟩ :=
        tracked.advance at_ live running channel near owes
      have inside := (List.getElem?_eq_some_iff.mp at_).1
      obtain ⟨next, last, ran, there, all⟩ := induction
        (tracked.step bounds few (JobManager.feedSteps_of_feedStep taken)) few
        (List.getElem?_set_self inside) lives (channels ▸ channel) nearer remaining ended
      refine ⟨next, last, ?_, there, starts ▸ all⟩
      rw [JobManager.feedRun, List.replicate_succ, List.foldlM_cons, taken]
      exact ran

/-! ## Results -/

/-- The events of a job are sent one by one with the numbers 1, 2, 3 and so on, and none after a
terminal one; the job keeps the last of them, shows the status which the last one tells, and leaves
the table only after its terminal event. -/
theorem JobManager.events_in_order {actions : List FeedAction}
    (accepted : manager.limits.Accepted) (run : manager.FeedsTo ring actions feed)
    (few : actions.length ≤ maxWord) :
    (∀ channel ∈ feed.channels,
      channel.sent.map JobEvent.sequence = List.range' 1 channel.sent.length ∧
        ∀ event ∈ channel.sent.dropLast, event.status.terminal = false) ∧
      (∀ id job, feed.world.state.jobs.lookup id = some job →
        ∃ channel ∈ feed.channels, channel.job = id ∧
          job.events = channel.sent.rtake manager.limits.sseReplayEvents ∧
          channel.sent.getLast?.map JobEvent.status = some job.status) ∧
      ∀ position channel, feed.channels[position]? = some channel →
        feed.isOpen position = false →
          ∃ last, channel.sent.getLast? = some last ∧ last.status.terminal = true := by
  have tracked := run.tracked accepted few
  refine ⟨?_, ?_, tracked.logs.left⟩
  · intro channel member
    obtain ⟨position, at_⟩ := List.mem_iff_getElem?.mp member
    have log := tracked.logs.logs position channel at_
    exact ⟨log.numbered, log.once⟩
  · intro id job found
    obtain ⟨position, channel, -, at_, same, logged⟩ := tracked.logs.held id job found
    exact ⟨channel, List.mem_of_getElem? at_, same, logged.events, logged.status⟩

/-- A job is followed until it is cancelled, and its last event is asked for again. -/
def sampleFeed : List FeedAction :=
  [.act (.admitJob 0#256 "library" (some "first") true), .subscribe "first" 0#256 none,
    .next 0 false, .act (.cancel "first" 0#256), .next 0 false, .drop 0,
    .subscribe "first" 0#256 (some 1), .next 1 false]

theorem sampleManager_accepted : (sampleManager .default).limits.Accepted :=
  WebLimits.default_accepted

theorem sampleFeed_events :
    ∃ feed, (sampleManager .default).FeedsTo 64 sampleFeed feed ∧
      (feed.channels.map fun channel => channel.sent.map JobEvent.status) =
        [[.queued, .cancelled]] ∧
      ∀ channel ∈ feed.channels,
        channel.sent.map JobEvent.sequence = List.range' 1 channel.sent.length := by
  have runs : ∃ feed, (sampleManager .default).feedRun 64 .initial sampleFeed = some feed ∧
      (feed.channels.map fun channel => channel.sent.map JobEvent.status) =
        [[.queued, .cancelled]] := ⟨_, rfl, rfl⟩
  obtain ⟨feed, taken, statuses⟩ := runs
  have run := JobManager.feedsTo_of_run taken
  have ordered := JobManager.events_in_order sampleManager_accepted run (by decide)
  exact ⟨feed, run, statuses, fun channel member => (ordered.1 channel member).1⟩

/-- Every subscription has given exactly the events of its job from its cursor on, one after the
other; once it is closed it has given all of them, the terminal one included, unless its last
delivery told that it fell too far behind. -/
theorem JobManager.subscriptions_in_order {actions : List FeedAction}
    (accepted : manager.limits.Accepted) (run : manager.FeedsTo ring actions feed)
    (few : actions.length ≤ maxWord) :
    ∀ subscription ∈ feed.subscriptions, ∃ channel,
      feed.channels[subscription.channel]? = some channel ∧
      0 < subscription.start ∧
      (∀ after, subscription.after = some after → subscription.start = after + 1) ∧
      subscription.events <+: channel.sent.drop (subscription.start - 1) ∧
      subscription.events.map JobEvent.sequence =
        List.range' subscription.start subscription.events.length ∧
      (subscription.closed = false → .replayExhausted ∉ subscription.delivered ∧
        ∀ event ∈ subscription.events, event.status.terminal = false) ∧
      (subscription.closed = true →
        (∃ earlier, subscription.delivered = earlier ++ [.replayExhausted] ∧
          .replayExhausted ∉ earlier ∧
          ring < (channel.sent.drop (subscription.start - 1)).length - subscription.events.length) ∨
        .replayExhausted ∉ subscription.delivered ∧
          subscription.events = channel.sent.drop (subscription.start - 1) ∧
          ∃ last, channel.sent.getLast? = some last ∧ last.status.terminal = true) := by
  have tracked := run.tracked accepted few
  intro subscription member
  obtain ⟨channel, at_, following⟩ := tracked.following subscription member
  have log := tracked.logs.logs _ channel at_
  have inside := following.follower.isPrefix
  have numbers := log.numbered.map_of_prefix inside
  rw [Nat.sub_add_cancel following.begun] at numbers
  refine ⟨channel, at_, following.begun, following.cursor, inside, numbers, following.open_,
    fun closed => ?_⟩
  rcases following.ended closed with ⟨earlier, all, before, behind⟩ | complete
  · refine .inl ⟨earlier, all, before, ?_⟩
    have given := congrArg List.length following.follower.joined
    have bounded := following.follower.bounded
    have begun := following.follower.begun
    rw [List.length_append, List.length_drop, List.length_take] at given
    rw [List.length_drop]
    omega
  · exact .inr complete

/-- The first subscription gives both events, and the second the one after its cursor. -/
theorem sampleFeed_subscriptions :
    ∃ feed, (sampleManager .default).FeedsTo 64 sampleFeed feed ∧
      feed.subscriptions.map JobSubscription.start = [1, 2] ∧
      ∀ subscription ∈ feed.subscriptions, ∃ channel,
        feed.channels[subscription.channel]? = some channel ∧
          subscription.events = channel.sent.drop (subscription.start - 1) := by
  have runs : ∃ feed, (sampleManager .default).feedRun 64 .initial sampleFeed = some feed ∧
      feed.subscriptions.map JobSubscription.start = [1, 2] ∧
      ∀ subscription ∈ feed.subscriptions, subscription.closed = true ∧
        .replayExhausted ∉ subscription.delivered := ⟨_, rfl, rfl, by decide⟩
  obtain ⟨feed, taken, starts, ended⟩ := runs
  have run := JobManager.feedsTo_of_run taken
  refine ⟨feed, run, starts, fun subscription member => ?_⟩
  obtain ⟨channel, at_, -, -, -, -, -, complete⟩ :=
    JobManager.subscriptions_in_order sampleManager_accepted run (by decide) subscription member
  obtain ⟨closed, kept⟩ := ended subscription member
  rcases complete closed with ⟨earlier, given, -⟩ | ⟨-, all, -⟩
  · exact absurd (given ▸ List.mem_append_right _ (List.mem_singleton_self _)) kept
  · exact ⟨channel, at_, all⟩

/-- A subscription which is open, and whose receiver is not too far behind, has given every event
of its job from its cursor on once it is asked as often as events are missing. -/
theorem JobManager.subscription_drains {actions : List FeedAction}
    (accepted : manager.limits.Accepted) (run : manager.FeedsTo ring actions feed)
    (few : actions.length < maxWord) {position : Nat} {subscription : JobSubscription}
    {channel : JobChannel} (at_ : feed.subscriptions[position]? = some subscription)
    (live : subscription.dropped = false) (open_ : subscription.closed = false)
    (follows : feed.channels[subscription.channel]? = some channel)
    (near : channel.sent.length ≤ subscription.position + ring) :
    ∃ next after, manager.feedRun ring feed
        (List.replicate (channel.sent.length - (subscription.start - 1) -
          subscription.events.length) (.next position false)) = some next ∧
      next.subscriptions[position]? = some after ∧
      after.events = channel.sent.drop (subscription.start - 1) := by
  have tracked := run.tracked accepted few.le
  have following := tracked.follows at_ follows
  have short := run.unexhausted few
  refine tracked.drains accepted.boundsJobs short at_ live follows (by omega) ?_ fun ended => ?_
  · have given := congrArg List.length following.follower.joined
    have bounded := following.follower.bounded
    have begun := following.follower.begun
    rw [List.length_append, List.length_drop, List.length_take] at given
    unfold JobSubscription.owed
    omega
  · rw [open_] at ended
    cases ended

/-- A subscription which was not asked before its job ended. -/
def sampleBacklog : List FeedAction :=
  [.act (.admitJob 0#256 "library" (some "first") true), .subscribe "first" 0#256 none,
    .act (.cancel "first" 0#256)]

theorem sampleBacklog_drains :
    ∃ feed next after, (sampleManager .default).FeedsTo 64 sampleBacklog feed ∧
      (sampleManager .default).feedRun 64 feed (List.replicate 2 (.next 0 false)) = some next ∧
      next.subscriptions[0]? = some after ∧ after.events.map JobEvent.sequence = [1, 2] := by
  have runs : ∃ feed subscription channel,
      (sampleManager .default).feedRun 64 .initial sampleBacklog = some feed ∧
      feed.subscriptions[0]? = some subscription ∧
      feed.channels[subscription.channel]? = some channel ∧
      (subscription.dropped = false ∧ subscription.closed = false) ∧
      (subscription.position = 1 ∧ subscription.start = 1 ∧ subscription.events = []) ∧
      channel.sent.length = 2 ∧ channel.sent.map JobEvent.sequence = [1, 2] :=
    ⟨_, _, _, rfl, rfl, rfl, ⟨rfl, rfl⟩, ⟨rfl, rfl, rfl⟩, rfl, rfl⟩
  obtain ⟨feed, subscription, channel, taken, at_, follows, ⟨live, open_⟩, ⟨place, start, none_⟩,
    two, sequences⟩ := runs
  have run := JobManager.feedsTo_of_run taken
  obtain ⟨next, after, ran, there, all⟩ := JobManager.subscription_drains sampleManager_accepted
    run (by decide) at_ live open_ follows (by omega)
  rw [two, start, none_] at ran
  rw [start] at all
  exact ⟨feed, next, after, run, ran, there, by rw [all]; exact sequences⟩
/-- A subscription waits exactly when it is open, it has given every event which was sent, its job
had not ended when it was made, and the job is still in the table. -/
theorem JobManager.subscription_waits {actions : List FeedAction}
    (accepted : manager.limits.Accepted) (run : manager.FeedsTo ring actions feed)
    (few : actions.length ≤ maxWord) {position : Nat} {subscription : JobSubscription}
    {channel : JobChannel} (at_ : feed.subscriptions[position]? = some subscription)
    (live : subscription.dropped = false)
    (follows : feed.channels[subscription.channel]? = some channel) :
    manager.feedStep ring feed (.next position false) = none ↔
      subscription.closed = false ∧
        subscription.events = channel.sent.drop (subscription.start - 1) ∧
        subscription.closeAfterReplay = false ∧ feed.isOpen subscription.channel = true := by
  have tracked := run.tracked accepted few
  have following := tracked.follows at_ follows
  have bounded := following.follower.bounded
  rw [JobManager.feedStep, JobManager.deliver, at_]
  dsimp only
  rw [live, if_neg Bool.false_ne_true, Option.map_eq_none_iff, JobSubscription.next_eq_none,
    JobFeed.sent_of_get follows, following.complete_iff]
  constructor
  · rintro ⟨closed, goesOn, replayed, received, open_⟩
    exact ⟨closed, ⟨replayed, Nat.le_antisymm bounded received⟩, goesOn, open_⟩
  · rintro ⟨closed, ⟨replayed, received⟩, goesOn, open_⟩
    exact ⟨closed, goesOn, replayed, received.ge, open_⟩

/-- A subscription waits once it has told that its job is queued. -/
theorem sampleWait_waits :
    ∃ feed subscription, (sampleManager .default).FeedsTo 64
        [.act (.admitJob 0#256 "library" (some "first") true), .subscribe "first" 0#256 none,
          .next 0 false] feed ∧
      (sampleManager .default).feedStep 64 feed (.next 0 false) = none ∧
      feed.subscriptions = [subscription] ∧
      subscription.events.map JobEvent.status = [.queued] := by
  have runs : ∃ feed subscription channel, (sampleManager .default).feedRun 64 .initial
        [.act (.admitJob 0#256 "library" (some "first") true), .subscribe "first" 0#256 none,
          .next 0 false] = some feed ∧
      feed.subscriptions = [subscription] ∧
      feed.channels[subscription.channel]? = some channel ∧
      (subscription.dropped = false ∧ subscription.closed = false ∧
        subscription.closeAfterReplay = false) ∧
      subscription.events = channel.sent.drop (subscription.start - 1) ∧
      feed.isOpen subscription.channel = true ∧
      subscription.events.map JobEvent.status = [.queued] :=
    ⟨_, _, _, rfl, rfl, rfl, ⟨rfl, rfl, rfl⟩, rfl, rfl, rfl⟩
  obtain ⟨feed, subscription, channel, taken, only, follows, ⟨live, closed, goesOn⟩, all, open_,
    told⟩ := runs
  have run := JobManager.feedsTo_of_run taken
  have at_ : feed.subscriptions[0]? = some subscription := by rw [only]; rfl
  exact ⟨feed, subscription, run, (JobManager.subscription_waits sampleManager_accepted run
    (by decide) at_ live follows).mpr ⟨closed, all, goesOn, open_⟩, only, told⟩

/-- A granted subscription owes the events after its cursor, or from the oldest kept one on. -/
theorem JobManager.Subscribes.starts {id : JobId} {owner : Owner} {after : Option Nat}
    (subscribes : manager.Subscribes feed id owner after next)
    (logs : feed.Logs manager.limits.sseReplayEvents)
    (positive : 0 < manager.limits.sseReplayEvents) :
    ∃ channel subscription, feed.senders.lookup id = some channel ∧
      next.subscriptions = feed.subscriptions ++ [subscription] ∧
      subscription.channel = channel ∧ subscription.start =
        after.getD ((feed.sent channel).length - manager.limits.sseReplayEvents) + 1 := by
  obtain ⟨job, replay, found, -, -, rfl⟩ := subscribes.made
  obtain ⟨channel, held, sender, at_, -, logged⟩ := logs.held id job found
  refine ⟨channel, _, sender, rfl, ?_, ?_⟩
  · show (feed.senders.lookup id).getD 0 = channel
    rw [sender, Option.getD_some]
  · show firstDue job.events after = _
    rw [JobFeed.sent_of_get at_]
    cases after with
    | some cursor => rfl
    | none =>
        obtain ⟨first, head, number⟩ := logged.head (logs.logs channel held at_) positive
        rw [firstDue, head, Option.map_some, Option.getD_some, number, Option.getD_none]

/-- A subscription is granted exactly when the caller owns the job, the events after the cursor are
all kept, and neither the caller nor the process has too many; it then owes the events after the
cursor, or from the oldest kept one on. -/
theorem JobManager.subscribe_granted {actions : List FeedAction}
    (accepted : manager.limits.Accepted) (run : manager.FeedsTo ring actions feed)
    (few : actions.length < maxWord) (id : JobId) (owner : Owner) (after : Option Nat) :
    ((∃ next, manager.subscribe feed id owner after = .ok next) ↔
      ∃ job channel, feed.world.state.jobs.lookup id = some job ∧ job.owner = owner ∧
        feed.senders.lookup id = some channel ∧
        (∀ cursor, after = some cursor → cursor ≤ (feed.sent channel).length ∧
          (feed.sent channel).length ≤ cursor + manager.limits.sseReplayEvents) ∧
        (leaseholders feed.subscriptions).count owner < manager.limits.sseSubscribersPerSession ∧
        (leaseholders feed.subscriptions).length < manager.limits.sseSubscribersPerProcess) ∧
      ∀ next, manager.subscribe feed id owner after = .ok next →
        ∃ channel subscription, feed.senders.lookup id = some channel ∧
          next.subscriptions = feed.subscriptions ++ [subscription] ∧
          subscription.channel = channel ∧ subscription.start =
            after.getD ((feed.sent channel).length - manager.limits.sseReplayEvents) + 1 := by
  have tracked := run.tracked accepted few.le
  have leased := run.leased accepted
  have positive := accepted.boundsJobs.replay
  have short := run.unexhausted few
  refine ⟨⟨?_, ?_⟩, fun next made =>
    (JobManager.subscribes_of_ok made).starts tracked.logs positive⟩
  · rintro ⟨next, made⟩
    have subscribes := JobManager.subscribes_of_ok made
    have session := subscribes.session
    have process := subscribes.process
    obtain ⟨job, replay, found, owns, selected, -⟩ := subscribes.made
    obtain ⟨channel, held, sender, at_, -, logged⟩ := tracked.logs.held id job found
    rw [leased.tallies.getD] at session
    rw [leased.total] at process
    refine ⟨job, channel, found, owns, sender, ?_, session, process⟩
    rintro cursor rfl
    rw [logged.selectReplay_some (tracked.logs.logs channel held at_) positive
      (short held (List.mem_of_getElem? at_))] at selected
    rw [JobFeed.sent_of_get at_]
    split_ifs at selected
    omega
  · rintro ⟨job, channel, found, owns, sender, kept, session, process⟩
    obtain ⟨other, held, same, at_, -, logged⟩ := tracked.logs.held id job found
    rw [sender, Option.some.injEq] at same
    subst same
    rw [JobFeed.sent_of_get at_] at kept
    have selected : ∃ replay, selectReplay job.events after = .ok replay := by
      cases after with
      | none => exact ⟨_, rfl⟩
      | some cursor =>
          obtain ⟨below, inside⟩ := kept cursor rfl
          rw [logged.selectReplay_some (tracked.logs.logs channel held at_) positive
            (short held (List.mem_of_getElem? at_)), if_neg (by omega), if_neg (by omega)]
          exact ⟨_, rfl⟩
    obtain ⟨replay, selected⟩ := selected
    rw [← leased.total] at process
    rw [← leased.tallies.getD] at session
    rw [JobManager.subscribe, found, Option.filter_some, if_pos (beq_iff_eq.mpr owns)]
    dsimp only
    rw [selected]
    dsimp only
    rw [if_neg (by omega), if_neg (by omega)]
    exact ⟨_, rfl⟩

/-- A cursor after the last event is refused. -/
theorem sampleFeed_refused :
    ∃ feed, (sampleManager .default).FeedsTo 64 sampleFeed feed ∧
      ¬ ∃ next, (sampleManager .default).subscribe feed "first" 0#256 (some 3) = .ok next := by
  have runs : ∃ feed, (sampleManager .default).feedRun 64 .initial sampleFeed = some feed ∧
      feed.senders.lookup "first" = some 0 ∧ (feed.sent 0).length = 2 := ⟨_, rfl, rfl, rfl⟩
  obtain ⟨feed, taken, sender, two⟩ := runs
  have run := JobManager.feedsTo_of_run taken
  refine ⟨feed, run, fun granted => ?_⟩
  obtain ⟨-, channel, -, -, same, kept, -⟩ := (JobManager.subscribe_granted
    sampleManager_accepted run (by decide) "first" 0#256 (some 3)).1.mp granted
  rw [sender, Option.some.injEq] at same
  subst same
  have bounded := (kept 3 rfl).1
  omega

/-- The subscribers are counted in all and by owner as the leases which are held, within the
limits. -/
theorem JobManager.leases_counted {actions : List FeedAction}
    (accepted : manager.limits.Accepted) (run : manager.FeedsTo ring actions feed) :
    feed.subscribers = (feed.subscriptions.filter fun held => !held.dropped).length ∧
      feed.subscribers = (feed.subscribersByOwner.entries.map Sigma.snd).sum ∧
      feed.subscribers ≤ manager.limits.sseSubscribersPerProcess ∧
      ∀ owner, (feed.subscribersByOwner.lookup owner).getD 0 =
          (feed.subscriptions.filter fun held => !held.dropped && held.owner == owner).length ∧
        (feed.subscribersByOwner.lookup owner).getD 0 ≤ manager.limits.sseSubscribersPerSession ∧
        feed.subscribersByOwner.lookup owner ≠ some 0 := by
  have leased := run.leased accepted
  have total := leased.total
  refine ⟨?_, ?_, ?_, fun owner => ⟨?_, ?_, ?_⟩⟩
  · rw [total, leaseholders, List.length_map]
  · rw [total, leased.tallies.sum]
  · rw [total]
    exact leased.process
  · rw [leased.tallies.getD, leaseholders, List.count_eq_countP, List.countP_map,
      List.countP_eq_length_filter, List.filter_filter]
    congr 1
    apply List.filter_congr
    intro held _
    exact Bool.and_comm _ _
  · rw [leased.tallies.getD]
    exact leased.session owner
  · intro none
    have held := leased.tallies owner
    rw [none] at held
    split_ifs at held with member
    have positive := List.count_pos_iff.mpr member
    have zero := Option.some.inj held
    omega

/-- The lease of the first subscription is returned. -/
theorem sampleFeed_leases :
    ∃ feed, (sampleManager .default).FeedsTo 64 sampleFeed feed ∧ feed.subscriptions.length = 2 ∧
      feed.subscribers = 1 ∧
      (feed.subscriptions.filter fun held => !held.dropped).length = 1 := by
  have runs : ∃ feed, (sampleManager .default).feedRun 64 .initial sampleFeed = some feed ∧
      feed.subscriptions.length = 2 ∧ feed.subscribers = 1 := ⟨_, rfl, rfl, rfl⟩
  obtain ⟨feed, taken, two, one⟩ := runs
  have run := JobManager.feedsTo_of_run taken
  have counted := JobManager.leases_counted sampleManager_accepted run
  exact ⟨feed, run, two, one, counted.1 ▸ one⟩

end ImmichRs.Web
