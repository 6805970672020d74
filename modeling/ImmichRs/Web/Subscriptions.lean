import ImmichRs.Collections.Tally
import ImmichRs.Web.EventLogs

/-!
# Subscriptions to the events of jobs

The broadcast channels of the jobs, the subscriptions which replay kept events and then follow a
channel, and the leases which count them, as one system with the callers and workers of the job
manager.  A channel keeps at least as many events as it was asked to.
-/

namespace ImmichRs.Web

open Collections Interaction

/-! ## Subscriptions -/

/-- Why a subscription is refused. -/
inductive SubscribeError
  | notFound | invalidCursor | replayExhausted | sessionCapacity | processCapacity | unavailable
  deriving DecidableEq, Repr

/-- What a subscription gives. -/
inductive SubscriptionDelivery
  | event (event : JobEvent)
  | heartbeat
  | replayExhausted
  deriving DecidableEq

/-- The event which a delivery carries. -/
def SubscriptionDelivery.event? : SubscriptionDelivery → Option JobEvent
  | .event told => some told
  | .heartbeat | .replayExhausted => none

/-- `select_replay`. -/
def selectReplay (events : List JobEvent) :
    Option Nat → Except SubscribeError (List JobEvent)
  | none => .ok events
  | some after =>
      match events.head?, events.getLast? with
      | some first, some last =>
          if last.sequence < after then .error .invalidCursor
          else if saturatingAdd after 1 < first.sequence then .error .replayExhausted
          else .ok (events.filter fun event => decide (after < event.sequence))
      | _, _ => .error .unavailable

/-- The sequence number of the first event which a subscription owes. -/
def firstDue (events : List JobEvent) : Option Nat → Nat
  | some after => after + 1
  | none => (events.head?.map JobEvent.sequence).getD 0

/-- A subscription, with the owner of its lease and what it was asked for and has given. -/
structure JobSubscription where
  owner : Owner
  /-- The channel which its receiver follows, and how far it has received it. -/
  channel : Nat
  position : Nat
  replay : List JobEvent
  closeAfterReplay : Bool
  closed : Bool
  /-- Whether it was dropped, and its lease with it. -/
  dropped : Bool
  after : Option Nat
  /-- The sequence number of the first event which it owes. -/
  start : Nat
  delivered : List SubscriptionDelivery
  deriving DecidableEq

/-- The events which a subscription has given. -/
def JobSubscription.events (subscription : JobSubscription) : List JobEvent :=
  subscription.delivered.filterMap SubscriptionDelivery.event?

/-- `JobSubscription::next`, where `timedOut` says that the heartbeat came first; it gives no result
while it waits. -/
def JobSubscription.next (subscription : JobSubscription) (ring : Nat) (sent : List JobEvent)
    (isOpen timedOut : Bool) : Option (Option SubscriptionDelivery × JobSubscription) :=
  if subscription.closed then
    some (none, subscription)
  else
    match subscription.replay with
    | event :: replay =>
        some (some (.event event), { subscription with replay, closed := event.status.terminal })
    | [] =>
        if subscription.closeAfterReplay then
          some (none, { subscription with closed := true })
        else if timedOut then
          some (some .heartbeat, subscription)
        else
          (receive ring sent isOpen subscription.position).map fun
            | .item event =>
                (some (.event event),
                  { subscription with
                    position := subscription.position + 1
                    closed := event.status.terminal })
            -- The receiver would now stand at the oldest value kept, but is not asked again.
            | .lagged => (some .replayExhausted, { subscription with closed := true })
            | .closed => (none, { subscription with closed := true })

/-! ## The system -/

/-- The broadcast channel of a job, with everything which was sent through it. -/
structure JobChannel where
  job : JobId
  sent : List JobEvent
  deriving DecidableEq

/-- The manager and its threads, the channels, and the subscriptions.  A channel and a subscription
are named by their positions. -/
structure JobFeed where
  world : World
  channels : List JobChannel
  /-- `StoredJob::event_sender`, as the channel into which it sends. -/
  senders : Keyed JobId Nat
  subscribers : Nat
  subscribersByOwner : Keyed Owner Nat
  subscriptions : List JobSubscription

/-- A manager which has just been created. -/
def JobFeed.initial : JobFeed where
  world := .initial
  channels := []
  senders := ∅
  subscribers := 0
  subscribersByOwner := ∅
  subscriptions := []

/-- One step of the system. -/
inductive FeedAction
  /-- A caller or a worker of the manager. -/
  | act (action : Action)
  | subscribe (job : JobId) (owner : Owner) (after : Option Nat)
  /-- A subscription is asked for its next delivery. -/
  | next (subscription : Nat) (timedOut : Bool)
  /-- A subscription is dropped. -/
  | drop (subscription : Nat)

namespace JobFeed

variable (feed : JobFeed)

/-- What was sent through a channel. -/
def sent (channel : Nat) : List JobEvent :=
  (feed.channels[channel]?.map JobChannel.sent).getD []

/-- Whether a job of the table still holds the sender of a channel. -/
def isOpen (channel : Nat) : Bool :=
  feed.channels[channel]?.any fun held =>
    decide (held.job ∈ feed.world.state.jobs) &&
      decide (feed.senders.lookup held.job = some channel)

/-- The event which a job has pushed last. -/
def lastEvent (world : World) (job : JobId) : List JobEvent :=
  ((world.state.jobs.lookup job).bind fun stored => stored.events.getLast?).toList

/-- The channel of a job which was just admitted. -/
def opened (next : World) (job : JobId) : JobChannel := { job, sent := lastEvent next job }

/-- A channel after a step of the manager. -/
def broadcast (manager : JobManager) (action : Action) (next : World) (channel : Nat)
    (held : JobChannel) : JobChannel :=
  if feed.isOpen channel && manager.pushes feed.world action held.job then
    { held with sent := held.sent ++ lastEvent next held.job }
  else
    held

/-- The system after a step of the manager: the events which it pushed are sent, and a job which it
admitted has a channel of its own. -/
def follow (manager : JobManager) (action : Action) (next : World) : JobFeed :=
  { feed with
    world := next
    channels :=
      feed.channels.mapIdx (feed.broadcast manager action next) ++
        (feed.world.enrolled next).toList.map (opened next)
    senders :=
      match feed.world.enrolled next with
      | some job => feed.senders.insert job feed.channels.length
      | none => feed.senders }

end JobFeed

namespace JobManager

variable (manager : JobManager)

/-- `JobManager::subscribe`. -/
def subscribe (feed : JobFeed) (id : JobId) (owner : Owner) (after : Option Nat) :
    Except SubscribeError JobFeed :=
  match (feed.world.state.jobs.lookup id).filter fun job => job.owner == owner with
  | none => .error .notFound
  | some job =>
      match selectReplay job.events after with
      | .error error => .error error
      | .ok replay =>
          let channel := (feed.senders.lookup id).getD 0
          let ownerCount := (feed.subscribersByOwner.lookup owner).getD 0
          if manager.limits.sseSubscribersPerSession ≤ ownerCount then
            .error .sessionCapacity
          else if manager.limits.sseSubscribersPerProcess ≤ feed.subscribers then
            .error .processCapacity
          else
            let subscription : JobSubscription :=
              { owner
                channel
                position := (feed.sent channel).length
                replay
                closeAfterReplay := job.status.terminal
                closed := false
                dropped := false
                after
                start := firstDue job.events after
                delivered := [] }
            .ok { feed with
              subscribers := saturatingAdd feed.subscribers 1
              subscribersByOwner :=
                feed.subscribersByOwner.insert owner (saturatingAdd ownerCount 1)
              subscriptions := feed.subscriptions ++ [subscription] }

/-- One delivery of a subscription. -/
def deliver (ring : Nat) (feed : JobFeed) (position : Nat) (timedOut : Bool) : Option JobFeed :=
  match feed.subscriptions[position]? with
  | none => none
  | some subscription =>
      if subscription.dropped then
        none
      else
        (subscription.next ring (feed.sent subscription.channel) (feed.isOpen subscription.channel)
          timedOut).map fun answer =>
          { feed with
            subscriptions := feed.subscriptions.set position
              { answer.2 with delivered := answer.2.delivered ++ answer.1.toList } }

/-- `SubscriberLease::drop`. -/
def dropLease (feed : JobFeed) (position : Nat) : Option JobFeed :=
  match feed.subscriptions[position]? with
  | none => none
  | some subscription =>
      if subscription.dropped then
        none
      else
        some { feed with
          subscribers := feed.subscribers - 1
          subscribersByOwner := withdraw feed.subscribersByOwner subscription.owner
          subscriptions := feed.subscriptions.set position { subscription with dropped := true } }

/-- One step of the system, if it can be taken; a channel keeps `ring` events. -/
def feedStep (ring : Nat) (feed : JobFeed) : FeedAction → Option JobFeed
  | .act action => (manager.act feed.world action).map (feed.follow manager action)
  | .subscribe job owner after =>
      match manager.subscribe feed job owner after with
      | .ok next => some next
      | .error _ => some feed
  | .next subscription timedOut => deliver ring feed subscription timedOut
  | .drop subscription => dropLease feed subscription

end JobManager

/-- The actions lead from a new manager to a state of the system. -/
inductive JobManager.FeedsTo (manager : JobManager) (ring : Nat) :
    List FeedAction → JobFeed → Prop
  | nil : manager.FeedsTo ring [] .initial
  | step {actions : List FeedAction} {feed next : JobFeed}
      (run : manager.FeedsTo ring actions feed) {action : FeedAction}
      (taken : manager.feedStep ring feed action = some next) :
      manager.FeedsTo ring (actions ++ [action]) next

/-- The state to which actions lead, if they can all be taken. -/
def JobManager.feedRun (manager : JobManager) (ring : Nat) (feed : JobFeed)
    (actions : List FeedAction) : Option JobFeed :=
  actions.foldlM (manager.feedStep ring) feed

theorem JobManager.feedsTo_of_run {manager : JobManager} {ring : Nat} {feed : JobFeed}
    {actions : List FeedAction} (taken : manager.feedRun ring .initial actions = some feed) :
    manager.FeedsTo ring actions feed := by
  induction actions using List.reverseRecOn generalizing feed with
  | nil =>
      obtain rfl := Option.some.inj taken
      exact .nil
  | append_singleton before action induction =>
      rw [JobManager.feedRun, List.foldlM_append] at taken
      obtain ⟨passed, reached, last⟩ := Option.bind_eq_some_iff.mp taken
      obtain ⟨next, moved, ends⟩ := Option.bind_eq_some_iff.mp last
      obtain rfl := Option.some.inj ends
      exact (induction reached).step moved

end ImmichRs.Web
