import ImmichRs.Web.ChannelLogs

/-!
# Deliveries of a subscription

A subscription replays what is kept from its cursor on and then follows its channel: what it has
given is always the part of what was sent which begins at its cursor, until it has given the
terminal event or has fallen behind.
-/

namespace ImmichRs.Web

open Collections Interaction

variable {manager : JobManager} {limit ring : Nat} {sent : List JobEvent}
  {subscription after : JobSubscription}

/-! ## Replays -/

/-- The oldest kept event. -/
theorem StoredJob.Logged.head {job : StoredJob} (logged : job.Logged limit sent)
    (log : EventLog sent) (positive : 0 < limit) :
    ∃ first, job.events.head? = some first ∧ first.sequence = sent.length - limit + 1 := by
  have length := List.length_pos_of_ne_nil log.begun
  have inside : sent.length - limit < sent.length := by omega
  have at_ := List.getElem?_eq_getElem inside
  refine ⟨_, ?_, log.numbered.get at_⟩
  rw [logged.events, List.rtake, List.head?_drop, at_]

/-- The kept events from a cursor on, in terms of all which were sent. -/
theorem StoredJob.Logged.selectReplay_some {job : StoredJob} (logged : job.Logged limit sent)
    (log : EventLog sent) (positive : 0 < limit) (few : sent.length < maxWord) (cursor : Nat) :
    selectReplay job.events (some cursor) =
      if sent.length < cursor then .error .invalidCursor
      else if cursor < sent.length - limit then .error .replayExhausted
      else .ok (sent.drop cursor) := by
  obtain ⟨last, at_⟩ := List.getLast?_isSome.mpr log.begun |> Option.isSome_iff_exists.mp
  have length := List.length_pos_of_ne_nil log.begun
  have lastNumber : last.sequence = sent.length := by
    rw [List.getLast?_eq_getElem?] at at_
    have number := log.numbered.get at_
    omega
  obtain ⟨first, head, firstNumber⟩ := logged.head log positive
  have lastKept : job.events.getLast? = some last := by
    rw [logged.events, List.rtake, List.getLast?_drop, if_neg (by omega), at_]
  rw [selectReplay, head, lastKept]
  dsimp only
  rw [lastNumber, firstNumber]
  split_ifs with beyond lost early early
  · rfl
  · rfl
  · unfold saturatingAdd at lost
    omega
  · unfold saturatingAdd at lost
    omega
  · rw [logged.events, List.rtake, log.numbered.filter_drop (Nat.le_of_not_lt early)]

/-- A subscription replays all which were sent from the first event which it owes. -/
theorem StoredJob.Logged.selected {job : StoredJob} (logged : job.Logged limit sent)
    (log : EventLog sent) (positive : 0 < limit) (few : sent.length < maxWord)
    {after : Option Nat} {replay : List JobEvent}
    (selected : selectReplay job.events after = .ok replay) :
    ∃ first ≤ sent.length, replay = sent.drop first ∧ firstDue job.events after = first + 1 := by
  cases after with
  | none =>
      obtain ⟨first, head, number⟩ := logged.head log positive
      refine ⟨sent.length - limit, Nat.sub_le _ _, ?_, ?_⟩
      · exact (Except.ok.inj selected).symm.trans logged.events
      · rw [firstDue, head, Option.map_some, Option.getD_some, number]
  | some cursor =>
      rw [logged.selectReplay_some log positive few] at selected
      split_ifs at selected with beyond
      exact ⟨cursor, Nat.le_of_not_lt beyond, (Except.ok.inj selected).symm, rfl⟩

/-! ## One subscription -/

/-- Where a subscription stands in what was sent through its channel. -/
structure JobSubscription.Following (ring : Nat) (sent : List JobEvent)
    (subscription : JobSubscription) : Prop where
  follower : Follower sent (subscription.start - 1) subscription.events subscription.replay
    subscription.position
  begun : 0 < subscription.start
  cursor : ∀ after, subscription.after = some after → subscription.start = after + 1
  waiting : subscription.closeAfterReplay = true →
    Finished sent ∧ subscription.position = sent.length
  open_ : subscription.closed = false → .replayExhausted ∉ subscription.delivered ∧
    ∀ event ∈ subscription.events, event.ends = false
  ended : subscription.closed = true →
    (∃ earlier, subscription.delivered = earlier ++ [.replayExhausted] ∧
      .replayExhausted ∉ earlier ∧ ring + subscription.position < sent.length) ∨
    .replayExhausted ∉ subscription.delivered ∧
      subscription.events = sent.drop (subscription.start - 1) ∧ Finished sent

/-- What one call of `next` can do. -/
inductive JobSubscription.Gives (ring : Nat) (sent : List JobEvent) (isOpen : Bool)
    (subscription : JobSubscription) : Option SubscriptionDelivery → JobSubscription → Prop
  | ended (closed : subscription.closed = true) :
      subscription.Gives ring sent isOpen none subscription
  | replay {event : JobEvent} {replay : List JobEvent} (closed : subscription.closed = false)
      (first : subscription.replay = event :: replay) :
      subscription.Gives ring sent isOpen (some (.event event))
        { subscription with replay, closed := event.ends }
  | shut (closed : subscription.closed = false) (replayed : subscription.replay = [])
      (closes : subscription.closeAfterReplay = true) :
      subscription.Gives ring sent isOpen none { subscription with closed := true }
  | heartbeat (closed : subscription.closed = false) (replayed : subscription.replay = []) :
      subscription.Gives ring sent isOpen (some .heartbeat) subscription
  | item {event : JobEvent} (closed : subscription.closed = false)
      (replayed : subscription.replay = []) (at_ : sent[subscription.position]? = some event) :
      subscription.Gives ring sent isOpen (some (.event event))
        { subscription with position := subscription.position + 1, closed := event.ends }
  | lagged (closed : subscription.closed = false) (replayed : subscription.replay = [])
      (behind : ring < sent.length - subscription.position) :
      subscription.Gives ring sent isOpen (some .replayExhausted)
        { subscription with closed := true }
  | gone (closed : subscription.closed = false) (replayed : subscription.replay = [])
      (received : sent.length ≤ subscription.position) (shut : isOpen = false) :
      subscription.Gives ring sent isOpen none { subscription with closed := true }

theorem JobSubscription.gives_of_next {isOpen timedOut : Bool}
    {delivery : Option SubscriptionDelivery}
    (given : subscription.next ring sent isOpen timedOut = some (delivery, after)) :
    subscription.Gives ring sent isOpen delivery after := by
  unfold JobSubscription.next at given
  by_cases closed : subscription.closed = true
  · rw [if_pos closed] at given
    cases given
    exact .ended closed
  · rw [if_neg closed] at given
    rw [Bool.not_eq_true] at closed
    split at given
    · rename_i event replay first
      cases given
      exact .replay closed first
    · rename_i replayed
      by_cases closes : subscription.closeAfterReplay = true
      · rw [if_pos closes] at given
        cases given
        exact .shut closed replayed closes
      · rw [if_neg closes] at given
        split_ifs at given
        · cases given
          exact .heartbeat closed replayed
        · obtain ⟨found, received, result⟩ := Option.map_eq_some_iff.mp given
          rcases receive_cases received with ⟨rfl, behind⟩ | ⟨event, rfl, at_⟩ |
            ⟨rfl, all, shut⟩
          · cases result
            exact .lagged closed replayed behind
          · cases result
            exact .item closed replayed at_
          · cases result
            exact .gone closed replayed all shut

/-- A subscription waits only where it is open, has nothing to replay or to receive, and the sender
is there. -/
theorem JobSubscription.next_eq_none {isOpen : Bool} :
    subscription.next ring sent isOpen false = none ↔
      subscription.closed = false ∧ subscription.closeAfterReplay = false ∧
        subscription.replay = [] ∧ sent.length ≤ subscription.position ∧ isOpen = true := by
  unfold JobSubscription.next
  cases closed : subscription.closed with
  | true => simp
  | false =>
      cases first : subscription.replay with
      | cons event replay => simp
      | nil =>
          cases closes : subscription.closeAfterReplay with
          | true => simp
          | false => simp [receive_eq_none]

/-- What a call of `next` leaves as it is. -/
theorem JobSubscription.Gives.same {isOpen : Bool} {delivery : Option SubscriptionDelivery}
    (gives : subscription.Gives ring sent isOpen delivery after) :
    after.channel = subscription.channel ∧ after.owner = subscription.owner ∧
      after.dropped = subscription.dropped ∧ after.start = subscription.start := by
  cases gives <;> exact ⟨rfl, rfl, rfl, rfl⟩

/-- A subscription with one more delivery. -/
def JobSubscription.giving (subscription : JobSubscription)
    (delivery : Option SubscriptionDelivery) : JobSubscription :=
  { subscription with delivered := subscription.delivered ++ delivery.toList }

theorem JobSubscription.events_giving (subscription : JobSubscription)
    (delivery : Option SubscriptionDelivery) :
    (subscription.giving delivery).events =
      subscription.events ++ (delivery.bind SubscriptionDelivery.event?).toList := by
  rw [JobSubscription.events, JobSubscription.giving, List.filterMap_append]
  congr 1
  cases delivery with
  | none => rfl
  | some delivery => cases delivery <;> rfl

/-- A terminal event is the last which was sent. -/
theorem EventLog.finished (log : EventLog sent) {place : Nat} {event : JobEvent}
    (at_ : sent[place]? = some event) (ends : event.ends = true) :
    place + 1 = sent.length ∧ Finished sent := by
  obtain ⟨last, same⟩ := log.once.last at_ ends
  exact ⟨last, event, same, ends⟩

theorem JobSubscription.Following.extend {later : List JobEvent}
    (following : subscription.Following ring sent) (extends_ : Extends sent later) :
    subscription.Following ring later := by
  rcases extends_ with rfl | ⟨running, event, rfl⟩
  · exact following
  · refine ⟨following.follower.send [event], following.begun, following.cursor,
      fun closes => absurd (following.waiting closes).1 running, following.open_, ?_⟩
    intro closed
    rcases following.ended closed with ⟨earlier, all, before, behind⟩ | ⟨-, -, finished⟩
    · refine .inl ⟨earlier, all, before, ?_⟩
      rw [List.length_append]
      exact behind.trans_le (Nat.le_add_right _ _)
    · exact absurd finished running

/-- Nothing is left when a terminal event was replayed. -/
theorem JobSubscription.Following.last (following : subscription.Following ring sent)
    (log : EventLog sent) {event : JobEvent} {replay : List JobEvent}
    (first : subscription.replay = event :: replay) (ends : event.ends = true) :
    replay = [] ∧ subscription.position = sent.length ∧ Finished sent := by
  have joined := following.follower.joined
  have bounded := following.follower.bounded
  have begun := following.follower.begun
  rw [first] at joined
  have lengths := congrArg List.length joined
  rw [List.length_append, List.length_cons, List.length_drop, List.length_take] at lengths
  have placed : sent[subscription.start - 1 + subscription.events.length]? = some event := by
    have here : (subscription.events ++ event :: replay)[subscription.events.length]? =
        some event := by
      rw [List.getElem?_append_right (Nat.le_refl _), Nat.sub_self]
      rfl
    rw [joined, List.getElem?_drop, List.getElem?_take] at here
    split_ifs at here
    exact here
  obtain ⟨last, finished⟩ := log.finished placed ends
  refine ⟨List.eq_nil_of_length_eq_zero ?_, ?_, finished⟩ <;> omega

/-- A subscription which has caught up has given everything. -/
theorem JobSubscription.Following.complete (following : subscription.Following ring sent)
    (replayed : subscription.replay = []) (all : subscription.position = sent.length) :
    subscription.events = sent.drop (subscription.start - 1) := by
  have follower := following.follower
  rw [replayed, all] at follower
  exact follower.complete

/-- A subscription has given everything exactly when it has nothing to replay or to receive. -/
theorem JobSubscription.Following.complete_iff (following : subscription.Following ring sent) :
    subscription.events = sent.drop (subscription.start - 1) ↔
      subscription.replay = [] ∧ subscription.position = sent.length := by
  constructor
  · intro all
    have given := congrArg List.length following.follower.joined
    have bounded := following.follower.bounded
    have begun := following.follower.begun
    rw [all, List.length_append, List.length_drop, List.length_drop, List.length_take] at given
    exact ⟨List.eq_nil_of_length_eq_zero (by omega), by omega⟩
  · rintro ⟨replayed, received⟩
    exact following.complete replayed received

theorem JobSubscription.giving_none (subscription : JobSubscription) :
    subscription.giving none = subscription := by
  rw [JobSubscription.giving, Option.toList_none, List.append_nil]

/-- A subscription closes after it has given everything. -/
theorem JobSubscription.Following.close (following : subscription.Following ring sent)
    (closed : subscription.closed = false) (replayed : subscription.replay = [])
    (all : subscription.position = sent.length) (finished : Finished sent) :
    ({ subscription with closed := true } : JobSubscription).Following ring sent where
  follower := following.follower
  begun := following.begun
  cursor := following.cursor
  waiting := following.waiting
  open_ now := by cases now
  ended _ := .inr ⟨(following.open_ closed).1, following.complete replayed all, finished⟩

/-- A subscription gives an event, and closes if it is terminal. -/
theorem JobSubscription.Following.tell (following : subscription.Following ring sent)
    (closed : subscription.closed = false) {event : JobEvent} {replay : List JobEvent}
    {position : Nat}
    (follower : Follower sent (subscription.start - 1) (subscription.events ++ [event]) replay
      position)
    (waiting : subscription.closeAfterReplay = true → position = subscription.position)
    (last : event.ends = true → replay = [] ∧ position = sent.length ∧ Finished sent) :
    (({ subscription with replay, position, closed := event.ends } : JobSubscription).giving
      (some (.event event))).Following ring sent := by
  have told := JobSubscription.events_giving
    { subscription with replay, position, closed := event.ends } (some (.event event))
  have quiet := following.open_ closed
  have unsaid : SubscriptionDelivery.replayExhausted ∉
      subscription.delivered ++ [.event event] := by
    rw [List.mem_append, List.mem_singleton]
    rintro (before | same)
    · exact quiet.1 before
    · cases same
  refine ⟨told.symm ▸ follower, following.begun, following.cursor, ?_, ?_, ?_⟩
  · intro closes
    exact ⟨(following.waiting closes).1,
      (waiting closes).trans (following.waiting closes).2⟩
  · intro now
    refine ⟨unsaid, fun earlier member => ?_⟩
    rw [told] at member
    rcases List.mem_append.mp member with before | same
    · exact quiet.2 earlier before
    · rw [List.mem_singleton.mp same]
      exact now
  · intro now
    obtain ⟨rfl, rfl, finished⟩ := last now
    exact .inr ⟨unsaid, told.trans follower.complete, finished⟩

/-- A delivery keeps the place of a subscription. -/
theorem JobSubscription.Following.give {isOpen : Bool} {delivery : Option SubscriptionDelivery}
    (following : subscription.Following ring sent) (log : EventLog sent)
    (left : isOpen = false → Finished sent)
    (gives : subscription.Gives ring sent isOpen delivery after) :
    (after.giving delivery).Following ring sent := by
  have follower := following.follower
  cases gives with
  | ended closed =>
      rw [subscription.giving_none]
      exact following
  | replay closed first =>
      rw [first] at follower
      apply following.tell closed follower.replayed (fun _ => rfl)
      exact fun ends => following.last log first ends
  | shut closed replayed closes =>
      obtain ⟨finished, all⟩ := following.waiting closes
      rw [JobSubscription.giving_none]
      exact following.close closed replayed all finished
  | heartbeat closed replayed =>
      have told := subscription.events_giving (some .heartbeat)
      have same : (subscription.giving (some .heartbeat)).events = subscription.events :=
        told.trans (List.append_nil _)
      refine ⟨same.symm ▸ follower, following.begun, following.cursor, following.waiting, ?_, ?_⟩
      · intro now
        refine ⟨fun member => ?_, same.symm ▸ (following.open_ closed).2⟩
        rcases List.mem_append.mp member with before | beat
        · exact (following.open_ closed).1 before
        · cases List.mem_singleton.mp beat
      · intro now
        rw [show (subscription.giving (some .heartbeat)).closed = subscription.closed from rfl,
          closed] at now
        cases now
  | @item event closed replayed at_ =>
      rw [replayed] at follower
      have received : Follower sent (subscription.start - 1) (subscription.events ++ [event])
          subscription.replay (subscription.position + 1) := by
        rw [replayed]
        exact follower.receive at_
      apply following.tell closed received
      · intro closes
        have all := (following.waiting closes).2
        have inside := (List.getElem?_eq_some_iff.mp at_).1
        omega
      · intro ends
        obtain ⟨last, finished⟩ := log.finished at_ ends
        exact ⟨replayed, last, finished⟩
  | lagged closed replayed behind =>
      have told := JobSubscription.events_giving { subscription with closed := true }
        (some .replayExhausted)
      have same : (({ subscription with closed := true } : JobSubscription).giving
          (some .replayExhausted)).events = subscription.events :=
        told.trans (List.append_nil _)
      refine ⟨same.symm ▸ follower, following.begun, following.cursor, following.waiting, ?_, ?_⟩
      · exact fun now => by cases now
      · refine fun _ => .inl ⟨subscription.delivered, rfl, (following.open_ closed).1, ?_⟩
        show ring + subscription.position < sent.length
        omega
  | gone closed replayed received shut =>
      rw [JobSubscription.giving_none]
      exact following.close closed replayed (Nat.le_antisymm follower.bounded received)
        (left shut)

/-- The number of events which are still to be given. -/
def JobSubscription.owed (subscription : JobSubscription) (sent : List JobEvent) : Nat :=
  subscription.replay.length + (sent.length - subscription.position)

/-- A subscription which owes events and is not too far behind gives the next one at once. -/
theorem JobSubscription.Following.pays (following : subscription.Following ring sent)
    (log : EventLog sent) (closed : subscription.closed = false)
    (near : sent.length - subscription.position ≤ ring) (owes : 0 < subscription.owed sent)
    (isOpen : Bool) :
    ∃ delivery after, subscription.next ring sent isOpen false = some (delivery, after) ∧
      after.owed sent + 1 = subscription.owed sent ∧ sent.length - after.position ≤ ring ∧
      (after.closed = true → after.owed sent = 0) := by
  unfold JobSubscription.owed at owes ⊢
  rw [JobSubscription.next, closed, if_neg Bool.false_ne_true]
  cases first : subscription.replay with
  | cons event replay =>
      refine ⟨_, _, rfl, ?_, near, fun ends => ?_⟩
      · rw [List.length_cons]
        show replay.length + (sent.length - subscription.position) + 1 = _
        omega
      · obtain ⟨rfl, all, -⟩ := following.last log first ends
        show 0 + (sent.length - subscription.position) = 0
        omega
  | nil =>
      rw [first, List.length_nil] at owes
      have inside : subscription.position < sent.length := by omega
      have at_ := List.getElem?_eq_getElem inside
      have stays : subscription.closeAfterReplay = false := by
        rw [← Bool.not_eq_true]
        intro closes
        have all := (following.waiting closes).2
        omega
      dsimp only
      rw [stays, if_neg Bool.false_ne_true, if_neg Bool.false_ne_true, receive,
        if_neg (Nat.not_lt_of_le near), at_]
      refine ⟨_, _, rfl, ?_, ?_, fun ends => ?_⟩
      · show 0 + (sent.length - (subscription.position + 1)) + 1 =
          0 + (sent.length - subscription.position)
        omega
      · show sent.length - (subscription.position + 1) ≤ ring
        omega
      · have last := (log.finished at_ ends).1
        show 0 + (sent.length - (subscription.position + 1)) = 0
        omega

end ImmichRs.Web
