import ImmichRs.Web.Oidc

/-!
# Runs of logins

Any interleaving of logins, callbacks and operations on the sessions.  A state token passes once,
for the peer which began it and in time, and the cookie which a login replaced is never accepted
again.
-/

namespace ImmichRs.Web

open Collections Interaction

/-- A step of the console and what it yielded. -/
abbrev LoginEvent : Type := Exchange LoginCall LoginReply

namespace LoginEvent

/-- The state token which a step draws. -/
def drawn (event : LoginEvent) : Option String :=
  match event.call with
  | .begin _ _ _ _ _ draws _ => draws.state
  | _ => none

/-- The state token which a callback names, whatever its code. -/
def named (event : LoginEvent) : Option String :=
  match event.call with
  | .arrive _ state _ _ _ => some state
  | _ => none

/-- The state token which a well formed callback names. -/
def presented (event : LoginEvent) : Option String :=
  match event.call with
  | .arrive _ state code _ _ => if OidcManager.wellFormed state code then some state else none
  | _ => none

theorem presented_arrive (peer : IpAddr) (state code : String) (currentCookie : Option String)
    (now : Instant) (reply : LoginReply) :
    presented ⟨.arrive peer state code currentCookie now, reply⟩ =
      if OidcManager.wellFormed state code then some state else none := rfl

theorem named_of_presented {event : LoginEvent} {token : String}
    (presented : event.presented = some token) : event.named = some token := by
  obtain ⟨call, reply⟩ := event
  cases call with
  | arrive peer state code currentCookie now =>
      rw [presented_arrive, Option.ite_none_right_eq_some] at presented
      exact presented.2
  | begin peer cookie csrf previousCookie loaded draws now => cases presented
  | proceed place provider now draws => cases presented
  | operate call => cases presented

/-- The peer and the instant of a callback. -/
def visit (event : LoginEvent) : Option (IpAddr × Instant) :=
  match event.call with
  | .arrive peer _ _ _ now => some (peer, now)
  | _ => none

/-- The state token of a login which begins, with what is kept under it. -/
def begins (event : LoginEvent) : Option (String × Pending) :=
  match event.call, event.reply with
  | .begin peer _ _ previousCookie _ draws now, .begun (.ok authorization) =>
      draws.verifier.map fun verifier =>
        (authorization.state, ⟨peer, authorization.nonce, verifier, now, previousCookie⟩)
  | _, _ => none

/-- The state token which passes the check of the pending login, with that login. -/
def passes (event : LoginEvent) : Option (String × Pending) :=
  match event.call, event.reply with
  | .arrive _ state _ _ _, .arrived (.ok pending) => some (state, pending)
  | _, _ => none

/-- The pending login whose verifier and nonce a step hands to the provider. -/
def identifies (event : LoginEvent) : Option Pending :=
  match event.reply with
  | .identified pending _ => some pending
  | _ => none

/-- The previous cookie with which a callback establishes its session. -/
def login (event : LoginEvent) : Option (Option String) :=
  match event.call, event.reply with
  | .proceed _ _ _ _, .operated ⟨⟨_, .establishOidc _ previous, _⟩, _⟩ => some previous
  | _, _ => none

/-- The operation on the sessions which a step performs. -/
def operation (event : LoginEvent) : Option AuthEvent :=
  match event.reply with
  | .operated event => some event
  | _ => none

end LoginEvent

/-- The operations on the sessions. -/
def operationsOf (events : List LoginEvent) : List AuthEvent :=
  events.filterMap LoginEvent.operation

/-- A step's tokens are fresh: no step before it has drawn or named its state token, nor drawn or
presented its session cookie. -/
structure LoginEvent.Fresh (past : List LoginEvent) (event : LoginEvent) : Prop where
  state : ∀ token, event.drawn = some token →
    ∀ earlier ∈ past, earlier.drawn ≠ some token ∧ earlier.named ≠ some token
  session : ∀ operation, event.operation = some operation →
    AuthCall.Fresh ((operationsOf past).map Exchange.call) operation.call

/-- What the console guarantees of a step, given the steps before it. -/
structure LoginConsole.Guards (console : LoginConsole) (past : List LoginEvent)
    (event : LoginEvent) : Prop where
  passes : ∀ token pending, event.passes = some (token, pending) →
    (∃ earlier ∈ past, earlier.begins = some (token, pending)) ∧
      ∃ now, event.visit = some (pending.peer, now) ∧
        now < pending.createdAt + console.manager.lifetime
  consumed : ∀ token pending, event.passes = some (token, pending) →
    ∀ earlier ∈ past, earlier.presented ≠ some token
  once : ∀ token pending, event.passes = some (token, pending) →
    ∀ earlier ∈ past, ∀ other, earlier.passes ≠ some (token, other)
  identifies : ∀ pending, event.identifies = some pending →
    ∃ earlier ∈ past, ∃ token, earlier.passes = some (token, pending)
  logins : ∀ previous, event.login = some previous →
    ∃ earlier ∈ past, ∃ token pending, earlier.passes = some (token, pending) ∧
      ∀ cookie, pending.previousCookie = some cookie → previous = some cookie
  replaced : ∀ operation cookie, event.operation = some operation →
    operation.accepted = some cookie →
      ∀ earlier ∈ operationsOf past, earlier.revoked ≠ some cookie

/-- What a run has left in the console. -/
structure LoginConsole.Holds (console : LoginConsole) (past : List LoginEvent)
    (state : LoginState) : Prop where
  bounded : state.pending.keys.length ≤ console.manager.limits.maxSessions
  begun : ∀ token pending, state.pending.lookup token = some pending →
    (∃ earlier ∈ past, earlier.begins = some (token, pending)) ∧
      ∀ earlier ∈ past, earlier.presented ≠ some token
  presented : ∀ earlier ∈ past, ∀ token pending, earlier.passes = some (token, pending) →
    earlier.presented = some token
  taken : ∀ callback ∈ state.callbacks,
    (∃ earlier ∈ past, ∃ token, earlier.passes = some (token, callback.pending)) ∧
      callback.Consistent
  unrevoked : state.auth.Unrevoked (operationsOf past)

section Steps

variable {console : LoginConsole} {state : LoginState} {past : List LoginEvent}

/-- The event of a step. -/
def LoginConsole.event (console : LoginConsole) (state : LoginState) (call : LoginCall) :
    LoginEvent :=
  { call, reply := (console.step state call).2 }

/-! ## The pending logins -/

/-- A login which begins adds one entry to what is not too old, if there is room. -/
theorem OidcManager.begin_cases (manager : OidcManager) (states : Keyed String Pending)
    (peer : IpAddr) (cookie csrf : String) (previousCookie : Option String)
    (loaded : Except String Unit) (draws : LoginDraws) (now : Instant) :
    (∃ error, (manager.begin states peer cookie csrf previousCookie loaded draws now).2 =
        .error error ∧
      ((manager.begin states peer cookie csrf previousCookie loaded draws now).1 = states ∨
        (manager.begin states peer cookie csrf previousCookie loaded draws now).1 =
          manager.purge states now)) ∨
    ∃ token nonce verifier, draws.state = some token ∧ draws.nonce = some nonce ∧
      draws.verifier = some verifier ∧
      (manager.purge states now).keys.length < manager.limits.maxSessions ∧
      manager.begin states peer cookie csrf previousCookie loaded draws now =
        ((manager.purge states now).insert token ⟨peer, nonce, verifier, now, previousCookie⟩,
          .ok ⟨token, nonce, manager.challenge verifier⟩) := by
  unfold OidcManager.begin
  split
  · exact .inl ⟨_, rfl, .inl rfl⟩
  · split
    · exact .inl ⟨_, rfl, .inl rfl⟩
    · rename_i token nonce verifier stateDrawn nonceDrawn verifierDrawn
      dsimp only
      split
      · exact .inl ⟨_, rfl, .inr rfl⟩
      · rename_i room
        exact .inr ⟨token, nonce, verifier, stateDrawn, nonceDrawn, verifierDrawn,
          Nat.lt_of_not_le room, rfl⟩
    · exact .inl ⟨_, rfl, .inl rfl⟩

theorem OidcManager.lookup_purge {manager : OidcManager} {states : Keyed String Pending}
    {now : Instant} {token : String} {pending : Pending} :
    (manager.purge states now).lookup token = some pending ↔
      states.lookup token = some pending ∧ now - pending.createdAt < manager.lifetime := by
  rw [OidcManager.purge, Keyed.lookup_retain, decide_eq_true_eq]

/-- A callback which is not well formed changes nothing; any other takes its state out. -/
inductive OidcManager.Finishes (manager : OidcManager) (states : Keyed String Pending)
    (peer : IpAddr) (token code : String) (now : Instant) :
    Keyed String Pending × Except String Pending → Prop
  | malformed {error : String} (malformed : OidcManager.wellFormed token code = false) :
      manager.Finishes states peer token code now (states, .error error)
  | refused {error : String} (formed : OidcManager.wellFormed token code = true) :
      manager.Finishes states peer token code now
        ((manager.purge states now).erase token, .error error)
  | passed {pending : Pending} (formed : OidcManager.wellFormed token code = true)
      (held : (manager.purge states now).lookup token = some pending)
      (same : pending.peer = peer) :
      manager.Finishes states peer token code now
        ((manager.purge states now).erase token, .ok pending)

theorem OidcManager.finishes_finish (manager : OidcManager) (states : Keyed String Pending)
    (peer : IpAddr) (token code : String) (now : Instant) :
    manager.Finishes states peer token code now
      (manager.finish states peer token code now) := by
  unfold OidcManager.finish
  split
  case isTrue malformed => exact .malformed (by simpa using malformed)
  case isFalse formed =>
    have formed : OidcManager.wellFormed token code = true := by simpa using formed
    dsimp only
    split
    case h_1 => exact .refused formed
    case h_2 pending held =>
      split
      case isTrue => exact .refused formed
      case isFalse same => exact .passed formed held (by simpa using same)

/-! ## What one step can do -/

/-- How a step changes the pending logins. -/
structure LoginConsole.ChangesPending (console : LoginConsole) (state : LoginState)
    (event : LoginEvent) (next : LoginState) : Prop where
  bounded : state.pending.keys.length ≤ console.manager.limits.maxSessions →
    next.pending.keys.length ≤ console.manager.limits.maxSessions
  found : ∀ token pending, next.pending.lookup token = some pending →
    (event.begins = some (token, pending) ∧ event.drawn = some token ∧ event.presented = none) ∨
      (state.pending.lookup token = some pending ∧ event.presented ≠ some token)
  passes : ∀ token pending, event.passes = some (token, pending) →
    state.pending.lookup token = some pending ∧ ∃ now, event.visit = some (pending.peer, now) ∧
      now - pending.createdAt < console.manager.lifetime

/-- How a step changes the callbacks and the sessions. -/
structure LoginConsole.ChangesSessions (console : LoginConsole) (state : LoginState)
    (event : LoginEvent) (next : LoginState) : Prop where
  callbacks : ∀ callback ∈ next.callbacks,
    (∃ before ∈ state.callbacks, before.pending = callback.pending ∧
        (before.Consistent → callback.Consistent)) ∨
      ((∃ token, event.passes = some (token, callback.pending)) ∧ callback.Consistent)
  logins : ∀ previous, event.login = some previous →
    ∃ before ∈ state.callbacks, ∃ identity, before.phase = .recognized identity ∧
      previous = before.previous identity
  identifies : ∀ pending, event.identifies = some pending →
    ∃ before ∈ state.callbacks, before.pending = pending
  operation : (event.operation = none ∧ next.auth = state.auth) ∨
    ∃ call, event.operation = some (console.store.event state.auth call) ∧
      next.auth = (console.store.perform state.auth call).1

/-- A step which leaves the pending logins alone. -/
theorem LoginConsole.ChangesPending.of_same {event : LoginEvent} {next : LoginState}
    (same : next.pending = state.pending) (unpresented : event.presented = none)
    (unpassed : event.passes = none) : console.ChangesPending state event next where
  bounded := by
    rw [same]
    exact id
  found := by
    intro token pending held
    rw [same] at held
    exact .inr ⟨held, by simp [unpresented]⟩
  passes := by
    intro token pending passed
    rw [unpassed] at passed
    cases passed

theorem LoginConsole.pending_begin (peer : IpAddr) (cookie csrf : String)
    (previousCookie : Option String) (loaded : Except String Unit) (draws : LoginDraws)
    (now : Instant) :
    console.ChangesPending state
      (console.event state (.begin peer cookie csrf previousCookie loaded draws now))
      (console.step state (.begin peer cookie csrf previousCookie loaded draws now)).1 := by
  have fewer : (console.manager.purge state.pending now).keys.length ≤ state.pending.keys.length :=
    Keyed.length_keys_retain_le _ _
  have passes : ∀ token pending, (console.event state
      (.begin peer cookie csrf previousCookie loaded draws now)).passes = some (token, pending) →
        False := by
    intro token pending passed
    cases passed
  rcases console.manager.begin_cases state.pending peer cookie csrf previousCookie loaded draws now
    with ⟨error, _, same | purged⟩ |
      ⟨token, nonce, verifier, stateDrawn, _, verifierDrawn, room, made⟩
  · exact .of_same same rfl rfl
  · constructor
    case bounded =>
      intro bound
      exact (congrArg (fun states => states.keys.length) purged).le.trans (fewer.trans bound)
    case found =>
      intro token pending held
      have before : (console.manager.purge state.pending now).lookup token = some pending :=
        purged ▸ held
      exact .inr ⟨(OidcManager.lookup_purge.mp before).1, by simp [LoginEvent.presented, event]⟩
    case passes => exact fun token pending passed => (passes token pending passed).elim
  · have added : (console.step state
        (.begin peer cookie csrf previousCookie loaded draws now)).1.pending =
          (console.manager.purge state.pending now).insert token
            ⟨peer, nonce, verifier, now, previousCookie⟩ := congrArg Prod.fst made
    have begins : (console.event state
        (.begin peer cookie csrf previousCookie loaded draws now)).begins =
          some (token, ⟨peer, nonce, verifier, now, previousCookie⟩) := by
      simp only [LoginEvent.begins, LoginConsole.event, LoginConsole.step, made, verifierDrawn,
        Option.map_some]
    constructor
    case bounded =>
      intro _
      rw [added]
      exact (Keyed.length_keys_insert_le _ _ _).trans room
    case found =>
      intro other pending held
      rw [added] at held
      rcases Keyed.lookup_insert_cases held with ⟨rfl, rfl⟩ | ⟨_, held⟩
      · exact .inl ⟨begins, stateDrawn, rfl⟩
      · exact .inr ⟨(OidcManager.lookup_purge.mp held).1, by simp [LoginEvent.presented, event]⟩
    case passes => exact fun token pending passed => (passes token pending passed).elim

theorem LoginConsole.pending_arrive (peer : IpAddr) (token code : String)
    (currentCookie : Option String) (now : Instant) :
    console.ChangesPending state
      (console.event state (.arrive peer token code currentCookie now))
      (console.step state (.arrive peer token code currentCookie now)).1 := by
  have finishes := console.manager.finishes_finish state.pending peer token code now
  have pending : (console.step state (.arrive peer token code currentCookie now)).1.pending =
    (console.manager.finish state.pending peer token code now).1 := rfl
  have fewer : ((console.manager.purge state.pending now).erase token).keys.length ≤
      state.pending.keys.length :=
    (Keyed.length_keys_erase_le _ _).trans (Keyed.length_keys_retain_le _ _)
  have shape : console.event state (.arrive peer token code currentCookie now) =
    ⟨.arrive peer token code currentCookie now,
      .arrived (console.manager.finish state.pending peer token code now).2⟩ := rfl
  rw [shape]
  generalize console.manager.finish state.pending peer token code now = outcome at *
  have kept : OidcManager.wellFormed token code = true → ∀ other entry,
      ((console.manager.purge state.pending now).erase token).lookup other = some entry →
        state.pending.lookup other = some entry ∧ LoginEvent.presented
          ⟨.arrive peer token code currentCookie now, .arrived outcome.2⟩ ≠ some other := by
    intro formed other entry held
    obtain ⟨different, held⟩ := Keyed.lookup_of_lookup_erase held
    refine ⟨(OidcManager.lookup_purge.mp held).1, ?_⟩
    rw [LoginEvent.presented_arrive, if_pos formed, ne_eq, Option.some.injEq]
    exact Ne.symm different
  cases finishes with
  | malformed malformed =>
      apply ChangesPending.of_same pending
      case unpresented =>
        rw [LoginEvent.presented_arrive, malformed]
        rfl
      case unpassed => rfl
  | refused formed =>
      constructor
      case bounded =>
        intro bound
        rw [pending]
        exact fewer.trans bound
      case found =>
        intro other entry held
        rw [pending] at held
        exact .inr (kept formed other entry held)
      case passes =>
        intro other entry passed
        cases passed
  | passed formed held same =>
      constructor
      case bounded =>
        intro bound
        rw [pending]
        exact fewer.trans bound
      case found =>
        intro other entry held
        rw [pending] at held
        exact .inr (kept formed other entry held)
      case passes =>
        intro other entry passed
        cases passed
        obtain ⟨before, early⟩ := OidcManager.lookup_purge.mp held
        subst same
        exact ⟨before, now, rfl, early⟩

/-- Every step changes the pending logins in one of these ways. -/
theorem LoginConsole.changesPending (console : LoginConsole) (state : LoginState)
    (call : LoginCall) :
    console.ChangesPending state (console.event state call) (console.step state call).1 := by
  cases call with
  | begin peer cookie csrf previousCookie loaded draws now =>
      exact pending_begin peer cookie csrf previousCookie loaded draws now
  | arrive peer token code currentCookie now =>
      exact pending_arrive peer token code currentCookie now
  | operate call => exact .of_same rfl rfl rfl
  | proceed place provider now draws =>
      apply ChangesPending.of_same
      case same =>
        simp only [LoginConsole.step]
        split
        · unfold LoginConsole.proceed
          split
          · split <;> rfl
          · split <;> rfl
          · rfl
          · rfl
        · rfl
      case unpresented => rfl
      case unpassed => rfl

/-- A step which takes one callback on, without a new one. -/
theorem LoginState.callbacks_set {callbacks : List Callback} {place : Nat} {callback : Callback}
    (held : callbacks[place]? = some callback) {phase : CallbackPhase}
    (consistent : callback.Consistent → { callback with phase }.Consistent) :
    ∀ other ∈ callbacks.set place { callback with phase }, ∃ before ∈ callbacks,
      before.pending = other.pending ∧ (before.Consistent → other.Consistent) := by
  intro other member
  rcases List.mem_or_eq_of_mem_set member with inside | rfl
  · exact ⟨other, inside, rfl, id⟩
  · exact ⟨callback, List.mem_of_getElem? held, rfl, consistent⟩

/-- A callback which goes on hands only its own pending login to the provider. -/
theorem LoginConsole.ChangesSessions.of_set {event : LoginEvent} {next : LoginState} {place : Nat}
    {callback : Callback} (held : state.callbacks[place]? = some callback) {phase : CallbackPhase}
    (moved : next.callbacks = state.callbacks.set place { callback with phase })
    (consistent : callback.Consistent → { callback with phase }.Consistent)
    (logins : ∀ previous, event.login = some previous → ∃ identity,
      callback.phase = .recognized identity ∧ previous = callback.previous identity)
    (identifies : event.identifies = none ∨ event.identifies = some callback.pending)
    (operation : (event.operation = none ∧ next.auth = state.auth) ∨
      ∃ call, event.operation = some (console.store.event state.auth call) ∧
        next.auth = (console.store.perform state.auth call).1) :
    console.ChangesSessions state event next where
  callbacks := by
    rw [moved]
    exact fun other member => .inl (LoginState.callbacks_set held consistent other member)
  logins := by
    intro previous login
    exact ⟨callback, List.mem_of_getElem? held, logins previous login⟩
  identifies := by
    intro pending identified
    refine ⟨callback, List.mem_of_getElem? held, ?_⟩
    rcases identifies with none | own
    · rw [none] at identified
      cases identified
    · exact Option.some.inj (own.symm.trans identified)
  operation := operation

/-- A step which takes no callback on. -/
theorem LoginConsole.ChangesSessions.of_same {event : LoginEvent} {next : LoginState}
    (same : next.callbacks = state.callbacks) (login : event.login = none)
    (identifies : event.identifies = none)
    (operation : (event.operation = none ∧ next.auth = state.auth) ∨
      ∃ call, event.operation = some (console.store.event state.auth call) ∧
        next.auth = (console.store.perform state.auth call).1) :
    console.ChangesSessions state event next where
  callbacks := by
    rw [same]
    exact fun callback member => .inl ⟨callback, member, rfl, id⟩
  logins := by
    intro previous logged
    rw [login] at logged
    cases logged
  identifies := by
    intro pending identified
    rw [identifies] at identified
    cases identified
  operation := operation

theorem LoginConsole.sessions_proceed (place : Nat) (provider : ProviderAnswers) (now : Instant)
    (draws : Draws) :
    console.ChangesSessions state (console.event state (.proceed place provider now draws))
      (console.step state (.proceed place provider now draws)).1 := by
  cases held : state.callbacks[place]? with
  | none =>
      have idle : console.step state (.proceed place provider now draws) = (state, .idle) := by
        simp only [LoginConsole.step, held]
      rw [LoginConsole.event, idle]
      exact .of_same rfl rfl rfl (.inl ⟨rfl, rfl⟩)
  | some callback =>
      have goes : console.step state (.proceed place provider now draws) =
          console.proceed state place callback provider now draws := by
        simp only [LoginConsole.step, held]
      rw [LoginConsole.event, goes]
      unfold LoginConsole.proceed
      dsimp only
      split
      · rename_i code phase
        split
        · rename_i identity identified
          apply ChangesSessions.of_set held rfl
          case consistent =>
            intro _ other phases
            rcases phases with same | same <;> cases same
            exact OidcManager.previousCookie_of_identify identified
          case logins =>
            intro previous login
            cases login
          case identifies => exact .inr rfl
          case operation => exact .inl ⟨rfl, rfl⟩
        · apply ChangesSessions.of_set held rfl
          case consistent =>
            intro _ other phases
            rcases phases with same | same <;> cases same
          case logins =>
            intro previous login
            cases login
          case identifies => exact .inr rfl
          case operation => exact .inl ⟨rfl, rfl⟩
      · rename_i identity phase
        have consistent : callback.Consistent →
            { callback with phase := .recognized identity }.Consistent := by
          intro before other phases
          rcases phases with same | same <;> cases same
          exact before identity (.inl phase)
        split
        · apply ChangesSessions.of_set held rfl consistent
          case logins =>
            intro previous login
            cases login
          case identifies => exact .inl rfl
          case operation => exact .inl ⟨rfl, rfl⟩
        · rename_i previous _
          apply ChangesSessions.of_set held rfl consistent
          case logins =>
            intro previous login
            cases login
          case identifies => exact .inl rfl
          case operation => exact .inr ⟨_, rfl, rfl⟩
      · rename_i identity phase
        apply ChangesSessions.of_set held rfl
        case consistent =>
          intro _ other phases
          rcases phases with same | same <;> cases same
        case logins =>
          intro previous login
          exact ⟨identity, phase, (Option.some.inj login).symm⟩
        case identifies => exact .inl rfl
        case operation => exact .inr ⟨_, rfl, rfl⟩
      · exact .of_same rfl rfl rfl (.inl ⟨rfl, rfl⟩)

/-- Every step changes the callbacks and the sessions in one of these ways. -/
theorem LoginConsole.changesSessions (console : LoginConsole) (state : LoginState)
    (call : LoginCall) :
    console.ChangesSessions state (console.event state call) (console.step state call).1 := by
  cases call with
  | begin peer cookie csrf previousCookie loaded draws now =>
      exact .of_same rfl rfl rfl (.inl ⟨rfl, rfl⟩)
  | arrive peer token code currentCookie now =>
      constructor
      case callbacks =>
        simp only [LoginConsole.event, LoginConsole.step]
        cases (console.manager.finish state.pending peer token code now).2 with
        | error error => exact fun callback member => .inl ⟨callback, member, rfl, id⟩
        | ok pending =>
            intro callback member
            rcases List.mem_append.mp member with before | added
            · exact .inl ⟨callback, before, rfl, id⟩
            · rw [List.mem_singleton.mp added]
              refine .inr ⟨⟨token, rfl⟩, fun identity phases => ?_⟩
              rcases phases with same | same <;> cases same
      case logins =>
        intro previous login
        cases login
      case identifies =>
        intro pending identified
        cases identified
      case operation => exact .inl ⟨rfl, rfl⟩
  | operate call => exact .of_same rfl rfl rfl (.inr ⟨call, rfl, rfl⟩)
  | proceed place provider now draws => exact sessions_proceed place provider now draws

/-! ## Runs -/

theorem operationsOf_concat (past : List LoginEvent) (event : LoginEvent) :
    operationsOf (past ++ [event]) = operationsOf past ++ event.operation.toList := by
  rw [operationsOf, List.filterMap_append]
  rfl

/-- A state which passes was presented by a well formed callback. -/
theorem LoginConsole.presented_of_passes {call : LoginCall} {token : String} {pending : Pending}
    (passed : (console.event state call).passes = some (token, pending)) :
    (console.event state call).presented = some token := by
  cases call with
  | arrive peer state' code currentCookie now =>
      have finishes := console.manager.finishes_finish state.pending peer state' code now
      have shape : console.event state (.arrive peer state' code currentCookie now) =
        ⟨.arrive peer state' code currentCookie now,
          .arrived (console.manager.finish state.pending peer state' code now).2⟩ := rfl
      rw [shape] at passed ⊢
      generalize console.manager.finish state.pending peer state' code now = outcome at *
      cases finishes with
      | malformed malformed => cases passed
      | refused formed => cases passed
      | passed formed held same =>
          cases passed
          rw [LoginEvent.presented_arrive, if_pos formed]
  | begin peer cookie csrf previousCookie loaded draws now => cases passed
  | proceed place provider now draws => cases passed
  | operate call => cases passed

theorem LoginConsole.Holds.guards (holds : console.Holds past state) (call : LoginCall) :
    console.Guards past (console.event state call) := by
  have pending := console.changesPending state call
  have sessions := console.changesSessions state call
  constructor
  case passes =>
    intro token entry passed
    obtain ⟨held, now, visit, early⟩ := pending.passes token entry passed
    exact ⟨(holds.begun token entry held).1, now, visit, lt_add_of_tsub_lt_left early⟩
  case consumed =>
    intro token entry passed
    obtain ⟨held, _⟩ := pending.passes token entry passed
    exact (holds.begun token entry held).2
  case once =>
    intro token entry passed earlier member other again
    obtain ⟨held, _⟩ := pending.passes token entry passed
    exact (holds.begun token entry held).2 earlier member
      (holds.presented earlier member token other again)
  case identifies =>
    intro entry identified
    obtain ⟨callback, member, rfl⟩ := sessions.identifies entry identified
    exact (holds.taken callback member).1
  case logins =>
    intro previous login
    obtain ⟨callback, member, identity, phase, rfl⟩ := sessions.logins previous login
    obtain ⟨⟨earlier, inPast, token, passed⟩, consistent⟩ := holds.taken callback member
    refine ⟨earlier, inPast, token, callback.pending, passed, fun cookie named => ?_⟩
    rw [Callback.previous, consistent identity (.inr phase), named]
    rfl
  case replaced =>
    intro operation cookie performed accepted
    rcases sessions.operation with ⟨none, _⟩ | ⟨authCall, some, _⟩
    · rw [none] at performed
      cases performed
    · obtain rfl := Option.some.inj (some.symm.trans performed)
      exact holds.unrevoked.accepted accepted

theorem LoginConsole.Holds.step (holds : console.Holds past state) {call : LoginCall}
    (fresh : LoginEvent.Fresh past (console.event state call)) :
    console.Holds (past ++ [console.event state call]) (console.step state call).1 := by
  have pending := console.changesPending state call
  have sessions := console.changesSessions state call
  constructor
  case bounded => exact pending.bounded holds.bounded
  case begun =>
    intro token entry held
    rcases pending.found token entry held with ⟨begins, drawn, unpresented⟩ | ⟨before, other⟩
    · refine ⟨⟨_, List.mem_concat_self, begins⟩, fun earlier member presented => ?_⟩
      rw [List.mem_append, List.mem_singleton] at member
      rcases member with inPast | rfl
      · exact (fresh.state token drawn earlier inPast).2 (LoginEvent.named_of_presented presented)
      · rw [unpresented] at presented
        cases presented
    · obtain ⟨⟨begun, member, begins⟩, unpresented⟩ := holds.begun token entry before
      refine ⟨⟨begun, List.mem_append_left _ member, begins⟩, fun earlier member presented => ?_⟩
      rw [List.mem_append, List.mem_singleton] at member
      rcases member with inPast | rfl
      · exact unpresented earlier inPast presented
      · exact other presented
  case presented =>
    intro earlier member token entry passed
    rw [List.mem_append, List.mem_singleton] at member
    rcases member with inPast | rfl
    · exact holds.presented earlier inPast token entry passed
    · exact LoginConsole.presented_of_passes passed
  case taken =>
    intro callback member
    rcases sessions.callbacks callback member with
      ⟨before, inside, same, kept⟩ | ⟨⟨token, passed⟩, consistent⟩
    · obtain ⟨⟨earlier, inPast, token, passed⟩, consistent⟩ := holds.taken before inside
      exact ⟨⟨earlier, List.mem_append_left _ inPast, token, same ▸ passed⟩, kept consistent⟩
    · exact ⟨⟨_, List.mem_concat_self, token, passed⟩, consistent⟩
  case unrevoked =>
    rw [operationsOf_concat]
    rcases sessions.operation with ⟨none, same⟩ | ⟨authCall, some, performed⟩
    · rw [none, same, Option.toList_none, List.append_nil]
      exact holds.unrevoked
    · rw [some, performed, Option.toList_some]
      exact holds.unrevoked.step (fresh.session _ some)

theorem LoginConsole.holds_initial (console : LoginConsole) : console.Holds [] .initial where
  bounded := Nat.zero_le _
  begun := by
    intro token pending held
    cases held
  presented := by
    intro earlier member
    cases member
  taken := by
    intro callback member
    cases member
  unrevoked := by
    intro cookie session held
    cases held

end Steps

/-- In every interleaving of logins, callbacks and operations on the sessions, with fresh tokens: no
more logins are pending than the limit of sessions; a state token passes at most once, for the peer
which began it, in time, with what that login drew, and not after any well formed callback which
named it; the provider is only asked about logins which passed; and a cookie which a login named as
the previous one is never accepted again. -/
theorem LoginConsole.callbacks_guarded (console : LoginConsole) (calls : List LoginCall)
    (fresh : Throughout LoginEvent.Fresh (serve console.step .initial calls).1) :
    (serve console.step .initial calls).2.pending.keys.length ≤
        console.manager.limits.maxSessions ∧
      Throughout console.Guards (serve console.step .initial calls).1 ∧
      ∀ token, ((serve console.step .initial calls).1.filter fun event =>
        (LoginEvent.passes event).any fun passed => passed.1 == token).length ≤ 1 := by
  have kept : ∀ past state call, console.Holds past state →
      LoginEvent.Fresh past (console.event state call) →
      console.Guards past (console.event state call) ∧
        console.Holds (past ++ [console.event state call]) (console.step state call).1 :=
    fun past state call held unseen => ⟨held.guards call, held.step unseen⟩
  obtain ⟨guards, holds⟩ := serve_keeps kept console.holds_initial fresh
  refine ⟨holds.bounded, guards, fun token => Throughout.length_filter_le_one ?_⟩
  intro before event after split passed earlier member
  rw [Option.any_eq_true] at passed
  obtain ⟨⟨named, pending⟩, passed, same⟩ := passed
  obtain rfl : named = token := by simpa using same
  rw [Option.any_eq_false]
  rintro ⟨other, entry⟩ again
  have different := (guards before event after split).once named pending passed earlier member
  rw [beq_eq_false_iff_ne]
  rintro rfl
  exact different entry again

/-- A console with the default limits, and the challenge of the verifier which is drawn below. -/
def sampleLogin : LoginConsole where
  manager :=
    { limits := .default, loginCookie := "login", loginCsrf := "form"
      challenge := fun _ => "E9Melhoa2OwvFrEMTJguCHaoeK1t8URWbuGJSstw-cM" }
  store := sampleSessions

/-- A state token. -/
def sampleState : String := String.ofList (List.replicate 43 'A')

/-- A login, a callback of another peer without a code, and the callback of the peer. -/
def sampleCallbacks : List LoginCall :=
  [.begin (.v4 1) "login" "form" none (.ok ())
      ⟨some sampleState, some "nonce", some "dBjftJeZ4CVP-mB92K27uhbUJU1p1r_wW1gFWFOEjXk"⟩ 1,
    .arrive (.v4 2) sampleState "" none 2,
    .arrive (.v4 1) sampleState "code" none 3]

/-- A step which draws nothing is fresh. -/
theorem LoginEvent.fresh_of_silent {past : List LoginEvent} {event : LoginEvent}
    (undrawn : event.drawn = none) (passive : event.operation = none) : event.Fresh past where
  state := by simp [undrawn]
  session := by simp [passive]

theorem sampleCallbacks_fresh :
    Throughout LoginEvent.Fresh (serve sampleLogin.step .initial sampleCallbacks).1 := by
  apply throughout_cons
  case first =>
    constructor
    case state =>
      intro token _ earlier member
      cases member
    case session =>
      intro operation performed
      cases performed
  case later =>
    apply throughout_cons
    case first => exact LoginEvent.fresh_of_silent rfl rfl
    case later =>
      apply throughout_cons
      case first => exact LoginEvent.fresh_of_silent rfl rfl
      case later => exact throughout_nil _

theorem sampleCallbacks_guarded :
    (serve sampleLogin.step .initial sampleCallbacks).2.pending.keys.length ≤
        sampleLogin.manager.limits.maxSessions ∧
      Throughout sampleLogin.Guards (serve sampleLogin.step .initial sampleCallbacks).1 ∧
      ∀ token, ((serve sampleLogin.step .initial sampleCallbacks).1.filter fun event =>
        (LoginEvent.passes event).any fun passed => passed.1 == token).length ≤ 1 :=
  sampleLogin.callbacks_guarded sampleCallbacks sampleCallbacks_fresh

/-- Every callback of another peer consumes a state token, so that it never passes afterwards. -/
def ConsumedByOthers (past : List LoginEvent) (event : LoginEvent) : Prop :=
  ∀ token pending, event.passes = some (token, pending) →
    ∀ earlier ∈ past, earlier.named = some token → ∀ peer now,
      earlier.visit = some (peer, now) → peer = pending.peer

/-- A callback without a code is refused before its state is looked up. -/
theorem sampleCallbacks_unconsumed :
    Throughout LoginEvent.Fresh (serve sampleLogin.step .initial sampleCallbacks).1 ∧
      ¬ Throughout ConsumedByOthers (serve sampleLogin.step .initial sampleCallbacks).1 := by
  refine ⟨sampleCallbacks_fresh, fun consumed => ?_⟩
  have last := consumed [_, _] _ [] rfl sampleState
    ⟨.v4 1, "nonce", "dBjftJeZ4CVP-mB92K27uhbUJU1p1r_wW1gFWFOEjXk", 1, none⟩ (by decide)
  have same := last _ (List.mem_cons_of_mem _ List.mem_cons_self) rfl (.v4 2) 2 rfl
  cases same

end ImmichRs.Web
