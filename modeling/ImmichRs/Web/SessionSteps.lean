import ImmichRs.Interaction.Machine
import ImmichRs.Web.Sessions

/-!
# Operations of the authentication store

The operations on the store as calls with replies, what an event tells of a cookie, and what one
operation can do to the sessions and to the bootstrap secret.
-/

namespace ImmichRs.Web

open Collections Interaction

/-- One operation on the store. -/
inductive AuthOperation
  | pairing
  | pair (source : IpAddr) (cookieToken csrfToken suppliedSecret : String)
  | authenticate (cookieToken : String)
  | establishOidc (principal : String) (previousCookie : Option String)
  | authenticateCsrf (cookieToken csrfToken : String)
  | validBinding (cookieToken : String) (binding : Owner)
  | activeSessionCount
  | logout (cookieToken csrfToken : String)
  deriving DecidableEq

/-- The session cookie which an operation presents. -/
def AuthOperation.presented : AuthOperation → Option String
  | .authenticate cookie => some cookie
  | .establishOidc _ previous => previous
  | .authenticateCsrf cookie _ => some cookie
  | .validBinding cookie _ => some cookie
  | .logout cookie _ => some cookie
  | _ => none

/-- An operation at an instant, with the randomness which it would be given. -/
structure AuthCall where
  now : Instant
  operation : AuthOperation
  draws : Draws
  deriving DecidableEq

/-- What an operation returns. -/
inductive AuthReply
  | pairing (view : Option PairingView)
  | paired (result : Except PairingFailure EstablishedSession)
  | authenticated (session : Option SessionView)
  | established (result : Except String EstablishedSession)
  | confirmed (authenticated session : Option SessionView)
  | bound (valid : Bool)
  | counted (sessions : Nat)
  | loggedOut (valid : Bool)

/-- One operation, under the store's lock. -/
def AuthStore.perform (store : AuthStore) (state : AuthState) (call : AuthCall) :
    AuthState × AuthReply :=
  match call.operation with
  | .pairing => (AuthStore.pairing state call.now).map id .pairing
  | .pair source cookie csrf secret =>
      (store.pair state source cookie csrf secret call.now call.draws).map id .paired
  | .authenticate cookie => (store.authenticate state cookie call.now).map id .authenticated
  | .establishOidc principal previous =>
      (store.establishOidc state principal previous call.now call.draws).map id .established
  | .authenticateCsrf cookie csrf =>
      (store.authenticateCsrf state cookie csrf call.now).map id fun views =>
        .confirmed views.1 views.2
  | .validBinding cookie binding =>
      (store.validBinding state cookie binding call.now).map id .bound
  | .activeSessionCount => (store.activeSessionCount state call.now).map id .counted
  | .logout cookie csrf => (store.logout state cookie csrf call.now).map id .loggedOut

/-- An operation and what it returned. -/
abbrev AuthEvent : Type := Exchange AuthCall AuthReply

namespace AuthEvent

/-- The cookie of the session which an event establishes. -/
def established (event : AuthEvent) : Option String :=
  match event.reply with
  | .paired (.ok session) => some session.cookieToken
  | .established (.ok session) => some session.cookieToken
  | _ => none

/-- Whether an event exchanges the bootstrap secret for a session. -/
def pairs (event : AuthEvent) : Bool :=
  match event.reply with
  | .paired (.ok _) => true
  | _ => false

/-- The cookie which `authenticate` accepts, called by itself or by `authenticate_csrf`. -/
def authenticated (event : AuthEvent) : Option String :=
  match event.call.operation, event.reply with
  | .authenticate cookie, .authenticated (some _) => some cookie
  | .authenticateCsrf cookie _, .confirmed (some _) _ => some cookie
  | _, _ => none

/-- The cookie which an event accepts. -/
def accepted (event : AuthEvent) : Option String :=
  match event.call.operation, event.reply with
  | .authenticate cookie, .authenticated (some _) => some cookie
  | .authenticateCsrf cookie _, .confirmed (some _) _ => some cookie
  | .validBinding cookie _, .bound true => some cookie
  | .logout cookie _, .loggedOut true => some cookie
  | _, _ => none

/-- The cookie which an event gives up: it is logged out, or named as the previous cookie of a
login. -/
def revoked (event : AuthEvent) : Option String :=
  match event.call.operation, event.reply with
  | .logout cookie _, .loggedOut true => some cookie
  | .establishOidc _ previous, _ => previous
  | _, _ => none

/-- The source whose pairing attempt was evaluated and found wrong. -/
def wrongAttempt (event : AuthEvent) : Option IpAddr :=
  match event.call.operation, event.reply with
  | .pair source _ _ _, .paired (.error .invalidCsrf) => some source
  | .pair source _ _ _, .paired (.error .denied) => some source
  | _, _ => none

theorem accepted_bound (now : Instant) (cookie : String) (binding : Owner) (draws : Draws)
    (valid : Bool) :
    accepted ⟨⟨now, .validBinding cookie binding, draws⟩, .bound valid⟩ =
      if valid then some cookie else none := by
  cases valid <;> rfl

theorem accepted_loggedOut (now : Instant) (cookie csrf : String) (draws : Draws) (valid : Bool) :
    accepted ⟨⟨now, .logout cookie csrf, draws⟩, .loggedOut valid⟩ =
      if valid then some cookie else none := by
  cases valid <;> rfl

theorem revoked_loggedOut (now : Instant) (cookie csrf : String) (draws : Draws) (valid : Bool) :
    revoked ⟨⟨now, .logout cookie csrf, draws⟩, .loggedOut valid⟩ =
      if valid then some cookie else none := by
  cases valid <;> rfl

end AuthEvent

/-! ## What one operation can do -/

/-- How an operation changes the sessions. -/
structure AuthStore.ChangesSessions (store : AuthStore) (state : AuthState) (event : AuthEvent)
    (next : AuthState) : Prop where
  accepts : ∀ cookie, event.accepted = some cookie → ∃ session,
    state.sessions.lookup cookie = some session ∧ store.live event.call.now session = true
  bounded : state.sessions.keys.length ≤ store.limits.maxSessions →
    next.sessions.keys.length ≤ store.limits.maxSessions
  found : ∀ cookie session, next.sessions.lookup cookie = some session →
    (event.established = some cookie ∧ event.call.draws.cookie = some cookie ∧
      session.createdAt = event.call.now ∧ session.lastSeenAt = event.call.now) ∨
    (event.established ≠ some cookie ∧ event.revoked ≠ some cookie ∧ ∃ old,
      state.sessions.lookup cookie = some old ∧ session.createdAt = old.createdAt ∧
        session.lastSeenAt =
          if event.authenticated = some cookie then event.call.now else old.lastSeenAt)

/-- How an operation changes the wrong attempts which the bootstrap secret remembers. -/
inductive Bootstrap.Remembers (before after : Bootstrap) (event : AuthEvent) (source : IpAddr) :
    Prop
  | unchanged (other : event.wrongAttempt ≠ some source)
      (same : after.failuresOf source = before.failuresOf source)
  | aged (other : event.wrongAttempt ≠ some source)
      (fewer : after.failuresOf source =
        recent pairingFailureWindow event.call.now (before.failuresOf source))
  | recorded (wrong : event.wrongAttempt = some source)
      (room : (recent pairingFailureWindow event.call.now (before.failuresOf source)).length <
        maxPairingFailures)
      (more : after.failuresOf source =
        recent pairingFailureWindow event.call.now (before.failuresOf source) ++ [event.call.now])

/-- How an operation changes the bootstrap secret. -/
structure AuthStore.ChangesBootstrap (state : AuthState) (event : AuthEvent) (next : AuthState) :
    Prop where
  pairs : event.pairs = true → state.bootstrap.isSome ∧ next.bootstrap = none
  wrong : ∀ source, event.wrongAttempt = some source → next.bootstrap.isSome
  kept : ∀ after, next.bootstrap = some after → ∃ before, state.bootstrap = some before ∧
    ∀ source, before.Remembers after event source

section Steps

variable {store : AuthStore} {state : AuthState} {now : Instant} {draws : Draws}

/-- The event of a call. -/
def AuthStore.event (store : AuthStore) (state : AuthState) (call : AuthCall) : AuthEvent :=
  { call, reply := (store.perform state call).2 }

theorem AuthStore.lookup_expireSessions {sessions : Keyed String Session} {cookie : String}
    {session : Session} :
    (store.expireSessions sessions now).lookup cookie = some session ↔
      sessions.lookup cookie = some session ∧ store.live now session = true :=
  Keyed.lookup_retain

theorem AuthStore.length_expireSessions_le (store : AuthStore) (sessions : Keyed String Session)
    (now : Instant) : (store.expireSessions sessions now).keys.length ≤ sessions.keys.length :=
  Keyed.length_keys_retain_le _ _

/-- An operation which adds no session, and drops those which it gives up. -/
theorem AuthStore.ChangesSessions.of_subset {event : AuthEvent} {next : AuthState}
    (accepts : ∀ cookie, event.accepted = some cookie → ∃ session,
      state.sessions.lookup cookie = some session ∧ store.live event.call.now session = true)
    (fewer : next.sessions.keys.length ≤ state.sessions.keys.length)
    (absent : event.established = none) (passive : event.authenticated = none)
    (kept : ∀ cookie session, next.sessions.lookup cookie = some session →
      event.revoked ≠ some cookie ∧ state.sessions.lookup cookie = some session) :
    store.ChangesSessions state event next where
  accepts := accepts
  bounded := fewer.trans
  found := by
    intro cookie session held
    obtain ⟨unrevoked, before⟩ := kept cookie session held
    rw [absent, passive]
    exact .inr ⟨by simp, unrevoked, session, before, rfl, by simp⟩

theorem AuthStore.changes_pairing :
    store.ChangesSessions state (store.event state ⟨now, .pairing, draws⟩)
      (store.perform state ⟨now, .pairing, draws⟩).1 := by
  have same : (store.perform state ⟨now, .pairing, draws⟩).1.sessions = state.sessions := by
    simp only [AuthStore.perform, AuthStore.pairing, Prod.map_fst, id_eq]
    split
    · rfl
    · split <;> rfl
  apply ChangesSessions.of_subset
  case accepts =>
    intro cookie accepted
    cases accepted
  case fewer => rw [same]
  case absent => rfl
  case passive => rfl
  case kept =>
    intro cookie session held
    rw [same] at held
    exact ⟨by simp [AuthEvent.revoked, AuthStore.event], held⟩

/-- A live session stays, seen now if the event authenticates it. -/
theorem AuthStore.changes_authenticated {event : AuthEvent} {cookie : String}
    (absent : event.established = none) (unrevoked : event.revoked = none)
    (accepts : event.accepted = event.authenticated)
    (authenticated : event.authenticated =
      (store.authenticate state cookie event.call.now).2.map fun _ => cookie) :
    store.ChangesSessions state event (store.authenticate state cookie event.call.now).1 := by
  have fewer := store.length_expireSessions_le state.sessions event.call.now
  unfold AuthStore.authenticate at authenticated ⊢
  dsimp only at authenticated ⊢
  cases found : (store.expireSessions state.sessions event.call.now).lookup cookie with
  | none =>
      rw [found] at authenticated
      refine ChangesSessions.of_subset ?accepts fewer absent authenticated ?kept
      case kept =>
        intro other session held
        rw [unrevoked]
        exact ⟨by simp, (lookup_expireSessions.mp held).1⟩
      case accepts =>
        intro other accepted
        rw [accepts, authenticated] at accepted
        cases accepted
  | some session =>
      rw [found, Option.map_some] at authenticated
      obtain ⟨before, live⟩ := lookup_expireSessions.mp found
      constructor
      case accepts =>
        intro other accepted
        rw [accepts, authenticated, Option.some.injEq] at accepted
        subst accepted
        exact ⟨session, before, live⟩
      case bounded =>
        intro bound
        rw [Keyed.length_keys_insert_of_mem (Keyed.mem_of_lookup found)]
        exact fewer.trans bound
      case found =>
        intro other kept held
        rw [absent, unrevoked, authenticated]
        refine .inr ⟨by simp, by simp, ?_⟩
        rcases Keyed.lookup_insert_cases held with ⟨rfl, rfl⟩ | ⟨different, held⟩
        · exact ⟨session, before, rfl, (if_pos rfl).symm⟩
        · refine ⟨kept, (lookup_expireSessions.mp held).1, rfl, (if_neg ?_).symm⟩
          rw [Option.some.injEq]
          exact Ne.symm different

theorem AuthStore.changes_authenticate (cookie : String) :
    store.ChangesSessions state (store.event state ⟨now, .authenticate cookie, draws⟩)
      (store.perform state ⟨now, .authenticate cookie, draws⟩).1 := by
  apply AuthStore.changes_authenticated
  case absent => rfl
  case unrevoked => rfl
  case accepts =>
    simp only [AuthEvent.accepted, AuthEvent.authenticated, AuthStore.event, AuthStore.perform,
      Prod.map_snd]
    cases (store.authenticate state cookie now).2 <;> rfl
  case authenticated =>
    simp only [AuthEvent.authenticated, AuthStore.event, AuthStore.perform, Prod.map_snd]
    cases (store.authenticate state cookie now).2 <;> rfl

theorem AuthStore.changes_authenticateCsrf (cookie csrf : String) :
    store.ChangesSessions state (store.event state ⟨now, .authenticateCsrf cookie csrf, draws⟩)
      (store.perform state ⟨now, .authenticateCsrf cookie csrf, draws⟩).1 := by
  apply AuthStore.changes_authenticated
  case absent => rfl
  case unrevoked => rfl
  case accepts =>
    simp only [AuthEvent.accepted, AuthEvent.authenticated, AuthStore.event, AuthStore.perform,
      AuthStore.authenticateCsrf, Prod.map_snd]
    cases (store.authenticate state cookie now).2 <;> rfl
  case authenticated =>
    simp only [AuthEvent.authenticated, AuthStore.event, AuthStore.perform, Prod.map_snd,
      AuthStore.authenticateCsrf]
    cases (store.authenticate state cookie now).2 <;> rfl

/-- An operation which only looks for expired sessions. -/
theorem AuthStore.changes_expire {event : AuthEvent} {next : AuthState}
    (sessions : next.sessions = store.expireSessions state.sessions event.call.now)
    (accepts : ∀ cookie, event.accepted = some cookie →
      ∃ session, next.sessions.lookup cookie = some session)
    (absent : event.established = none) (passive : event.authenticated = none)
    (unrevoked : event.revoked = none) : store.ChangesSessions state event next := by
  apply ChangesSessions.of_subset
  case accepts =>
    intro cookie accepted
    obtain ⟨session, held⟩ := accepts cookie accepted
    rw [sessions] at held
    exact ⟨session, lookup_expireSessions.mp held⟩
  case fewer =>
    rw [sessions]
    exact store.length_expireSessions_le _ _
  case absent => exact absent
  case passive => exact passive
  case kept =>
    intro cookie session held
    rw [sessions] at held
    rw [unrevoked]
    exact ⟨by simp, (lookup_expireSessions.mp held).1⟩

/-- A session which passes a test is there. -/
theorem AuthStore.exists_of_any {sessions : Keyed String Session} {cookie : String}
    {test : Session → Bool} (passed : (sessions.lookup cookie).any test = true) :
    ∃ session, sessions.lookup cookie = some session := by
  cases found : sessions.lookup cookie with
  | none =>
      rw [found] at passed
      cases passed
  | some session => exact ⟨session, rfl⟩

theorem AuthStore.changes_validBinding (cookie : String) (binding : Owner) :
    store.ChangesSessions state (store.event state ⟨now, .validBinding cookie binding, draws⟩)
      (store.perform state ⟨now, .validBinding cookie binding, draws⟩).1 := by
  have shape : store.event state ⟨now, .validBinding cookie binding, draws⟩ =
    ⟨⟨now, .validBinding cookie binding, draws⟩,
      .bound (store.validBinding state cookie binding now).2⟩ := rfl
  apply AuthStore.changes_expire
  case sessions => rfl
  case accepts =>
    intro other accepted
    rw [shape, AuthEvent.accepted_bound, Option.ite_none_right_eq_some,
      Option.some.injEq] at accepted
    obtain ⟨valid, rfl⟩ := accepted
    exact AuthStore.exists_of_any valid
  case absent => rfl
  case passive => rfl
  case unrevoked => rfl

theorem AuthStore.changes_activeSessionCount :
    store.ChangesSessions state (store.event state ⟨now, .activeSessionCount, draws⟩)
      (store.perform state ⟨now, .activeSessionCount, draws⟩).1 := by
  apply AuthStore.changes_expire
  case sessions => rfl
  case accepts =>
    intro cookie accepted
    cases accepted
  case absent => rfl
  case passive => rfl
  case unrevoked => rfl

theorem AuthStore.changes_logout (cookie csrf : String) :
    store.ChangesSessions state (store.event state ⟨now, .logout cookie csrf, draws⟩)
      (store.perform state ⟨now, .logout cookie csrf, draws⟩).1 := by
  have fewer := store.length_expireSessions_le state.sessions now
  have shape : store.event state ⟨now, .logout cookie csrf, draws⟩ =
    ⟨⟨now, .logout cookie csrf, draws⟩, .loggedOut (store.logout state cookie csrf now).2⟩ := rfl
  have sessions : (store.perform state ⟨now, .logout cookie csrf, draws⟩).1.sessions =
    if (store.logout state cookie csrf now).2 then
      (store.expireSessions state.sessions now).erase cookie
    else store.expireSessions state.sessions now := rfl
  apply AuthStore.ChangesSessions.of_subset
  case accepts =>
    intro other accepted
    rw [shape, AuthEvent.accepted_loggedOut, Option.ite_none_right_eq_some,
      Option.some.injEq] at accepted
    obtain ⟨valid, rfl⟩ := accepted
    obtain ⟨session, held⟩ := AuthStore.exists_of_any valid
    exact ⟨session, lookup_expireSessions.mp held⟩
  case fewer =>
    rw [sessions]
    split
    · exact (Keyed.length_keys_erase_le _ _).trans fewer
    · exact fewer
  case absent => rfl
  case passive => rfl
  case kept =>
    intro other session held
    rw [sessions] at held
    rw [shape, AuthEvent.revoked_loggedOut]
    split at held
    · rename_i valid
      obtain ⟨different, held⟩ := Keyed.lookup_of_lookup_erase held
      rw [if_pos valid, ne_eq, Option.some.injEq]
      exact ⟨Ne.symm different, (lookup_expireSessions.mp held).1⟩
    · rename_i invalid
      rw [if_neg invalid]
      exact ⟨by simp, (lookup_expireSessions.mp held).1⟩

theorem AuthStore.lookup_withoutPrevious {sessions : Keyed String Session}
    {previous : Option String} {cookie : String} {session : Session}
    (held : (withoutPrevious sessions previous).lookup cookie = some session) :
    previous ≠ some cookie ∧ sessions.lookup cookie = some session := by
  cases previous with
  | none => exact ⟨by simp, held⟩
  | some previous =>
      obtain ⟨different, held⟩ := Keyed.lookup_of_lookup_erase held
      rw [ne_eq, Option.some.injEq]
      exact ⟨Ne.symm different, held⟩

theorem AuthStore.length_withoutPrevious_le (sessions : Keyed String Session)
    (previous : Option String) :
    (withoutPrevious sessions previous).keys.length ≤ sessions.keys.length := by
  cases previous with
  | none => exact Nat.le_refl _
  | some previous => exact Keyed.length_keys_erase_le _ _

/-- A login drops the previous session and either adds a new one, if there is room, or fails. -/
theorem AuthStore.establishOidc_cases (store : AuthStore) (state : AuthState) (principal : String)
    (previous : Option String) (now : Instant) (draws : Draws) :
    (∃ error, store.establishOidc state principal previous now draws =
      ({ state with
          sessions := withoutPrevious (store.expireSessions state.sessions now) previous },
        .error error)) ∨
    ∃ cookie session, draws.cookie = some cookie ∧ session.createdAt = now ∧
      session.lastSeenAt = now ∧
      (withoutPrevious (store.expireSessions state.sessions now) previous).keys.length <
        store.limits.maxSessions ∧
      store.establishOidc state principal previous now draws =
        ({ state with
            sessions := (withoutPrevious (store.expireSessions state.sessions now)
              previous).insert cookie session }, .ok ⟨cookie⟩) := by
  unfold AuthStore.establishOidc
  dsimp only
  split
  · exact .inl ⟨_, rfl⟩
  · rename_i room
    split
    · rename_i cookie csrf cookieDrawn csrfDrawn
      exact .inr ⟨cookie, _, cookieDrawn, rfl, rfl, Nat.lt_of_not_le room, rfl⟩
    · exact .inl ⟨_, rfl⟩

theorem AuthStore.changes_establishOidc (principal : String) (previous : Option String) :
    store.ChangesSessions state (store.event state ⟨now, .establishOidc principal previous, draws⟩)
      (store.perform state ⟨now, .establishOidc principal previous, draws⟩).1 := by
  have fewer := (length_withoutPrevious_le (store.expireSessions state.sessions now) previous).trans
    (store.length_expireSessions_le state.sessions now)
  have kept : ∀ cookie session, (withoutPrevious (store.expireSessions state.sessions now)
      previous).lookup cookie = some session →
        previous ≠ some cookie ∧ state.sessions.lookup cookie = some session := by
    intro cookie session held
    obtain ⟨different, held⟩ := lookup_withoutPrevious held
    exact ⟨different, (lookup_expireSessions.mp held).1⟩
  rcases store.establishOidc_cases state principal previous now draws with
    ⟨error, refused⟩ | ⟨cookie, session, drawn, created, seen, room, made⟩
  · have shape : store.perform state ⟨now, .establishOidc principal previous, draws⟩ =
        ({ state with
            sessions := withoutPrevious (store.expireSessions state.sessions now) previous },
          .established (.error error)) :=
      congrArg (Prod.map id AuthReply.established) refused
    rw [AuthStore.event, shape]
    apply AuthStore.ChangesSessions.of_subset
    case accepts =>
      intro cookie accepted
      cases accepted
    case fewer => exact fewer
    case absent => rfl
    case passive => rfl
    case kept => exact kept
  · have shape : store.perform state ⟨now, .establishOidc principal previous, draws⟩ =
        ({ state with
            sessions := (withoutPrevious (store.expireSessions state.sessions now)
              previous).insert cookie session }, .established (.ok ⟨cookie⟩)) :=
      congrArg (Prod.map id AuthReply.established) made
    rw [AuthStore.event, shape]
    constructor
    case accepts =>
      intro other accepted
      cases accepted
    case bounded =>
      intro _
      exact (Keyed.length_keys_insert_le _ _ _).trans room
    case found =>
      intro other found held
      rcases Keyed.lookup_insert_cases held with ⟨rfl, rfl⟩ | ⟨different, held⟩
      · exact .inl ⟨rfl, drawn, created, seen⟩
      · obtain ⟨unnamed, before⟩ := kept other found held
        refine .inr ⟨?_, unnamed, found, before, rfl, rfl⟩
        intro same
        exact different (Option.some.inj same).symm

/-! ### Pairing -/

/-- A pairing attempt is refused at once, evaluated, or accepted. -/
inductive AuthStore.Pairs (store : AuthStore) (state : AuthState) (source : IpAddr) (now : Instant)
    (draws : Draws) : AuthState × Except PairingFailure EstablishedSession → Prop
  | refused {failure : PairingFailure} (early : failure ≠ .invalidCsrf ∧ failure ≠ .denied) :
      store.Pairs state source now draws (state, .error failure)
  | expired : store.Pairs state source now draws ({ state with bootstrap := none }, .error .expired)
  | aged {bootstrap : Bootstrap} {failure : PairingFailure}
      (held : state.bootstrap = some bootstrap)
      (early : failure ≠ .invalidCsrf ∧ failure ≠ .denied) :
      store.Pairs state source now draws
        ({ state with bootstrap := some (bootstrap.withFailures source
            (retainRecentFailures (bootstrap.failuresOf source) now)) }, .error failure)
  | wrong {bootstrap : Bootstrap} {failure : PairingFailure}
      (held : state.bootstrap = some bootstrap)
      (late : failure = .invalidCsrf ∨ failure = .denied)
      (room : (retainRecentFailures (bootstrap.failuresOf source) now).length <
        maxPairingFailures) :
      store.Pairs state source now draws
        ({ state with bootstrap := some (bootstrap.withFailures source
            (recordFailure (retainRecentFailures (bootstrap.failuresOf source) now) now)) },
          .error failure)
  | paired {bootstrap : Bootstrap} {cookie : String} {session : Session}
      (held : state.bootstrap = some bootstrap) (drawn : draws.cookie = some cookie)
      (room : state.sessions.keys.length < store.limits.maxSessions)
      (created : session.createdAt = now) (seen : session.lastSeenAt = now) :
      store.Pairs state source now draws
        ({ bootstrap := none, sessions := state.sessions.insert cookie session }, .ok ⟨cookie⟩)

theorem AuthStore.pairs_pair (store : AuthStore) (state : AuthState) (source : IpAddr)
    (cookie csrf secret : String) (now : Instant) (draws : Draws) :
    store.Pairs state source now draws
      (store.pair state source cookie csrf secret now draws) := by
  unfold AuthStore.pair
  dsimp only
  split
  case isTrue => exact .refused ⟨by simp, by simp⟩
  case isFalse room =>
    split
    case h_1 => exact .refused ⟨by simp, by simp⟩
    case h_2 bootstrap held =>
      split
      case isTrue => exact .expired
      case isFalse =>
        split
        case isTrue => exact .aged held ⟨by simp, by simp⟩
        case isFalse fewer =>
          have few := Nat.lt_of_not_le fewer
          split
          case isTrue => exact .wrong held (.inl rfl) few
          case isFalse =>
            split
            case isTrue => exact .wrong held (.inr rfl) few
            case isFalse =>
              split
              case h_1 drawn _ => exact .paired held drawn (Nat.lt_of_not_le room) rfl rfl
              case h_2 => exact .aged held ⟨by simp, by simp⟩

/-- A pairing attempt which leaves the sessions alone. -/
theorem AuthStore.changes_unpaired {event : AuthEvent} {next : AuthState}
    (sessions : next.sessions = state.sessions) (accepts : event.accepted = none)
    (absent : event.established = none) (passive : event.authenticated = none)
    (unrevoked : event.revoked = none) : store.ChangesSessions state event next := by
  apply ChangesSessions.of_subset
  case accepts =>
    intro cookie accepted
    rw [accepts] at accepted
    cases accepted
  case fewer => rw [sessions]
  case absent => exact absent
  case passive => exact passive
  case kept =>
    intro cookie session held
    rw [sessions] at held
    rw [unrevoked]
    exact ⟨by simp, held⟩

theorem AuthStore.changes_pair (source : IpAddr) (cookie csrf secret : String) :
    store.ChangesSessions state (store.event state ⟨now, .pair source cookie csrf secret, draws⟩)
      (store.perform state ⟨now, .pair source cookie csrf secret, draws⟩).1 := by
  have pairs := store.pairs_pair state source cookie csrf secret now draws
  have shape : store.perform state ⟨now, .pair source cookie csrf secret, draws⟩ =
    (store.pair state source cookie csrf secret now draws).map id .paired := rfl
  rw [AuthStore.event, shape]
  generalize store.pair state source cookie csrf secret now draws = outcome at pairs
  cases pairs with
  | refused early => exact AuthStore.changes_unpaired rfl rfl rfl rfl rfl
  | expired => exact AuthStore.changes_unpaired rfl rfl rfl rfl rfl
  | aged held early => exact AuthStore.changes_unpaired rfl rfl rfl rfl rfl
  | wrong held late room => exact AuthStore.changes_unpaired rfl rfl rfl rfl rfl
  | @paired bootstrap cookie session held drawn room created seen =>
      constructor
      case accepts =>
        intro other accepted
        cases accepted
      case bounded =>
        intro _
        exact (Keyed.length_keys_insert_le _ _ _).trans room
      case found =>
        intro other found held
        rcases Keyed.lookup_insert_cases held with ⟨rfl, rfl⟩ | ⟨different, held⟩
        · exact .inl ⟨rfl, drawn, created, seen⟩
        · refine .inr ⟨?_, by simp [AuthEvent.revoked], found, held, rfl, rfl⟩
          intro same
          exact different (Option.some.inj same).symm

/-- What every operation does to the sessions. -/
theorem AuthStore.changesSessions (store : AuthStore) (state : AuthState) (call : AuthCall) :
    store.ChangesSessions state (store.event state call) (store.perform state call).1 := by
  obtain ⟨now, operation, draws⟩ := call
  cases operation with
  | pairing => exact changes_pairing
  | pair source cookie csrf secret => exact changes_pair source cookie csrf secret
  | authenticate cookie => exact changes_authenticate cookie
  | establishOidc principal previous => exact changes_establishOidc principal previous
  | authenticateCsrf cookie csrf => exact changes_authenticateCsrf cookie csrf
  | validBinding cookie binding => exact changes_validBinding cookie binding
  | activeSessionCount => exact changes_activeSessionCount
  | logout cookie csrf => exact changes_logout cookie csrf

/-- An operation which does not look at the bootstrap secret, or drops it. -/
theorem AuthStore.ChangesBootstrap.of_unchanged {event : AuthEvent} {next : AuthState}
    (unchanged : next.bootstrap = state.bootstrap ∨ next.bootstrap = none)
    (unpaired : event.pairs = false) (unwrong : event.wrongAttempt = none) :
    AuthStore.ChangesBootstrap state event next where
  pairs := by
    intro pairs
    rw [unpaired] at pairs
    cases pairs
  wrong := by
    intro source wrong
    rw [unwrong] at wrong
    cases wrong
  kept := by
    intro after held
    rcases unchanged with same | dropped
    · rw [same] at held
      exact ⟨after, held, fun source => .unchanged (by simp [unwrong]) rfl⟩
    · rw [dropped] at held
      cases held

/-- Recording a failure which leaves room appends it. -/
theorem AuthStore.recordFailure_of_lt {failures : List Instant}
    (room : failures.length < maxPairingFailures) :
    recordFailure failures now = failures ++ [now] := by
  rw [recordFailure, if_neg (Nat.ne_of_lt room)]

/-- What a refusal which was not evaluated tells. -/
theorem AuthEvent.wrongAttempt_early (now : Instant) (draws : Draws) (source : IpAddr)
    (cookie csrf secret : String) {failure : PairingFailure} (early : failure ≠ .invalidCsrf ∧ failure ≠ .denied) :
    wrongAttempt ⟨⟨now, .pair source cookie csrf secret, draws⟩, .paired (.error failure)⟩ =
      none := by
  cases failure with
  | denied => exact absurd rfl early.2
  | invalidCsrf => exact absurd rfl early.1
  | expired => rfl
  | rateLimited => rfl
  | unavailable => rfl

theorem AuthEvent.wrongAttempt_late (now : Instant) (draws : Draws) (source : IpAddr)
    (cookie csrf secret : String) {failure : PairingFailure} (late : failure = .invalidCsrf ∨ failure = .denied) :
    wrongAttempt ⟨⟨now, .pair source cookie csrf secret, draws⟩, .paired (.error failure)⟩ =
      some source := by
  rcases late with rfl | rfl <;> rfl

theorem AuthStore.bootstrap_pair (source : IpAddr) (cookie csrf secret : String) :
    ChangesBootstrap state (store.event state ⟨now, .pair source cookie csrf secret, draws⟩)
      (store.perform state ⟨now, .pair source cookie csrf secret, draws⟩).1 := by
  have pairs := store.pairs_pair state source cookie csrf secret now draws
  have shape : store.perform state ⟨now, .pair source cookie csrf secret, draws⟩ =
    (store.pair state source cookie csrf secret now draws).map id .paired := rfl
  rw [AuthStore.event, shape]
  generalize store.pair state source cookie csrf secret now draws = outcome at pairs
  cases pairs with
  | refused early =>
      exact .of_unchanged (.inl rfl) rfl (AuthEvent.wrongAttempt_early _ _ _ _ _ _ early)
  | expired => exact .of_unchanged (.inr rfl) rfl rfl
  | @aged bootstrap failure held early =>
      have unwrong := AuthEvent.wrongAttempt_early now draws source cookie csrf secret early
      constructor
      case pairs =>
        intro pairs
        cases pairs
      case wrong =>
        intro other wrong
        exact absurd (unwrong.symm.trans wrong) (by simp)
      case kept =>
        intro after kept
        obtain rfl := Option.some.inj kept
        refine ⟨bootstrap, held, fun other => ?_⟩
        have remembered := bootstrap.failuresOf_withFailures source other
          (retainRecentFailures (bootstrap.failuresOf source) now)
        split at remembered
        · rename_i same
          subst same
          exact .aged (by simp [unwrong]) remembered
        · exact .unchanged (by simp [unwrong]) remembered
  | @wrong bootstrap failure held late room =>
      have evaluated := AuthEvent.wrongAttempt_late now draws source cookie csrf secret late
      constructor
      case pairs =>
        intro pairs
        cases pairs
      case wrong => exact fun _ _ => rfl
      case kept =>
        intro after kept
        obtain rfl := Option.some.inj kept
        refine ⟨bootstrap, held, fun other => ?_⟩
        have remembered := bootstrap.failuresOf_withFailures source other
          (recordFailure (retainRecentFailures (bootstrap.failuresOf source) now) now)
        split at remembered
        · rename_i same
          subst same
          exact .recorded evaluated room (remembered.trans (recordFailure_of_lt room))
        · rename_i different
          refine .unchanged ?_ remembered
          intro same
          exact different (Option.some.inj (evaluated.symm.trans same)).symm
  | @paired bootstrap cookie session held drawn room created seen =>
      constructor
      case pairs =>
        intro _
        rw [held]
        exact ⟨rfl, rfl⟩
      case wrong =>
        intro other wrong
        cases wrong
      case kept =>
        intro after kept
        cases kept

/-- What every operation does to the bootstrap secret. -/
theorem AuthStore.changesBootstrap (store : AuthStore) (state : AuthState) (call : AuthCall) :
    ChangesBootstrap state (store.event state call) (store.perform state call).1 := by
  obtain ⟨now, operation, draws⟩ := call
  cases operation with
  | pairing =>
      refine .of_unchanged ?_ rfl rfl
      simp only [AuthStore.perform, AuthStore.pairing, Prod.map_fst, id_eq]
      split
      · exact .inl rfl
      · split
        · exact .inr rfl
        · exact .inl rfl
  | pair source cookie csrf secret => exact bootstrap_pair source cookie csrf secret
  | authenticate cookie =>
      refine .of_unchanged (.inl ?_) rfl rfl
      simp only [AuthStore.perform, AuthStore.authenticate, Prod.map_fst, id_eq]
      split <;> rfl
  | establishOidc principal previous =>
      have shape : (store.perform state ⟨now, .establishOidc principal previous, draws⟩).1 =
        (store.establishOidc state principal previous now draws).1 := rfl
      refine .of_unchanged (.inl ?_) rfl rfl
      rw [shape]
      rcases store.establishOidc_cases state principal previous now draws with
        ⟨error, refused⟩ | ⟨cookie, session, _, _, _, _, made⟩
      · rw [refused]
      · rw [made]
  | authenticateCsrf cookie csrf =>
      refine .of_unchanged (.inl ?_) rfl rfl
      simp only [AuthStore.perform, AuthStore.authenticateCsrf, AuthStore.authenticate,
        Prod.map_fst, id_eq]
      split <;> rfl
  | validBinding cookie binding => exact .of_unchanged (.inl rfl) rfl rfl
  | activeSessionCount => exact .of_unchanged (.inl rfl) rfl rfl
  | logout cookie csrf => exact .of_unchanged (.inl rfl) rfl rfl

end Steps

end ImmichRs.Web
