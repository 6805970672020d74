import ImmichRs.Executor.Config
import ImmichRs.Web.SessionSteps

/-!
# Runs of the authentication store

Any sequence of operations on the store, from its start.  A session is known by the event which
established it, so what the store guarantees of a cookie is said with the events before: when the
cookie was established, when it was last authenticated, and that it was not given up.
-/

namespace ImmichRs.Web

open Collections Interaction

/-- When the session of a cookie was created. -/
def createdAt (past : List AuthEvent) (cookie : String) : Option Instant :=
  (latest (fun event => event.established == some cookie) past).map (·.call.now)

/-- When a cookie was last authenticated or, if never, its session created. -/
def lastSeenAt (past : List AuthEvent) (cookie : String) : Option Instant :=
  (latest (fun event => event.established == some cookie ||
    event.authenticated == some cookie) past).map (·.call.now)

/-- The instants of the wrong attempts of a source. -/
def attemptsOf (past : List AuthEvent) (source : IpAddr) : List Instant :=
  (past.filter fun event => event.wrongAttempt == some source).map (·.call.now)

/-- The wrong attempts of a source in the five minutes from an instant. -/
def wrongWithin (events : List AuthEvent) (source : IpAddr) (start : Instant) : List AuthEvent :=
  events.filter fun event => event.wrongAttempt == some source &&
    decide (start ≤ event.call.now ∧ event.call.now < start + pairingFailureWindow)

/-! ## Runs -/

/-- A call comes no earlier than the calls before it. -/
def AuthCall.Ordered (past : List AuthCall) (call : AuthCall) : Prop :=
  ∀ earlier ∈ past, earlier.now ≤ call.now

/-- The session cookie which a call draws is fresh: no call has drawn or presented it, nor does
the call itself present it. -/
def AuthCall.Fresh (past : List AuthCall) (call : AuthCall) : Prop :=
  ∀ cookie, call.draws.cookie = some cookie → call.operation.presented ≠ some cookie ∧
    ∀ earlier ∈ past, earlier.draws.cookie ≠ some cookie ∧
      earlier.operation.presented ≠ some cookie

/-- No session's cookie was ever given up. -/
def AuthState.Unrevoked (past : List AuthEvent) (state : AuthState) : Prop :=
  ∀ cookie session, state.sessions.lookup cookie = some session →
    ∀ earlier ∈ past, earlier.revoked ≠ some cookie

/-- What a run has left in the store. -/
structure AuthStore.Holds (store : AuthStore) (past : List AuthEvent) (state : AuthState) :
    Prop where
  bounded : state.sessions.keys.length ≤ store.limits.maxSessions
  recorded : ∀ cookie session, state.sessions.lookup cookie = some session →
    createdAt past cookie = some session.createdAt ∧
      lastSeenAt past cookie = some session.lastSeenAt
  unrevoked : state.Unrevoked past
  unpaired : state.bootstrap.isSome → ∀ earlier ∈ past, earlier.pairs = false
  spaced : ∀ source, Spaced maxPairingFailures pairingFailureWindow (attemptsOf past source)
  remembered : ∀ bootstrap, state.bootstrap = some bootstrap → ∀ source latest,
    (∀ earlier ∈ past, earlier.call.now ≤ latest) →
      KeepsRecent pairingFailureWindow (attemptsOf past source) (bootstrap.failuresOf source) latest

/-- What the store guarantees of an event, given the events before it. -/
structure AuthStore.Guards (store : AuthStore) (past : List AuthEvent) (event : AuthEvent) :
    Prop where
  live : ∀ cookie, event.accepted = some cookie → ∃ created seen,
    createdAt past cookie = some created ∧ lastSeenAt past cookie = some seen ∧
      event.call.now < created + store.absolute ∧ event.call.now < seen + store.idle
  unrevoked : ∀ cookie, event.accepted = some cookie →
    ∀ earlier ∈ past, earlier.revoked ≠ some cookie
  once : event.pairs = true → ∀ earlier ∈ past, earlier.pairs = false

/-- A store as it starts: with a bootstrap secret, or for logins only. -/
def AuthStore.Starts (store : AuthStore) (state : AuthState) : Prop :=
  state = AuthStore.oidc ∨
    ∃ secret cookieToken csrfToken now, state = store.load secret cookieToken csrfToken now

section Runs

variable {store : AuthStore} {state : AuthState} {past : List AuthEvent} {call : AuthCall}

theorem createdAt_concat (past : List AuthEvent) (event : AuthEvent) (cookie : String) :
    createdAt (past ++ [event]) cookie =
      if event.established = some cookie then some event.call.now else createdAt past cookie := by
  rw [createdAt, latest_concat, createdAt]
  simp only [beq_iff_eq]
  split <;> rfl

theorem lastSeenAt_concat (past : List AuthEvent) (event : AuthEvent) (cookie : String) :
    lastSeenAt (past ++ [event]) cookie =
      if event.established = some cookie ∨ event.authenticated = some cookie then
        some event.call.now
      else lastSeenAt past cookie := by
  rw [lastSeenAt, latest_concat, lastSeenAt]
  simp only [Bool.or_eq_true, beq_iff_eq]
  split <;> rfl

theorem attemptsOf_concat (past : List AuthEvent) (event : AuthEvent) (source : IpAddr) :
    attemptsOf (past ++ [event]) source = attemptsOf past source ++
      if event.wrongAttempt = some source then [event.call.now] else [] := by
  rw [attemptsOf, attemptsOf, List.filter_append, List.map_append]
  congr 1
  split
  · rename_i wrong
    rw [List.filter_cons_of_pos (by simp [wrong]), List.filter_nil, List.map_singleton]
  · rename_i other
    rw [List.filter_cons_of_neg (by simp [other]), List.filter_nil, List.map_nil]

theorem attemptsOf_le {latest : Instant} (early : ∀ earlier ∈ past, earlier.call.now ≤ latest)
    (source : IpAddr) : ∀ time ∈ attemptsOf past source, time ≤ latest := by
  intro time member
  obtain ⟨event, chosen, rfl⟩ := List.mem_map.mp member
  exact early event (List.mem_filter.mp chosen).1

theorem AuthStore.holds_start (starts : store.Starts state) : store.Holds [] state := by
  have none : ∀ cookie, state.sessions.lookup cookie = none := by
    rcases starts with rfl | ⟨_, _, _, _, rfl⟩ <;> exact fun _ => rfl
  have empty : state.sessions.keys.length = 0 := by
    rcases starts with rfl | ⟨_, _, _, _, rfl⟩ <;> rfl
  constructor
  case bounded => exact empty ▸ Nat.zero_le _
  case recorded =>
    intro cookie session held
    rw [none] at held
    cases held
  case unrevoked =>
    intro cookie session held
    rw [none] at held
    cases held
  case unpaired =>
    intro _ earlier member
    cases member
  case spaced => exact fun _ => spaced_nil _ _
  case remembered =>
    intro bootstrap held source latest _
    have empty : bootstrap.failuresOf source = [] := by
      rcases starts with rfl | ⟨_, _, _, _, rfl⟩
      · cases held
      · obtain rfl := Option.some.inj held
        rfl
    rw [empty]
    exact keeps_self _ _ _

/-- A cookie is given up only by an operation which presents it. -/
theorem AuthEvent.presented_of_revoked {event : AuthEvent} {cookie : String}
    (revoked : event.revoked = some cookie) : event.call.operation.presented = some cookie := by
  obtain ⟨⟨now, operation, draws⟩, reply⟩ := event
  cases operation with
  | logout presented csrf =>
      cases reply with
      | loggedOut valid =>
          rw [revoked_loggedOut, Option.ite_none_right_eq_some] at revoked
          exact revoked.2
      | _ => cases revoked
  | establishOidc principal previous => exact revoked
  | _ => cases revoked

/-- A fresh cookie was never given up. -/
theorem AuthState.Unrevoked.step (unrevoked : state.Unrevoked past)
    (fresh : AuthCall.Fresh (past.map Exchange.call) call) :
    (store.perform state call).1.Unrevoked (past ++ [store.event state call]) := by
  intro cookie session held earlier member revoked
  rw [List.mem_append, List.mem_singleton] at member
  rcases (store.changesSessions state call).found cookie session held with
    ⟨_, drawn, _⟩ | ⟨_, kept, old, before, _⟩
  · obtain ⟨unpresented, unseen⟩ := fresh cookie drawn
    have presented := AuthEvent.presented_of_revoked revoked
    rcases member with before | rfl
    · exact (unseen earlier.call (List.mem_map_of_mem before)).2 presented
    · exact unpresented presented
  · rcases member with inPast | rfl
    · exact unrevoked cookie old before earlier inPast revoked
    · exact kept revoked

/-- A cookie which was given up is not accepted. -/
theorem AuthState.Unrevoked.accepted (unrevoked : state.Unrevoked past) {cookie : String}
    (accepted : (store.event state call).accepted = some cookie) :
    ∀ earlier ∈ past, earlier.revoked ≠ some cookie := by
  obtain ⟨session, held, _⟩ := (store.changesSessions state call).accepts cookie accepted
  exact unrevoked cookie session held

/-- An accepted cookie is guarded. -/
theorem AuthStore.Holds.guards (holds : store.Holds past state) (call : AuthCall) :
    store.Guards past (store.event state call) := by
  have changes := store.changesSessions state call
  constructor
  case live =>
    intro cookie accepted
    obtain ⟨session, held, live⟩ := changes.accepts cookie accepted
    obtain ⟨created, seen⟩ := holds.recorded cookie session held
    rw [AuthStore.live, Bool.and_eq_true, decide_eq_true_eq, decide_eq_true_eq] at live
    exact ⟨_, _, created, seen, lt_add_of_tsub_lt_left live.2, lt_add_of_tsub_lt_left live.1⟩
  case unrevoked => exact fun cookie accepted => holds.unrevoked.accepted accepted
  case once =>
    intro pairs
    exact holds.unpaired ((store.changesBootstrap state call).pairs pairs).1

/-- One more event keeps the log of the sessions. -/
theorem AuthStore.Holds.recorded_step (holds : store.Holds past state) {event : AuthEvent}
    {next : AuthState} (changes : store.ChangesSessions state event next) {cookie : String}
    {session : Session} (held : next.sessions.lookup cookie = some session) :
    createdAt (past ++ [event]) cookie = some session.createdAt ∧
      lastSeenAt (past ++ [event]) cookie = some session.lastSeenAt := by
  rw [createdAt_concat, lastSeenAt_concat]
  rcases changes.found cookie session held with
    ⟨established, _, created, seen⟩ | ⟨absent, _, old, before, created, seen⟩
  · rw [if_pos established, if_pos (Or.inl established), created, seen]
    exact ⟨rfl, rfl⟩
  · obtain ⟨createdBefore, seenBefore⟩ := holds.recorded cookie old before
    rw [if_neg absent, created, seen]
    refine ⟨createdBefore, ?_⟩
    by_cases again : event.authenticated = some cookie
    · rw [if_pos again, if_pos (Or.inr again)]
    · rw [if_neg again, if_neg (not_or.mpr ⟨absent, again⟩)]
      exact seenBefore

/-- A wrong attempt is evaluated only while fewer than five are recent. -/
theorem AuthStore.Holds.spaced_step (holds : store.Holds past state) {event : AuthEvent}
    {next : AuthState} (bootstrap : ChangesBootstrap state event next)
    (ordered : ∀ earlier ∈ past, earlier.call.now ≤ event.call.now) (source : IpAddr) :
    Spaced maxPairingFailures pairingFailureWindow (attemptsOf (past ++ [event]) source) := by
  have spaced := holds.spaced source
  have early := attemptsOf_le ordered source
  rw [attemptsOf_concat]
  split
  · rename_i wrong
    obtain ⟨after, kept⟩ := Option.isSome_iff_exists.mp (bootstrap.wrong source wrong)
    obtain ⟨before, held, remembers⟩ := bootstrap.kept after kept
    cases remembers source with
    | unchanged other same => exact absurd wrong other
    | aged other fewer => exact absurd wrong other
    | recorded _ room more =>
        have keeps := holds.remembered before held source event.call.now ordered
        exact spaced.concat (keeps.recent (Nat.le_refl _) early) room early
  · rw [List.append_nil]
    exact spaced

/-- The secret remembers every wrong attempt which is not old. -/
theorem AuthStore.Holds.remembered_step (holds : store.Holds past state) {event : AuthEvent}
    {next : AuthState} (changes : ChangesBootstrap state event next)
    (ordered : ∀ earlier ∈ past, earlier.call.now ≤ event.call.now) {after : Bootstrap}
    (kept : next.bootstrap = some after) (source : IpAddr) {latest : Instant}
    (late : ∀ earlier ∈ past ++ [event], earlier.call.now ≤ latest) :
    KeepsRecent pairingFailureWindow (attemptsOf (past ++ [event]) source) (after.failuresOf source)
      latest := by
  obtain ⟨before, held, remembers⟩ := changes.kept after kept
  have here : event.call.now ≤ latest := late event (by simp)
  have keeps := holds.remembered before held source event.call.now ordered
  have early := attemptsOf_le ordered source
  rw [attemptsOf_concat]
  cases remembers source with
  | unchanged other same =>
      rw [if_neg other, List.append_nil, same]
      exact keeps.later here
  | aged other fewer =>
      rw [if_neg other, List.append_nil, fewer]
      exact (keeps.recent (Nat.le_refl _) early).later here
  | recorded wrong room more =>
      rw [if_pos wrong, more]
      exact ((keeps.recent (Nat.le_refl _) early).later here).concat _

theorem AuthStore.Holds.step (holds : store.Holds past state)
    (ordered : AuthCall.Ordered (past.map Exchange.call) call)
    (fresh : AuthCall.Fresh (past.map Exchange.call) call) :
    store.Holds (past ++ [store.event state call]) (store.perform state call).1 := by
  have changes := store.changesSessions state call
  have bootstrap := store.changesBootstrap state call
  have earlier : ∀ event ∈ past, event.call.now ≤ call.now := fun event member =>
    ordered event.call (List.mem_map_of_mem member)
  constructor
  case bounded => exact changes.bounded holds.bounded
  case recorded => exact fun cookie session held => holds.recorded_step changes held
  case unrevoked => exact holds.unrevoked.step fresh
  case unpaired =>
    intro open' event member
    obtain ⟨after, kept⟩ := Option.isSome_iff_exists.mp open'
    obtain ⟨before, held, _⟩ := bootstrap.kept after kept
    rw [List.mem_append, List.mem_singleton] at member
    rcases member with inPast | rfl
    · exact holds.unpaired (held ▸ rfl) event inPast
    · by_contra pairs
      rw [(bootstrap.pairs (by simpa using pairs)).2] at kept
      cases kept
  case spaced => exact fun source => holds.spaced_step bootstrap earlier source
  case remembered =>
    exact fun after kept source _ late => holds.remembered_step bootstrap earlier kept source late

theorem length_wrongWithin (events : List AuthEvent) (source : IpAddr) (start : Instant) :
    (wrongWithin events source start).length =
      ((attemptsOf events source).filter fun time =>
        decide (start ≤ time ∧ time < start + pairingFailureWindow)).length := by
  rw [attemptsOf, wrongWithin, List.filter_map, List.length_map, List.filter_filter]
  congr 2
  funext event
  rw [Bool.and_comm]
  rfl

/-- Whatever operations a store performs, at instants which do not decrease and with fresh tokens:
it holds no more sessions than its limit, its bootstrap secret is exchanged for one session, it
accepts a cookie only within both lifetimes and never again once the cookie was given up, and it
evaluates no more than five wrong attempts of a source in any five minutes. -/
theorem AuthStore.guarded (store : AuthStore) {start : AuthState} (starts : store.Starts start)
    (calls : List AuthCall) (ordered : Throughout AuthCall.Ordered calls)
    (fresh : Throughout AuthCall.Fresh calls) :
    (serve store.perform start calls).2.sessions.keys.length ≤ store.limits.maxSessions ∧
      Throughout store.Guards (serve store.perform start calls).1 ∧
      ∀ source begun, (wrongWithin (serve store.perform start calls).1 source begun).length ≤
        maxPairingFailures := by
  have orderly : Throughout (fun past call => AuthCall.Ordered past call ∧
      AuthCall.Fresh past call) calls := fun before call after split =>
    ⟨ordered before call after split, fresh before call after split⟩
  rw [← calls_serve store.perform start calls] at orderly
  have kept : ∀ past state call, store.Holds past state →
      AuthCall.Ordered (past.map Exchange.call) call ∧
        AuthCall.Fresh (past.map Exchange.call) call →
      store.Guards past (store.event state call) ∧
        store.Holds (past ++ [store.event state call]) (store.perform state call).1 :=
    fun past state call held allowed => ⟨held.guards call, held.step allowed.1 allowed.2⟩
  obtain ⟨guards, holds⟩ := serve_keeps kept (AuthStore.holds_start starts) orderly.of_map
  refine ⟨holds.bounded, guards, fun source begun => ?_⟩
  rw [length_wrongWithin]
  exact (holds.spaced source).length_filter_le begun

end Runs

/-- A store with the default limits. -/
def sampleSessions : AuthStore where
  limits := .default
  digest message := BitVec.ofNat 256
    ((sha256Digits message).foldl (fun value digit => value * 16 + hexValue digit) 0)

/-- A wrong pairing, a session which is seen and logged out, and its cookie once more. -/
def sampleVisits : List AuthCall :=
  [⟨5, .pair (.v4 1) "login" "form" "guess", ⟨none, none⟩⟩,
    ⟨7, .pair (.v4 1) "login" "form" "secret", ⟨some "cookie", some "csrf"⟩⟩,
    ⟨9, .authenticate "cookie", ⟨none, none⟩⟩,
    ⟨9, .logout "cookie" "csrf", ⟨none, none⟩⟩,
    ⟨12, .authenticate "cookie", ⟨none, none⟩⟩]

theorem sampleVisits_guarded :
    (serve sampleSessions.perform (sampleSessions.load (utf8Bytes "secret") "login" "form" 3)
        sampleVisits).2.sessions.keys.length ≤ sampleSessions.limits.maxSessions ∧
      Throughout sampleSessions.Guards (serve sampleSessions.perform
        (sampleSessions.load (utf8Bytes "secret") "login" "form" 3) sampleVisits).1 ∧
      ∀ source begun, (wrongWithin (serve sampleSessions.perform
        (sampleSessions.load (utf8Bytes "secret") "login" "form" 3) sampleVisits).1 source
          begun).length ≤ maxPairingFailures := by
  apply sampleSessions.guarded (.inr ⟨_, _, _, _, rfl⟩)
  case ordered =>
    iterate 5 refine throughout_cons (by simp [AuthCall.Ordered]) ?_
    exact throughout_nil _
  case fresh =>
    iterate 5 refine throughout_cons (by simp [AuthCall.Fresh, AuthOperation.presented]) ?_
    exact throughout_nil _

end ImmichRs.Web
