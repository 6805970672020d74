import ImmichRs.Web.SessionRuns

/-!
# OIDC logins

A login begins with a state token, a nonce and a verifier of its own, kept until the provider sends
the browser back.  The callback takes the state out of the table under the lock; what follows, up
to the new session, happens outside, so other logins come between.
-/

namespace ImmichRs.Web

open Collections Interaction

/-- `MAX_CODE_BYTES`. -/
def maxCodeBytes : Nat := 4 * 1024

/-- A login which waits for its callback. -/
structure Pending where
  peer : IpAddr
  nonce : String
  verifier : String
  createdAt : Instant
  previousCookie : Option String
  deriving DecidableEq, Repr

/-- What the browser carries to the provider. -/
structure Authorization where
  state : String
  nonce : String
  challenge : String
  deriving DecidableEq, Repr

/-- Who has logged in. -/
structure OidcIdentity where
  principal : String
  previousCookie : Option String
  deriving DecidableEq, Repr

/-- What a manager is made with. -/
structure OidcManager where
  limits : WebLimits
  loginCookie : String
  loginCsrf : String
  /-- The base64 form of the SHA-256 digest of a verifier. -/
  challenge : String → String

/-- The random tokens of a login. -/
structure LoginDraws where
  state : Option String
  nonce : Option String
  verifier : Option String
  deriving DecidableEq, Repr

/-- What the provider answers a callback: whether its metadata could be loaded, the token which it
gives for a code and a verifier, and the principal of a token which is valid for a nonce. -/
structure ProviderAnswers where
  loaded : Except String Unit
  exchange : String → String → Except String String
  validate : String → String → Except String String

namespace OidcManager

/-- The lifetime of a pending login, in nanoseconds. -/
def lifetime (manager : OidcManager) : Nat := 1000000000 * manager.limits.oidcStateSeconds

/-- `purge`. -/
def purge (manager : OidcManager) (states : Keyed String Pending) (now : Instant) :
    Keyed String Pending :=
  Keyed.retain (fun value => decide (now - value.createdAt < manager.lifetime)) states

/-- `OidcManager::begin`.  Everything before the lock touches nothing which is shared. -/
def begin (manager : OidcManager) (states : Keyed String Pending) (peer : IpAddr)
    (cookie csrf : String) (previousCookie : Option String) (loaded : Except String Unit)
    (draws : LoginDraws) (now : Instant) : Keyed String Pending × Except String Authorization :=
  if cookie ≠ manager.loginCookie ∨ csrf ≠ manager.loginCsrf then
    (states, .error "OIDC login CSRF validation failed")
  else
    match loaded, draws.state, draws.nonce, draws.verifier with
    | .error error, _, _, _ => (states, .error error)
    | .ok (), some state, some nonce, some verifier =>
        let states := manager.purge states now
        if manager.limits.maxSessions ≤ states.keys.length then
          (states, .error "OIDC state capacity is exhausted")
        else
          let value : Pending := { peer, nonce, verifier, createdAt := now, previousCookie }
          (states.insert state value, .ok ⟨state, nonce, manager.challenge verifier⟩)
    | .ok (), _, _, _ => (states, .error "operating-system randomness is unavailable")

/-- `valid_token`. -/
def validToken (value : String) : Bool :=
  byteLen value == 43 && value.toList.all fun character =>
    character.isAlphanum || character == '-' || character == '_'

/-- A callback which is looked up. -/
def wellFormed (state code : String) : Bool :=
  !(!validToken state || code.isEmpty || decide (maxCodeBytes < byteLen code) ||
    anyChar code isControl)

/-- `OidcManager::finish`, up to the check of the peer. -/
def finish (manager : OidcManager) (states : Keyed String Pending) (peer : IpAddr)
    (state code : String) (now : Instant) : Keyed String Pending × Except String Pending :=
  if !wellFormed state code then (states, .error "OIDC callback is invalid")
  else
    let states := manager.purge states now
    match states.lookup state with
    | none => (states.erase state, .error "OIDC state is invalid or expired")
    | some pending =>
        if pending.peer ≠ peer then (states.erase state, .error "OIDC callback peer changed")
        else (states.erase state, .ok pending)

/-- `OidcManager::finish`, after the check of the peer. -/
def identify (pending : Pending) (code : String) (provider : ProviderAnswers) :
    Except String OidcIdentity := do
  provider.loaded
  let idToken ← provider.exchange code pending.verifier
  let principal ← provider.validate idToken pending.nonce
  return ⟨principal, pending.previousCookie⟩

theorem previousCookie_of_identify {pending : Pending} {code : String}
    {provider : ProviderAnswers} {identity : OidcIdentity}
    (identified : identify pending code provider = .ok identity) :
    identity.previousCookie = pending.previousCookie := by
  simp only [identify, bind_eq_ok] at identified
  obtain ⟨_, _, _, _, _, _, made⟩ := identified
  obtain rfl := Except.ok.inj made
  rfl

end OidcManager

/-! ## The console -/

/-- How far a callback has come: its state was taken, its identity is known, or the session which
it replaces was looked up. -/
inductive CallbackPhase
  | taken (code : String)
  | identified (identity : OidcIdentity)
  | recognized (identity : OidcIdentity)
  | finished
  deriving DecidableEq, Repr

/-- A callback which has passed the check of its pending login, with the session cookie which its
browser sent. -/
structure Callback where
  pending : Pending
  currentCookie : Option String
  phase : CallbackPhase
  deriving DecidableEq, Repr

/-- The cookie which a login replaces. -/
def Callback.previous (callback : Callback) (identity : OidcIdentity) : Option String :=
  identity.previousCookie <|> callback.currentCookie

/-- The identity of a callback has the previous cookie of its pending login. -/
def Callback.Consistent (callback : Callback) : Prop :=
  ∀ identity, callback.phase = .identified identity ∨ callback.phase = .recognized identity →
    identity.previousCookie = callback.pending.previousCookie

/-- The pending logins, the sessions and the callbacks on their way. -/
structure LoginState where
  pending : Keyed String Pending
  auth : AuthState
  callbacks : List Callback

/-- Nobody has logged in; in LAN mode there is no bootstrap secret. -/
def LoginState.initial : LoginState where
  pending := ∅
  auth := AuthStore.oidc
  callbacks := []

/-- A step of the console: a login begins, a callback arrives, a callback goes on, or any operation
on the sessions. -/
inductive LoginCall
  | begin (peer : IpAddr) (cookie csrf : String) (previousCookie : Option String)
      (loaded : Except String Unit) (draws : LoginDraws) (now : Instant)
  | arrive (peer : IpAddr) (state code : String) (currentCookie : Option String) (now : Instant)
  | proceed (callback : Nat) (provider : ProviderAnswers) (now : Instant) (draws : Draws)
  | operate (call : AuthCall)

/-- What a step yields. -/
inductive LoginReply
  | begun (result : Except String Authorization)
  | arrived (result : Except String Pending)
  | identified (pending : Pending) (result : Except String OidcIdentity)
  | operated (event : AuthEvent)
  | idle

/-- The console of LAN mode. -/
structure LoginConsole where
  manager : OidcManager
  store : AuthStore

namespace LoginConsole

/-- One operation on the sessions, while nothing else changes. -/
def operate (console : LoginConsole) (state : LoginState) (call : AuthCall) :
    LoginState × AuthEvent :=
  let outcome := console.store.perform state.auth call
  ({ state with auth := outcome.1 }, { call, reply := outcome.2 })

/-- A callback goes on: `finish` after its lock, then `establish_session`. -/
def proceed (console : LoginConsole) (state : LoginState) (place : Nat) (callback : Callback)
    (provider : ProviderAnswers) (now : Instant) (draws : Draws) : LoginState × LoginReply :=
  let moved (state : LoginState) (phase : CallbackPhase) : LoginState :=
    { state with callbacks := state.callbacks.set place { callback with phase } }
  match callback.phase with
  | .taken code =>
      match OidcManager.identify callback.pending code provider with
      | .ok identity =>
          (moved state (.identified identity), .identified callback.pending (.ok identity))
      | .error error => (moved state .finished, .identified callback.pending (.error error))
  | .identified identity =>
      match callback.previous identity with
      | none => (moved state (.recognized identity), .idle)
      | some previous =>
          let outcome := console.operate state ⟨now, .authenticate previous, draws⟩
          (moved outcome.1 (.recognized identity), .operated outcome.2)
  | .recognized identity =>
      let outcome := console.operate state
        ⟨now, .establishOidc identity.principal (callback.previous identity), draws⟩
      (moved outcome.1 .finished, .operated outcome.2)
  | .finished => (state, .idle)

/-- One step of the console. -/
def step (console : LoginConsole) (state : LoginState) : LoginCall → LoginState × LoginReply
  | .begin peer cookie csrf previousCookie loaded draws now =>
      let outcome := console.manager.begin state.pending peer cookie csrf previousCookie loaded
        draws now
      ({ state with pending := outcome.1 }, .begun outcome.2)
  | .arrive peer token code currentCookie now =>
      let outcome := console.manager.finish state.pending peer token code now
      let callbacks := match outcome.2 with
        | .ok pending => state.callbacks ++ [⟨pending, currentCookie, .taken code⟩]
        | .error _ => state.callbacks
      ({ state with pending := outcome.1, callbacks }, .arrived outcome.2)
  | .proceed place provider now draws =>
      match state.callbacks[place]? with
      | some callback => console.proceed state place callback provider now draws
      | none => (state, .idle)
  | .operate call =>
      let outcome := console.operate state call
      (outcome.1, .operated outcome.2)

end LoginConsole

end ImmichRs.Web
