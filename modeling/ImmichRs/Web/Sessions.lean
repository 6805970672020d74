import ImmichRs.Client.Endpoint
import ImmichRs.Collections.Keyed
import ImmichRs.Collections.SlidingWindow
import ImmichRs.Core.Text
import ImmichRs.Web.Grants

/-!
# Sessions

The authentication store: one bootstrap secret which a browser exchanges for its first session, and
a bounded table of sessions with an idle and an absolute lifetime.  Sessions which have expired stay
in the table until an operation looks for them.
-/

namespace ImmichRs.Web

open Collections

/-- `MAX_PAIRING_FAILURES`. -/
def maxPairingFailures : Nat := 5

/-- `PAIRING_FAILURE_WINDOW`, in nanoseconds. -/
def pairingFailureWindow : Nat := 1000000000 * (5 * 60)

/-- The secret of a start of the console, until it is used or expires. -/
structure Bootstrap where
  secretDigest : Owner
  cookieToken : String
  csrfToken : String
  expiresAt : Instant
  failures : Keyed IpAddr (List Instant)
  deriving DecidableEq

/-- The bootstrap secret, with the wrong attempts of one source. -/
def Bootstrap.withFailures (bootstrap : Bootstrap) (source : IpAddr) (failures : List Instant) :
    Bootstrap :=
  { bootstrap with failures := bootstrap.failures.insert source failures }

/-- The wrong attempts of a source. -/
def Bootstrap.failuresOf (bootstrap : Bootstrap) (source : IpAddr) : List Instant :=
  (bootstrap.failures.lookup source).getD []

theorem Bootstrap.failuresOf_withFailures (bootstrap : Bootstrap) (source other : IpAddr)
    (failures : List Instant) :
    (bootstrap.withFailures source failures).failuresOf other =
      if other = source then failures else bootstrap.failuresOf other := by
  unfold Bootstrap.failuresOf Bootstrap.withFailures
  split
  · rename_i same
    rw [same, AList.lookup_insert, Option.getD_some]
  · rename_i different
    rw [AList.lookup_insert_ne different]

/-- A session, under its cookie. -/
structure Session where
  binding : Owner
  csrfToken : String
  createdAt : Instant
  lastSeenAt : Instant
  deriving DecidableEq, Repr

/-- The state under the lock of an authentication store. -/
structure AuthState where
  bootstrap : Option Bootstrap
  sessions : Keyed String Session
  deriving DecidableEq

/-- What the pairing page is served with. -/
structure PairingView where
  cookieToken : String
  csrfToken : String
  deriving DecidableEq, Repr

/-- What an accepted cookie stands for. -/
structure SessionView where
  binding : Owner
  csrfToken : String
  deriving DecidableEq, Repr

/-- A new session. -/
structure EstablishedSession where
  cookieToken : String
  deriving DecidableEq, Repr

/-- Why a pairing was refused. -/
inductive PairingFailure
  | denied | invalidCsrf | expired | rateLimited | unavailable
  deriving DecidableEq, Repr

/-- What a store is made with. -/
structure AuthStore where
  limits : WebLimits
  /-- `Sha256::digest`. -/
  digest : List UInt8 → Owner

/-- What the operating system's randomness yields when an operation asks for a session cookie and
for its CSRF token. -/
structure Draws where
  cookie : Option String
  csrf : Option String
  deriving DecidableEq, Repr

namespace AuthStore

/-- `AuthStore::oidc`. -/
def oidc : AuthState := { bootstrap := none, sessions := ∅ }

/-- `AuthStore::load`, once the secret has been read and both tokens have been drawn. -/
def load (store : AuthStore) (secret : List UInt8) (cookieToken csrfToken : String)
    (now : Instant) : AuthState where
  bootstrap := some {
    secretDigest := store.digest secret
    cookieToken, csrfToken
    expiresAt := now + 1000000000 * store.limits.bootstrapLifetimeSeconds
    failures := ∅ }
  sessions := ∅

/-- The idle lifetime of a session, in nanoseconds. -/
def idle (store : AuthStore) : Nat := 1000000000 * store.limits.sessionIdleSeconds

/-- The absolute lifetime of a session, in nanoseconds. -/
def absolute (store : AuthStore) : Nat := 1000000000 * store.limits.sessionAbsoluteSeconds

/-- A session within both lifetimes. -/
def live (store : AuthStore) (now : Instant) (session : Session) : Bool :=
  decide (now - session.lastSeenAt < store.idle) &&
    decide (now - session.createdAt < store.absolute)

/-- `expire_sessions`. -/
def expireSessions (store : AuthStore) (sessions : Keyed String Session) (now : Instant) :
    Keyed String Session :=
  Keyed.retain (store.live now) sessions

/-- `retain_recent_failures`. -/
def retainRecentFailures (failures : List Instant) (now : Instant) : List Instant :=
  recent pairingFailureWindow now failures

/-- `record_failure`. -/
def recordFailure (failures : List Instant) (now : Instant) : List Instant :=
  (if failures.length = maxPairingFailures then failures.tail else failures) ++ [now]

/-- `AuthStore::pairing`. -/
def pairing (state : AuthState) (now : Instant) : AuthState × Option PairingView :=
  match state.bootstrap with
  | none => (state, none)
  | some bootstrap =>
      if bootstrap.expiresAt ≤ now then ({ state with bootstrap := none }, none)
      else (state, some ⟨bootstrap.cookieToken, bootstrap.csrfToken⟩)

/-- `AuthStore::pair`. -/
def pair (store : AuthStore) (state : AuthState) (source : IpAddr)
    (cookieToken csrfToken suppliedSecret : String) (now : Instant) (draws : Draws) :
    AuthState × Except PairingFailure EstablishedSession :=
  if store.limits.maxSessions ≤ state.sessions.keys.length then (state, .error .unavailable)
  else
    match state.bootstrap with
    | none => (state, .error .expired)
    | some bootstrap =>
        if bootstrap.expiresAt ≤ now then ({ state with bootstrap := none }, .error .expired)
        else
          let failures := retainRecentFailures (bootstrap.failuresOf source) now
          let remember (failures : List Instant) : AuthState :=
            { state with bootstrap := some (bootstrap.withFailures source failures) }
          if maxPairingFailures ≤ failures.length then (remember failures, .error .rateLimited)
          else if cookieToken ≠ bootstrap.cookieToken ∨ csrfToken ≠ bootstrap.csrfToken then
            (remember (recordFailure failures now), .error .invalidCsrf)
          else if store.digest (utf8Bytes suppliedSecret) ≠ bootstrap.secretDigest then
            (remember (recordFailure failures now), .error .denied)
          else
            match draws.cookie, draws.csrf with
            | some cookie, some csrf =>
                let session : Session :=
                  { binding := store.digest (utf8Bytes cookie), csrfToken := csrf
                    createdAt := now, lastSeenAt := now }
                ({ bootstrap := none, sessions := state.sessions.insert cookie session },
                  .ok ⟨cookie⟩)
            | _, _ => (remember failures, .error .unavailable)

/-- `AuthStore::authenticate`. -/
def authenticate (store : AuthStore) (state : AuthState) (cookieToken : String) (now : Instant) :
    AuthState × Option SessionView :=
  let sessions := store.expireSessions state.sessions now
  match sessions.lookup cookieToken with
  | none => ({ state with sessions }, none)
  | some session =>
      ({ state with sessions := sessions.insert cookieToken { session with lastSeenAt := now } },
        some ⟨session.binding, session.csrfToken⟩)

/-- The sessions without that of a previous cookie. -/
def withoutPrevious (sessions : Keyed String Session) : Option String → Keyed String Session
  | some previous => sessions.erase previous
  | none => sessions

/-- `AuthStore::establish_oidc`. -/
def establishOidc (store : AuthStore) (state : AuthState) (principal : String)
    (previousCookie : Option String) (now : Instant) (draws : Draws) :
    AuthState × Except String EstablishedSession :=
  let sessions := withoutPrevious (store.expireSessions state.sessions now) previousCookie
  if store.limits.maxSessions ≤ sessions.keys.length then
    ({ state with sessions }, .error "OIDC session capacity is exhausted")
  else
    match draws.cookie, draws.csrf with
    | some cookie, some csrf =>
        let session : Session :=
          { binding := store.digest (utf8Bytes principal ++ 0 :: utf8Bytes cookie)
            csrfToken := csrf, createdAt := now, lastSeenAt := now }
        ({ state with sessions := sessions.insert cookie session }, .ok ⟨cookie⟩)
    | _, _ => ({ state with sessions }, .error "operating-system randomness is unavailable")

/-- `AuthStore::authenticate_csrf`: what `authenticate` returned, and what the call returns. -/
def authenticateCsrf (store : AuthStore) (state : AuthState) (cookieToken csrfToken : String)
    (now : Instant) : AuthState × Option SessionView × Option SessionView :=
  let outcome := store.authenticate state cookieToken now
  (outcome.1, outcome.2, outcome.2.filter fun session => csrfToken == session.csrfToken)

/-- `AuthStore::valid_binding`. -/
def validBinding (store : AuthStore) (state : AuthState) (cookieToken : String) (binding : Owner)
    (now : Instant) : AuthState × Bool :=
  let sessions := store.expireSessions state.sessions now
  ({ state with sessions },
    (sessions.lookup cookieToken).any fun session => session.binding == binding)

/-- `AuthStore::active_session_count`. -/
def activeSessionCount (store : AuthStore) (state : AuthState) (now : Instant) :
    AuthState × Nat :=
  let sessions := store.expireSessions state.sessions now
  ({ state with sessions }, sessions.keys.length)

/-- `AuthStore::logout`. -/
def logout (store : AuthStore) (state : AuthState) (cookieToken csrfToken : String)
    (now : Instant) : AuthState × Bool :=
  let sessions := store.expireSessions state.sessions now
  let valid := (sessions.lookup cookieToken).any fun session => csrfToken == session.csrfToken
  ({ state with sessions := if valid then sessions.erase cookieToken else sessions }, valid)

end AuthStore

end ImmichRs.Web
