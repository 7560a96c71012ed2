import Mathlib.Data.List.Sort
import RelayLifeline.Admin.Login
import RelayLifeline.Lib.Base64
import RelayLifeline.Lib.Table
import RelayLifeline.Text

/-!
# Who may use the management API

A request is let in with a management key or with the cookie of a session. A
session is created for a key, or for an identity that an OIDC provider has
vouched for at the end of a sign-in that was begun here; both are kept in maps
with a bound, from which the oldest entry is evicted.

Every section under a lock is one step, and so is what a call does with its own
copies behind it: a callback takes its transaction out of the map and creates
its session later, a logout is served and revokes its session later. A call
reads the clock and the settings before it takes the lock, so its readings are
part of the step and need not be in order. What random bytes come, what the
provider answers and the order of a map are part of it as well. A step where
there are no random bytes does nothing and is left out, and so are the failures
of `Login` that refuse a key.
-/

namespace RelayLifeline.Admin

open Journal Lib

/-! ## Random tokens -/

/-- What `rand.Read` fills a buffer with. -/
structure Random where
  bytes : List UInt8
  sized : bytes.length = 32

/-- `randomToken`. -/
def Random.token (r : Random) : String := hex r.bytes

/-- `randomURLToken`. -/
def Random.urlToken (r : Random) : String := String.ofList (Base64.encode r.bytes)

/-! ## Maps with a bound -/

section

variable {α : Type} [Keyed α String]

/-- The loop of `evictOldestLocked`. -/
def oldest (time : α → Int) (items : List α) : String × Int :=
  items.foldl (fun low a => if low.1 = "" ∨ time a < low.2 then (key a, time a) else low) ("", 0)

/-- `evictOldestLocked`, where `rank` is the order of the map. -/
def evictOldest (time : α → Int) (rank : String → Nat) (t : Table α) : Table α :=
  t.erase (oldest time (t.items.insertionSort fun a b => rank (key a) ≤ rank (key b))).1

/-- `cleanupLocked`, and the eviction where the map is full. -/
def makeRoom (limit : Nat) (stale : α → Bool) (time : α → Int) (rank : String → Nat)
    (t : Table α) : Table α :=
  let kept := t.filter fun a => !stale a
  if limit ≤ kept.items.length then evictOldest time rank kept else kept

end

/-! ## Sessions -/

/-- `managementSession`, under its token. -/
structure ManagementSession where
  token : String
  role : Role
  csrf : String
  lastSeen : Int
  expiresAt : Int
  authMethod : String
  principalID : String
  deriving DecidableEq

instance : Keyed ManagementSession String := ⟨ManagementSession.token⟩

def maxManagementSessions : Nat := 2048

/-- What `cleanupLocked` deletes, and `authenticate` if it is asked for. -/
def ManagementSession.stale (now idleTimeout : Int) (session : ManagementSession) : Bool :=
  idleTimeout < now - session.lastSeen ∨ !(now < session.expiresAt)

/-- What a call of `create` goes by. -/
structure Creation where
  now : Int
  maxLifetime : Int
  idleTimeout : Int
  rank : String → Nat
  token : Random
  csrf : Random

/-- The session that is created. -/
def Creation.session (c : Creation) (role : Role) (authMethod principalID : String)
    (identityExpiresAt : Int) : ManagementSession :=
  let expiresAt := c.now + c.maxLifetime
  { token := c.token.token
    role
    csrf := c.csrf.token
    lastSeen := c.now
    expiresAt :=
      if identityExpiresAt ≠ 0 ∧ identityExpiresAt < expiresAt then identityExpiresAt else expiresAt
    authMethod
    principalID }

/-- `create`, under the lock. -/
def create (sessions : Table ManagementSession) (c : Creation) (session : ManagementSession) :
    Table ManagementSession :=
  (makeRoom maxManagementSessions (ManagementSession.stale c.now c.idleTimeout)
    ManagementSession.lastSeen c.rank sessions).set session

inductive CookieState where
  | missing
  | invalidated
  | expired
  | active
  deriving DecidableEq

/-- `authenticate` of the sessions. -/
def authenticate (sessions : Table ManagementSession) (cookie : Option String)
    (now timeout : Int) : Table ManagementSession × Option ManagementSession × CookieState :=
  let value := cookie.getD ""
  if value = "" then (sessions, none, .missing)
  else
    match sessions.get? value with
    | none => (sessions.erase value, none, .invalidated)
    | some session =>
        if session.stale now timeout then (sessions.erase value, none, .expired)
        else
          let session := { session with lastSeen := now }
          (sessions.set session, some session, .active)

/-! ## Requests -/

/-- What is read of a request before it is dispatched. `cookie` is that of the
sessions, `mode` is in the query. -/
structure Request where
  method : String
  urlPath : String
  mode : String := ""
  authorization : String := ""
  cookie : Option String := none
  csrfToken : String := ""
  deriving DecidableEq

def hasPrefix (s start : String) : Bool := start.toList.isPrefixOf s.toList

/-- `strings.TrimPrefix`. -/
def trimStart (s start : String) : String :=
  if hasPrefix s start then String.ofList (s.toList.drop start.length) else s

def Request.path (request : Request) : String := trimStart request.urlPath "/admin/api"

/-- `authenticate` of the keys. -/
def Authenticator.authenticate (auth : Authenticator) (request : Request) : Option Role :=
  if !auth.enabled then none
  else if !hasPrefix request.authorization "Bearer " then none
  else auth.authenticateKey (trimSpace (trimStart request.authorization "Bearer "))

/-- `roleRank`. -/
def Role.rank : Role → Nat
  | .viewer => 1
  | .operator => 2
  | .sensitive => 3

def Role.allows (role required : Role) : Bool := required.rank ≤ role.rank

def requiredRole (request : Request) : Role :=
  if request.method = "GET" ∧ hasPrefix request.path "/captures/" ∧
      hasSuffix request.path "/download" ∧ request.mode = "raw" then .sensitive
  else if request.method = "GET" ∨ request.path = "/session" then .viewer
  else .operator

/-- The endpoints that `ServeHTTP` goes to before it asks who calls. -/
def Request.isOpen (request : Request) : Bool :=
  request.method = "GET" ∧
      request.path ∈ ["/session/login-options", "/session/oidc/start", "/session/oidc/callback"] ∨
    request.method = "POST" ∧ request.path = "/session/login"

def Request.isLogout (request : Request) : Bool :=
  request.method = "POST" ∧ request.path = "/session/logout"

inductive Refusal where
  | sessionExpired
  | authenticationRequired
  | invalidAdminKey
  | invalidCSRFToken
  | insufficientPermission
  deriving DecidableEq

/-- What `ServeHTTP` does with a request: it refuses it, or dispatches it. -/
inductive Answer where
  | refused (refusal : Refusal)
  | served (role : Role)
  deriving DecidableEq

def Answer.isServed : Answer → Bool
  | .served _ => true
  | .refused _ => false

/-- `ServeHTTP` behind the open endpoints, up to the dispatch, with the session
that the cookie is of. -/
def serveHTTP (auth : Authenticator) (request : Request) (session : Option ManagementSession)
    (state : CookieState) : Answer :=
  match session.map ManagementSession.role <|> auth.authenticate request with
  | none =>
      .refused
        (if state = .invalidated ∨ state = .expired then .sessionExpired
        else if request.authorization = "" then .authenticationRequired
        else .invalidAdminKey)
  | some role =>
      if request.method ≠ "GET" ∧
          session.any fun session => !secureEqual request.csrfToken session.csrf then
        .refused .invalidCSRFToken
      else if !role.allows (requiredRole request) then .refused .insufficientPermission
      else .served role

/-! ## OIDC -/

/-- A claim, as `any` holds it. -/
inductive Claim where
  | text (s : String)
  | list (items : List Claim)
  | object (fields : List (String × Claim))
  | other

/-- `config.OIDCConfig`, as far as the claims go by it. -/
structure OIDCConfig where
  issuerURL : String
  roleClaim : String
  viewerValues : List String
  operatorValues : List String
  sensitiveValues : List String

/-- The loop of `nestedClaim`. -/
def Claim.nested : Claim → List String → Option Claim
  | claim, [] => some claim
  | .object fields, part :: parts =>
      if part = "" then none else (fields.lookup part).bind fun claim => claim.nested parts
  | _, _ :: _ => none

def nestedClaim (claims : List (String × Claim)) (path : String) : Option Claim :=
  (Claim.object claims).nested ((path.toList.splitOn '.').map String.ofList)

def claimText (s : String) : Option String :=
  if s = "" ∨ 256 < s.utf8ByteSize then none else some s

def oidcClaimValues : Claim → Option (List String)
  | .text s => (claimText s).map ([·])
  | .list items =>
      if items.isEmpty ∨ 256 < items.length then none
      else items.mapM fun item =>
        match item with
        | .text s => claimText s
        | _ => none
  | _ => none

def matchesOIDCValue (values allowed : List String) : Bool := values.any fun value => value ∈ allowed

def mapOIDCRole (claims : List (String × Claim)) (cfg : OIDCConfig) : Option Role :=
  ((nestedClaim claims cfg.roleClaim).bind oidcClaimValues).bind fun values =>
    if matchesOIDCValue values cfg.sensitiveValues then some .sensitive
    else if matchesOIDCValue values cfg.operatorValues then some .operator
    else if matchesOIDCValue values cfg.viewerValues then some .viewer
    else none

/-- `oidcTransaction`, under its state. -/
structure OidcTransaction where
  state : String
  verifier : String
  nonce : String
  cookieDigest : List UInt8
  expiresAt : Int
  deriving DecidableEq

instance : Keyed OidcTransaction String := ⟨OidcTransaction.state⟩

/-- `oidcIdentity`. -/
structure OidcIdentity where
  role : Role
  principalID : String
  expiresAt : Int
  deriving DecidableEq

def oidcTransactionTTL : Int := 10 * minute

def maxOIDCTransactions : Nat := 256

/-- What a call of `begin` goes by. The browser is given the state, and the
browser token as a cookie. -/
structure Beginning where
  now : Int
  rank : String → Nat
  state : Random
  nonce : Random
  verifier : Random
  browserToken : Random

def Beginning.transaction (b : Beginning) : OidcTransaction where
  state := b.state.urlToken
  verifier := b.verifier.urlToken
  nonce := b.nonce.urlToken
  cookieDigest := sha256 (utf8 b.browserToken.urlToken)
  expiresAt := b.now + oidcTransactionTTL

/-- `begin`, under the lock. -/
def begin (transactions : Table OidcTransaction) (b : Beginning) : Table OidcTransaction :=
  (makeRoom maxOIDCTransactions (fun transaction => !(b.now < transaction.expiresAt))
    OidcTransaction.expiresAt b.rank transactions).set b.transaction

/-- An ID token that has been verified. Its claims need not decode. -/
structure IDToken where
  nonce : String
  subject : String
  expiry : Int
  claims : Option (List (String × Claim))

/-- What the provider answers: the raw ID token for a code and a verifier, and
what is verified of one. -/
structure Provider where
  exchange : String → String → Option String
  verify : String → Option IDToken

/-- What a call of `callback` goes by. It reads the clock twice. -/
structure Callback where
  state : String
  code : String
  error : String := ""
  cookie : Option String := none
  now : Int
  later : Int
  provider : Provider

/-- The checks before the transaction is taken out of the map. -/
def Callback.admissible (c : Callback) : Bool :=
  c.error = "" ∧ c.state ≠ "" ∧ c.code ≠ "" ∧ c.state.utf8ByteSize ≤ 256 ∧
    c.code.utf8ByteSize ≤ 8192 ∧ c.cookie.getD "" ≠ ""

/-- The ID token that the code is exchanged for. -/
def Callback.idToken (c : Callback) (transaction : OidcTransaction) : Option IDToken :=
  (c.provider.exchange c.code transaction.verifier).bind fun raw =>
    if raw = "" ∨ 64 * 1024 < raw.utf8ByteSize then none else c.provider.verify raw

def principalID (cfg : OIDCConfig) (subject : String) : String :=
  String.ofList (Base64.encode ((sha256 (utf8 (cfg.issuerURL ++ "\x00" ++ subject))).take 12))

/-- The rest of `callback`, with the transaction. -/
def Callback.identify (c : Callback) (cfg : OIDCConfig) (transaction : OidcTransaction) :
    Option OidcIdentity :=
  if !(c.now < transaction.expiresAt) then none
  else if sha256 (utf8 (c.cookie.getD "")) ≠ transaction.cookieDigest then none
  else
    (c.idToken transaction).bind fun idToken =>
      if idToken.nonce ≠ transaction.nonce ∨ idToken.subject = "" ∨ !(c.later < idToken.expiry) then
        none
      else
        idToken.claims.bind fun claims =>
          (mapOIDCRole claims cfg).map fun role =>
            ⟨role, principalID cfg idToken.subject, idToken.expiry⟩

/-! ## Runs -/

structure AccessConfig where
  auth : Authenticator
  oidc : OIDCConfig

/-- The two maps, the identities whose session is not created yet, and the
tokens of the logouts that have not revoked yet. -/
structure Access where
  sessions : Table ManagementSession := ∅
  transactions : Table OidcTransaction := ∅
  identities : List OidcIdentity := []
  leaving : List String := []

inductive AccessInput where
  | login (key : String) (c : Creation)
  | begin (b : Beginning)
  | callback (c : Callback)
  | complete (identity : Nat) (c : Creation)
  | request (request : Request) (now idleTimeout : Int)
  | revoke (leaving : Nat)

/-- What a session was created for. -/
inductive Grant where
  | key (provided : String)
  | identity (identity : OidcIdentity)

/-- What has happened in a step. The source does not remember it. -/
inductive AccessEvent where
  | issued (session : ManagementSession) (c : Creation) (grant : Grant)
  | begun (b : Beginning)
  | called (c : Callback) (taken : Option OidcTransaction) (identity : Option OidcIdentity)
  | answered (request : Request) (now idleTimeout : Int) (session : Option ManagementSession)
      (answer : Answer)
  | revoked (token : String)
  | nothing

namespace Access

def issue (a : Access) (c : Creation) (session : ManagementSession) (grant : Grant) :
    Access × AccessEvent :=
  ({ a with sessions := create a.sessions c session }, .issued session c grant)

def step (cfg : AccessConfig) (a : Access) : AccessInput → Access × AccessEvent
  | .login provided c =>
      match cfg.auth.authenticateKey provided with
      | none => (a, .nothing)
      | some role => a.issue c (c.session role "local" "" 0) (.key provided)
  | .begin b => ({ a with transactions := Admin.begin a.transactions b }, .begun b)
  | .callback c =>
      if !c.admissible then (a, .called c none none)
      else
        let taken := a.transactions.get? c.state
        let identity := taken.bind (c.identify cfg.oidc)
        ({ a with
            transactions := a.transactions.erase c.state
            identities := a.identities ++ identity.toList }, .called c taken identity)
  | .complete i c =>
      match a.identities[i]? with
      | none => (a, .nothing)
      | some identity =>
          { a with identities := a.identities.eraseIdx i }.issue c
            (c.session identity.role "oidc" identity.principalID identity.expiresAt)
            (.identity identity)
  | .request request now idleTimeout =>
      if request.isOpen then (a, .nothing)
      else
        let (sessions, session, state) := authenticate a.sessions request.cookie now idleTimeout
        let answer := serveHTTP cfg.auth request session state
        let leaving :=
          if request.isLogout ∧ answer.isServed then session.map ManagementSession.token else none
        ({ a with sessions, leaving := a.leaving ++ leaving.toList },
          .answered request now idleTimeout session answer)
  | .revoke i =>
      match a.leaving[i]? with
      | none => (a, .nothing)
      | some token =>
          ({ a with sessions := a.sessions.erase token, leaving := a.leaving.eraseIdx i },
            .revoked token)

/-- What the steps of a run leave, and what has happened in them. -/
def run (cfg : AccessConfig) (inputs : List AccessInput) : Access :=
  inputs.foldl (fun a input => (a.step cfg input).1) {}

def events (cfg : AccessConfig) (inputs : List AccessInput) : List AccessEvent :=
  outputs (step cfg) {} inputs

end Access

end RelayLifeline.Admin
