import RelayLifeline.Lib.Table
import RelayLifeline.Registry.Entry
import RelayLifeline.Text

/-!
# Resolving uncertain requests

An operator previews the resolution of an uncertain request and is given a
token, which the call that resolves it hands back. The tokens, the registry and
the goroutine of the request each have a lock of their own, so a call of the
admin API is cut where it lets one go, and between two of its sections other
calls and the request itself do what they like.

What a payload is decoded from, the evidence a preview shows and the events a
resolution is reported by are left out. The bytes `rand.Read` draws have not
been drawn before.
-/

namespace RelayLifeline.Admin

open Lib Lifecycle Timeline Registry

/-- `uncertainConfirmationTTL`. -/
def uncertainConfirmationTTL : Int := 2 * minute

/-- `uncertainConfirmation`, with its token. -/
structure UncertainConfirmation where
  token : String
  requestID : String
  action : String
  actor : String
  expiresAt : Int
  deriving DecidableEq

instance : Keyed UncertainConfirmation String := ⟨fun confirmation => confirmation.token⟩

/-- `uncertainResolutionPayload`. -/
structure UncertainResolutionPayload where
  action : String
  confirmationToken : String := ""
  reason : String := ""
  deriving DecidableEq

/-- The action that is called so; `validUncertainAction` is that there is one. -/
def resolutionOf (action : String) : Option Resolution :=
  if action = "abandon" then some .abandon
  else if action = "confirm_success" then some .confirmSuccess
  else if action = "request_compensation" then some .requestCompensation
  else none

/-- `decodeUncertainPayload`, after the JSON. -/
def decodeUncertainPayload (payload : UncertainResolutionPayload) : UncertainResolutionPayload :=
  { payload with action := trimSpace payload.action }

/-- What `resolveUncertain` asks of a payload. -/
def validPayload (payload : UncertainResolutionPayload) : Bool :=
  (resolutionOf payload.action).isSome ∧
    !(500 < (trimSpace payload.reason).length ∨ trimSpace payload.reason = "")

/-! ## Tokens -/

/-- `Issue`, under its lock. -/
def issue (tokens : Table UncertainConfirmation) (now : Int) (token requestID action actor : String) :
    Table UncertainConfirmation :=
  (tokens.filter fun confirmation => now < confirmation.expiresAt).set
    ⟨token, requestID, action, actor, now + uncertainConfirmationTTL⟩

inductive ConsumeError where
  | invalid
  | expired
  deriving DecidableEq

/-- `Consume`, under its lock and after it. -/
def consume (tokens : Table UncertainConfirmation) (now : Int)
    (token requestID action actor : String) :
    Table UncertainConfirmation × Except ConsumeError Unit :=
  (tokens.erase token,
    match tokens.get? token with
    | none => .error .invalid
    | some confirmation =>
        if token = "" ∨ confirmation.requestID ≠ requestID ∨ confirmation.action ≠ action ∨
            confirmation.actor ≠ actor then .error .invalid
        else if !(now < confirmation.expiresAt) then .error .expired
        else .ok ())

/-! ## Requests -/

/-- What becomes of a request: a method of the registry, or a signal its
goroutine takes. -/
inductive Method where
  | updateMessage (status : State) (attempt : Nat) (message : String) (nextRetry : Int)
  | remove (outcome : State) (persisted : Bool)
  | recordEvent (event : Event) (persisted : Bool)
  | cancelChecked (persisted : Bool)
  | sendRetry (persisted : Bool)
  | applyRetryPolicy (spec : RetryPolicySpec) (overwrite validate persisted : Bool)
  | clearRetryPolicy (persisted : Bool)
  | activateRetryPolicy (attempt : Nat) (persisted : Bool)
  | takeRetry
  | takePolicyChanged

def Method.apply (now : Int) (entry : Entry) : Method → Entry
  | .updateMessage status attempt message nextRetry =>
      entry.updateMessage now status attempt message nextRetry
  | .remove outcome persisted => (entry.remove outcome persisted).1
  | .recordEvent event persisted => (entry.recordEvent event persisted).1
  | .cancelChecked persisted => (entry.cancelChecked persisted).1
  | .sendRetry persisted => (entry.sendRetry persisted).1
  | .applyRetryPolicy spec overwrite validate persisted =>
      (entry.applyRetryPolicy now spec overwrite validate persisted).1
  | .clearRetryPolicy persisted => (entry.clearRetryPolicy persisted).1
  | .activateRetryPolicy attempt persisted => (entry.activateRetryPolicy now attempt persisted).1
  | .takeRetry => { entry with retryNow := false }
  | .takePolicyChanged => { entry with policyChanged := false }

/-- A request, and how many times it has become uncertain. -/
structure Tracked where
  id : String
  entry : Entry := {}
  episode : Nat := 0

instance : Keyed Tracked String := ⟨fun tracked => tracked.id⟩

def Tracked.change (tracked : Tracked) (entry : Entry) : Tracked :=
  { tracked with
    entry := entry
    episode :=
      if entry.state = some .uncertain ∧ tracked.entry.state ≠ some .uncertain then
        tracked.episode + 1
      else tracked.episode }

/-! ## Calls -/

/-- What a call of the admin API does next. -/
inductive Stage where
  /-- The preview has passed its tests and draws a token. -/
  | drawing (requestID action actor : String)
  /-- `Issue` has read the clock. -/
  | issuing (requestID action actor : String) (now : Int)
  /-- `Consume` has read the clock. -/
  | consuming (requestID actor : String) (payload : UncertainResolutionPayload) (now : Int)
  /-- `Consume` has let the call pass. -/
  | resolving (requestID actor : String) (payload : UncertainResolutionPayload) (now : Int)
  /-- The resolution is stored, and the channel is not yet sent to. -/
  | signaling (requestID : String)

structure Call where
  id : Nat
  stage : Stage

instance : Keyed Call Nat := ⟨fun call => call.id⟩

/-- A resolution that `ResolveUncertain` accepted: what the call was for, what
its clock had shown, and which time the request was uncertain. -/
structure Acceptance where
  token : String
  requestID : String
  action : String
  actor : String
  now : Int
  episode : Nat
  deriving DecidableEq

inductive Happening where
  | issued (confirmation : UncertainConfirmation)
  | accepted (acceptance : Acceptance)
  deriving DecidableEq

def Happening.token? : Happening → Option String
  | .issued _ => none
  | .accepted acceptance => some acceptance.token

def Happening.episode? : Happening → Option (String × Nat)
  | .issued _ => none
  | .accepted acceptance => some (acceptance.requestID, acceptance.episode)

/-- The admin API, the registry and the calls under way; what has happened, the
last first. -/
structure Desk where
  clock : Int
  tokens : Table UncertainConfirmation := ∅
  requests : Table Tracked := ∅
  calls : Table Call := ∅
  log : List Happening := []

namespace Desk

inductive Input where
  | tick (elapsed : Nat)
  | start (requestID : String)
  | method (requestID : String) (method : Method)
  | preview (call : Nat) (requestID actor : String) (payload : UncertainResolutionPayload)
  | resolve (call : Nat) (requestID actor : String) (payload : UncertainResolutionPayload)
  | advance (call : Nat) (draw : Option String) (persisted : Bool)

/-- The call goes on with its next section. -/
def goOn (s : Desk) (call : Nat) (stage : Stage) : Desk := { s with calls := s.calls.set ⟨call, stage⟩ }

/-- The call answers. -/
def answer (s : Desk) (call : Nat) : Desk := { s with calls := s.calls.erase call }

/-- `previewUncertainResolution`, up to `Issue`. -/
def preview (s : Desk) (call : Nat) (requestID actor : String)
    (payload : UncertainResolutionPayload) : Desk :=
  let payload := decodeUncertainPayload payload
  if (resolutionOf payload.action).isNone then s
  else
    match (s.requests.get? requestID).bind fun tracked => tracked.entry.request with
    | none => s
    | some request =>
        if request.info.state ≠ .uncertain ∨ request.info.uncertainResolution.isSome then s
        else s.goOn call (.drawing requestID payload.action actor)

/-- `resolveUncertain`, up to where `Consume` has read the clock. -/
def resolve (s : Desk) (call : Nat) (requestID actor : String)
    (payload : UncertainResolutionPayload) : Desk :=
  let payload := decodeUncertainPayload payload
  if !validPayload payload then s else s.goOn call (.consuming requestID actor payload s.clock)

/-- `ResolveUncertain`, for the call, up to its signal. -/
def resolveRequest (s : Desk) (call : Nat) (requestID actor : String)
    (payload : UncertainResolutionPayload) (now : Int) (persisted : Bool) : Desk :=
  match s.requests.get? requestID, resolutionOf payload.action with
  | some tracked, some resolution =>
      let resolved := tracked.entry.resolveUncertain s.clock resolution persisted
      let resolves : Desk := { s with requests := s.requests.set (tracked.change resolved.1) }
      match resolved.2 with
      | .error _ => resolves.answer call
      | .ok _ =>
          let acceptance : Acceptance :=
            ⟨payload.confirmationToken, requestID, payload.action, actor, now, tracked.episode⟩
          let logged : Desk := { resolves with log := .accepted acceptance :: resolves.log }
          if resolution = .requestCompensation then logged.goOn call (.signaling requestID)
          else logged.answer call
  | _, _ => s.answer call

/-- The tokens that were ever issued. -/
def drawn (s : Desk) : List String :=
  s.log.filterMap fun
    | .issued confirmation => some confirmation.token
    | .accepted _ => none

/-- The next section of a call. -/
def advance (s : Desk) (call : Call) (draw : Option String) (persisted : Bool) : Desk :=
  match call.stage with
  | .drawing requestID action actor =>
      if draw.isNone then s.answer call.id
      else s.goOn call.id (.issuing requestID action actor s.clock)
  | .issuing requestID action actor now =>
      match draw with
      | none => s
      | some token =>
          if token ∈ s.drawn then s
          else
            let issued : Desk :=
              { s with
                tokens := issue s.tokens now token requestID action actor
                log := .issued ⟨token, requestID, action, actor, now + uncertainConfirmationTTL⟩ ::
                  s.log }
            issued.answer call.id
  | .consuming requestID actor payload now =>
      let consumed := consume s.tokens now payload.confirmationToken requestID payload.action actor
      let spent : Desk := { s with tokens := consumed.1 }
      match consumed.2 with
      | .error _ => spent.answer call.id
      | .ok () => spent.goOn call.id (.resolving requestID actor payload now)
  | .resolving requestID actor payload now =>
      s.resolveRequest call.id requestID actor payload now persisted
  | .signaling requestID =>
      match s.requests.get? requestID with
      | none => s.answer call.id
      | some tracked =>
          answer { s with
            requests := s.requests.set (tracked.change tracked.entry.sendCompensation) } call.id

def step (s : Desk) : Input → Desk
  | .tick elapsed => { s with clock := s.clock + elapsed }
  | .start requestID =>
      if (s.requests.get? requestID).isSome then s
      else { s with requests := s.requests.set { id := requestID } }
  | .method requestID method =>
      match s.requests.get? requestID with
      | none => s
      | some tracked =>
          { s with requests := s.requests.set (tracked.change (method.apply s.clock tracked.entry)) }
  | .preview call requestID actor payload =>
      if (s.calls.get? call).isSome then s else s.preview call requestID actor payload
  | .resolve call requestID actor payload =>
      if (s.calls.get? call).isSome then s else s.resolve call requestID actor payload
  | .advance call draw persisted =>
      match s.calls.get? call with
      | none => s
      | some call => s.advance call draw persisted

def run (s : Desk) (inputs : List Input) : Desk := inputs.foldl step s

end Desk

end RelayLifeline.Admin
