import RelayLifeline.Clock
import RelayLifeline.Journal.Digest
import RelayLifeline.Lib.Trace
import Mathlib.Logic.Function.Basic

/-!
# Logging in to the management API

A login gives a key for a session. The keys a client address gets wrong are
counted, and too many of them within a minute refuse its logins for a while.

The lock is taken to look whether logins are refused, and again to record how
the login ended, and not while the key is compared. What lies between is one
step, so the steps of the calls may come in any order. A call reads the clock
once, as it begins, and goes by that reading to its end.

The sessions themselves are left out: one is made, or there are no random bytes
to make it of.
-/

namespace RelayLifeline.Admin

open Journal Lib

inductive Role where
  | viewer
  | operator
  | sensitive
  deriving DecidableEq

structure Authenticator where
  enabled : Bool
  viewer : String
  operator : String
  sensitive : String

def secureEqual (left right : String) : Bool := sha256 (utf8 left) = sha256 (utf8 right)

/-- The role of a key, if it is one of the keys. -/
def Authenticator.authenticateKey (a : Authenticator) (provided : String) : Option Role :=
  if !a.enabled then none
  else
    let role := if a.viewer ≠ "" && secureEqual provided a.viewer then some Role.viewer else none
    let role := if a.operator ≠ "" && secureEqual provided a.operator then some .operator else role
    if a.sensitive ≠ "" && secureEqual provided a.sensitive then some .sensitive else role

/-- `ManagementSecurityConfig`, as far as the failures go by it. -/
structure ManagementSecurity where
  loginFailuresPerMinute : Int
  loginCooldown : Int

/-- `loginFailures`. A client that is not in the map has these. -/
structure LoginFailures where
  attempts : List Int := []
  cooldownUntil : Int := 0
  deriving DecidableEq

/-- `recordFailure`, under the lock. -/
def LoginFailures.record (failure : LoginFailures) (cfg : ManagementSecurity) (now : Int) :
    LoginFailures :=
  let cutoff := now - minute
  let attempts := failure.attempts.filter (fun attempt => cutoff < attempt) ++ [now]
  { attempts := attempts
    cooldownUntil :=
      if cfg.loginFailuresPerMinute ≤ attempts.length then now + cfg.loginCooldown
      else failure.cooldownUntil }

/-- Where a call of `login` is. -/
inductive LoginStage where
  /-- It has read the clock. -/
  | begun
  /-- It has found that logins are not refused. -/
  | checked
  /-- Its key is wrong, which is not recorded yet. -/
  | failed
  /-- Its key is right. -/
  | accepted
  /-- It has a session, and the failures are still there. -/
  | created
  /-- It has returned `errLoginRateLimited`. -/
  | refused
  /-- It has returned, with a session or without. -/
  | returned
  deriving DecidableEq

structure LoginCall where
  key : String
  now : Int
  stage : LoginStage := .begun
  deriving DecidableEq

/-- A key that was compared: the reading of its call, whether it was right, and
the cooldown at the time. The source does not remember it. -/
structure Evaluation where
  now : Int
  accepted : Bool
  cooldownUntil : Int
  deriving DecidableEq

/-- What there is of one client address, with every key it had compared, the
newest first, and the failures its sessions had deleted, which the source does
not remember either. -/
structure Client where
  failure : LoginFailures := {}
  calls : List LoginCall := []
  evaluated : List Evaluation := []
  forgotten : List Int := []

/-- A login begins, or the call with a number goes on. -/
inductive LoginAct where
  | begin (key : String)
  | check (id : Nat)
  | evaluate (id : Nat)
  | record (id : Nat)
  | create (id : Nat) (random : Bool)
  | forget (id : Nat)
  deriving DecidableEq

namespace Client

/-- A call reads the clock. -/
def enter (c : Client) (clock : Int) (key : String) : Client :=
  { c with calls := c.calls ++ [{ key := key, now := clock }] }

/-- The call with the number gets to the stage. -/
def move (c : Client) (id : Nat) (call : LoginCall) (stage : LoginStage) : Client :=
  { c with calls := c.calls.set id { call with stage := stage } }

/-- The key is compared. -/
def evaluate (c : Client) (auth : Authenticator) (id : Nat) (call : LoginCall) : Client :=
  let accepted := (auth.authenticateKey call.key).isSome
  { c.move id call (if accepted then .accepted else .failed) with
    evaluated := ⟨call.now, accepted, c.failure.cooldownUntil⟩ :: c.evaluated }

/-- What a call of `login` does next, where it is at the stage for it. -/
def turn (c : Client) (cfg : ManagementSecurity) (auth : Authenticator) (id : Nat)
    (call : LoginCall) : LoginAct → Client
  | .check _ =>
      if call.stage = .begun then
        if call.now < c.failure.cooldownUntil then c.move id call .refused
        else c.move id call .checked
      else c
  | .evaluate _ => if call.stage = .checked then c.evaluate auth id call else c
  | .record _ =>
      if call.stage = .failed then
        { c.move id call .returned with failure := c.failure.record cfg call.now }
      else c
  | .create _ random =>
      if call.stage = .accepted then c.move id call (if random then .created else .returned) else c
  | .forget _ =>
      if call.stage = .created then
        { c.move id call .returned with
          failure := {}, forgotten := c.failure.attempts ++ c.forgotten }
      else c
  | _ => c

/-- The call with the number, if there is one, takes its turn. -/
def goOn (c : Client) (cfg : ManagementSecurity) (auth : Authenticator) (id : Nat)
    (act : LoginAct) : Client :=
  match c.calls[id]? with
  | none => c
  | some call => c.turn cfg auth id call act

def act (c : Client) (cfg : ManagementSecurity) (auth : Authenticator) (clock : Int) :
    LoginAct → Client
  | .begin key => c.enter clock key
  | .check id => c.goOn cfg auth id (.check id)
  | .evaluate id => c.goOn cfg auth id (.evaluate id)
  | .record id => c.goOn cfg auth id (.record id)
  | .create id random => c.goOn cfg auth id (.create id random)
  | .forget id => c.goOn cfg auth id (.forget id)

end Client

/-- `sessionManager`, by client address, and the clock, which does not go back. -/
structure Logins where
  clock : Int := 0
  clients : String → Client := fun _ => {}

inductive LoginOp where
  | advance (elapsed : Nat)
  | login (address : String) (act : LoginAct)

namespace Logins

def step (cfg : ManagementSecurity) (auth : Authenticator) (s : Logins) : LoginOp → Logins
  | .advance elapsed => { s with clock := s.clock + elapsed }
  | .login address act =>
      { s with
        clients := Function.update s.clients address
          ((s.clients address).act cfg auth s.clock act) }

def run (cfg : ManagementSecurity) (auth : Authenticator) (ops : List LoginOp) : Logins :=
  ops.foldl (step cfg auth) {}

end Logins

end RelayLifeline.Admin
