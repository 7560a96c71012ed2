import RelayLifeline.Journal.Digest

/-!
# The realtime feed of the management API

A feed numbers the events that change something and keeps the last of them. A
client reads on from the number of the last event it has, its cursor, and is
told where the ring no longer has what comes next; it is then sent the current
state instead.

The streams of a locale share one feed, so between two looks of a stream at it
any events may be published. A stream ends with the first write that fails.
-/

namespace RelayLifeline.Admin

open Journal

/-- `realtimeEvent`, without the version. -/
structure RealtimeEvent where
  sequence : Nat
  type : String
  generatedAt : Int
  data : List UInt8
  deriving DecidableEq

structure RealtimePage where
  events : List RealtimeEvent := []
  gap : Bool := false
  latest : Nat

/-- `realtimeFeed`. The map of hashes is a function. -/
structure RealtimeFeed where
  next : Nat := 0
  events : List RealtimeEvent := []
  hashes : String → Option (List UInt8) := fun _ => none

def realtimeEventCapacity : Nat := 512

/-- What is published: a value of a type and what tells whether it has changed. -/
structure Publication where
  type : String
  data : List UInt8
  fingerprint : List UInt8
  now : Int

namespace RealtimeFeed

/-- The event a publication becomes, unless nothing has changed. -/
def eventOf (f : RealtimeFeed) (p : Publication) : Option RealtimeEvent :=
  if f.hashes p.type = some (sha256 p.fingerprint) then none
  else some ⟨f.next + 1, p.type, p.now, p.data⟩

/-- The last events, as many as the ring has room for. -/
def trim (events : List RealtimeEvent) : List RealtimeEvent :=
  if realtimeEventCapacity < events.length then
    events.drop (events.length - realtimeEventCapacity)
  else events

def publishData (f : RealtimeFeed) (p : Publication) : RealtimeFeed :=
  match f.eventOf p with
  | none => f
  | some event =>
      { next := f.next + 1
        events := trim (f.events ++ [event])
        hashes := fun type =>
          if type = p.type then some (sha256 p.fingerprint) else f.hashes type }

def after (f : RealtimeFeed) (cursor : Nat) : RealtimePage :=
  match f.events with
  | [] => { latest := f.next }
  | oldest :: _ =>
      if 0 < cursor ∧ cursor < oldest.sequence - 1 then { gap := true, latest := f.next }
      else
        { events := f.events.filter fun event => cursor < event.sequence, latest := f.next }

end RealtimeFeed

/-- A feed and every event it ever had, which the source does not remember. -/
structure FeedLog where
  feed : RealtimeFeed := {}
  history : List RealtimeEvent := []

namespace FeedLog

def publish (log : FeedLog) (p : Publication) : FeedLog where
  feed := log.feed.publishData p
  history := log.history ++ (log.feed.eventOf p).toList

def run (log : FeedLog) (ps : List Publication) : FeedLog := ps.foldl publish log

/-- The events the ring has lost. -/
def overwritten (log : FeedLog) : Nat := log.feed.next - realtimeEventCapacity

end FeedLog

/-- A client's stream. What the client has is the state as of the event `base`,
by its cursor or by a snapshot it was sent, and the updates `received` since. A
snapshot counts as of the number it is sent with, though it is taken before.
The feed was last looked at when `paged` was the latest event. -/
structure Stream where
  log : FeedLog
  cursor : Nat
  base : Nat
  received : List RealtimeEvent := []
  paged : Nat

inductive StreamOp where
  | publish (p : Publication)
  | page

namespace Stream

/-- A client joins. Without a cursor it is sent the state by `sync`; an event
that comes after it has joined is new to it, whatever its cursor says. -/
def join (log : FeedLog) : Option Nat → Stream
  | none =>
      { log := log, cursor := log.feed.next, base := log.feed.next, paged := log.feed.next }
  | some cursor =>
      { log := log, cursor := cursor, base := min cursor log.feed.next
        paged := min cursor log.feed.next }

/-- A tick: the client is sent the state by `reset`, or else the updates. -/
def page (s : Stream) : Stream :=
  let page := s.log.feed.after s.cursor
  if page.gap then
    { s with cursor := page.latest, base := page.latest, received := [], paged := page.latest }
  else
    { s with
      cursor := (page.events.getLast?.map RealtimeEvent.sequence).getD s.cursor
      received := s.received ++ page.events
      paged := page.latest }

def step (s : Stream) : StreamOp → Stream
  | .publish p => { s with log := s.log.publish p }
  | .page => s.page

def run (s : Stream) (ops : List StreamOp) : Stream := ops.foldl step s

/-- As of the last look at the feed, the client has every event since `base`. -/
def Complete (s : Stream) : Prop :=
  s.received = (s.log.history.take s.paged).drop s.base

end Stream

end RelayLifeline.Admin
