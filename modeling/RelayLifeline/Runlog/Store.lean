import RelayLifeline.Lib.Paging
import RelayLifeline.Lib.Trace
import RelayLifeline.Text

/-!
# The live log

The store numbers the entries it is given and drops the oldest ones, those that
are older than the retention and those for which there is no room. It does so
whenever it is asked for anything. A client reads page by page, by the number
of the last entry it has, and through a filter.

The limits are those of the moment, and `strings.ToLower` is a parameter.
-/

namespace RelayLifeline.Runlog

open Lib

structure Limits where
  maxItems : Nat
  retention : Int
  deriving DecidableEq

/-- What a call reads as it prunes: the limits and the clock. -/
structure Moment where
  limits : Limits
  now : Int
  deriving DecidableEq

/-- `Entry`, with `F` for what its fields hold. -/
structure Entry (F : Type) where
  id : Nat := 0
  time : Int := 0
  level : String := ""
  event : String := ""
  message : String := ""
  requestID : String := ""
  clientID : String := ""
  taskID : String := ""
  attempt : Int := 0
  statusCode : Int := 0
  fields : Option F := none
  deriving DecidableEq

structure Filter where
  level : String := ""
  event : String := ""
  requestID : String := ""
  search : String := ""
  since : Int := 0

variable {F : Type}

structure LogPage (F : Type) where
  entries : List (Entry F) := []
  nextAfter : Nat
  oldestAfter : Nat := 0
  hasMore : Bool := false
  hasGap : Bool := false
  deriving DecidableEq

structure Store (F : Type) where
  entries : List (Entry F) := []
  nextID : Nat := 0

/-- `matches`. -/
def Filter.keeps (toLower : String → String) (filter : Filter) (entry : Entry F) : Bool :=
  if filter.level ≠ "" ∧ entry.level ≠ filter.level ∨
      filter.event ≠ "" ∧ entry.event ≠ filter.event ∨
      filter.requestID ≠ "" ∧ entry.requestID ≠ filter.requestID ∨
      filter.since ≠ 0 ∧ entry.time < filter.since then false
  else
    let search := toLower (trimSpace filter.search)
    search = "" || contains (toLower entry.event) search ||
      contains (toLower entry.message) search || contains (toLower entry.requestID) search ||
      contains (toLower entry.clientID) search || contains (toLower entry.taskID) search

namespace Store

/-- `pruneLocked`. -/
def prune (s : Store F) (m : Moment) : Store F :=
  let cutoff := m.now - m.limits.retention
  let kept := s.entries.dropWhile fun entry => entry.time < cutoff
  { s with
    entries :=
      if m.limits.maxItems < kept.length then kept.drop (kept.length - m.limits.maxItems)
      else kept }

/-- The entry as it is stored. -/
def stored (s : Store F) (now : Int) (entry : Entry F) : Entry F :=
  let entry := if entry.time = 0 then { entry with time := now } else entry
  { entry with id := s.nextID + 1 }

def add (s : Store F) (now : Int) (m : Moment) (entry : Entry F) : Store F :=
  ({ entries := s.entries ++ [s.stored now entry], nextID := s.nextID + 1 } : Store F).prune m

/-- The limit of a page: a hundred where none was given. -/
def pageLimit (limit : Int) : Nat := if limit < 1 then 100 else limit.toNat

/-- What `QueryPage` reads off the pruned store. -/
def pageOf (toLower : String → String) (s : Store F) (after : Nat) (limit : Int) (filter : Filter) :
    LogPage F :=
  match s.entries with
  | [] => { nextAfter := after, oldestAfter := s.nextID }
  | oldest :: _ =>
      let oldestAfter := oldest.id - 1
      let page := page Entry.id (filter.keeps toLower) (pageLimit limit) s.entries after
      { entries := page.items
        nextAfter := page.nextAfter
        oldestAfter := oldestAfter
        hasMore := page.hasMore
        hasGap := after < oldestAfter }

def queryPage (toLower : String → String) (s : Store F) (m : Moment) (after : Nat) (limit : Int)
    (filter : Filter) : Store F × LogPage F :=
  let s := s.prune m
  (s, s.pageOf toLower after limit filter)

end Store

/-- A call of the store: `Add`, with the reading of the clock that an entry
without a time is given, or one that only prunes. -/
inductive Input (F : Type) where
  | add (now : Int) (m : Moment) (entry : Entry F)
  | prune (m : Moment)

/-- The store and every entry it was ever given, as it stored them, which the
source does not remember. -/
structure Log (F : Type) where
  store : Store F := {}
  history : List (Entry F) := []

namespace Log

def step (log : Log F) : Input F → Log F
  | .add now m entry => ⟨log.store.add now m entry, log.history ++ [log.store.stored now entry]⟩
  | .prune m => { log with store := log.store.prune m }

def run (inputs : List (Input F)) : Log F := inputs.foldl step {}

end Log

end RelayLifeline.Runlog
