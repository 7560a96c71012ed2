import Mathlib.Data.List.Range
import RelayLifeline.Lib.Trace
import RelayLifeline.Settings.Config

/-!
# Webhook notifications

A call makes a job of an event and puts it into a queue of a hundred. One worker
takes the jobs out of it and posts each until the endpoint answers well or there
have been as many attempts as there may be.

A call is given its number under the lock, goes to the queue without it, and
takes it again to count. What lies between is one step, so the steps of the
calls come in any order with those of the worker: a job may be delivered before
it is counted. The answers to the posts, the readings of the clock and the
payload that `json.Marshal` makes are part of the steps.
-/

namespace RelayLifeline.Notify

open Lib Settings

structure SigningConfig where
  keyID : String
  secret : String

def SigningConfig.configured (signing : SigningConfig) : Bool :=
  signing.keyID ≠ "" ∧ signing.secret ≠ ""

/-- `Event`, without what only the payload has of it. -/
structure Event where
  type : String
  requestID : String := ""

structure Delivery where
  id : Nat
  eventType : String
  requestID : String
  url : String
  payload : List UInt8
  attempts : Int
  backoff : Int
  deriving DecidableEq

inductive Outcome where
  | delivered
  | failed
  | dropped
  deriving DecidableEq

structure DeliveryRecord where
  id : Nat
  eventType : String
  requestID : String
  outcome : Outcome
  attempts : Nat := 0
  statusCode : Int := 0
  completedAt : Int
  deriving DecidableEq

/-- `Status`, as far as the notifier keeps it. -/
structure Status where
  enqueued : Nat := 0
  delivered : Nat := 0
  failed : Nat := 0
  dropped : Nat := 0
  lastAttemptAt : Int := 0
  lastSuccessAt : Int := 0
  lastFailureAt : Int := 0

def queueCapacity : Nat := 100

def deliveryHistoryLimit : Nat := 100

inductive EnqueueError where
  | webhookNotConfigured
  | webhookSigningNotConfigured
  | payload
  | queueFull
  deriving DecidableEq

/-- What `enqueue` does before it has a number: it returns, or it has the job
but for the number. -/
def prepare (cfg : NotificationConfig) (signing : SigningConfig) (event : Event) (force : Bool)
    (payload : Option (List UInt8)) : Except (Option EnqueueError) (Nat → Delivery) :=
  if cfg.webhookURL = "" then .error (some .webhookNotConfigured)
  else if !signing.configured then .error (some .webhookSigningNotConfigured)
  else if !force && event.type ∉ cfg.eventTypes.getD [] then .error none
  else
    match payload with
    | none => .error (some .payload)
    | some payload =>
        .ok fun id =>
          { id
            eventType := event.type
            requestID := event.requestID
            url := cfg.webhookURL
            payload
            attempts := cfg.deliveryAttempts
            backoff := cfg.deliveryBackoff }

/-- Where a call of `enqueue` is. -/
inductive CallStage where
  /-- It has its number. -/
  | numbered
  /-- Its job is in the queue, which is not counted yet. -/
  | sent
  /-- The queue was full, which is not counted yet. -/
  | refused
  deriving DecidableEq

/-- Where `deliver` is in an attempt. -/
inductive Stage where
  | starting
  | posting
  | succeeded
  | waiting
  | exhausted
  deriving DecidableEq

/-- What `deliver` goes by. -/
structure Work where
  job : Delivery
  attempt : Nat := 1
  completedAttempts : Nat := 0
  statusCode : Int := 0
  stage : Stage
  deriving DecidableEq

/-- The worker: `run`, in `deliver` or before its `select`. -/
inductive Worker where
  | idle
  | delivering (work : Work)
  | stopped
  deriving DecidableEq

def Worker.job : Worker → List Delivery
  | .delivering work => [work.job]
  | _ => []

/-- What `post` returns: the status code, and whether there is no error. There
is no code where there is no answer. -/
def posted (answer : Option Int) : Int × Bool :=
  match answer with
  | none => (0, false)
  | some code => (code, 200 ≤ code ∧ code < 300)

namespace Work

/-- `deliver` begins. There may be no attempt at all. -/
def begin (job : Delivery) : Work where
  job
  stage := if 1 ≤ job.attempts then .starting else .exhausted

def answered (work : Work) (answer : Option Int) : Work :=
  { work with
    statusCode := (posted answer).1
    stage :=
      if (posted answer).2 then .succeeded
      else if work.attempt < work.job.attempts then .waiting
      else .exhausted }

def record (work : Work) (outcome : Outcome) (now : Int) : DeliveryRecord where
  id := work.job.id
  eventType := work.job.eventType
  requestID := work.job.requestID
  outcome
  attempts := work.completedAttempts
  statusCode := work.statusCode
  completedAt := now

end Work

def Delivery.dropped (job : Delivery) (now : Int) : DeliveryRecord where
  id := job.id
  eventType := job.eventType
  requestID := job.requestID
  outcome := .dropped
  completedAt := now

/-- The notifier, with the calls that have not returned. -/
structure Notifier where
  nextID : Nat := 0
  calls : List (Delivery × CallStage) := []
  queue : List Delivery := []
  worker : Worker := .idle
  closed : Bool := false
  stats : Status := {}
  history : List DeliveryRecord := []

/-- The next thing that a call, the worker or `Close` does. -/
inductive Act where
  | enqueue (cfg : NotificationConfig) (signing : SigningConfig) (event : Event) (force : Bool)
      (payload : Option (List UInt8))
  | send (call : Nat)
  | count (call : Nat) (now : Int)
  | take
  | attempt (now : Int)
  | post (answer : Option Int)
  | wait (timer : Bool)
  | finish (now completedAt : Int)
  | close
  | stop

/-- What has happened in a step. The source does not remember it. -/
inductive Note where
  | numbered (job : Delivery)
  | returned (error : Option EnqueueError)
  | sent (job : Delivery)
  | refused (job : Delivery)
  | dropped (record : DeliveryRecord)
  | taken (job : Delivery)
  | posted (job : Delivery) (answer : Option Int)
  | finished (job : Delivery) (record : DeliveryRecord)
  | abandoned (job : Delivery)
  | nothing
  deriving DecidableEq

/-- `recordLocked`. -/
def recorded (history : List DeliveryRecord) (record : DeliveryRecord) : List DeliveryRecord :=
  let history := history ++ [record]
  if deliveryHistoryLimit < history.length then
    history.drop (history.length - deliveryHistoryLimit)
  else history

namespace Notifier

def record (n : Notifier) (record : DeliveryRecord) : Notifier :=
  { n with history := recorded n.history record }

/-- The `select` of `enqueue`. -/
def send (n : Notifier) (i : Nat) (job : Delivery) : Notifier × Note :=
  if n.queue.length < queueCapacity then
    ({ n with queue := n.queue ++ [job], calls := n.calls.set i (job, .sent) }, .sent job)
  else ({ n with calls := n.calls.set i (job, .refused) }, .refused job)

/-- The end of `enqueue`. -/
def count (n : Notifier) (i : Nat) (now : Int) : Delivery × CallStage → Notifier × Note
  | (_, .sent) =>
      ({ n with calls := n.calls.eraseIdx i, stats.enqueued := n.stats.enqueued + 1 },
        .returned none)
  | (job, .refused) =>
      (({ n with
          calls := n.calls.eraseIdx i
          stats.dropped := n.stats.dropped + 1 } : Notifier).record (job.dropped now),
        .dropped (job.dropped now))
  | (_, .numbered) => (n, .nothing)

/-- The end of `deliver`, where it has posted the job or may not post it again. -/
def finish (n : Notifier) (work : Work) (now completedAt : Int) : Notifier × Note :=
  match work.stage with
  | .succeeded =>
      let record := work.record .delivered completedAt
      (({ n with
          worker := .idle
          stats.delivered := n.stats.delivered + 1
          stats.lastSuccessAt := now } : Notifier).record record, .finished work.job record)
  | .exhausted =>
      let record := work.record .failed completedAt
      (({ n with
          worker := .idle
          stats.failed := n.stats.failed + 1
          stats.lastFailureAt := now } : Notifier).record record, .finished work.job record)
  | _ => (n, .nothing)

/-- What the worker does next in `deliver`. -/
def deliver (n : Notifier) (work : Work) : Act → Notifier × Note
  | .attempt now =>
      if work.stage = .starting then
        ({ n with
            worker := .delivering
              { work with completedAttempts := work.attempt, stage := .posting }
            stats.lastAttemptAt := now }, .nothing)
      else (n, .nothing)
  | .post answer =>
      if work.stage = .posting then
        ({ n with worker := .delivering (work.answered answer) }, .posted work.job answer)
      else (n, .nothing)
  | .wait timer =>
      if work.stage = .waiting then
        if timer then
          ({ n with
              worker := .delivering { work with attempt := work.attempt + 1, stage := .starting } },
            .nothing)
        else if n.closed then ({ n with worker := .idle }, .abandoned work.job)
        else (n, .nothing)
      else (n, .nothing)
  | .finish now completedAt => n.finish work now completedAt
  | _ => (n, .nothing)

def step (n : Notifier) (act : Act) : Notifier × Note :=
  match act with
  | .enqueue cfg signing event force payload =>
      match prepare cfg signing event force payload with
      | .error error => (n, .returned error)
      | .ok job =>
          ({ n with
              nextID := n.nextID + 1
              calls := n.calls ++ [(job (n.nextID + 1), .numbered)] },
            .numbered (job (n.nextID + 1)))
  | .send i =>
      match n.calls[i]? with
      | some (job, .numbered) => n.send i job
      | _ => (n, .nothing)
  | .count i now =>
      match n.calls[i]? with
      | some call => n.count i now call
      | none => (n, .nothing)
  | .take =>
      match n.worker, n.queue with
      | .idle, job :: queue =>
          ({ n with queue, worker := .delivering (Work.begin job) }, .taken job)
      | _, _ => (n, .nothing)
  | .close => ({ n with closed := true }, .nothing)
  | .stop =>
      if n.worker = .idle ∧ n.closed then ({ n with worker := .stopped }, .nothing)
      else (n, .nothing)
  | act =>
      match n.worker with
      | .delivering work => n.deliver work act
      | _ => (n, .nothing)

def run (acts : List Act) : Notifier := acts.foldl (fun n act => (n.step act).1) {}

def notes (acts : List Act) : List Note := outputs step {} acts

/-- `Deliveries`. -/
def deliveries (n : Notifier) (limit : Int) : List DeliveryRecord :=
  let limit := if limit < 1 ∨ deliveryHistoryLimit < limit then deliveryHistoryLimit else limit.toNat
  let limit := if n.history.length < limit then n.history.length else limit
  (n.history.drop (n.history.length - limit)).reverse

end Notifier

/-! ## Where every job is -/

namespace Note

def sentJobs : Note → List Delivery
  | .sent job => [job]
  | _ => []

/-- The job that the worker is done with. -/
def endedJobs : Note → List Delivery
  | .finished job _ => [job]
  | .abandoned job => [job]
  | _ => []

def abandonedJobs : Note → List Delivery
  | .abandoned job => [job]
  | _ => []

def records : Note → List DeliveryRecord
  | .dropped record => [record]
  | .finished _ record => [record]
  | _ => []

end Note

/-- The numbers of the calls that have not put their job into the queue. -/
def pending (calls : List (Delivery × CallStage)) : List Nat :=
  (calls.filter fun call => call.2 ≠ .sent).map fun call => call.1.id

/-- How the notifier stands after what has happened. -/
structure Account (past : List Note) (n : Notifier) : Prop where
  /-- The worker ends the jobs in the order in which they got into the queue. -/
  fifo : past.flatMap Note.sentJobs = past.flatMap Note.endedJobs ++ n.worker.job ++ n.queue
  /-- A number is in one place. -/
  places : (List.range' 1 n.nextID).Perm
    (pending n.calls ++ n.queue.map Delivery.id ++ n.worker.job.map Delivery.id ++
      (past.flatMap Note.abandonedJobs).map Delivery.id ++
      (past.flatMap Note.records).map DeliveryRecord.id)
  enqueued : n.stats.enqueued + n.calls.countP (fun call => call.2 = .sent) =
    (past.flatMap Note.sentJobs).length
  delivered : n.stats.delivered =
    (past.flatMap Note.records).countP fun record => record.outcome = .delivered
  failed : n.stats.failed =
    (past.flatMap Note.records).countP fun record => record.outcome = .failed
  dropped : n.stats.dropped =
    (past.flatMap Note.records).countP fun record => record.outcome = .dropped
  depth : n.queue.length ≤ queueCapacity
  closed : past.flatMap Note.abandonedJobs ≠ [] → n.closed = true

/-! ## One step -/

theorem prepare_id {cfg : NotificationConfig} {signing : SigningConfig} {event : Event}
    {force : Bool} {payload : Option (List UInt8)} {job : Nat → Delivery}
    (h : prepare cfg signing event force payload = .ok job) (id : Nat) : (job id).id = id := by
  unfold prepare at h
  split at h
  next => cases h
  next =>
    split at h
    next => cases h
    next =>
      split at h
      next => cases h
      next =>
        cases payload with
        | none => cases h
        | some payload =>
            cases h
            rfl

/-- What a step can do. -/
inductive Moves (n : Notifier) : Notifier → Note → Prop
  | nothing : Moves n n .nothing
  | returned (error : Option EnqueueError) : Moves n n (.returned error)
  | numbered (job : Delivery) (hid : job.id = n.nextID + 1) :
      Moves n { n with nextID := n.nextID + 1, calls := n.calls ++ [(job, .numbered)] }
        (.numbered job)
  | sent (i : Nat) (job : Delivery) (hget : n.calls[i]? = some (job, .numbered))
      (hroom : n.queue.length < queueCapacity) :
      Moves n { n with queue := n.queue ++ [job], calls := n.calls.set i (job, .sent) } (.sent job)
  | refused (i : Nat) (job : Delivery) (hget : n.calls[i]? = some (job, .numbered)) :
      Moves n { n with calls := n.calls.set i (job, .refused) } (.refused job)
  | counted (i : Nat) (job : Delivery) (hget : n.calls[i]? = some (job, .sent)) :
      Moves n { n with calls := n.calls.eraseIdx i, stats.enqueued := n.stats.enqueued + 1 }
        (.returned none)
  | dropped (i : Nat) (job : Delivery) (now : Int) (hget : n.calls[i]? = some (job, .refused)) :
      Moves n
        (({ n with calls := n.calls.eraseIdx i, stats.dropped := n.stats.dropped + 1 } :
          Notifier).record (job.dropped now)) (.dropped (job.dropped now))
  | taken (job : Delivery) (queue : List Delivery) (hworker : n.worker = .idle)
      (hqueue : n.queue = job :: queue) :
      Moves n { n with queue, worker := .delivering (Work.begin job) } (.taken job)
  | started (work : Work) (now : Int) (hworker : n.worker = .delivering work)
      (hstage : work.stage = .starting) :
      Moves n
        { n with
          worker := .delivering { work with completedAttempts := work.attempt, stage := .posting }
          stats.lastAttemptAt := now } .nothing
  | posted (work : Work) (answer : Option Int) (hworker : n.worker = .delivering work)
      (hstage : work.stage = .posting) :
      Moves n { n with worker := .delivering (work.answered answer) } (.posted work.job answer)
  | waited (work : Work) (hworker : n.worker = .delivering work) (hstage : work.stage = .waiting) :
      Moves n
        { n with
          worker := .delivering { work with attempt := work.attempt + 1, stage := .starting } }
        .nothing
  | abandoned (work : Work) (hworker : n.worker = .delivering work)
      (hstage : work.stage = .waiting) (hclosed : n.closed = true) :
      Moves n { n with worker := .idle } (.abandoned work.job)
  | delivered (work : Work) (now completedAt : Int) (hworker : n.worker = .delivering work)
      (hstage : work.stage = .succeeded) :
      Moves n
        (({ n with
            worker := .idle
            stats.delivered := n.stats.delivered + 1
            stats.lastSuccessAt := now } : Notifier).record (work.record .delivered completedAt))
        (.finished work.job (work.record .delivered completedAt))
  | failed (work : Work) (now completedAt : Int) (hworker : n.worker = .delivering work)
      (hstage : work.stage = .exhausted) :
      Moves n
        (({ n with
            worker := .idle
            stats.failed := n.stats.failed + 1
            stats.lastFailureAt := now } : Notifier).record (work.record .failed completedAt))
        (.finished work.job (work.record .failed completedAt))
  | closed : Moves n { n with closed := true } .nothing
  | stopped (hworker : n.worker = .idle) : Moves n { n with worker := .stopped } .nothing

theorem moves_deliver {n : Notifier} {work : Work} (hworker : n.worker = .delivering work)
    (act : Act) : Moves n (n.deliver work act).1 (n.deliver work act).2 := by
  unfold Notifier.deliver
  cases act with
  | attempt now =>
      dsimp only
      split
      next hstage => exact .started work now hworker hstage
      next => exact .nothing
  | post answer =>
      dsimp only
      split
      next hstage => exact .posted work answer hworker hstage
      next => exact .nothing
  | wait timer =>
      dsimp only
      split
      next hstage =>
        split
        next => exact .waited work hworker hstage
        next =>
          split
          next hclosed => exact .abandoned work hworker hstage hclosed
          next => exact .nothing
      next => exact .nothing
  | finish now completedAt =>
      dsimp only
      unfold Notifier.finish
      split
      next hstage => exact .delivered work now completedAt hworker hstage
      next hstage => exact .failed work now completedAt hworker hstage
      next => exact .nothing
  | _ => exact .nothing

theorem moves_step (n : Notifier) (act : Act) : Moves n (n.step act).1 (n.step act).2 := by
  unfold Notifier.step
  cases act with
  | enqueue cfg signing event force payload =>
      dsimp only
      split
      next error _ => exact .returned error
      next job hjob => exact .numbered _ (prepare_id hjob _)
  | send i =>
      dsimp only
      split
      next job hget =>
        rw [Notifier.send]
        split
        next hroom => exact .sent i job hget hroom
        next => exact .refused i job hget
      next => exact .nothing
  | count i now =>
      dsimp only
      split
      next call hget =>
        obtain ⟨job, stage⟩ := call
        cases stage with
        | numbered => exact .nothing
        | sent => exact .counted i job hget
        | refused => exact .dropped i job now hget
      next => exact .nothing
  | take =>
      dsimp only
      split
      next job queue hworker hqueue => exact .taken job queue hworker hqueue
      next => exact .nothing
  | close => exact .closed
  | stop =>
      dsimp only
      split
      next hidle => exact .stopped hidle.1
      next => exact .nothing
  | _ =>
      dsimp only
      split
      next work hworker => exact moves_deliver hworker _
      next => exact .nothing

/-- What every step keeps holds after every run. -/
theorem run_invariant {P : List Note → Notifier → Prop} (hstart : P [] {})
    (hstep : ∀ past n n' note, P past n → Moves n n' note → P (past ++ [note]) n')
    (acts : List Act) : P (Notifier.notes acts) (Notifier.run acts) :=
  outputs_invariant (fun past n act h => hstep past n _ _ h (moves_step n act)) hstart acts

/-- The calls around one of them. -/
theorem split_calls {α : Type} {l : List α} {i : Nat} {a : α} (h : l[i]? = some a) :
    ∃ front back, l = front ++ a :: back ∧ (∀ b, l.set i b = front ++ b :: back) ∧
      l.eraseIdx i = front ++ back := by
  obtain ⟨hlt, hget⟩ := List.getElem?_eq_some_iff.1 h
  refine ⟨l.take i, l.drop (i + 1), ?_, fun b => ?_, List.eraseIdx_eq_take_drop_succ l i⟩
  · rw [← hget, List.getElem_cons_drop, List.take_append_drop]
  · exact List.set_eq_take_append_cons_drop.trans (if_pos hlt)

/-! ## Every step keeps the account -/

theorem fifo_step {past : List Note} {n n' : Notifier} {note : Note} (h : Account past n)
    (hmoves : Moves n n' note) :
    (past ++ [note]).flatMap Note.sentJobs =
      (past ++ [note]).flatMap Note.endedJobs ++ n'.worker.job ++ n'.queue := by
  have hfifo := h.fifo
  rw [List.flatMap_append, List.flatMap_append, List.flatMap_singleton, List.flatMap_singleton]
  cases hmoves with
  | sent i job hget hroom => simp [hfifo, Note.sentJobs, Note.endedJobs]
  | taken job queue hworker hqueue =>
      rw [hworker, hqueue] at hfifo
      simpa [Note.sentJobs, Note.endedJobs, Worker.job, Work.begin] using hfifo
  | stopped hworker =>
      rw [hworker] at hfifo
      simpa [Note.sentJobs, Note.endedJobs, Worker.job] using hfifo
  | started work now hworker | posted work answer hworker | waited work hworker
  | abandoned work hworker | delivered work _ _ hworker | failed work _ _ hworker =>
      rw [hworker] at hfifo
      simpa [Note.sentJobs, Note.endedJobs, Worker.job, Notifier.record, Work.answered] using hfifo
  | _ => simpa [Note.sentJobs, Note.endedJobs, Notifier.record] using hfifo

theorem places_step {past : List Note} {n n' : Notifier} {note : Note} (h : Account past n)
    (hmoves : Moves n n' note) :
    (List.range' 1 n'.nextID).Perm
      (pending n'.calls ++ n'.queue.map Delivery.id ++ n'.worker.job.map Delivery.id ++
        ((past ++ [note]).flatMap Note.abandonedJobs).map Delivery.id ++
        ((past ++ [note]).flatMap Note.records).map DeliveryRecord.id) := by
  refine List.perm_iff_count.2 fun id => ?_
  have hcount := List.perm_iff_count.1 h.places id
  rw [List.flatMap_append, List.flatMap_append, List.flatMap_singleton, List.flatMap_singleton]
  simp only [List.count_append, List.map_append] at hcount ⊢
  cases hmoves with
  | numbered job hid =>
      simp [Note.abandonedJobs, Note.records, pending, List.range'_concat, List.count_append, hid]
        at hcount ⊢
      rw [Nat.add_comm 1 n.nextID]
      omega
  | sent i job hget hroom =>
      obtain ⟨front, back, hcalls, hset, -⟩ := split_calls hget
      rw [hcalls] at hcount
      simp [Note.abandonedJobs, Note.records, pending, hset, List.count_append,
        List.count_cons] at hcount ⊢
      omega
  | refused i job hget =>
      obtain ⟨front, back, hcalls, hset, -⟩ := split_calls hget
      rw [hcalls] at hcount
      simp [Note.abandonedJobs, Note.records, pending, hset, List.count_append,
        List.count_cons] at hcount ⊢
      omega
  | counted i job hget =>
      obtain ⟨front, back, hcalls, -, herase⟩ := split_calls hget
      rw [hcalls] at hcount
      simp [Note.abandonedJobs, Note.records, pending, herase, List.count_append]
        at hcount ⊢
      omega
  | dropped i job now hget =>
      obtain ⟨front, back, hcalls, -, herase⟩ := split_calls hget
      rw [hcalls] at hcount
      simp [Note.abandonedJobs, Note.records, Notifier.record, pending, herase,
        Delivery.dropped, List.count_append, List.count_cons] at hcount ⊢
      omega
  | taken job queue hworker hqueue =>
      simp [Note.abandonedJobs, Note.records, Worker.job, Work.begin, hworker, hqueue,
        List.count_cons] at hcount ⊢
      omega
  | stopped hworker =>
      simp [Note.abandonedJobs, Note.records, Worker.job, hworker] at hcount ⊢
      omega
  | started work now hworker | posted work answer hworker | waited work hworker
  | abandoned work hworker | delivered work _ _ hworker | failed work _ _ hworker =>
      simp [Note.abandonedJobs, Note.records, Worker.job, Notifier.record, Work.record,
        Work.answered, hworker, List.count_cons] at hcount ⊢
      omega
  | _ =>
      simp [Note.abandonedJobs, Note.records] at hcount ⊢
      omega

theorem enqueued_step {past : List Note} {n n' : Notifier} {note : Note} (h : Account past n)
    (hmoves : Moves n n' note) :
    n'.stats.enqueued + n'.calls.countP (fun call => call.2 = .sent) =
      ((past ++ [note]).flatMap Note.sentJobs).length := by
  have henqueued := h.enqueued
  rw [List.flatMap_append, List.flatMap_singleton, List.length_append, ← henqueued]
  cases hmoves with
  | sent i job hget hroom =>
      obtain ⟨front, back, hcalls, hset, -⟩ := split_calls hget
      rw [hset, hcalls]
      simp [Note.sentJobs, List.countP_append]
      omega
  | refused i job hget =>
      obtain ⟨front, back, hcalls, hset, -⟩ := split_calls hget
      rw [hset, hcalls]
      simp [Note.sentJobs, List.countP_append]
  | counted i job hget =>
      obtain ⟨front, back, hcalls, -, herase⟩ := split_calls hget
      rw [herase, hcalls]
      simp [Note.sentJobs, List.countP_append]
      omega
  | dropped i job now hget =>
      obtain ⟨front, back, hcalls, -, herase⟩ := split_calls hget
      rw [Notifier.record, herase, hcalls]
      simp [Note.sentJobs, List.countP_append]
  | _ => simp [Note.sentJobs, Notifier.record]

theorem account_step {past : List Note} {n n' : Notifier} {note : Note} (h : Account past n)
    (hmoves : Moves n n' note) : Account (past ++ [note]) n' where
  fifo := fifo_step h hmoves
  places := places_step h hmoves
  enqueued := enqueued_step h hmoves
  delivered := by
    rw [List.flatMap_append, List.flatMap_singleton, List.countP_append, ← h.delivered]
    cases hmoves <;> rfl
  failed := by
    rw [List.flatMap_append, List.flatMap_singleton, List.countP_append, ← h.failed]
    cases hmoves <;> rfl
  dropped := by
    rw [List.flatMap_append, List.flatMap_singleton, List.countP_append, ← h.dropped]
    cases hmoves <;> rfl
  depth := by
    have hdepth := h.depth
    cases hmoves with
    | sent i job hget hroom =>
        rw [List.length_append, List.length_singleton]
        exact hroom
    | taken job queue hworker hqueue =>
        rw [hqueue] at hdepth
        exact Nat.le_of_succ_le hdepth
    | _ => exact hdepth
  closed := by
    have hclosed := h.closed
    rw [List.flatMap_append, List.flatMap_singleton]
    cases hmoves with
    | abandoned work hworker hstage hclosed => exact fun _ => hclosed
    | closed => exact fun _ => rfl
    | _ => exact fun hne => hclosed (by simpa [Note.abandonedJobs] using hne)

/-- **No notification is lost or handled twice.** After every interleaving of
calls, worker and `Close`, the jobs that got into the queue are, in their order,
the jobs the worker is done with, the one it has and those that are still in the
queue, which has room for a hundred; every number is in one place, and where it
has an outcome there is one record of it; the counters count the records, and
only those jobs are not counted yet whose calls have not come to it. -/
theorem account_run (acts : List Act) : Account (Notifier.notes acts) (Notifier.run acts) := by
  refine run_invariant ?_ (fun _ _ _ _ => account_step) acts
  exact ⟨rfl, .rfl, rfl, rfl, rfl, rfl, Nat.zero_le _, fun hne => absurd rfl hne⟩

/-! ## The history -/

/-- The last records of what has been recorded. -/
def lastRecords (records : List DeliveryRecord) : List DeliveryRecord :=
  records.drop (records.length - deliveryHistoryLimit)

theorem recorded_lastRecords (records : List DeliveryRecord) (record : DeliveryRecord) :
    recorded (lastRecords records) record = lastRecords (records ++ [record]) := by
  have hlast : (lastRecords records ++ [record]).length =
      records.length - (records.length - deliveryHistoryLimit) + 1 := by
    rw [List.length_append, lastRecords, List.length_drop, List.length_singleton]
  have happend : lastRecords records ++ [record] =
      (records ++ [record]).drop (records.length - deliveryHistoryLimit) := by
    rw [lastRecords, List.drop_append_of_le_length (Nat.sub_le _ _)]
  rw [recorded, hlast, happend, lastRecords, List.length_append, List.length_singleton]
  split
  next =>
    rw [List.drop_drop]
    exact congrArg (fun k => (records ++ [record]).drop k) (by omega)
  next => exact congrArg (fun k => (records ++ [record]).drop k) (by omega)

/-- A step records what its note says, and keeps the last records. -/
theorem history_run (acts : List Act) :
    (Notifier.run acts).history = lastRecords ((Notifier.notes acts).flatMap Note.records) := by
  refine @run_invariant (fun past n => n.history = lastRecords (past.flatMap Note.records)) rfl ?_
    acts
  intro past n n' note h hmoves
  rw [List.flatMap_append, List.flatMap_singleton]
  cases hmoves with
  | dropped | delivered | failed =>
      rw [Notifier.record, Note.records, ← recorded_lastRecords, ← h]
  | _ => simpa [Note.records] using h

/-- **What `Deliveries` shows.** After every run it shows the records there have
ever been, the newest first, as many as are asked for, and a hundred at most. -/
theorem deliveries_run (acts : List Act) (limit : Int) :
    (Notifier.run acts).deliveries limit =
      ((Notifier.notes acts).flatMap Note.records).reverse.take
        (if limit < 1 ∨ deliveryHistoryLimit < limit then deliveryHistoryLimit
        else limit.toNat) := by
  have hlimit : (if limit < 1 ∨ deliveryHistoryLimit < limit then deliveryHistoryLimit
      else limit.toNat) ≤ deliveryHistoryLimit := by
    split <;> omega
  rw [Notifier.deliveries, history_run]
  generalize (if limit < 1 ∨ deliveryHistoryLimit < limit then deliveryHistoryLimit
    else limit.toNat) = shown at hlimit ⊢
  generalize (Notifier.notes acts).flatMap Note.records = records
  rw [List.take_reverse, lastRecords, List.drop_drop, List.length_drop]
  congr 2
  split <;> omega

end RelayLifeline.Notify
