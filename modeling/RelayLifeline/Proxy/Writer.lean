import RelayLifeline.Proxy.Protocol

/-!
# The downstream writer

The response to the client is opened before anything is known of the upstream's
answer. A goroutine keeps it alive with comments or whitespace, and the handler
stops that goroutine and waits for it before it writes the one payload. How
much of a write the connection takes is for the outside world to say.
-/

namespace RelayLifeline.Proxy

structure Downstream where
  streaming : Bool
  status : Option Nat := none
  /-- The headers are out and the heartbeat runs. -/
  started : Bool := false
  stop : Bool := false
  done : Bool := false
  /-- Some write was not taken in whole. -/
  broken : Bool := false
  body : List UInt8 := []

namespace Downstream

/-- `ResponseWriter.Write`, of which the connection takes `taken` bytes. -/
def write (d : Downstream) (bytes : List UInt8) (taken : Nat) : Downstream × Bool :=
  ({ d with
      body := d.body ++ bytes.take taken
      broken := d.broken || decide (taken < bytes.length) },
    decide (bytes.length ≤ taken))

/-- `startDownstream`, for a writer opened with this body kind. -/
def start (d : Downstream) : Downstream := { d with started := true, status := some 200 }

/-- `http.Error`, which answers where nothing has been started. -/
def error (d : Downstream) (status : Nat) (text : String) : Downstream :=
  { d with status := some status, body := d.body ++ utf8 (text ++ "\n") }

/-! ## The heartbeat -/

def keepalive (streaming : Bool) : List UInt8 :=
  if streaming then utf8 ": relay-lifeline keepalive\n\n" else utf8 "\n"

/-- How one tick of the heartbeat goes: whether the deadline could be set, how
much of the keepalive was taken, whether it could be flushed and the deadline
cleared again. -/
structure Beat where
  deadline : Bool := true
  taken : Nat := 28
  flushed : Bool := true
  cleared : Bool := true
  deriving DecidableEq, Repr

/-- One tick of `heartbeat`, and whether it ended without an error. It may come
after the stop, since a select between two ready channels takes either. -/
def beat (d : Downstream) (b : Beat) : Downstream × Bool :=
  if !d.started || d.done then (d, true)
  else
    let written := if b.deadline then d.write (keepalive d.streaming) b.taken else (d, false)
    let ok := written.2 && b.flushed && b.cleared
    ({ written.1 with done := !ok }, ok)

/-- The goroutine sees the stop and returns. -/
def quit (d : Downstream) : Downstream :=
  if d.started && d.stop then { d with done := true } else d

/-- The first half of `stopHeartbeat`; the second waits for `done`. -/
def stopHeartbeat (d : Downstream) : Downstream := { d with stop := true }

/-! ## The payload -/

def downstreamCopyChunk : Nat := 32 * 1024

/-- One turn of the loop in `deliver`: how many bytes the buffer's reader
returned and whether with an error, whether the write deadline could be set, and
how much of the chunk was taken. -/
structure Read where
  count : Nat := downstreamCopyChunk
  failed : Bool := false
  deadline : Bool := true
  taken : Nat := downstreamCopyChunk
  deriving DecidableEq, Repr

/-- How a delivery goes: whether the buffer could be opened, the turns of the
loop, after which the rest goes out in turns that do not fail, and whether the
last flush succeeds. -/
structure Delivery where
  opened : Bool := true
  reads : List Read := []
  flushed : Bool := true
  deriving DecidableEq, Repr

/-- The loop of `deliver`; the answer is whether it reached the end. -/
def copy (d : Downstream) (rest : List UInt8) : List Read → Downstream × Bool
  | [] => d.write rest rest.length
  | read :: reads =>
      let count := min read.count downstreamCopyChunk
      let chunk := rest.take count
      if chunk ≠ [] ∧ !read.deadline then (d, false)
      else
        let written := d.write chunk read.taken
        if !written.2 || read.failed then (written.1, false)
        else copy written.1 (rest.drop count) reads

/-- `deliver`, after the heartbeat has stopped. -/
def deliver (d : Downstream) (buffer : List UInt8) (delivery : Delivery) : Downstream × Bool :=
  if delivery.opened then
    let copied := d.copy buffer delivery.reads
    (copied.1, copied.2 && delivery.flushed)
  else (d, false)

/-- The failure envelope around a message that is already quoted. -/
def envelope (streaming : Bool) (quoted : String) : List UInt8 :=
  if streaming then
    utf8 ("event: error\ndata: \x7b\"type\":\"error\",\"error\":\x7b\"message\":" ++ quoted ++
      "\x7d\x7d\n\n")
  else
    utf8 ("\x7b\"error\":\x7b\"message\":" ++ quoted ++ ",\"type\":\"relay_lifeline_error\"\x7d\x7d")

/-- `fail`, after the heartbeat has stopped. -/
def fail (d : Downstream) (quoted : String) (taken : Nat) : Downstream :=
  (d.write (envelope d.streaming quoted) taken).1

/-! ## What these change -/

/-- Whatever happens to a copy, what went out is the beginning of it, and where
the copy reached the end all of it. -/
theorem copy_spec (d : Downstream) (rest : List UInt8) (reads : List Read) :
    (∃ sent, sent <+: rest ∧ (d.copy rest reads).1.body = d.body ++ sent ∧
      ((d.copy rest reads).2 = true → sent = rest)) ∧
    (d.copy rest reads).1.streaming = d.streaming ∧ (d.copy rest reads).1.started = d.started ∧
      (d.copy rest reads).1.stop = d.stop ∧ (d.copy rest reads).1.done = d.done := by
  induction reads generalizing d rest with
  | nil => exact ⟨⟨rest, List.prefix_rfl, by simp [copy, write], fun _ => rfl⟩, rfl, rfl, rfl, rfl⟩
  | cons read reads ih =>
      simp only [copy]
      generalize min read.count downstreamCopyChunk = count
      split
      · exact ⟨⟨[], List.nil_prefix, by simp, by simp⟩, rfl, rfl, rfl, rfl⟩
      · split
        · refine ⟨⟨(rest.take count).take read.taken,
            (List.take_prefix _ _).trans (List.take_prefix _ _), rfl, by simp⟩, rfl, rfl, rfl, rfl⟩
        · rename_i hok
          simp only [write, Bool.or_eq_true, Bool.not_eq_true', decide_eq_false_iff_not, not_or,
            not_not] at hok
          obtain ⟨⟨sent, hsent, hbody, hall⟩, hstreaming, hstarted, hstop, hdone⟩ :=
            ih (d.write (rest.take count) read.taken).1 (rest.drop count)
          refine ⟨⟨rest.take count ++ sent, ?_, ?_, ?_⟩, hstreaming, hstarted, hstop, hdone⟩
          · conv_rhs => rw [← List.take_append_drop count rest]
            exact (List.prefix_append_right_inj _).2 hsent
          · rw [hbody]
            simp [write, List.take_of_length_le hok.1]
          · intro hend
            rw [hall hend, List.take_append_drop]

/-- What a delivery sends is the beginning of the buffer. -/
theorem deliver_spec (d : Downstream) (buffer : List UInt8) (delivery : Delivery) :
    (∃ sent, sent <+: buffer ∧ (d.deliver buffer delivery).1.body = d.body ++ sent ∧
      ((d.deliver buffer delivery).2 = true → sent = buffer)) ∧
    (d.deliver buffer delivery).1.streaming = d.streaming ∧
      (d.deliver buffer delivery).1.started = d.started ∧
      (d.deliver buffer delivery).1.stop = d.stop ∧
      (d.deliver buffer delivery).1.done = d.done := by
  simp only [deliver]
  split
  · obtain ⟨⟨sent, hsent, hbody, hall⟩, hrest⟩ := d.copy_spec buffer delivery.reads
    exact ⟨⟨sent, hsent, hbody, fun hok => hall (by simp_all)⟩, hrest⟩
  · exact ⟨⟨[], List.nil_prefix, by simp, by simp⟩, rfl, rfl, rfl, rfl⟩

end Downstream

end RelayLifeline.Proxy
