import RelayLifeline.Proxy.Attempt
import RelayLifeline.Proxy.Protocol

/-!
# Validating an event stream

`validateEventStream` scans the cached response for SSE events and keeps, over
all of them, whether a completion marker or a failure was seen and the last
usage that was reported. The reader hands over the bytes in chunks of its own
choosing; the JSON decoder is a parameter.
-/

namespace RelayLifeline.Proxy.EventStream

open Bytes (spaces)

inductive ProtocolProfile where
  | genericJSON
  | responses
  | chatCompletions
  deriving DecidableEq, Repr

/-! ## The JSON decoder -/

/-- The fields of an event the visitor looks at: `error` is the text of the
value, empty where the event has none. -/
structure Event where
  type : String := ""
  error : List UInt8 := []
  status : String := ""
  deriving DecidableEq, Repr

/-- `json.Unmarshal`, into the three kinds of target the validation has. An
object is none where the text is no object or is `null`; its values are their
texts, each a proper part of the text of the object. -/
structure Decoder where
  event : List UInt8 → Option Event
  object : List UInt8 → Option (String → Option (List UInt8))
  integer : List UInt8 → Option Int64
  shorter {data : List UInt8} {fields : String → Option (List UInt8)} {name : String}
    {raw : List UInt8} : object data = some fields → fields name = some raw →
      raw.length < data.length

namespace Decoder

variable (dec : Decoder)

def usageInteger (object : String → Option (List UInt8)) (keys : List String) : Option Int64 :=
  keys.findSome? fun key => (object key).bind dec.integer

def parseUsageObject (raw : List UInt8) : Option TokenUsage :=
  if raw = [] ∨ raw = utf8 "null" then none
  else
    match dec.object raw with
    | none => none
    | some object =>
        match dec.usageInteger object ["total_tokens", "totalTokens"] with
        | none => none
        | some total =>
            let input := (dec.usageInteger object
              ["input_tokens", "prompt_tokens", "inputTokens", "promptTokens"]).getD 0
            let output := (dec.usageInteger object
              ["output_tokens", "completion_tokens", "outputTokens",
                "completionTokens"]).getD 0
            if total < 0 then none
            else if input < 0 ∨ output < 0 then none
            else some { inputTokens := input, outputTokens := output, totalTokens := total }

def tokenUsageFromJSON (data : List UInt8) : Option TokenUsage :=
  match _ : dec.object data with
  | none => none
  | some envelope =>
      match dec.parseUsageObject ((envelope "usage").getD []) with
      | some usage => some usage
      | none =>
          match _ : envelope "response" with
          | some nested => tokenUsageFromJSON nested
          | none => none
termination_by data.length
decreasing_by exact dec.shorter ‹_› ‹_›

theorem tokenUsageFromJSON_eq (data : List UInt8) :
    dec.tokenUsageFromJSON data =
      (dec.object data).bind fun envelope =>
        (dec.parseUsageObject ((envelope "usage").getD [])).or
          ((envelope "response").bind dec.tokenUsageFromJSON) := by
  rw [tokenUsageFromJSON]
  split
  · next h => rw [h]; rfl
  · next envelope h =>
    rw [h]
    show _ = (dec.parseUsageObject ((envelope "usage").getD [])).or
      ((envelope "response").bind dec.tokenUsageFromJSON)
    split
    · next usage husage => rw [husage]; rfl
    · next husage =>
      rw [husage, Option.none_or]
      split
      · next nested hnested => rw [hnested]; rfl
      · next hnested => rw [hnested]; rfl

end Decoder

/-! ## The visitor -/

/-- The text that ends a stream of Chat Completions. -/
def doneMarker : List UInt8 := utf8 "[DONE]"

/-- The event says that the response failed. -/
def Event.failure (event : Event) : Bool :=
  event.type = "response.failed" || event.type = "error" || event.type = "response.incomplete" ||
  event.status = "failed" || event.status = "incomplete" ||
  (event.error ≠ [] && event.error ≠ utf8 "null")

/-- What `validateEventStream` keeps while it visits the events. -/
structure Verdict where
  responsesCompleted : Bool := false
  done : Bool := false
  failed : Bool := false
  usage : Option TokenUsage := none
  deriving DecidableEq, Repr

/-- The visitor: none where it returns `errInvalidSSEJSON`. -/
def visit (dec : Decoder) (verdict : Verdict) (raw : List UInt8) : Option Verdict :=
  let data := Bytes.trimSpace raw
  if data = [] then some verdict
  else if data = doneMarker then some { verdict with done := true }
  else
    match dec.event data with
    | none => none
    | some event =>
        some { verdict with
          usage := (dec.tokenUsageFromJSON data).or verdict.usage
          responsesCompleted := verdict.responsesCompleted || event.type = "response.completed"
          failed := verdict.failed || event.failure }

/-! ## The scanner -/

inductive ReadError where
  | eof
  | failed
  deriving DecidableEq, Repr

/-- What one call of `Read` returns. -/
structure Read where
  data : List UInt8
  err : Option ReadError := none
  deriving DecidableEq, Repr

/-- The lines of a buffer that a newline ends, and what follows the last newline. -/
def splitLines : List UInt8 → List (List UInt8) × List UInt8
  | [] => ([], [])
  | b :: rest =>
      if b = newline then ([] :: (splitLines rest).1, (splitLines rest).2)
      else
        match (splitLines rest).1 with
        | [] => ([], b :: (splitLines rest).2)
        | line :: more => ((b :: line) :: more, (splitLines rest).2)

def maxConsecutiveEmptyReads : Nat := 100

/-- `Scan`, until it returns false: the tokens, and whether `Err` is nil. The
buffer holds no full line when it is filled again; `loop` counts the reads in a
row that brought nothing, and a reader that is out of reads is at the end. -/
def scan (loop : Nat) (buffer : List UInt8) : List Read → List (List UInt8) × Bool
  | [] => if maxTokenSize ≤ buffer.length then ([], false) else (lines buffer, true)
  | read :: rest =>
      -- the buffer is full and cannot grow: `ErrTooLong`
      if maxTokenSize ≤ buffer.length then ([], false)
      else
        match read.err with
        | some .eof => (lines (buffer ++ read.data), true)
        -- what was read before the error still makes a last token
        | some .failed => (lines (buffer ++ read.data), false)
        | none =>
            if read.data = [] then
              -- `io.ErrNoProgress`
              if maxConsecutiveEmptyReads ≤ loop then (lines buffer, false)
              else scan (loop + 1) buffer rest
            else
              let split := splitLines (buffer ++ read.data)
              let scanned := scan 0 split.2 rest
              (split.1 ++ scanned.1, scanned.2)

inductive StreamError where
  | invalidJSON
  | readFailed
  deriving DecidableEq, Repr

/-- `dispatch`, with the visitor it calls. -/
def dispatchTo (dec : Decoder) (verdict : Verdict) (dataLines : List (List UInt8)) :
    Option Verdict :=
  if dataLines = [] then some verdict
  else visit dec verdict (List.intercalate [newline] dataLines)

/-- The loop of `scanSSEData`, over the scanner's tokens: a visitor that fails
ends it, with what was kept so far. -/
def visitTokens (dec : Decoder) (intact : Bool) (verdict : Verdict)
    (dataLines : List (List UInt8)) : List (List UInt8) → Verdict × Option StreamError
  | [] =>
      if intact then
        match dispatchTo dec verdict dataLines with
        | none => (verdict, some .invalidJSON)
        | some verdict => (verdict, none)
      else (verdict, some .readFailed)
  | token :: rest =>
      -- `ScanLines` drops one carriage return, `strings.TrimSuffix` another
      let line := trimCR (trimCR token)
      if line = [] then
        match dispatchTo dec verdict dataLines with
        | none => (verdict, some .invalidJSON)
        | some verdict => visitTokens dec intact verdict [] rest
      else if line.head? = some colon then visitTokens dec intact verdict dataLines rest
      else if (cutField line).1 = utf8 "data" then
        visitTokens dec intact verdict (dataLines ++ [trimSpacePrefix (cutField line).2]) rest
      else visitTokens dec intact verdict dataLines rest

/-- The marker the profile asks for was seen. -/
def Verdict.completed (verdict : Verdict) : ProtocolProfile → Bool
  | .genericJSON => verdict.responsesCompleted || verdict.done
  | .responses => verdict.responsesCompleted
  | .chatCompletions => verdict.done

/-- What `validateEventStream` returns after the scan. -/
def Verdict.validation (verdict : Verdict) (profile : ProtocolProfile) :
    Option StreamError → Validation
  | some .invalidJSON => { message.id := "proxy.sse_invalid", usage := verdict.usage }
  | some .readFailed => { message.id := "proxy.sse_read_failed", usage := verdict.usage }
  | none =>
      if verdict.failed then { message.id := "proxy.sse_failed", usage := verdict.usage }
      else if verdict.completed profile = false then
        { message.id := "proxy.sse_incomplete", usage := verdict.usage }
      else { success := true, usage := verdict.usage }

def validateEventStream (dec : Decoder) (profile : ProtocolProfile) (reader : List Read) :
    Validation :=
  let tokens := scan 0 [] reader
  let scanned := visitTokens dec tokens.2 {} [] tokens.1
  scanned.1.validation profile scanned.2

end RelayLifeline.Proxy.EventStream
