import RelayLifeline.Bytes
import RelayLifeline.Capture.Crypto
import RelayLifeline.Lib.Json.Write
import RelayLifeline.Lib.Regex
import RelayLifeline.Proxy.Protocol

/-!
# The filtered views of a captured body

`FilterBody` takes the sensitive values out of a body: out of the values of a
JSON text, or of each data line of an event stream that is one, and where the
bytes at hand do not decode, out of their text by patterns. The preview filters
the first bytes of the body, the export all that was captured.
-/

namespace RelayLifeline.Capture

open Lib Lib.Json
open Proxy (utf8 newline)

def redacted : Bytes := utf8 "[REDACTED]"

/-! ## Patterns -/

namespace Pattern

/-- `\s`. -/
def space : Regex := .byte fun b => b ∈ ([9, 10, 12, 13, 32] : List UInt8)

def isAlnum (b : UInt8) : Bool := isWord b && b ≠ 0x5f

/-- A class of letters, digits and some other bytes. -/
def oneOf (others : String) : Regex := .byte fun b => isAlnum b || b ∈ utf8 others

/-- Any byte but space and some others. -/
def noneOf (others : String) : Regex :=
  .byte fun b => b ∉ ([9, 10, 12, 13, 32] : List UInt8) && b ∉ utf8 others

/-- A byte of a text without regard to case. The long s folds to an s, and the
Kelvin sign to a k. -/
def foldByte (b : UInt8) : Regex :=
  let either := .byte fun c => c = b || (0x61 ≤ b && b ≤ 0x7a && c = b - 0x20)
  if b = 0x73 then .alt either (Regex.literal [0xC5, 0xBF])
  else if b = 0x6b then .alt either (Regex.literal [0xE2, 0x84, 0xAA])
  else either

/-- A text in lower case, without regard to case. -/
def fold (text : String) : Regex := Regex.concat ((utf8 text).map foldByte)

/-- `[_-]?`. -/
def joint : Regex := Regex.opt (.byte fun b => b ∈ utf8 "_-")

end Pattern

open Pattern

def secretPatterns : List Regex :=
  [ -- (?i)bearer\s+[a-z0-9._~+/=-]+
    Regex.concat [fold "bearer", Regex.plus space,
      Regex.plus (Regex.choice [oneOf "._~+/=-", Regex.literal [0xC5, 0xBF],
        Regex.literal [0xE2, 0x84, 0xAA]])],
    -- \bsk-[A-Za-z0-9_-]{12,}\b
    Regex.concat [.boundary, Regex.literal (utf8 "sk-"), Regex.atLeast (oneOf "_-") 12,
      .boundary],
    -- \bgh[opusr]_[A-Za-z0-9]{20,}\b
    Regex.concat [.boundary, Regex.literal (utf8 "gh"), .byte fun b => b ∈ utf8 "opusr",
      Regex.literal (utf8 "_"), Regex.atLeast (oneOf "") 20, .boundary],
    -- \bAKIA[0-9A-Z]{16}\b
    Regex.concat [.boundary, Regex.literal (utf8 "AKIA"),
      Regex.times (.byte fun b => isDigit b || (0x41 ≤ b && b ≤ 0x5a)) 16, .boundary],
    -- \beyJ[A-Za-z0-9_-]+\.[A-Za-z0-9_-]+\.[A-Za-z0-9_-]+\b
    Regex.concat [.boundary, Regex.literal (utf8 "eyJ"), Regex.plus (oneOf "_-"),
      Regex.literal (utf8 "."), Regex.plus (oneOf "_-"), Regex.literal (utf8 "."),
      Regex.plus (oneOf "_-"), .boundary],
    -- (?i)https?://[^\s/:@]+:[^\s/@]+@[^\s]+
    Regex.concat [fold "http", Regex.opt (fold "s"), Regex.literal (utf8 "://"),
      Regex.plus (noneOf "/:@"), Regex.literal (utf8 ":"), Regex.plus (noneOf "/@"),
      Regex.literal (utf8 "@"), Regex.plus (noneOf "")],
    -- (?i)(api[_-]?key|access[_-]?token|refresh[_-]?token|token|secret|password)(\s*[=:]\s*)[^\s,;&]+
    Regex.concat [
      Regex.choice [Regex.concat [fold "api", joint, fold "key"],
        Regex.concat [fold "access", joint, fold "token"],
        Regex.concat [fold "refresh", joint, fold "token"],
        fold "token", fold "secret", fold "password"],
      .star space, .byte fun b => b ∈ utf8 "=:", .star space, Regex.plus (noneOf ",;&")]]

def redactText (data : Bytes) : Bytes :=
  secretPatterns.foldl (fun result pattern => pattern.replaceAll redacted result) data

/-! ## Names -/

/-- `strings.ToLower`, as far as it makes ASCII: of the other letters two have
an ASCII lower case, I with a dot and the Kelvin sign. -/
def toLower : Bytes → Bytes
  | [] => []
  | 0xC4 :: 0xB0 :: rest => 0x69 :: toLower rest
  | 0xE2 :: 0x84 :: 0xAA :: rest => 0x6b :: toLower rest
  | b :: rest => (if 0x41 ≤ b && b ≤ 0x5a then b + 0x20 else b) :: toLower rest

def sensitiveName (value : Bytes) : Bool :=
  let normalized := (toLower value).filter fun b => b ∉ utf8 "_-."
  normalized = utf8 "authorization" || normalized = utf8 "cookie" || normalized = utf8 "key" ||
    ["password", "secret", "token", "apikey", "accesskey", "privatekey", "credential"].any
      fun word => decide (utf8 word <:+: normalized)

/-! ## Bodies -/

variable {F : Type}

mutual

def filterJSON : Value F → Bytes → Value F
  | .object members, key =>
      if sensitiveName key then .string redacted else .object (filterMembers members)
  | .array items, key =>
      if sensitiveName key then .string redacted else .array (filterItems items key)
  | .string s, key => if sensitiveName key then .string redacted else .string (redactText s)
  | value, key => if sensitiveName key then .string redacted else value

def filterItems : List (Value F) → Bytes → List (Value F)
  | [], _ => []
  | item :: items, key => filterJSON item key :: filterItems items key

def filterMembers : List (Text × Value F) → List (Text × Value F)
  | [] => []
  | (name, child) :: members => (name, filterJSON child name) :: filterMembers members

end

variable (numbers : Numbers F)

/-- What `filterSSE` does with one line. -/
def filterLine (line : Bytes) : Bytes :=
  let indent := line.takeWhile fun b => b = 0x20 || b = 0x09
  let trimmed := line.dropWhile fun b => b = 0x20 || b = 0x09
  if (utf8 "data:").isPrefixOf trimmed then
    match unmarshal numbers (Bytes.trimSpace (trimmed.drop 5)) with
    | none => redactText line
    | some value => indent ++ utf8 "data: " ++ marshal numbers (filterJSON value [])
  else redactText line

def filterSSE (data : Bytes) : Bytes :=
  List.intercalate [newline] ((data.splitOn newline).map (filterLine numbers))

def filterBody (data : Bytes) (contentType : String) : Bytes :=
  let trimmed := Bytes.trimSpace data
  if utf8 "event-stream" <:+: toLower (utf8 contentType) then filterSSE numbers data
  else if utf8 "json" <:+: toLower (utf8 contentType) ∨ valid trimmed then
    match unmarshal numbers trimmed with
    | some value => marshalIndent numbers (filterJSON value [])
    | none => redactText data
  else redactText data

/-! ## Views -/

structure Limited where
  plain : Bytes := []
  remaining : Nat

/-- `errPreviewLimit`. -/
def previewLimit : Failure := .failed "preview limit reached"

/-- `limitedWriter`. -/
def limitedWriter : Writer Limited :=
  ⟨fun w data =>
    if w.remaining = 0 then (w, some previewLimit)
    else
      let taken := data.take w.remaining
      let left := w.remaining - taken.length
      (⟨w.plain ++ taken, left⟩, if left = 0 then some previewLimit else none)⟩

/-- `filteredObject`, of an object that can be opened: the filtered bytes, and
whether the limit was reached. -/
def filteredObject (g : Gcm) (key object : Bytes) (contentType : String) (limit : Nat) :
    Except Failure (Bytes × Bool) :=
  let read := decryptChunks g key object limitedWriter { remaining := limit }
  match read.2 with
  | none => .ok (filterBody numbers read.1.plain contentType, false)
  | some err =>
      if err = previewLimit then .ok (filterBody numbers read.1.plain contentType, true)
      else .error err

def maxPreviewBytes : Nat := 2 ^ 20

/-- What `Preview` shows of a body. -/
def preview (g : Gcm) (key object : Bytes) (contentType : String) : Except Failure (Bytes × Bool) :=
  filteredObject numbers g key object contentType maxPreviewBytes

/-- What `writeBodyEntry` writes of a body in filtered mode. -/
def writeFiltered (g : Gcm) (key object : Bytes) (contentType : String) : Except Failure Bytes :=
  let plain := decryptChunks g key object buffer []
  match plain.2 with
  | some err => .error err
  | none => .ok (filterBody numbers plain.1 contentType)

end RelayLifeline.Capture
