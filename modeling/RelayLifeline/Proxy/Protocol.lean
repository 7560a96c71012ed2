import Mathlib.Data.List.Basic

/-!
# Reading a response body

The two ways a client reads what the gateway sends it: as a stream of SSE
events, with the scanner the gateway itself validates streams with, and as one
JSON value.
-/

namespace RelayLifeline.Proxy

/-- The bytes of a text. -/
def utf8 (s : String) : List UInt8 := s.toUTF8.data.toList

theorem utf8_append (s t : String) : utf8 (s ++ t) = utf8 s ++ utf8 t := by
  simp [utf8]

def newline : UInt8 := 10
def carriageReturn : UInt8 := 13
def colon : UInt8 := 58
def space : UInt8 := 32

/-- `bufio.ScanLines`, before it strips a carriage return: the text between two
newlines, and what follows the last one if anything does. -/
def lines : List UInt8 → List (List UInt8)
  | [] => []
  | b :: rest =>
      if b = newline then [] :: lines rest
      else
        match lines rest with
        | [] => [[b]]
        | line :: more => (b :: line) :: more

/-- `strings.TrimSuffix(line, "\r")`. -/
def trimCR (line : List UInt8) : List UInt8 :=
  if line.getLast? = some carriageReturn then line.dropLast else line

/-- `strings.Cut(line, ":")`, with no value where there is no colon. -/
def cutField (line : List UInt8) : List UInt8 × List UInt8 :=
  (line.takeWhile (· ≠ colon), (line.dropWhile (· ≠ colon)).drop 1)

/-- `strings.TrimPrefix(value, " ")`. -/
def trimSpacePrefix : List UInt8 → List UInt8
  | b :: rest => if b = space then rest else b :: rest
  | [] => []

def maxTokenSize : Nat := 8 * 1024 * 1024

/-- `dispatch`: the event the lines so far make, if there are any. -/
def dispatch (dataLines : List (List UInt8)) : List (List UInt8) :=
  if dataLines = [] then [] else [List.intercalate [newline] dataLines]

/-- The loop of `scanSSEData`, for a visitor that never stops it: the events it
visits, and whether it came to the end. -/
def scanLines (dataLines : List (List UInt8)) : List (List UInt8) → List (List UInt8) × Bool
  | [] => (dispatch dataLines, true)
  | token :: rest =>
      if maxTokenSize ≤ token.length then ([], false)
      else
        let line := trimCR (trimCR token)
        if line = [] then
          let scanned := scanLines [] rest
          (dispatch dataLines ++ scanned.1, scanned.2)
        else if line.head? = some colon then scanLines dataLines rest
        else if (cutField line).1 = utf8 "data" then
          scanLines (dataLines ++ [trimSpacePrefix (cutField line).2]) rest
        else scanLines dataLines rest

def scanSSEData (body : List UInt8) : List (List UInt8) × Bool := scanLines [] (lines body)

/-- The whitespace of JSON. -/
def isJSONSpace (b : UInt8) : Bool := b = space ∨ b = 9 ∨ b = newline ∨ b = carriageReturn

/-- A JSON text is a value with whitespace around it; `value` reads the value
and what follows. -/
def decodeJSON {α : Type*} (value : List UInt8 → Option α) (body : List UInt8) : Option α :=
  value (body.dropWhile isJSONSpace)

/-! ## Lines -/

/-- A line is cut off at its newline. -/
theorem lines_append {line : List UInt8} (rest : List UInt8) (h : newline ∉ line) :
    lines (line ++ newline :: rest) = line :: lines rest := by
  induction line with
  | nil => simp [lines]
  | cons b line ih =>
      have hb : b ≠ newline := fun hb => h (hb ▸ List.mem_cons_self)
      have hline : newline ∉ line := fun hin => h (List.mem_cons_of_mem _ hin)
      simp [lines, hb, ih hline]

@[simp] theorem trimCR_nil : trimCR [] = [] := rfl

/-- An empty line ends the event the lines before it make. -/
theorem scanLines_nil (dataLines rest : List (List UInt8)) :
    scanLines dataLines ([] :: rest) =
      (dispatch dataLines ++ (scanLines [] rest).1, (scanLines [] rest).2) := by
  rw [scanLines, if_neg (by decide)]
  simp

/-- A comment line is passed over. -/
theorem scanLines_comment {comment : List UInt8} (dataLines rest : List (List UInt8))
    (hshort : comment.length < maxTokenSize)
    (hcolon : (trimCR (trimCR comment)).head? = some colon) :
    scanLines dataLines (comment :: rest) = scanLines dataLines rest := by
  have hne : trimCR (trimCR comment) ≠ [] := by
    intro hnil
    simp [hnil] at hcolon
  rw [scanLines, if_neg (Nat.not_le.2 hshort)]
  simp only [hne, hcolon, if_true, if_false]

/-- A comment with the empty line after it makes no event. -/
theorem scanSSEData_comment {comment : List UInt8} (rest : List UInt8) (hline : newline ∉ comment)
    (hshort : comment.length < maxTokenSize)
    (hcolon : (trimCR (trimCR comment)).head? = some colon) :
    scanSSEData (comment ++ newline :: newline :: rest) = scanSSEData rest := by
  have hempty : lines (newline :: rest) = [] :: lines rest :=
    lines_append rest (List.not_mem_nil)
  simp only [scanSSEData]
  rw [lines_append _ hline, hempty, scanLines_comment _ _ hshort hcolon, scanLines_nil]
  simp [dispatch]

/-- Newlines before a JSON text are not part of it. -/
theorem decodeJSON_newline {α : Type*} (value : List UInt8 → Option α) (body : List UInt8) :
    decodeJSON value (newline :: body) = decodeJSON value body := by
  simp [decodeJSON, isJSONSpace]

end RelayLifeline.Proxy
