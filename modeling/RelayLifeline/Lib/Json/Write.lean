import RelayLifeline.Lib.Json.Read
import Mathlib.Data.List.Sort

/-!
# Writing JSON

Values are written the way `json.Marshal` and `json.MarshalIndent` write an
`any`: the members of an object in the order of their names, and strings so
that they may stand in HTML.
-/

namespace RelayLifeline.Lib.Json

variable {F : Type}

def hexDigit (n : UInt8) : UInt8 := if n < 10 then 0x30 + n else 0x57 + n

/-- `\u00` and the two digits of the byte. -/
def escapeUnit (c : UInt8) : Text :=
  [backslash, 0x75, 0x30, 0x30, hexDigit (c / 16), hexDigit (c % 16)]

/-- A byte of a string that is less than `utf8.RuneSelf`. -/
def encodeByte (c : UInt8) : Text :=
  if c = quoteMark || c = backslash then [backslash, c]
  else if c = 0x08 then [backslash, 0x62]
  else if c = 0x0c then [backslash, 0x66]
  else if c = 0x0a then [backslash, 0x6e]
  else if c = 0x0d then [backslash, 0x72]
  else if c = 0x09 then [backslash, 0x74]
  else if c < 0x20 || c = 0x3c || c = 0x3e || c = 0x26 then escapeUnit c
  else [c]

/-- What is between the quotes of a string. The separators U+2028 and U+2029
are escaped, and what is not UTF-8 is replaced. -/
def encodeFrom : Nat → Text → Text
  | 0, _ => []
  | n + 1, s =>
      match s with
      | [] => []
      | c :: rest =>
          if c < 0x80 then encodeByte c ++ encodeFrom n rest
          else if runeSize s = 0 then
            [backslash, 0x75, 0x66, 0x66, 0x66, 0x64] ++ encodeFrom n rest
          else if s.take 3 = [0xe2, 0x80, 0xa8] then
            [backslash, 0x75, 0x32, 0x30, 0x32, 0x38] ++ encodeFrom n (s.drop 3)
          else if s.take 3 = [0xe2, 0x80, 0xa9] then
            [backslash, 0x75, 0x32, 0x30, 0x32, 0x39] ++ encodeFrom n (s.drop 3)
          else s.take (runeSize s) ++ encodeFrom n (s.drop (runeSize s))

def encodeString (s : Text) : Text := quoteMark :: encodeFrom s.length s ++ [quoteMark]

/-- The order of strings. -/
def nameLe : Text → Text → Bool
  | [], _ => true
  | _ :: _, [] => false
  | c :: s, d :: t => c < d || (c = d && nameLe s t)

/-- What stands before a part of a container: nothing, or a new line with its
indentation. -/
def lineBreak : Option Nat → Text
  | none => []
  | some depth => 0x0a :: List.replicate (2 * depth) 0x20

/-- What stands between a name and its value. -/
def separator : Option Nat → Text
  | none => [colon]
  | some _ => [colon, 0x20]

/-- A container of the parts, which are written. -/
def enclose (layout : Option Nat) (first last : UInt8) (parts : List Text) : Text :=
  if parts = [] then [first, last]
  else
    first :: List.intercalate [comma] (parts.map (lineBreak (layout.map (· + 1)) ++ ·)) ++
      lineBreak layout ++ [last]

mutual

/-- A value, with the depth it is indented to if it is indented. -/
def write (numbers : Numbers F) (layout : Option Nat) : Value F → Text
  | .null => nullWord
  | .bool b => if b then trueWord else falseWord
  | .number x => numbers.format x
  | .string s => encodeString s
  | .array items =>
      enclose layout openBracket closeBracket (writeItems numbers (layout.map (· + 1)) items)
  | .object members =>
      let named := writeMembers numbers (layout.map (· + 1)) members
      let sorted := named.insertionSort fun a b => nameLe a.1 b.1
      enclose layout openBrace closeBrace
        (sorted.map fun member => encodeString member.1 ++ separator layout ++ member.2)

def writeItems (numbers : Numbers F) (layout : Option Nat) : List (Value F) → List Text
  | [] => []
  | item :: items => write numbers layout item :: writeItems numbers layout items

def writeMembers (numbers : Numbers F) (layout : Option Nat) :
    List (Text × Value F) → List (Text × Text)
  | [] => []
  | (name, value) :: members =>
      (name, write numbers layout value) :: writeMembers numbers layout members

end

/-- `json.Marshal`, which a value never makes fail. -/
def marshal (numbers : Numbers F) (value : Value F) : Text := write numbers none value

/-- `json.MarshalIndent`, with no prefix and two spaces. -/
def marshalIndent (numbers : Numbers F) (value : Value F) : Text := write numbers (some 0) value

end RelayLifeline.Lib.Json
