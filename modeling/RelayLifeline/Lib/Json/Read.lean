import Mathlib.Data.List.Basic

/-!
# Reading JSON

A text is decoded the way Go's `encoding/json` decodes it into an `any`: values
nest at most so deep, of the members of an object with one name the last one
counts, a text in a string is made valid UTF-8, and a number is whatever
`strconv` makes of it, which may be nothing.
-/

namespace RelayLifeline.Lib.Json

/-- A text, as its bytes. -/
abbrev Text := List UInt8

abbrev quoteMark : UInt8 := 0x22
abbrev backslash : UInt8 := 0x5c
abbrev comma : UInt8 := 0x2c
abbrev colon : UInt8 := 0x3a
abbrev openBrace : UInt8 := 0x7b
abbrev closeBrace : UInt8 := 0x7d
abbrev openBracket : UInt8 := 0x5b
abbrev closeBracket : UInt8 := 0x5d

def isSpace (c : UInt8) : Bool := c = 0x20 || c = 0x09 || c = 0x0d || c = 0x0a

def isDigit (c : UInt8) : Bool := 0x30 ≤ c && c ≤ 0x39

def isExponent (c : UInt8) : Bool := c = 0x65 || c = 0x45

def isHexDigit (c : UInt8) : Bool :=
  isDigit c || (0x61 ≤ c && c ≤ 0x66) || (0x41 ≤ c && c ≤ 0x46)

/-- What may stand for one byte after a backslash. -/
def isEscape (c : UInt8) : Bool :=
  c ∈ [0x62, 0x66, 0x6e, 0x72, 0x74, backslash, 0x2f, quoteMark]

/-! ## Tokens -/

/-- What is between the quotes of a string, as it is written, and what follows
the closing one. -/
def readString : Text → Option (Text × Text)
  | [] => none
  | c :: rest =>
      if c = quoteMark then some ([], rest)
      else if c = backslash then
        match rest with
        | [] => none
        | e :: rest =>
            if e = 0x75 then
              match rest with
              | i :: j :: k :: l :: rest =>
                  if isHexDigit i && isHexDigit j && isHexDigit k && isHexDigit l then
                    (readString rest).map fun read => (c :: e :: i :: j :: k :: l :: read.1, read.2)
                  else none
              | _ => none
            else if isEscape e then (readString rest).map fun read => (c :: e :: read.1, read.2)
            else none
      else if c < 0x20 then none
      else (readString rest).map fun read => (c :: read.1, read.2)

/-- Digits, of which there is one at least. -/
def readDigits (s : Text) : Option (Text × Text) :=
  if s.takeWhile isDigit = [] then none else some (s.takeWhile isDigit, s.dropWhile isDigit)

def readInteger : Text → Option (Text × Text)
  | [] => none
  | c :: rest => if c = 0x30 then some ([c], rest) else readDigits (c :: rest)

def readFraction : Text → Option (Text × Text)
  | [] => some ([], [])
  | c :: rest =>
      if c = 0x2e then (readDigits rest).map fun read => (c :: read.1, read.2)
      else some ([], c :: rest)

def readSign : Text → Text × Text
  | [] => ([], [])
  | c :: rest => if c = 0x2b || c = 0x2d then ([c], rest) else ([], c :: rest)

def readExponent : Text → Option (Text × Text)
  | [] => some ([], [])
  | c :: rest =>
      if isExponent c then
        (readDigits (readSign rest).2).map fun read => (c :: (readSign rest).1 ++ read.1, read.2)
      else some ([], c :: rest)

def readUnsigned (s : Text) : Option (Text × Text) :=
  (readInteger s).bind fun integer =>
    (readFraction integer.2).bind fun fraction =>
      (readExponent fraction.2).map fun exponent =>
        (integer.1 ++ fraction.1 ++ exponent.1, exponent.2)

/-- A number, as it is written. -/
def readNumber : Text → Option (Text × Text)
  | [] => none
  | c :: rest =>
      if c = 0x2d then (readUnsigned rest).map fun read => (c :: read.1, read.2)
      else readUnsigned (c :: rest)

/-! ## Strings -/

def hexValue (c : UInt8) : Nat :=
  if isDigit c then c.toNat - 0x30
  else if c ≤ 0x46 then c.toNat - 0x37
  else c.toNat - 0x57

def hexRune (i j k l : UInt8) : Nat :=
  ((hexValue i * 16 + hexValue j) * 16 + hexValue k) * 16 + hexValue l

/-- A code point in UTF-8. -/
def encodeRune (r : Nat) : Text :=
  if r < 0x80 then [UInt8.ofNat r]
  else if r < 0x800 then [UInt8.ofNat (0xc0 + r / 0x40), UInt8.ofNat (0x80 + r % 0x40)]
  else if r < 0x10000 then
    [UInt8.ofNat (0xe0 + r / 0x1000), UInt8.ofNat (0x80 + r / 0x40 % 0x40),
      UInt8.ofNat (0x80 + r % 0x40)]
  else
    [UInt8.ofNat (0xf0 + r / 0x40000), UInt8.ofNat (0x80 + r / 0x1000 % 0x40),
      UInt8.ofNat (0x80 + r / 0x40 % 0x40), UInt8.ofNat (0x80 + r % 0x40)]

/-- U+FFFD. -/
def replacement : Text := [0xef, 0xbf, 0xbd]

def isTail (c : UInt8) : Bool := 0x80 ≤ c && c ≤ 0xbf

/-- How many bytes the code point at the head of the text takes, and zero where
there is no valid one. -/
def runeSize : Text → Nat
  | [] => 0
  | c :: rest =>
      if c < 0x80 then 1
      else
        match rest with
        | [] => 0
        | d :: rest =>
            if 0xc2 ≤ c && c ≤ 0xdf && isTail d then 2
            else
              match rest with
              | [] => 0
              | e :: rest =>
                  if 0xe0 ≤ c && c ≤ 0xef && isTail d && isTail e &&
                      !(c = 0xe0 && d < 0xa0) && !(c = 0xed && 0x9f < d) then 3
                  else
                    match rest with
                    | [] => 0
                    | f :: _ =>
                        if 0xf0 ≤ c && c ≤ 0xf4 && isTail d && isTail e && isTail f &&
                            !(c = 0xf0 && d < 0x90) && !(c = 0xf4 && 0x8f < d) then 4
                        else 0

def isHighSurrogate (r : Nat) : Bool := 0xd800 ≤ r && r < 0xdc00

def isLowSurrogate (r : Nat) : Bool := 0xdc00 ≤ r && r < 0xe000

def unescape (c : UInt8) : UInt8 :=
  if c = 0x62 then 0x08
  else if c = 0x66 then 0x0c
  else if c = 0x6e then 0x0a
  else if c = 0x72 then 0x0d
  else if c = 0x74 then 0x09
  else c

/-- `unquote`, of what is between the quotes. The fuel is the length. -/
def unquoteFrom : Nat → Text → Text
  | 0, _ => []
  | n + 1, s =>
      match s with
      | [] => []
      | c :: rest =>
          if c = backslash then
            match rest with
            | 0x75 :: i :: j :: k :: l :: rest =>
                let r := hexRune i j k l
                match rest with
                | 0x5c :: 0x75 :: i' :: j' :: k' :: l' :: rest' =>
                    let r' := hexRune i' j' k' l'
                    if isHighSurrogate r && isLowSurrogate r' then
                      encodeRune (0x10000 + (r - 0xd800) * 0x400 + (r' - 0xdc00)) ++
                        unquoteFrom n rest'
                    else if isHighSurrogate r || isLowSurrogate r then
                      replacement ++ unquoteFrom n rest
                    else encodeRune r ++ unquoteFrom n rest
                | _ =>
                    if isHighSurrogate r || isLowSurrogate r then
                      replacement ++ unquoteFrom n rest
                    else encodeRune r ++ unquoteFrom n rest
            | e :: rest => unescape e :: unquoteFrom n rest
            | [] => []
          else if runeSize s = 0 then replacement ++ unquoteFrom n rest
          else s.take (runeSize s) ++ unquoteFrom n (s.drop (runeSize s))

def unquote (s : Text) : Text := unquoteFrom s.length s

/-! ## Values -/

/-- What an `any` holds after decoding, with `F` for `float64`. -/
inductive Value (F : Type) where
  | null
  | bool (b : Bool)
  | number (x : F)
  | string (s : Text)
  | array (items : List (Value F))
  | object (members : List (Text × Value F))

/-- What `strconv` reads from a number and writes for one. -/
structure Numbers (F : Type) where
  parse : Text → Option F
  format : F → Text

variable {F : Type}

/-- Sets the value of a name, where it stands if it is there. -/
def insert (name : Text) (value : Value F) : List (Text × Value F) → List (Text × Value F)
  | [] => [(name, value)]
  | member :: rest =>
      if member.1 = name then (name, value) :: rest else member :: insert name value rest

/-- The members of an object, in the order they are read. -/
def collect (members : List (Text × Value F)) : List (Text × Value F) :=
  members.foldl (fun found member => insert member.1 member.2 found) []

/-- A literal, and what follows it. -/
def readLiteral (word : Text) (value : Value F) (s : Text) : Option (Value F × Text) :=
  if word.isPrefixOf s then some (value, s.drop word.length) else none

def trueWord : Text := [0x74, 0x72, 0x75, 0x65]
def falseWord : Text := [0x66, 0x61, 0x6c, 0x73, 0x65]
def nullWord : Text := [0x6e, 0x75, 0x6c, 0x6c]

/-- A value that holds no others. -/
def readScalar (numbers : Numbers F) : Text → Option (Value F × Text)
  | [] => none
  | c :: rest =>
      if c = quoteMark then
        (readString rest).map fun read => (.string (unquote read.1), read.2)
      else if c = 0x74 then readLiteral trueWord (.bool true) (c :: rest)
      else if c = 0x66 then readLiteral falseWord (.bool false) (c :: rest)
      else if c = 0x6e then readLiteral nullWord .null (c :: rest)
      else
        (readNumber (c :: rest)).bind fun read =>
          (numbers.parse read.1).map fun x => (.number x, read.2)

mutual

/-- A value, which may nest so deep. The fuel is for the three functions
together, and a value needs no more of it than twice its length. -/
def readValue (numbers : Numbers F) : Nat → Nat → Text → Option (Value F × Text)
  | 0, _, _ => none
  | n + 1, depth, s =>
      match s with
      | [] => none
      | c :: rest =>
          if c = openBracket then
            if depth = 0 then none
            else if (rest.dropWhile isSpace).head? = some closeBracket then
              some (.array [], (rest.dropWhile isSpace).tail)
            else
              (readItems numbers n (depth - 1) rest).map fun read => (.array read.1, read.2)
          else if c = openBrace then
            if depth = 0 then none
            else if (rest.dropWhile isSpace).head? = some closeBrace then
              some (.object [], (rest.dropWhile isSpace).tail)
            else
              (readMembers numbers n (depth - 1) rest).map fun read =>
                (.object (collect read.1), read.2)
          else readScalar numbers (c :: rest)

/-- The items of an array, up to its end. -/
def readItems (numbers : Numbers F) : Nat → Nat → Text → Option (List (Value F) × Text)
  | 0, _, _ => none
  | n + 1, depth, s =>
      (readValue numbers n depth (s.dropWhile isSpace)).bind fun item =>
        match item.2.dropWhile isSpace with
        | [] => none
        | c :: rest =>
            if c = comma then
              (readItems numbers n depth rest).map fun read => (item.1 :: read.1, read.2)
            else if c = closeBracket then some ([item.1], rest)
            else none

/-- The members of an object, up to its end. -/
def readMembers (numbers : Numbers F) :
    Nat → Nat → Text → Option (List (Text × Value F) × Text)
  | 0, _, _ => none
  | n + 1, depth, s =>
      match s.dropWhile isSpace with
      | [] => none
      | c :: rest =>
          if c = quoteMark then
            (readString rest).bind fun name =>
              match name.2.dropWhile isSpace with
              | [] => none
              | d :: rest =>
                  if d = colon then
                    (readValue numbers n depth (rest.dropWhile isSpace)).bind fun value =>
                      match value.2.dropWhile isSpace with
                      | [] => none
                      | e :: rest =>
                          if e = comma then
                            (readMembers numbers n depth rest).map fun read =>
                              ((unquote name.1, value.1) :: read.1, read.2)
                          else if e = closeBrace then some ([(unquote name.1, value.1)], rest)
                          else none
                  else none
          else none

end

/-- How deep values may nest. -/
def maxNestingDepth : Nat := 10000

/-- `json.Unmarshal` into an `any`: none where it returns an error. -/
def unmarshal (numbers : Numbers F) (s : Text) : Option (Value F) :=
  let text := s.dropWhile isSpace
  (readValue numbers (2 * text.length) maxNestingDepth text).bind fun read =>
    if read.2.all isSpace then some read.1 else none

/-- `json.Valid`: a text that decodes, with any number taken. -/
def valid (s : Text) : Bool := (unmarshal (⟨some, id⟩ : Numbers Text) s).isSome

end RelayLifeline.Lib.Json
