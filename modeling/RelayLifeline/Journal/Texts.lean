import RelayLifeline.Journal.Digest

/-!
# Strings and times in JSON

How `encoding/json` writes a string that is UTF-8, and a time in UTC.
-/

namespace RelayLifeline.Journal

/-- How `encoding/json` writes one character of a string, HTML escaping on. -/
def escape (c : Char) : List Char :=
  if c = '"' then ['\\', '"']
  else if c = '\\' then ['\\', '\\']
  else if c = '\n' then ['\\', 'n']
  else if c = '\r' then ['\\', 'r']
  else if c = '\t' then ['\\', 't']
  else if c.toNat = 8 then ['\\', 'b']
  else if c.toNat = 12 then ['\\', 'f']
  else if c.toNat < 32 ∨ c = '<' ∨ c = '>' ∨ c = '&' then
    ['\\', 'u', '0', '0', hexDigit (c.toNat / 16), hexDigit (c.toNat % 16)]
  else if c.toNat = 0x2028 ∨ c.toNat = 0x2029 then
    ['\\', 'u', '2', '0', '2', hexDigit (c.toNat % 16)]
  else [c]

def jsonString (s : String) : String :=
  "\"" ++ (String.ofList (s.toList.flatMap escape) ++ "\"")

/-- A number with leading zeros up to `width` digits. -/
def padded (width n : Nat) : String :=
  let digits := Nat.toDigits 10 n
  String.ofList (List.replicate (width - digits.length) '0' ++ digits)

/-- The date `days` days after the first of January of the year one. -/
def civil (days : Nat) : Nat × Nat × Nat :=
  let z := days + 306
  let day := z % 146097
  let yoe := (day - day / 1460 + day / 36524 - day / 146096) / 365
  let doy := day - (365 * yoe + yoe / 4 - yoe / 100)
  let mp := (5 * doy + 2) / 153
  let month := if mp < 10 then mp + 3 else mp - 9
  let year := yoe + z / 146097 * 400 + (if month ≤ 2 then 1 else 0)
  (year, month, doy - (153 * mp + 2) / 5 + 1)

/-- `time.RFC3339Nano` in UTC, which is how `encoding/json` writes a time. -/
def rfc3339Nano (t : Int) : String :=
  let seconds := (t / 1000000000).toNat
  let nanos := (t % 1000000000).toNat
  let date := civil (seconds / 86400)
  let fraction := ((padded 9 nanos).toList.reverse.dropWhile (· = '0')).reverse
  padded 4 date.1 ++ "-" ++ padded 2 date.2.1 ++ "-" ++ padded 2 date.2.2 ++ "T" ++
    padded 2 (seconds / 3600 % 24) ++ ":" ++ padded 2 (seconds / 60 % 60) ++ ":" ++
    padded 2 (seconds % 60) ++
    (if fraction = [] then "" else String.ofList ('.' :: fraction)) ++ "Z"

example : rfc3339Nano 63871632000500000000 = "2025-01-05T00:00:00.5Z" := by decide +kernel

end RelayLifeline.Journal
