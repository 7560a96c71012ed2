import RelayLifeline.Journal.Calendar
import RelayLifeline.Lib.Json.Read

/-!
# Times with a zone and a reading

A `time.Time` is an instant, in nanoseconds since Go's zero time, and the offset
of the zone that shows it. One that was read off the clock by this process and
not changed since has the reading of the monotonic clock with it. Two times that
both have a reading are compared by the readings, and only others by the
instant.

JSON takes the instant and the minutes of the offset. It writes times as
RFC 3339 has them; what `time.Parse` makes of a text that is not written so is a
parameter.
-/

namespace RelayLifeline

open Journal Lib.Json

structure Time where
  instant : Int
  /-- Seconds east of UTC. -/
  offset : Int := 0
  monotonic : Option Int := none
  deriving DecidableEq

namespace Time

/-- `Before`. -/
def before (t u : Time) : Bool :=
  match t.monotonic, u.monotonic with
  | some reading, some reading' => reading < reading'
  | _, _ => t.instant < u.instant

/-- `After`. -/
def after (t u : Time) : Bool := u.before t

/-- `Equal`. -/
def equal (t u : Time) : Bool :=
  match t.monotonic, u.monotonic with
  | some reading, some reading' => reading = reading'
  | _, _ => t.instant = u.instant

/-- A time without a reading is compared by the instant. -/
theorem before_bare (t : Time) {u : Time} (h : u.monotonic = none) :
    t.before u = decide (t.instant < u.instant) := by
  rw [before, h]
  cases t.monotonic with
  | none => rfl
  | some _ => rfl

theorem equal_bare (t : Time) {u : Time} (h : u.monotonic = none) :
    t.equal u = decide (t.instant = u.instant) := by
  rw [equal, h]
  cases t.monotonic with
  | none => rfl
  | some _ => rfl

/-- `IsZero`. -/
def isZero (t : Time) : Bool := t.instant = 0

/-! ## Writing -/

/-- The seconds the zone shows. -/
def shown (t : Time) : Int := t.instant / 1000000000 + t.offset

/-- The days of an era, by which the date is counted so that there are dates
before the year one. -/
def eraDays : Int := 146097

/-- The date the zone shows. -/
def date (t : Time) : Int × Nat × Nat :=
  let date := civil (t.shown / 86400 + eraDays).toNat
  ((date.1 : Int) - 400, date.2.1, date.2.2)

/-- The second of the day. -/
def clock (t : Time) : Nat := (t.shown % 86400).toNat

def nanosecond (t : Time) : Nat := (t.instant % 1000000000).toNat

/-- `appendNano`: the fraction of the second without zeros at its end. -/
def fractionText (nanos : Nat) : String :=
  let fraction := ((padded 9 nanos).toList.reverse.dropWhile (· = '0')).reverse
  if fraction = [] then "" else String.ofList ('.' :: fraction)

def zoneText (offset : Int) : String :=
  if offset = 0 then "Z"
  else
    (if offset ≤ -60 then "-" else "+") ++ (padded 2 (offset.natAbs / 3600) ++ (":" ++
      padded 2 (offset.natAbs / 60 % 60)))

/-- `appendFormatRFC3339`. -/
def format (t : Time) : String :=
  padded 4 t.date.1.toNat ++ ("-" ++ (padded 2 t.date.2.1 ++ ("-" ++ (padded 2 t.date.2.2 ++
    ("T" ++ (padded 2 (t.clock / 3600) ++ (":" ++ (padded 2 (t.clock / 60 % 60) ++ (":" ++
      (padded 2 (t.clock % 60) ++ (fractionText t.nanosecond ++ zoneText t.offset)))))))))))

/-- RFC 3339 has four digits for the year, and two for the hours of the zone. -/
def Writable (t : Time) : Prop :=
  0 ≤ t.date.1 ∧ t.date.1 ≤ 9999 ∧ t.offset.natAbs < 86400

instance (t : Time) : Decidable t.Writable := inferInstanceAs (Decidable (_ ∧ _))

/-- `MarshalJSON`. -/
def marshalJSON (t : Time) : Option String :=
  if t.Writable then some ("\"" ++ (t.format ++ "\"")) else none

example : (Time.mk 63871632000500000000 (-19800) none).marshalJSON =
    some "\"2025-01-04T18:30:00.5-05:30\"" := by decide +kernel

/-! ## Reading -/

/-- The number with these digits. -/
def value (s : Text) : Nat := s.foldl (fun n c => n * 10 + (c.toNat - 0x30)) 0

/-- `parseUint`. -/
def parseUint (s : Text) (least most : Nat) : Option Nat :=
  if s.all isDigit ∧ least ≤ value s ∧ value s ≤ most then some (value s) else none

/-- `parseNanoseconds`, of what follows the point. -/
def parseNanoseconds (digits : Text) : Nat :=
  value (digits.take 9) * 10 ^ (9 - (digits.take 9).length)

/-- The fraction of the second, if there is one, and what follows. -/
def parseFraction : Text → Nat × Text
  | point :: d :: rest =>
      if point = 0x2e ∧ isDigit d then
        (parseNanoseconds ((d :: rest).takeWhile isDigit), (d :: rest).dropWhile isDigit)
      else (0, point :: d :: rest)
  | s => (0, s)

/-- The offset that is the last of the text. -/
def parseZone : Text → Option Int
  | [utc] => if utc = 0x5a then some 0 else none
  | [sign, h, h', mark, m, m'] =>
      (parseUint [h, h'] 0 23).bind fun hours =>
        (parseUint [m, m'] 0 59).bind fun minutes =>
          if (sign = 0x2d ∨ sign = 0x2b) ∧ mark = colon then
            let offset : Int := ((hours * 60 + minutes) * 60 : Nat)
            some (if sign = 0x2d then -offset else offset)
          else none
  | _ => none

def slice (s : Text) (i j : Nat) : Text := (s.take j).drop i

/-- `parseRFC3339`. -/
def parseRFC3339 (s : Text) : Option Time :=
  (parseUint (slice s 0 4) 0 9999).bind fun year =>
    (parseUint (slice s 5 7) 1 12).bind fun month =>
      (parseUint (slice s 8 10) 1 (daysIn month year)).bind fun day =>
        (parseUint (slice s 11 13) 0 23).bind fun hours =>
          (parseUint (slice s 14 16) 0 59).bind fun minutes =>
            (parseUint (slice s 17 19) 0 59).bind fun seconds =>
              if 19 ≤ s.length ∧ s[4]? = some 0x2d ∧ s[7]? = some 0x2d ∧ s[10]? = some 0x54 ∧
                  s[13]? = some colon ∧ s[16]? = some colon then
                (parseZone (parseFraction (s.drop 19)).2).map fun offset =>
                  { instant :=
                      (dateDays year month day * 86400 +
                        ((hours * 60 + minutes) * 60 + seconds : Nat) - offset) * 1000000000 +
                          (parseFraction (s.drop 19)).1
                    offset }
              else none

/-- `time.Parse` with the layout `RFC3339`. Other texts than the one it is
quick to read are read `elsewhere`, to an instant and an offset. -/
def parse (elsewhere : Text → Option (Int × Int)) (s : Text) : Option Time :=
  (parseRFC3339 s).or ((elsewhere s).map fun read => { instant := read.1, offset := read.2 })

/-! ### Texts that are read by the layout

What `parse` makes of a text with the layout `RFC3339`, piece by piece. It takes
an hour of one digit, a comma for the point, and an offset of 24 hours or of 60
minutes. -/

/-- A number of two digits, or of one where that may be. -/
def getnum (fixed : Bool) : Text → Option (Nat × Text)
  | [] => none
  | c :: rest =>
      if !isDigit c then none
      else
        match rest with
        | d :: rest' =>
            if isDigit d then some (value [c, d], rest')
            else if fixed then none
            else some (value [c], rest)
        | [] => if fixed then none else some (value [c], [])

def skip (c : UInt8) : Text → Option Text
  | [] => none
  | d :: rest => if d = c then some rest else none

/-- A number behind a mark, which is in the range. -/
def getfield (mark : UInt8) (fixed : Bool) (least most : Nat) (s : Text) : Option (Nat × Text) :=
  ((skip mark s).bind (getnum fixed)).filter fun read => least ≤ read.1 ∧ read.1 ≤ most

def getyear (s : Text) : Option (Nat × Text) :=
  if 4 ≤ s.length ∧ (s.take 4).all isDigit then some (value (s.take 4), s.drop 4) else none

def getfraction : Text → Nat × Text
  | [] => (0, [])
  | point :: rest =>
      if (point = 0x2e ∨ point = 0x2c) ∧ rest.head?.any isDigit then
        (parseNanoseconds (rest.takeWhile isDigit), rest.dropWhile isDigit)
      else (0, point :: rest)

/-- The offset that is the last of the text. -/
def getzone : Text → Option Int
  | [utc] => if utc = 0x5a then some 0 else none
  | [sign, h, h', mark, m, m'] =>
      (parseUint [h, h'] 0 24).bind fun hours =>
        (parseUint [m, m'] 0 60).bind fun minutes =>
          if (sign = 0x2d ∨ sign = 0x2b) ∧ mark = colon then
            let offset : Int := ((hours * 60 + minutes) * 60 : Nat)
            some (if sign = 0x2d then -offset else offset)
          else none
  | _ => none

/-- The instant and the offset. -/
def parseLayout (s : Text) : Option (Int × Int) := do
  let (year, s) ← getyear s
  let (month, s) ← getfield 0x2d true 1 12 s
  let (day, s) ← getfield 0x2d true 1 (daysIn month year) s
  let (hours, s) ← getfield 0x54 false 0 23 s
  let (minutes, s) ← getfield colon true 0 59 s
  let (seconds, s) ← getfield colon true 0 59 s
  let (nanos, s) := getfraction s
  let offset ← getzone s
  some ((dateDays year month day * 86400 + ((hours * 60 + minutes) * 60 + seconds : Nat) - offset) *
    1000000000 + nanos, offset)

example : parseLayout (utf8 "2025-01-05T7:00:00,5+24:00") = some (63871570800500000000, 86400) := by
  decide +kernel

/-- `UnmarshalJSON` of a value as it is written, which for null leaves the time
as it is. -/
def unmarshalJSON (elsewhere : Text → Option (Int × Int)) (data : Text) : Option (Option Time) :=
  if data = nullWord then some none
  else if 2 ≤ data.length ∧ data.head? = some quoteMark ∧ data.getLast? = some quoteMark then
    (parse elsewhere data.tail.dropLast).map some
  else none

end Time

end RelayLifeline
