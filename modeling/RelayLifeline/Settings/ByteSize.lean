import RelayLifeline.Lib.Strconv
import RelayLifeline.Text

/-!
# Byte sizes

A size is written with the largest binary unit that divides it (by
`Policy.formatByteSize`), and read with any unit there is. With a unit, the
number before it is a float64, and so is its product with the unit; only the
conversion at the end makes an integer of it. Since the `B` of bytes is a unit
as well, every size that is written is read that way.
-/

namespace RelayLifeline.Settings

open Lib

/-- `unicode.ToUpper`, of which the part in ASCII is known here. -/
structure Upper where
  rune : Char → Char
  ascii : ∀ c : Char, c.toNat < 128 → rune c = c.toUpper

/-- `strings.ToUpper`. -/
def Upper.string (upper : Upper) (s : String) : String := String.ofList (s.toList.map upper.rune)

def units : List (String × Nat) :=
  [("GIB", 2 ^ 30), ("MIB", 2 ^ 20), ("KIB", 2 ^ 10), ("GB", 1000000000), ("MB", 1000000),
    ("KB", 1000), ("B", 1)]

/-- The first unit that the text ends with. -/
def unitOf (value : String) : Option (String × Nat) :=
  units.find? fun unit => hasSuffix value unit.1

/-- `ParseByteSize`. How the machine converts a float64 that is not an int64 is
`elsewhere`. -/
def parseByteSize (upper : Upper) (elsewhere : Binary64 → Int) (raw : String) : Option Int :=
  let value := trimSpace (upper.string raw)
  match unitOf value with
  | some unit =>
      let number := trimSpace (trimSuffix value unit.1)
      match Strconv.parseFloat number.toList with
      | none => none
      | some parsed =>
          if parsed.isNegative then none
          else some ((parsed.mul (.ofNat unit.2)).toInt64 elsewhere)
  | none =>
      match Strconv.parseInt value.toList with
      | none => none
      | some parsed => if parsed < 0 then none else some parsed

end RelayLifeline.Settings
