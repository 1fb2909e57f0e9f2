/-!
# Numbers written in digits

A text of decimal digits denotes a number. Only numbers of so many digits are read.

This module introduces `digitsValue`, the number that digits denote, and `excess?`, whether there
are too many of them to be read.
-/

namespace RelayCheck

/-- The number that a run of digits denotes. -/
def digitsValue (digits : List Char) : Nat :=
  digits.foldl (fun value c => 10 * value + (c.toNat - '0'.toNat)) 0

/-- The most digits of a number that is read. -/
def digitLimit : Nat := 4300

/-- A number has more digits than are read. -/
structure TooManyDigits where
  /-- The number of its digits. -/
  count : Nat
deriving DecidableEq

/-- The wording of the fault. -/
def TooManyDigits.message (excess : TooManyDigits) : String :=
  s!"Exceeds the limit ({digitLimit} digits) for integer string conversion: value has "
    ++ s!"{excess.count} digits; use sys.set_int_max_str_digits() to increase the limit"

/-- The fault of a number with too many digits. -/
def excess? (digits : List Char) : Option TooManyDigits :=
  if digits.length > digitLimit then some ⟨digits.length⟩ else none

end RelayCheck
