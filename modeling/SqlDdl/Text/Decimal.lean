/-!
# Decimal numbers

Unsigned whole numbers in ASCII digits, with an optional plus sign, below a bound.
Leading zeros are allowed; digits of other scripts, spaces and separators are not.
-/

namespace SqlDdl.Text

/-- The number that one more digit makes of a number, if it stays below the bound. -/
def pushDigit (bound n : Nat) (c : Char) : Option Nat :=
  if c.isDigit then
    let value := 10 * n + (c.toNat - '0'.toNat)
    if value < bound then some value else none
  else none

/-- The number written by a run of digits, if there are digits only, at least one, and the
number is below the bound. -/
def readDigits? (bound : Nat) (cs : List Char) : Option Nat :=
  if cs.isEmpty then none else cs.foldlM (pushDigit bound) 0

/-- The number below the bound that a text writes, if it writes one. -/
def readDecimal? (bound : Nat) (text : String) : Option Nat :=
  match text.toList with
  | '+' :: digits => readDigits? bound digits
  | digits => readDigits? bound digits

end SqlDdl.Text
