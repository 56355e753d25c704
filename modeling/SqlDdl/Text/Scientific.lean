/-!
# Numbers in scientific notation

Decimal digits, how many of them stand behind the point, and a power of ten. The
question here is how large such a number is: whether the nearest binary float of
64 bits is a finite one. The digits are compared as whole numbers, and a power of
ten is computed only where the count of digits leaves the answer open.
-/

namespace SqlDdl.Text

/-- An unsigned number in scientific notation. -/
structure Scientific where
  /-- The digits before and behind the point. -/
  digits : List Char
  /-- How many of the digits stand behind the point. -/
  places : Nat
  /-- The power of ten. -/
  exponent : Int
  deriving DecidableEq, Inhabited

namespace Scientific

/-- The whole number that decimal digits write. -/
def wholeOf (digits : List Char) : Nat :=
  digits.foldl (fun n c => 10 * n + (c.toNat - '0'.toNat)) 0

/-- The size of the exponent that decimal digits write. Once it has reached 65536 further digits
are passed over: it is then out of the range of floats, unless the number itself has tens of
thousands of digits. -/
def exponentOf (digits : List Char) : Nat :=
  digits.foldl (fun n c => if n < 65536 then 10 * n + (c.toNat - '0'.toNat) else n) 0

/-- The least number that is rounded up beyond the greatest finite float: the middle between
that float and the power of two above it. -/
def overflow : Nat := Nat.pow 2 1024 - Nat.pow 2 970

/-- Whether the nearest float of 64 bits is finite. A number other than zero of `size` digits
before the point lies between the powers of ten `size - 1` and `size`. -/
def isFinite (number : Scientific) : Bool :=
  let significant := number.digits.dropWhile (· = '0')
  let shift := number.exponent - number.places
  let size := significant.length + shift
  if significant.isEmpty || size ≤ 308 then true
  else if 310 ≤ size then false
  else wholeOf significant * Nat.pow 10 shift.toNat < overflow * Nat.pow 10 (-shift).toNat

end Scientific

end SqlDdl.Text
