import SqlDdl.Text.Scientific
import SqlDdl.Toml.Table
import SqlDdl.Toml.Text

/-!
# TOML numbers, truth values and dates

Values written without quotes. A number is told by its form when it is read: where
underscores and leading zeros may stand, and what belongs to a float. What it comes
to is another question: digits that write no number, or one that is too large,
leave the value open. A date is only checked.
-/

namespace SqlDdl.Toml

/-- Whether a character is a digit of a base. -/
def isDigitOf (base : Nat) (c : Char) : Bool := (hexValue? c).any (· < base)

/-- Whether every underscore stands between two digits; `afterDigit` tells that one came just
before. -/
def barsFit (isDigit : Char → Bool) (afterDigit : Bool) : List Char → Bool
  | [] => true
  | ['_'] => false
  | c :: d :: rest =>
    if c = '_' then afterDigit && isDigit d && barsFit isDigit true rest
    else barsFit isDigit (isDigit c) (d :: rest)
  | [_] => true

/-- A run of characters without its underscores. -/
def withoutBars (cs : List Char) : List Char := cs.filter (· ≠ '_')

/-- The whole number below a bound that digits of a base write, if they are digits and there is
one. -/
def wholeBelow? (base bound : Nat) (cs : List Char) : Option Nat :=
  if cs.isEmpty then none
  else cs.foldlM (fun n c => do
    let digit ← hexValue? c
    if digit < base && base * n + digit < bound then some (base * n + digit) else none) 0

/-- The whole number of at most 128 bits that decimal digits behind an optional sign write. -/
def signedWhole? : List Char → Option Int
  | '-' :: digits => (wholeBelow? 10 (Nat.pow 2 127 + 1) digits).map fun n => -Int.ofNat n
  | '+' :: digits => (wholeBelow? 10 (Nat.pow 2 128) digits).map Int.ofNat
  | digits => (wholeBelow? 10 (Nat.pow 2 128) digits).map Int.ofNat

/-- A run of characters without the sign in front. -/
def withoutSign : List Char → List Char
  | '+' :: rest => rest
  | '-' :: rest => rest
  | cs => cs

/-- Whether a character belongs to the digits of a number. -/
def isDigitOrBar (c : Char) : Bool := c.isDigit || c = '_'

/-- The digits and underscores in front, at least one digit among them, and the text behind. -/
def digitRun? (cs : List Char) : Option (List Char × List Char) :=
  let run := cs.takeWhile isDigitOrBar
  if run.any Char.isDigit then some (withoutBars run, cs.dropWhile isDigitOrBar) else none

/-- The digits behind a point, if there is a point, and the text behind them. -/
def fraction? : List Char → Option (List Char × List Char)
  | '.' :: rest => digitRun? rest
  | cs => some ([], cs)

/-- The power of ten that a run of characters writes; zero if the run is empty. -/
def exponent? : List Char → Option Int
  | [] => some 0
  | c :: rest => do
    if c ≠ 'e' && c ≠ 'E' then none
    let (power, behind) ← digitRun? (withoutSign rest)
    if !behind.isEmpty then none
    let size := Int.ofNat (Text.Scientific.exponentOf power)
    return if rest.head? = some '-' then -size else size

/-- The number that a run of characters without a sign writes in scientific notation. The
digits before the point have no needless zero in front. -/
def scientific? (cs : List Char) : Option Text.Scientific := do
  let (whole, rest) ← digitRun? cs
  if cs.head? = some '0' && whole.length ≠ 1 then none
  let (places, rest) ← fraction? rest
  return ⟨whole ++ places, places.length, ← exponent? rest⟩

/-- The float that a run of characters without a sign writes. -/
def float? (cs : List Char) : Option Value := do
  let number ← scientific? cs
  if barsFit Char.isDigit false cs then some (.float number.isFinite) else none

/-- The number that digits of a base behind its mark write. -/
def based? (base : Nat) (cs : List Char) : Option Value :=
  if cs.all (fun c => isDigitOf base c || c = '_') && barsFit (isDigitOf base) false cs then
    some (.integer ((wholeBelow? base (Nat.pow 2 128) (withoutBars cs)).map Int.ofNat))
  else none

/-- The number in the next `count` digits. -/
def fixed? (count : Nat) (cs : List Char) : Option (Nat × List Char) :=
  let digits := cs.take count
  if digits.length = count && digits.all Char.isDigit then
    some (Text.Scientific.wholeOf digits, cs.drop count)
  else none

/-- The text behind a required character. -/
def expect? (c : Char) : List Char → Option (List Char)
  | [] => none
  | d :: rest => if d = c then some rest else none

/-- The number of days in a month. -/
def daysIn (year month : Nat) : Nat :=
  if month = 2 then
    if year % 4 = 0 && (year % 100 ≠ 0 || year % 400 = 0) then 29 else 28
  else if [4, 6, 9, 11].contains month then 30 else 31

/-- The text behind a date. -/
def date? (cs : List Char) : Option (List Char) := do
  let (year, cs) ← fixed? 4 cs
  let (month, cs) ← fixed? 2 (← expect? '-' cs)
  let (day, cs) ← fixed? 2 (← expect? '-' cs)
  if 1 ≤ month && month ≤ 12 && 1 ≤ day && day ≤ daysIn year month then some cs else none

/-- The text behind a time of day, whose seconds may be missing. -/
def time? (cs : List Char) : Option (List Char) := do
  let (hour, cs) ← fixed? 2 cs
  let (minute, cs) ← fixed? 2 (← expect? ':' cs)
  if 23 < hour || 59 < minute then none
  match cs with
  | ':' :: cs =>
    let (second, cs) ← fixed? 2 cs
    if 60 < second then none
    match cs with
    | '.' :: c :: places => if c.isDigit then some (places.dropWhile Char.isDigit) else none
    | _ => some cs
  | _ => some cs

/-- Whether a run of characters is an offset from world time, which may be missing. -/
def isOffset : List Char → Bool
  | [] => true
  | ['Z'] => true
  | ['z'] => true
  | c :: rest =>
    (c = '+' || c = '-') &&
      (do
        let (hour, cs) ← fixed? 2 rest
        let (minute, cs) ← fixed? 2 (← expect? ':' cs)
        return cs.isEmpty && hour ≤ 23 && minute ≤ 59 : Option Bool) = some true

/-- Whether a run of characters is a date, a time, or both with an optional offset. -/
def isDatetime (cs : List Char) : Bool :=
  match date? cs with
  | none => time? cs = some []
  | some [] => true
  | some (c :: rest) => (c = 'T' || c = 't' || c = ' ') && (time? rest).any isOffset

/-- The decimal number or the date that a run of characters writes, given without its sign as
well. What follows the first digits decides: nothing, the mark of a date, a sign of a float, or
an underscore. Behind an underscore the letters up to F pass for digits, and what else follows
the last one is not looked at. -/
def decimalOrDate? (cs unsigned : List Char) : Option Value :=
  let rest := unsigned.dropWhile Char.isDigit
  let zero := unsigned.head? = some '0'
  match rest with
  | [] =>
    if unsigned.isEmpty || zero && unsigned.length ≠ 1 then none
    else some (.integer (signedWhole? cs))
  | c :: _ =>
    if c = '-' || c = ':' then if isDatetime cs then some .datetime else none
    else if rest.any fun c => c = '.' || c = 'e' || c = 'E' then float? unsigned
    else if c = '_' && !zero && barsFit (isDigitOf 16) false unsigned then
      some (.integer (signedWhole? (withoutBars cs)))
    else none

/-- The value that a run of characters without quotes writes. -/
def scalar? (cs : List Char) : Option Value :=
  match cs with
  | ['t', 'r', 'u', 'e'] => some (.boolean true)
  | ['f', 'a', 'l', 's', 'e'] => some (.boolean false)
  | '0' :: 'x' :: digits => based? 16 digits
  | '0' :: 'o' :: digits => based? 8 digits
  | '0' :: 'b' :: digits => based? 2 digits
  | _ =>
    let unsigned := withoutSign cs
    if unsigned = ['i', 'n', 'f'] || unsigned = ['n', 'a', 'n'] then some (.float true)
    else decimalOrDate? cs unsigned

end SqlDdl.Toml
