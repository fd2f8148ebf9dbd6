import Commissioning.Number.Binary64
import Commissioning.Text.Blank
import Commissioning.Text.Digit

/-!
Numbers written as text. Digits may come from any script, single underscores may stand between
two digits, and blanks may surround the whole; the separators of the ASCII controls are no blanks
here.

    integer  =  [sign] digits
    real     =  [sign] (digits [. [digits]] | . digits) [e [sign] digits]  |  [sign] inf | nan | …

An integer may not be longer than a limit, so that reading and writing it stay cheap; a real may, as
its value is bounded anyway.
-/
namespace Commissioning.Number
open Text

/-- A blank that may surround a number. -/
def isMargin (c : Char) : Bool := isBlank c && !(0x1c ≤ c.toNat && c.toNat ≤ 0x1f)

/-- Without the blanks around a number. -/
def trimMargins (s : List Char) : List Char :=
  ((s.dropWhile isMargin).reverse.dropWhile isMargin).reverse

/-- Takes out the underscores, each of which has to stand between two digits. `after` tells
whether a digit comes right before. -/
def joinDigits? (after : Bool) : List Char → Option (List Char)
  | [] => some []
  | '_' :: d :: rest =>
    if after && isDigit d then (joinDigits? true rest).map (d :: ·) else none
  | '_' :: [] => none
  | c :: rest => (joinDigits? (isDigit c) rest).map (c :: ·)

/-- Splits a sign off; without one the number is positive. -/
def readSign : List Char → Bool × List Char
  | '-' :: rest => (true, rest)
  | '+' :: rest => (false, rest)
  | rest => (false, rest)

/-- A row of digits with at least one. -/
def readDigits? (cs : List Char) : Option Nat :=
  if cs.isEmpty || !cs.all isDigit then none else some (digitsValue cs)

/-- The most digits of an integer that is read, where zeros in front count, or written. -/
def digitLimit : Nat := 4300

/-- Whether an integer is short enough to be written. -/
def isWritable (n : Int) : Bool := (Nat.toDigits 10 n.natAbs).length ≤ digitLimit

/-- Why a text is not read as an integer. -/
inductive Unreadable where
  /-- The text writes no integer. -/
  | malformed
  /-- The text has more digits than are read. -/
  | tooManyDigits (count : Nat)
  deriving DecidableEq, Repr

/-- A character of a row of digits. -/
def isRowChar (c : Char) : Bool := isDigit c || c == '_'

/-- The integer that a text writes. Digits are counted before it shows whether the text ends behind
them. -/
def readInteger (s : List Char) : Except Unreadable Int :=
  let (negative, body) := readSign (trimMargins s)
  match joinDigits? false (body.takeWhile isRowChar) with
  | none => .error .malformed
  | some digits =>
    if digitLimit < digits.length then .error (.tooManyDigits digits.length)
    else if digits.isEmpty || !(body.dropWhile isRowChar).isEmpty then .error .malformed
    else .ok (if negative then -digitsValue digits else digitsValue digits)

/-- The exponent part of a real, if it is well formed. -/
def readExponent? : List Char → Option Int
  | [] => some 0
  | c :: rest =>
    if c = 'e' || c = 'E' then
      let (negative, digits) := readSign rest
      (readDigits? digits).map fun n => if negative then -(n : Int) else n
    else none

/-- The number nearest to `digits * 10 ^ e`. Exponents far outside the range of the format are
answered without computing the power. -/
def ofDecimal (negative : Bool) (digits : Nat) (e : Int) : Binary64 :=
  let size : Int := e + (Nat.toDigits 10 digits).length
  if digits = 0 || size < -400 then .finite negative 0
  else if 400 < size then .infinite negative
  else if 0 ≤ e then .round negative (digits * Nat.pow 10 e.toNat * Binary64.one) 1
  else .round negative (digits * Binary64.one) (Nat.pow 10 (-e).toNat)

/-- The decimal that a text without sign, blanks and underscores writes. -/
def readDecimal? (negative : Bool) (body : List Char) : Option Binary64 := do
  let whole := body.takeWhile isDigit
  let rest := body.dropWhile isDigit
  let (fraction, rest) := match rest with
    | '.' :: more => (more.takeWhile isDigit, more.dropWhile isDigit)
    | _ => ([], rest)
  if whole.isEmpty && fraction.isEmpty then none
  let e ← readExponent? rest
  return ofDecimal negative (digitsValue (whole ++ fraction)) (e - fraction.length)

/-- The floating point number nearest to what a text writes. -/
def readReal? (s : List Char) : Option Binary64 := do
  let (negative, body) := readSign (← joinDigits? false (trimMargins s))
  match String.ofList (body.map Char.toLower) with
  | "inf" | "infinity" => return .infinite negative
  | "nan" => return .nan
  | _ => readDecimal? negative body

end Commissioning.Number
