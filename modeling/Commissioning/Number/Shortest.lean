import Commissioning.Number.Binary64

/-!
The shortest decimal text of a floating point number: the fewest digits that read back as the
number, and of those the nearest to it. A number of units stands for all reals up to halfway to
its neighbours,

      below        units        above
    ----|------|-----|-----|------|----
              lower      upper

and the halfway points belong to it when its significand is even.
-/
namespace Commissioning.Binary64

/-- The number of decimal digits of `n`; zero has none. -/
def digitCount (n : Nat) : Nat := if n = 0 then 0 else (Nat.toDigits 10 n).length

/-- The exponent of the leading decimal digit of a positive `num / den`. -/
def leadingExponent (num den : Nat) : Int :=
  if den ≤ num then (digitCount (num / den) : Int) - 1
  else -(digitCount ((den + num - 1) / num - 1) : Int)

/-- The product `n * 10 ^ e` as a fraction. -/
def scaled (n : Nat) (e : Int) : Nat × Nat :=
  if 0 ≤ e then (n * Nat.pow 10 e.toNat, 1) else (n, Nat.pow 10 (-e).toNat)

/-- Reads back: `digits * 10 ^ e` rounds to `units`. Four times all units are compared, so that
halfway points are whole. -/
def readsBack (units digits : Nat) (e : Int) : Bool :=
  let step := spacing units
  let below := if units = Nat.pow 2 units.log2 ∧ 1 < step then step / 2 else step
  let lower := 4 * units - 2 * below
  let upper := 4 * units + 2 * step
  let (num, den) := scaled digits e
  let point := num * one * 4
  if units / step % 2 = 0 then lower * den ≤ point && point ≤ upper * den
  else lower * den < point && point < upper * den

/-- The nearer to `units` of the two neighbours on the grid of `10 ^ e` that read back. -/
def onGrid? (units : Nat) (e : Int) : Option Nat :=
  let (num, den) := scaled 1 e
  let d := units * den / (num * one)
  match readsBack units d e, readsBack units (d + 1) e with
  | true, false => some d
  | false, true => some (d + 1)
  | false, false => none
  | true, true =>
    let twice := 2 * units * den
    let middle := (2 * d + 1) * (num * one)
    if twice < middle then some d else if middle < twice then some (d + 1)
    else some (d + d % 2)

/-- The first grid with a hit, from one digit on; seventeen digits always suffice. -/
def shortestFrom (units : Nat) (leading : Int) : List Nat → Nat × Int
  | [] => (0, 0)
  | count :: more =>
    let e := leading - count
    match onGrid? units e with
    | some d => (d, e)
    | none => shortestFrom units leading more

/-- Digits and exponent of the shortest decimal of a positive number of units. -/
def shortest (units : Nat) : Nat × Int :=
  shortestFrom units (leadingExponent units one) (List.range 17)

/-- The decimal digits of `n`. -/
def digitsOf (n : Nat) : List Char := Nat.toDigits 10 n

/-- Without the zeros at the end. -/
def trimZeros (ds : List Char) : List Char := (ds.reverse.dropWhile (· == '0')).reverse

/-- Positional from `0.0001` to sixteen digits before the point, with a point in any case; else
one digit, the rest, and an exponent of at least two digits with its sign. -/
def layout (digits : Nat) (e : Int) : List Char :=
  let all := digitsOf digits
  let ds := trimZeros all
  let point : Int := e + all.length
  if -4 < point && point ≤ 16 then
    if point ≤ 0 then '0' :: '.' :: List.replicate (-point).toNat '0' ++ ds
    else
      let whole := ds.take point.toNat
      let rest := ds.drop point.toNat
      whole ++ List.replicate (point.toNat - whole.length) '0' ++
        '.' :: (if rest.isEmpty then ['0'] else rest)
  else
    let exponent := point - 1
    let mantissa := match ds with
      | d :: r :: rs => d :: '.' :: r :: rs
      | ds => ds
    let size := digitsOf exponent.natAbs
    mantissa ++ 'e' :: (if exponent < 0 then '-' else '+') ::
      (if size.length < 2 then '0' :: size else size)

/-- The text of a number: the shortest decimal that reads back as it. -/
def text : Binary64 → String
  | .nan => "nan"
  | .infinite negative => if negative then "-inf" else "inf"
  | .finite negative units =>
    let body := if units = 0 then ['0', '.', '0']
      else layout (shortest units).1 (shortest units).2
    String.ofList (if negative then '-' :: body else body)

end Commissioning.Binary64

namespace Commissioning

/-- Tenths written with one decimal place. -/
def tenthsText (tenths : Nat) : String :=
  toString (tenths / 10) ++ "." ++ toString (tenths % 10)

end Commissioning
