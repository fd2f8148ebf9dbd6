/-!
Binary floating point numbers of 64 bits. Every finite one is a whole multiple of `2 ^ -1074`,
so it is kept as a sign and a number of those units, and arithmetic is exact until its one
rounding, which goes to the nearest number and, halfway, to the one with the even significand.

    value of `finite negative units`  =  (-1)^negative * units / 2 ^ 1074
-/
namespace Commissioning

/-- A binary floating point number of 64 bits, with one value for all that is not a number. -/
inductive Binary64 where
  | nan
  | infinite (negative : Bool)
  | finite (negative : Bool) (units : Nat)
  deriving DecidableEq, Repr

namespace Binary64

instance : Inhabited Binary64 := ⟨.finite false 0⟩

/-- How many units make one. -/
def one : Nat := Nat.pow 2 1074

/-- The first number of units that is too large to be finite. -/
def limit : Nat := Nat.pow 2 2098

/-- The whole number nearest to `num / den`; a half goes to the even neighbour. -/
def nearest (num den : Nat) : Nat :=
  let q := num / den
  let r := num % den
  if 2 * r < den then q else if den < 2 * r then q + 1 else q + q % 2

/-- The distance between neighbouring floating point numbers of about `units` units: significands
have 53 bits. -/
def spacing (units : Nat) : Nat := Nat.pow 2 (units.log2 - 52)

/-- The floating point number nearest to `num / den` units. -/
def round (negative : Bool) (num den : Nat) : Binary64 :=
  let step := spacing (num / den)
  let units := nearest num (den * step) * step
  if units < limit then .finite negative units else .infinite negative

/-- The units of a finite number with their sign. -/
def signed (negative : Bool) (units : Nat) : Int := if negative then -units else units

/-- The floating point number nearest to an integer, if that is finite. -/
def ofInt? (n : Int) : Option Binary64 :=
  match round (n < 0) (n.natAbs * one) 1 with
  | .finite s u => some (.finite s u)
  | _ => none

/-- The number `n`, for whole numbers small enough to be represented. -/
def ofNat (n : Nat) : Binary64 := .finite false (n * one)

/-- One half. -/
def half : Binary64 := .finite false (one / 2)

/-- The floating point number nearest to `n / d` for a nonzero `d`, if that is finite. -/
def ratio? (n d : Int) : Option Binary64 :=
  match round ((n < 0) != (d < 0)) (n.natAbs * one) d.natAbs with
  | .finite s u => some (.finite (s && n != 0) u)
  | _ => none

/-- The rounded product. -/
def mul : Binary64 → Binary64 → Binary64
  | .nan, _ | _, .nan => .nan
  | .infinite s, .infinite t => .infinite (s != t)
  | .infinite s, .finite t u => if u = 0 then .nan else .infinite (s != t)
  | .finite s u, .infinite t => if u = 0 then .nan else .infinite (s != t)
  | .finite s u, .finite t v => round (s != t) (u * v) one

/-- The rounded sum; opposite numbers add up to positive zero. -/
def add : Binary64 → Binary64 → Binary64
  | .nan, _ | _, .nan => .nan
  | .infinite s, .infinite t => if s = t then .infinite s else .nan
  | .infinite s, .finite .. => .infinite s
  | .finite .., .infinite t => .infinite t
  | .finite s u, .finite t v =>
    let sum := signed s u + signed t v
    round (if sum = 0 then s && t else sum < 0) sum.natAbs 1

/-- The rounded quotient by a nonzero divisor; by zero it is left undefined. -/
def div? : Binary64 → Binary64 → Option Binary64
  | .nan, .finite _ 0 | .infinite _, .finite _ 0 | .finite .., .finite _ 0 => none
  | .nan, _ | _, .nan => some .nan
  | .infinite _, .infinite _ => some .nan
  | .infinite s, .finite t _ => some (.infinite (s != t))
  | .finite s _, .infinite t => some (.finite (s != t) 0)
  | .finite s u, .finite t v => some (round (s != t) (u * one) v)

/-- Strictly below; false as soon as one side is not a number. -/
def lt : Binary64 → Binary64 → Bool
  | .nan, _ | _, .nan => false
  | .infinite s, .infinite t => s && !t
  | .infinite s, .finite .. => s
  | .finite .., .infinite t => !t
  | .finite s u, .finite t v => signed s u < signed t v

/-- The same number; both zeros are one number, and what is not a number equals nothing. -/
def same : Binary64 → Binary64 → Bool
  | .infinite s, .infinite t => s == t
  | .finite s u, .finite t v => signed s u == signed t v
  | _, _ => false

/-- Below or the same number. -/
def le (x y : Binary64) : Bool := x.lt y || x.same y

/-- A finite number without a fraction. -/
def isWhole : Binary64 → Bool
  | .finite _ u => u % one == 0
  | _ => false

/-- The integer part of a finite number, rounded toward zero. -/
def truncate? : Binary64 → Option Int
  | .finite s u => some (signed s (u / one))
  | _ => none

/-- The finite number nearest to `num / den` tenths, as a number: the value of one decimal place. -/
def ofTenths (tenths : Nat) : Binary64 := round false (tenths * one) 10

end Binary64

/-- The number of seconds in a span of milliseconds. -/
def secondsOf (ms : Nat) : Binary64 := Binary64.round false (ms * Binary64.one) 1000

/-- A span of milliseconds in tenths of a second, a half going to the even tenth. -/
def tenthsOf (ms : Nat) : Nat := Binary64.nearest ms 100

end Commissioning
