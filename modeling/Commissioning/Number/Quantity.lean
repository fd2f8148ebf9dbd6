import Commissioning.Value.Reading

/-!
Numbers as callers give them: whole ones of any size, which are exact, and floating point ones. A
product is exact as long as both sides are whole; a quotient is always a floating point number,
rounded once.
-/
namespace Commissioning

/-- A number as a caller gives it. -/
inductive Quantity where
  | whole (n : Int)
  | real (x : Binary64)
  deriving DecidableEq, Repr

namespace Quantity

/-- The number that a value is; truth values are none. -/
def ofValue? : Value → Option Quantity
  | .int n | .status n => some (.whole n)
  | .float x => some (.real x)
  | _ => none

/-- The number that an operand is; truth values count as one and zero. -/
def ofOperand (v : Value) : Except Mismatch Quantity :=
  match v with
  | .bool b => .ok (.whole (if b then 1 else 0))
  | v => match ofValue? v with
    | some q => .ok q
    | none => .error (.operand v)

def toValue : Quantity → Value
  | whole n => .int n
  | real x => .float x

/-- The nearest floating point number. -/
def toReal : Quantity → Except Mismatch Binary64
  | whole n => Value.realOfInt n
  | real x => .ok x

def isNegative : Quantity → Bool
  | whole n => n < 0
  | real x => x.lt (.ofNat 0)

/-- The number in units, however large it is: for comparisons, which do not round. -/
def exact : Quantity → Binary64
  | whole n => .finite (n < 0) (n.natAbs * Binary64.one)
  | real x => x

/-- Strictly below. -/
def lt (p q : Quantity) : Bool := p.exact.lt q.exact

/-- The same number. -/
def same (p q : Quantity) : Bool := p.exact.same q.exact

/-- Zero, or below. An undefined number is neither. -/
def isNotPositive : Quantity → Bool
  | whole n => n ≤ 0
  | real x => x.le (.ofNat 0)

/-- The product. -/
def mul : Quantity → Quantity → Except Mismatch Quantity
  | whole a, whole b => .ok (.whole (a * b))
  | p, q => do return .real ((← p.toReal).mul (← q.toReal))

/-- The quotient. -/
def div (p q : Quantity) : Except Mismatch Binary64 :=
  match p, q with
  | whole a, whole b =>
    if b = 0 then .error (.zeroDivisor false)
    else match Binary64.ratio? a b with
      | some x => .ok x
      | none => .error .quotientTooLarge
  | p, q => do
    match (← p.toReal).div? (← q.toReal) with
    | some x => .ok x
    | none => .error (.zeroDivisor true)

end Quantity

namespace Value

/-- The length of a sequence: of a text, octets, a list or a tuple. -/
def sequenceLength? : Value → Option Nat
  | .str s => some s.length
  | .bytes bs => some bs.length
  | .list items | .tuple items => some items.length
  | _ => none

/-- The size of one item of a sequence. -/
def sizeOfItem : Value → Nat
  | .list _ | .tuple _ => itemSize
  | _ => 1

/-- Why a sequence of some length, repeated, is no number. It may be too long to be made at all. -/
def repetition (v : Value) (length : Nat) (times : Int) : Mismatch :=
  if !isCount times then .countTooLarge
  else if countLimit ≤ length * times.toNat then
    match v with
    | .str _ | .bytes _ => .countTooLarge
    | _ => .noRoom
  else if roomLimit ≤ length * times.toNat * v.sizeOfItem then .noRoom
  else .operand v

/-- The product of two operands. A sequence times an integer is a longer sequence. -/
def product (v w : Value) : Except Mismatch Quantity :=
  match v.sequenceLength?, w.asIndex?, v.asIndex?, w.sequenceLength? with
  | some length, some times, _, _ => .error (v.repetition length times)
  | _, _, some times, some length => .error (w.repetition length times)
  | _, _, _, _ => do (← Quantity.ofOperand v).mul (← Quantity.ofOperand w)

/-- One more than a number. -/
def successor (v : Value) : Except Mismatch Value := do
  match ← Quantity.ofOperand v with
  | .whole n => return .int (n + 1)
  | .real x => return .float (x.add (.ofNat 1))

/-- The greatest of some numbers and one that leads; of several such the first. -/
def greatestFrom (v : Value) (lead : Quantity) : List Value → Except Mismatch Value
  | [] => .ok v
  | w :: ws => do
    let q ← Quantity.ofOperand w
    if lead.lt q then greatestFrom w q ws else greatestFrom v lead ws

/-- The greatest of some numbers. -/
def greatest : List Value → Except Mismatch Value
  | [] => .error .greatestOfNone
  | v :: vs => do greatestFrom v (← Quantity.ofOperand v) vs

end Value

/-- Motor steps in a product of duration and speed over a divisor, rounded half up. -/
def stepsIn (travel divisor : Quantity) : Except Mismatch Int := do
  Value.integerPart ((← travel.div divisor).add .half)

/-- Motor steps in a duration: the duration times the speed over a divisor, rounded half up. -/
def stepsFor (duration speed divisor : Quantity) : Except Mismatch Int := do
  stepsIn (← duration.mul speed) divisor

/-- Motor steps for operands of any kind. The divisor is looked at last. -/
def stepsOfOperands (duration speed divisor : Value) : Except Mismatch Int := do
  let travel ← duration.product speed
  stepsIn travel (← Quantity.ofOperand divisor)

end Commissioning
