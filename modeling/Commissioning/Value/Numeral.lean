import Commissioning.Value.Basic

/-!
Integers as callers give them. A status code counts as its number in everything that is computed
from it, and still goes by its name where a message shows it; a sum is a plain integer.
-/
namespace Commissioning

/-- An integer as a caller gives it. -/
inductive Numeral where
  | plain (n : Int)
  | status (code : Int)
  deriving DecidableEq, Repr

namespace Numeral

instance : Coe Int Numeral := ⟨plain⟩

instance : Inhabited Numeral := ⟨plain 0⟩

/-- The number that counts. -/
def number : Numeral → Int
  | plain n | status n => n

/-- An integer as messages show it. -/
def toValue : Numeral → Value
  | plain n => .int n
  | status code => .status code

/-- The integer that a value is, truth values left out. -/
def ofValue? : Value → Option Numeral
  | .int n => some (plain n)
  | .status code => some (status code)
  | _ => none

/-- The sum with a plain integer. -/
def plus (n : Numeral) (m : Int) : Numeral := plain (n.number + m)

theorem ofValue?_toValue (n : Numeral) : ofValue? n.toValue = some n := by cases n <;> rfl

theorem asInt?_eq (v : Value) : v.asInt? = (ofValue? v).map number := by cases v <;> rfl

end Numeral

end Commissioning
