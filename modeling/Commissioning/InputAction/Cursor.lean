import Commissioning.Number.Quantity
import Commissioning.Value.Numeral

/-!
The cursor that templates move. A template that names no input, no endpoint or no group takes them
from the cursor; after each template the input goes one past the highest that was used and the
endpoint goes one up.

Templates are checked, so the cursor that compiles them holds integers and always moves. A cursor
may also be set to any values, which then show whether they can be moved.
-/
namespace Commissioning

/-- The inputs of a template: one, or several of which the first one leads. -/
inductive Inputs (α : Type) where
  | one (n : α)
  | several (ns : List α)
  deriving DecidableEq, Repr

/-- Running defaults carried from one template to the next. -/
structure Cursor (α : Type) where
  inputs : Inputs α
  endpoint : α
  group : Int := 0
  deriving DecidableEq, Repr

namespace Inputs

/-- The leading input; zero if there is none. -/
def first : Inputs Numeral → Numeral
  | one n => n
  | several ns => ns.headD default

/-- One past the highest input; one if there is none. -/
def next : Inputs Numeral → Int
  | one n => n.number + 1
  | several ns => ((ns.map Numeral.number).max?.getD 0) + 1

/-- Inputs as a value. -/
def toValue : Inputs Value → Value
  | one v => v
  | several vs => .list vs

/-- Checked inputs as a value. -/
def shown : Inputs Numeral → Value
  | one n => n.toValue
  | several ns => .list (ns.map Numeral.toValue)

/-- The inputs that a value stands for: several if it is a list. -/
def ofValue : Value → Inputs Value
  | .list vs => several vs
  | v => one v

/-- The leading one of any inputs. -/
def first? : Inputs Value → Except Mismatch Value
  | one v => .ok v
  | several (v :: _) => .ok v
  | several [] => .error (.pastEnd (.list []))

/-- One past the highest of any inputs. -/
def next? : Inputs Value → Except Mismatch Value
  | one v => v.successor
  | several vs => do (← Value.greatest vs).successor

end Inputs

namespace Cursor

/-- Moves past the inputs and the endpoint of the last template. -/
def advance (c : Cursor Numeral) : Cursor Numeral :=
  { c with inputs := .one c.inputs.next, endpoint := c.endpoint.plus 1 }

/-- Moves a cursor that stands anywhere, if it can be moved. -/
def advance? (c : Cursor Value) : Except Mismatch (Cursor Value) := do
  return { c with inputs := .one (← c.inputs.next?), endpoint := ← c.endpoint.successor }

/-- The cursors after each of a row of moves, with their leading inputs: an advance, or new
inputs. -/
def trail (c : Cursor Value) :
    List (Option (Inputs Value)) → Except Mismatch (List (Cursor Value × Value))
  | [] => .ok []
  | move :: moves => do
    let c ← match move with
      | none => c.advance?
      | some inputs => .ok { c with inputs }
    return (c, ← c.inputs.first?) :: (← c.trail moves)

end Cursor

end Commissioning
