import Commissioning.Logged
import Commissioning.Value.Numeral
import Commissioning.Value.Reading

/-!
Rows of the input actions table. A row binds a transition of an input to a command that is sent
from an endpoint to a cluster:

    input + 16 * options | transition | endpoint | cluster, low, high | command | payload …

    transition:  has alternate | is alternate | 0 0 | initial state | final state
                      128            64                4 * (0 … 3)      0 … 3
-/
namespace Commissioning

/-- A row before it is written. Its numbers fit into octets only if they are small enough. -/
structure InputAction where
  input : Numeral
  transition : Int
  endpoint : Numeral
  cluster : Int
  command : Int
  payload : List Numeral := []
  deriving DecidableEq, Repr

namespace InputAction

/-- The row as messages show it; the cluster takes two places, the low one first. -/
def numerals (a : InputAction) : List Numeral :=
  [a.input, a.transition, a.endpoint, ↑(a.cluster % 256), ↑(a.cluster / 256 % 256), a.command] ++
    a.payload

/-- The numbers of a row. -/
def row (a : InputAction) : List Int := a.numerals.map Numeral.number

/-- A row as a value. -/
def toValue (a : InputAction) : Value := .list (a.numerals.map Numeral.toValue)

/-- The octets of a row. -/
def octets (a : InputAction) : Except Mismatch (List UInt8) := a.row.mapM Value.octetOfInt

end InputAction

/-- A state of an input, as transitions name it. -/
inductive InputState where
  | idle
  | pressed
  | keptPressed
  | released
  deriving DecidableEq, Repr

namespace InputState

def name : InputState → String
  | idle => "idle"
  | pressed => "pressed"
  | keptPressed => "kept_pressed"
  | released => "released"

def code : InputState → Nat
  | idle => 0
  | pressed => 1
  | keptPressed => 2
  | released => 3

/-- The state of a code; only its two low bits count. -/
def ofCode (n : Nat) : InputState :=
  match n % 4 with
  | 0 => idle
  | 1 => pressed
  | 2 => keptPressed
  | _ => released

theorem ofCode_code (s : InputState) : ofCode s.code = s := by cases s <;> rfl

end InputState

/-- A row that has been read back, taken apart. -/
structure DecodedAction where
  input : Nat
  options : Nat
  initial : InputState
  final : InputState
  hasAlternate : Bool
  isAlternate : Bool
  endpoint : Nat
  cluster : Nat
  command : Nat
  payload : List Nat
  deriving DecidableEq, Repr

namespace DecodedAction

/-- The fewest octets of a row. -/
def headerLength : Nat := 6

/-- Takes the octets of a row apart. -/
def ofOctets : List UInt8 → Outcome DecodedAction
  | first :: transition :: endpoint :: low :: high :: command :: payload => .ok {
      input := first.toNat % 16
      options := first.toNat / 16
      initial := .ofCode (transition.toNat / 4)
      final := .ofCode transition.toNat
      hasAlternate := transition.toNat / 128 % 2 == 1
      isAlternate := transition.toNat / 64 % 2 == 1
      endpoint := endpoint.toNat
      cluster := low.toNat + 256 * high.toNat
      command := command.toNat
      payload := payload.map UInt8.toNat }
  | short => .error (.shortRow short.length)

/-- The transition that the fields describe. -/
def transition (d : DecodedAction) : Nat :=
  128 * d.hasAlternate.toNat + 64 * d.isAlternate.toNat + 4 * d.initial.code + d.final.code

/-- The row that the fields describe. -/
def row (d : DecodedAction) : List Nat :=
  [d.input + 16 * d.options, d.transition, d.endpoint, d.cluster % 256, d.cluster / 256,
    d.command] ++ d.payload

/-- The fields by name. -/
def entries (d : DecodedAction) : Entries := [
  ("input", .int d.input),
  ("input_options", .int d.options),
  ("initial_state", .str d.initial.name),
  ("final_state", .str d.final.name),
  ("has_alternate", .bool d.hasAlternate),
  ("is_alternate", .bool d.isAlternate),
  ("endpoint", .int d.endpoint),
  ("cluster_id", .int d.cluster),
  ("command_id", .int d.command),
  ("payload", .list (d.payload.map fun (n : Nat) => .int n))]

/-- Takes one row apart, given as a value. -/
def ofValue (row : Value) : Outcome DecodedAction := do
  ofOctets (← ofMismatch row.toOctets)

/-- Takes rows apart in order, the first one at position `index`. A row that does not fit is
skipped with a warning; one that holds no numbers at all ends the reading. -/
def ofRowsFrom (index : Nat) : List Value → Logged (List DecodedAction)
  | [] => pure []
  | row :: rows => match ofValue row with
    | .ok action => do
      let more ← ofRowsFrom (index + 1) rows
      return action :: more
    | .error fault =>
      if fault.category = .value then do
        .write [⟨.warning, s!"Skipping InputActions row {index}: {fault.message}"⟩]
        ofRowsFrom (index + 1) rows
      else .fail fault

/-- Takes all rows of a table apart. -/
def ofRows (rows : List Value) : Logged (List DecodedAction) := do
  let actions ← ofRowsFrom 0 rows
  .write [⟨.debug, s!"Decoded {actions.length} of {rows.length} InputActions rows"⟩]
  return actions

/-- Takes a table apart that is given as a value. -/
def ofTable (table : Value) : Logged (List DecodedAction) := do
  ofRows (← .ofOutcome (ofMismatch table.items))

end DecodedAction

end Commissioning
