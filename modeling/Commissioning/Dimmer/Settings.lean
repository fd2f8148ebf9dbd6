import Commissioning.Fault.Basic
import Commissioning.Text.Blank
import Commissioning.Text.LowerCase

/-!
Settings of a dimmer: the phase control mode, the least level, and the bits of capabilities and
status.
-/
namespace Commissioning.Dimmer

/-- Bit `mask` of a number, a power of two. -/
def hasFlag (n : Int) (mask : Nat) : Bool := n / mask % 2 == 1

/-- The bits of the capabilities, in bit order. -/
def capabilityBits : List (String × Nat) := [
  ("forward_phase_control", 0x01),
  ("reverse_phase_control", 0x02),
  ("reactance_discriminator", 0x20),
  ("configurable_curve", 0x40),
  ("overload_detection", 0x80)]

/-- The bits of the status, in bit order. -/
def statusBits : List (String × Nat) := [
  ("forward_phase_control", 0x01),
  ("reverse_phase_control", 0x02),
  ("overload", 0x08),
  ("capacitive_load", 0x40),
  ("inductive_load", 0x80)]

/-- The number whose bits a value has. -/
def bitsOf (v : Value) : Except Mismatch Int :=
  match v.asIndex? with
  | some n => .ok n
  | none => .error (.operand v)

/-- The named bits of a number. -/
def decodeBits (bits : List (String × Nat)) (n : Int) : Entries :=
  bits.map fun (name, mask) => (name, .bool (hasFlag n mask))

/-- The techniques of phase control that can be asked for. -/
inductive PhaseControl where
  | automatic
  | forward
  | reverse
  deriving DecidableEq, Repr

namespace PhaseControl

def all : List PhaseControl := [automatic, forward, reverse]

def name : PhaseControl → String
  | automatic => "automatic"
  | forward => "forward"
  | reverse => "reverse"

def code : PhaseControl → Int
  | automatic => 0
  | forward => 1
  | reverse => 2

/-- The technique of a name in small letters. -/
def ofName? (s : String) : Option PhaseControl := all.find? fun p => p.name == s

/-- The technique of a mode; only the two low bits count. -/
def ofMode? (mode : Int) : Option PhaseControl := all.find? fun p => p.code == mode % 4

/-- The name for a mode that asks for no technique. -/
def reservedName : String := "reserved"

/-- The name for a mode. -/
def nameOfMode (mode : Int) : String := ((ofMode? mode).map name).getD reservedName

theorem ofName?_name (p : PhaseControl) : ofName? p.name = some p := by cases p <;> decide

theorem ofMode?_code (p : PhaseControl) : ofMode? p.code = some p := by cases p <;> decide

end PhaseControl

/-- Settings that have been checked. -/
structure Settings where
  phase : Option PhaseControl
  level : Option Numeral

/-- The technique that a request names, in any case and with blanks around it. -/
def readPhase (v : Value) : Except DimmerError (Option PhaseControl) :=
  match v with
  | .null => .ok none
  | v =>
    let key := Text.lower (String.ofList (Text.trim v.toText.toList))
    match PhaseControl.ofName? key with
    | some p => .ok (some p)
    | none => .error (.unknownMode v (PhaseControl.all.map PhaseControl.name))

/-- The level that a request names. -/
def readLevel (v : Value) : Except DimmerError (Option Numeral) :=
  match v with
  | .null => .ok none
  | v => match Numeral.ofValue? v with
    | some n => if 0 ≤ n.number ∧ n.number ≤ 255 then .ok (some n) else .error (.level v)
    | none => .error (.level v)

/-- Checks a request, which has to name at least one setting. -/
def check (phase level : Value) : Except DimmerError Settings := do
  if phase.isNull && level.isNull then .error .nothingRequested
  return { phase := ← readPhase phase, level := ← readLevel level }

end Commissioning.Dimmer
