import Commissioning.Logged
import Commissioning.Number.Quantity
import Commissioning.Value.Numeral
import Commissioning.Zcl.Cluster

/-!
Options of a covering. Attributes are given raw or, for three of them, as a duration that is
converted to motor steps; converted values follow the raw ones, so they win. The calibration bit of
the mode is never taken from a caller.
-/
namespace Commissioning.Covering
open Attribute

/-- The attributes that are written first, in this order. -/
def baseAttributes : List String := [coveringType, configStatus, coveringMode]

/-- The attributes that may be overridden, in the order in which they are written. -/
def overrideAttributes : List String := [installedOpenLift, installedClosedLift, installedOpenTilt,
  installedClosedTilt, turnaroundGuardTime, transitionSteps, totalSteps, transitionSteps2,
  totalSteps2, additionalSteps, inactivePowerThreshold, startupSteps]

/-- The options that give a duration. -/
def openToClosedKey : String := "open_to_closed_s"
def closedToOpenKey : String := "closed_to_open_s"
def transitionKey : String := "lift_to_tilt_transition_ms"

/-- A duration that is converted to the steps of an attribute. -/
structure Conversion where
  target : String
  source : String
  divisor : Nat
  deriving DecidableEq, Repr

/-- The conversions, in the order in which their targets are written. -/
def conversions : List Conversion := [
  ⟨totalSteps, openToClosedKey, 1⟩,
  ⟨totalSteps2, closedToOpenKey, 1⟩,
  ⟨transitionSteps, transitionKey, 1000⟩,
  ⟨transitionSteps2, transitionKey, 1000⟩]

/-- The option that asks for a calibration. -/
def calibrateKey : String := "calibrate"

/-- The option that tells the speed of the motor. -/
def speedKey : String := "steps_per_second"

/-- All options. -/
def knownKeys : List String :=
  baseAttributes ++ overrideAttributes ++ conversions.map Conversion.source ++
    [calibrateKey, speedKey]

/-- The speed of a motor whose options give none. -/
def defaultSpeed : Int := 50

/-- The greatest value of an attribute. -/
def maximum : Int := 65535

/-- The bit of the mode that puts the device into calibration. -/
def calibrationBit : Int := 0x02

/-- Whether a mode has the calibration bit. -/
def hasBit (mode : Int) : Bool := mode / calibrationBit % 2 == 1

/-- A mode without the calibration bit. -/
def clearBit (mode : Int) : Int := if hasBit mode then mode - calibrationBit else mode

/-- A mode with the calibration bit. -/
def setBit (mode : Int) : Int := if hasBit mode then mode else mode + calibrationBit

/-- A mode in hexadecimal digits. -/
def modeText (mode : Int) : String :=
  let digits := (Nat.toDigits 16 mode.natAbs).map Char.toUpper
  let signed := if mode < 0 then '-' :: digits else digits
  "0x" ++ String.ofList (if signed.length < 2 then '0' :: signed else signed)

/-- Options ready to be run: attributes and values in the order in which they are written. Checked
options hold numbers; a caller who leaves the check out may put anything there. -/
structure Options where
  flag : Value := .bool false
  speed : Value := .int defaultSpeed
  base : Entries := []
  overrides : Entries := []

/-- Whether a calibration is asked for. -/
def Options.calibrate (o : Options) : Bool := o.flag.isTruthy

/-- A number that is not negative. -/
def requireNumber (key : String) (v : Value) : Except OptionError Quantity :=
  match Quantity.ofValue? v with
  | none => .error (.noNumber key v)
  | some q => if q.isNegative then .error (.negative key v) else .ok q

/-- A whole number that fits an attribute. -/
def requireAttribute (key : String) (v : Value) : Except OptionError Numeral := do
  let n : Numeral ← match ← requireNumber key v, Numeral.ofValue? v with
    | .real x, _ => match x.isWhole, x.truncate? with
      | true, some n => .ok (.plain n)
      | _, _ => .error (.notWhole key v)
    | .whole _, some n => .ok n
    | .whole n, none => .ok (.plain n)
  if maximum < n.number then .error (.tooLarge key n.number) else .ok n

/-- The speed of the motor, as it is given and as a number. -/
def readSpeed (given : Entries) : Except OptionError (Value × Quantity) := do
  let v := match given.get speedKey with
    | .null => .int defaultSpeed
    | v => v
  let q ← requireNumber speedKey v
  if q.isNotPositive then .error (.notPositive speedKey v) else .ok (v, q)

/-- A check of options, seen as a step of the validation. -/
def checked (r : Except OptionError α) : Logged α :=
  .ofOutcome (r.mapError fun e => (Fault.option e).raised)

/-- The attributes that are written first. -/
def readBase (given : Entries) : List String → Logged Entries
  | [] => pure []
  | key :: keys => match given.get key with
    | .null => readBase given keys
    | v => do
      let n ← checked (requireAttribute key v)
      let unwanted := key == coveringMode && hasBit n.number
      if unwanted then
        .write [⟨.debug, s!"Ignoring calibration bit in requested {key} {modeText n.number}"⟩]
      let rest ← readBase given keys
      return (key, if unwanted then .int (clearBit n.number) else n.toValue) :: rest

/-- The raw overrides. -/
def readOverrides (given : Entries) : List String → Except OptionError Entries
  | [] => .ok []
  | key :: keys => match given.get key with
    | .null => readOverrides given keys
    | v => do
      let n ← requireAttribute key v
      return (key, n.toValue) :: (← readOverrides given keys)

/-- The overrides that are converted from durations. -/
def readConversions (given : Entries) (speed : Quantity) :
    List Conversion → Outcome Entries
  | [] => .ok []
  | c :: cs => match given.get c.source with
    | .null => readConversions given speed cs
    | v => do
      let duration ← (requireNumber c.source v).mapError fun e => (Fault.option e).raised
      let steps ← ofMismatch (stepsFor duration speed (.whole c.divisor))
      if maximum < steps then
        .error (Fault.option (.tooManySteps c.source v steps c.target)).raised
      return (c.target, .int steps) :: (← readConversions given speed cs)

/-- The flag that asks for a calibration. -/
def readFlag (given : Entries) : Except OptionError Bool :=
  match given.get calibrateKey with
  | .null => .ok false
  | .bool b => .ok b
  | v => .error (.noTruthValue calibrateKey v)

/-- The names that are not known, each once and in order. -/
def unknownNames (names : List String) : List String :=
  ((names.filter fun key => !knownKeys.contains key).mergeSort fun a b => a ≤ b).eraseReps

/-- The names of options: the keys of named values, and the items of any other collection, which
have to be texts. -/
def namesOf (given : Value) : Except Mismatch (List String) := do
  (← given.items).mapM fun item => match item with
    | .str name => .ok name
    | v => .error (.operand v)

/-- Checks named options whose names are known. -/
def validateNamed (given : Entries) : Logged Options := do
  let (shown, speed) ← checked (readSpeed given)
  let base ← readBase given baseAttributes
  let raw ← checked (readOverrides given overrideAttributes)
  let converted ← .ofOutcome (readConversions given speed conversions)
  let calibrate ← checked (readFlag given)
  return { flag := .bool calibrate, speed := shown, base, overrides := raw ++ converted }

/-- Checks options. Unknown names are told before it shows whether there are values for them. -/
def validate (given : Value) : Logged Options := do
  let names ← .ofOutcome (ofMismatch (namesOf given))
  if !(unknownNames names).isEmpty then
    .fail (.option (.unknown (unknownNames names)))
  match given with
  | .dict entries => validateNamed entries
  | v => .fail (.mismatch (.missingPart v.typeName "get"))

end Commissioning.Covering
