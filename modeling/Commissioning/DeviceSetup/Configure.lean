import Commissioning.DeviceSetup.Write
import Commissioning.Firmware.Version
import Commissioning.InputAction.Compile

/-!
Configuration of the setup cluster. Raw input configurations, raw rows and rows compiled from
templates are written in this order, each if it is given, and both arrays are read back. Everything
is checked and compiled before the first write, so a bad payload prevents all of them.
-/
namespace Commissioning.DeviceSetup

/-- An integer from 0 to 255, truth values left out. -/
def isOctet (v : Value) : Bool :=
  match v.asInt? with
  | some n => 0 ≤ n && n ≤ 255
  | none => false

/-- The items of a payload; one that is nothing, zero or empty has none. -/
def payloadItems (v : Value) : Except Mismatch (List Value) :=
  if v.isTruthy then v.items else .ok []

/-- Checks input configurations, the first one at `position`. -/
def checkConfigurations (position : Nat) : List Value → Outcome Unit
  | [] => .ok ()
  | v :: vs =>
    if isOctet v then checkConfigurations (position + 1) vs
    else .error (Fault.payload (.configuration position v)).raised

/-- Checks rows, the first one at `position`: the header has to be there, all of it octets. -/
def checkActions (position : Nat) : List Value → Outcome Unit
  | [] => .ok ()
  | v :: vs => do
    let row ← ofMismatch v.items
    if DecodedAction.headerLength ≤ row.length && row.all isOctet then
      checkActions (position + 1) vs
    else .error (Fault.payload (.action position row)).raised

/-- Checks the raw payloads. -/
def checkRaw (configurations actions : Value) : Outcome Unit := do
  checkConfigurations 0 (← ofMismatch (payloadItems configurations))
  checkActions 0 (← ofMismatch (payloadItems actions))

/-- What is to be written; a payload that is nothing is left out. -/
structure Payloads where
  configurations : Value := .null
  actions : Value := .null
  templates : Value := .null

/-- Reads both arrays and takes the rows apart. -/
def read : Procedure Entries := do
  let configurations ← .read .deviceSetup [Attribute.inputConfigurations] none
  let actions ← .read .deviceSetup [Attribute.inputActions] none
  let rows ← .ofMismatch do
    (← payloadItems (actions.get Attribute.inputActions)).mapM fun row => row.items.map .list
  let flags ← .ofMismatch (payloadItems (configurations.get Attribute.inputConfigurations))
  let decoded ← .ofLogged (DecodedAction.ofRows rows)
  return [
    (Attribute.inputConfigurations, .list flags),
    (Attribute.inputActions, .list rows),
    ("decoded_input_actions", .list (decoded.map fun d => .dict d.entries))]

/-- Reads the build identifier of the firmware. A device that does not tell it has none. -/
def readBuild : Procedure Value :=
  .ask (.exchange (.read .basic [Attribute.softwareBuild] none)) fun
    | .ok values =>
      let build := values.get Attribute.softwareBuild
      .done (if build.isTruthy then .str build.toText else .null)
    | .error fault =>
      if fault.category = .transport || fault.category = .motorRunning then do
        Procedure.log [⟨.warning, "Could not read firmware build ID: " ++ fault.message⟩]
        return .null
      else .fail fault

/-- Writes one payload, if it is given. -/
def writePayload (level : Level) (structured : Bool) (target : ArrayAttribute) (elements : Value) :
    Procedure Unit := do
  if !elements.isNull then
    let w ← .ofMismatch (ArrayWrite.build target elements structured)
    w.send
    .note level "DeviceSetup written"
      [("attribute", .str target.name), ("elements", .int w.elements.length)]

/-- Compiles the templates, if there are any. -/
def compilePayload (model templates : Value) : Logged Value :=
  if templates.isNull then pure .null
  else do
    let actions ← compileInputActions templates model
    return .list (actions.map InputAction.toValue)

/-- Writes payloads and reads the arrays back. A build identifier that is not given is read once
the payloads have been checked. -/
def configure (model build : Value) (payloads : Payloads) (verbose : Bool) : Procedure Entries := do
  let level := Level.ofVerbose verbose
  let start ← .clock
  .ofOutcome (checkRaw payloads.configurations payloads.actions)
  let compiled ← .ofLogged (compilePayload model payloads.templates)
  let build ← if build.isNull then readBuild else pure build
  let structured ← .ofLogged (supportsStructuredWrite build)
  .note level "DeviceSetup configuration"
    [("model", model), ("sw_build_id", build), ("structured_write", .bool structured)]
  writePayload level structured .configurations payloads.configurations
  writePayload level structured .actions payloads.actions
  writePayload level structured .actions compiled
  let result ← read
  let finish ← .clock
  let count := match result.get Attribute.inputActions with
    | .list rows => rows.length
    | _ => 0
  .note level "DeviceSetup read back"
    [("input_actions", .int count), ("elapsed_s", elapsedValue (finish - start))]
  return result

end Commissioning.DeviceSetup
