import Commissioning.Dimmer.Settings
import Commissioning.Exchange.Request
import Commissioning.Value.Reading

/-!
Configuration of a dimmer. The mode is written before the level, and all is read back. Only the
level is an attribute of the manufacturer's own.
-/
namespace Commissioning.Dimmer

/-- The integer under a name; what is nothing or empty counts as zero. -/
def integerOf (values : Entries) (name : String) : Except Mismatch Int :=
  match values.get? name with
  | none => .error (.missingName (Text.quoted name))
  | some v => if v.isTruthy then v.toInteger else .ok 0

/-- Reads the attributes of the setup cluster one by one, and the level. -/
def read : Procedure Entries := do
  let capabilities ← .read .dimmerSetup [Attribute.capabilities] none
  let status ← .read .dimmerSetup [Attribute.status] none
  let mode ← .read .dimmerSetup [Attribute.mode] none
  let level ← .read .levelControl [Attribute.minimumOnLevel] (some manufacturerCode)
  let values := ((Entries.merge [] capabilities).merge status).merge mode
  let capabilities ← .ofMismatch (integerOf values Attribute.capabilities)
  let status ← .ofMismatch (integerOf values Attribute.status)
  let mode ← .ofMismatch (integerOf values Attribute.mode)
  let minimum ← match level.get? Attribute.minimumOnLevel with
    | some v => pure v
    | none => .ofMismatch (.error (.missingName (Text.quoted Attribute.minimumOnLevel)))
  return [
    (Attribute.capabilities, .int capabilities),
    ("decoded_capabilities", .dict (decodeBits capabilityBits capabilities)),
    (Attribute.status, .int status),
    ("decoded_status", .dict (decodeBits statusBits status)),
    (Attribute.mode, .int mode),
    ("phase_control_mode", .str (PhaseControl.nameOfMode mode)),
    (Attribute.minimumOnLevel, minimum)]

/-- Writes the mode, if one is asked for. -/
def writePhase (level : Level) : Option PhaseControl → Procedure Unit
  | none => pure ()
  | some phase => do
    .write .dimmerSetup [(Attribute.mode, .int phase.code)] none
    .note level "Phase control mode set"
      [("phase_control_mode", .str phase.name), ("mode", .int phase.code)]

/-- Writes the level, if one is asked for. -/
def writeLevel (level : Level) : Option Numeral → Procedure Unit
  | none => pure ()
  | some n => do
    .write .levelControl [(Attribute.minimumOnLevel, n.toValue)] (some manufacturerCode)
    .note level "Minimum on level set" [("minimum_on_level", n.toValue)]

/-- Writes checked settings and reads the configuration back. -/
def apply (s : Settings) (verbose : Bool) : Procedure Entries := do
  let level := Level.ofVerbose verbose
  let start ← .clock
  writePhase level s.phase
  writeLevel level s.level
  let result ← read
  let finish ← .clock
  .note level "D1 configuration read back" [
    ("phase_control_mode", result.get "phase_control_mode"),
    ("minimum_on_level", result.get Attribute.minimumOnLevel),
    ("elapsed_s", elapsedValue (finish - start))]
  return result

/-- Checks a request and carries it out. -/
def configure (phase minimum : Value) (verbose : Bool) : Procedure Entries := do
  let s ← .ofOutcome ((check phase minimum).mapError fun e => (Fault.dimmer e).raised)
  apply s verbose

end Commissioning.Dimmer
