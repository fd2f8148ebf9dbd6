import Commissioning.Covering.Options
import Commissioning.Exchange.Request

/-!
Configuration and calibration of a covering. The device learns its limits when it is driven through
a fixed sequence of writes and movements while the calibration bit of its mode is set:

    settle ▶ base ▶ [prime ▶ reset ▶ enable ▶ learn lower ▶ learn range]
      ▶ overrides ▶ [finalize] ▶ report

The phases in brackets belong to a calibration. A failure ends the sequence where it happens; a
bit that it leaves behind is cleared when the next sequence settles.
-/
namespace Commissioning.Covering
open Attribute

/-- The pause after a write that changes how the device behaves, in milliseconds. -/
def settleTime : Nat := 2000

/-- The short travel before the first stop. -/
def sampleTime : Nat := 5000

/-- The pause before each question whether the motor still runs. -/
def pollInterval : Nat := 2000

/-- How long one travel may take. -/
def travelLimit : Nat := 300000

/-- The status of a motor that does not run. -/
def motorStopped : Nat := 0

/-- The most questions that one travel takes: each comes at least a poll interval after the one
before, so the last of them comes past the limit. -/
def pollLimit : Nat := travelLimit / pollInterval + 1

/-- A number of steps that is not yet known. -/
def stepsUnknown : Int := 0xFFFF

/-- What is written before learning starts. -/
def resetValues : List (String × Int) := [
  (installedOpenLift, 0),
  (installedClosedLift, 240),
  (installedOpenTilt, 0),
  (installedClosedTilt, 900),
  (transitionSteps, stepsUnknown),
  (totalSteps, stepsUnknown),
  (transitionSteps2, stepsUnknown),
  (totalSteps2, stepsUnknown)]

/-- The first group of the report. -/
def geometryAttributes : List String := [coveringType, closedLimitLift, closedLimitTilt,
  installedOpenLift, installedClosedLift, installedOpenTilt, installedClosedTilt]

/-- The second group of the report. -/
def statusAttributes : List String := [configStatus, coveringMode, positionLiftPercentage,
  positionLift, positionTiltPercentage, positionTilt, operationalStatus]

/-- The third group of the report, the manufacturer's own. -/
def vendorAttributes : List String := [turnaroundGuardTime, transitionSteps, totalSteps,
  transitionSteps2, totalSteps2, additionalSteps, inactivePowerThreshold, startupSteps]

/-- Writes one attribute. -/
def writeOne (key : String) (v : Value) (manufacturer : Option Int) : Procedure Unit :=
  .write .windowCovering [(key, v)] manufacturer

/-- Writes a mode. -/
def writeMode (mode : Int) : Procedure Unit := writeOne coveringMode (.int mode) none

/-- Sets the motor in motion, or stops it. -/
def drive (name : String) : Procedure Unit := .command .windowCovering name

/-- Asks whether the motor still runs, and how long it has been since `start`. -/
def pollOnce (start : Nat) : Procedure (Value × Nat) := do
  .pause pollInterval
  let values ← .read .windowCovering [operationalStatus] none
  let now ← .clock
  return (values.get operationalStatus, now - start)

/-- Asks until the motor stands still, then lets it settle. After the time for one travel the wait
is given up; `left` more questions are put at most. -/
def pollUntilStopped (phase : String) (start polls left : Nat) : Procedure Unit := do
  let (status, elapsed) ← pollOnce start
  if status.equalsInt motorStopped then
    .log [⟨.debug,
      s!"Motor stopped during {phase} after {polls + 1} polls ({tenthsText (tenthsOf elapsed)}s)"⟩]
    .pause settleTime
  else match left with
    | 0 => .fail (.motorRunning phase elapsed status)
    | left + 1 =>
      if travelLimit < elapsed then .fail (.motorRunning phase elapsed status)
      else pollUntilStopped phase start (polls + 1) left

/-- Waits until the motor stands still. -/
def awaitStop (phase : String) : Procedure Unit := do
  let start ← .clock
  pollUntilStopped phase start 0 (pollLimit - 1)

/-- Clears a calibration bit that an earlier run has left; gives the mode. -/
def settle (level : Level) : Procedure Int := do
  let values ← .read .windowCovering [coveringMode] none
  let found := values.get coveringMode
  let mode ← if found.isTruthy then .ofMismatch found.toInteger else pure 0
  .note level "Settle" [("mode", .str (modeText mode))]
  if hasBit mode then
    writeMode (clearBit mode)
    .pause settleTime
  return clearBit mode

/-- The mode of a value, without the calibration bit. -/
def modeOf (v : Value) : Except Mismatch Int :=
  match v.asIndex? with
  | some n => .ok (clearBit n)
  | none => .error (.operand v)

/-- Writes the base attributes, a pause after each; gives the mode. -/
def writeBase (level : Level) (mode : Int) : Entries → Procedure Int
  | [] => pure mode
  | (key, v) :: rest => do
    let mode ← if key == coveringMode then .ofMismatch (modeOf v) else pure mode
    let v := if key == coveringMode then .int mode else v
    .note level "BaseConfig" [("attribute", .str key), ("value", v)]
    writeOne key v none
    .pause settleTime
    writeBase level mode rest

/-- Moves to the open position. -/
def prime (level : Level) : Procedure Unit := do
  .note level "Prime: moving to the open position" []
  drive Command.upOpen
  awaitStop "prime"

/-- Forgets limits and steps. -/
def resetLimits (level : Level) : Procedure Unit := do
  .note level "ResetLimits" [("attributes", .int resetValues.length)]
  .write .windowCovering (resetValues.map fun (key, n) => (key, .int n)) (some manufacturerCode)
  .pause settleTime

/-- Puts the device into calibration. -/
def enable (level : Level) (mode : Int) : Procedure Unit := do
  .note level "EnableCalibration" [("mode", .str (modeText (setBit mode)))]
  writeMode (setBit mode)
  .pause settleTime

/-- Travels down a little and up again. -/
def learnLowerBound (level : Level) : Procedure Unit := do
  .note level "LearnLowerBound" []
  drive Command.downClose
  .pause sampleTime
  drive Command.stop
  .pause settleTime
  drive Command.upOpen
  awaitStop "learn lower bound (up)"

/-- Travels all the way down and up. -/
def learnFullRange (level : Level) : Procedure Unit := do
  .note level "LearnFullRange" []
  drive Command.downClose
  awaitStop "learn full range (down)"
  drive Command.upOpen
  awaitStop "learn full range (up)"

/-- Writes the overrides. -/
def writeOverrides (level : Level) : Entries → Procedure Unit
  | [] => pure ()
  | (key, v) :: rest => do
    .note level "ApplyOverrides" [("attribute", .str key), ("value", v)]
    writeOne key v (some manufacturerCode)
    writeOverrides level rest

/-- Takes the device out of calibration. -/
def finalize (level : Level) (mode : Int) : Procedure Unit := do
  .pause settleTime
  .note level "Finalize" [("mode", .str (modeText (clearBit mode)))]
  writeMode (clearBit mode)
  .pause settleTime

/-- The phases from the first movement until the limits are learnt. -/
def learn (level : Level) (mode : Int) : Procedure Unit := do
  prime level
  resetLimits level
  enable level mode
  learnLowerBound level
  learnFullRange level

/-- Reads the report. -/
def readReport : Procedure Entries := do
  let geometry ← .read .windowCovering geometryAttributes none
  let status ← .read .windowCovering statusAttributes none
  let vendor ← .read .windowCovering vendorAttributes (some manufacturerCode)
  return ((Entries.merge [] geometry).merge status).merge vendor

/-- What is told of options before they are run. -/
def Options.announcement (o : Options) : Entries :=
  [("calibrate", o.flag), ("steps_per_second", o.speed), ("overrides", .int o.overrides.length)]

/-- Tells what is about to be done. -/
def announce (o : Options) : Procedure Unit :=
  .banner "J1 configuration started" o.announcement

/-- Runs the whole sequence for checked options; gives the report. -/
def configure (o : Options) (verbose : Bool) : Procedure Entries := do
  let level := Level.ofVerbose verbose
  let start ← .clock
  announce o
  let mode ← settle level
  let mode ← writeBase level mode o.base
  if o.calibrate then learn level mode
  writeOverrides level o.overrides
  if o.calibrate then finalize level mode
  let report ← readReport
  let finish ← .clock
  .log (Log.banner "J1 configuration finished" [("calibrate", o.flag),
    ("elapsed_s", elapsedValue (finish - start)), ("total_steps", report.get totalSteps)])
  return report

/-- Checks options and runs the sequence for them. -/
def configureRaw (given : Value) (verbose : Bool) : Procedure Entries := do
  configure (← .ofLogged (validate given)) verbose

end Commissioning.Covering
