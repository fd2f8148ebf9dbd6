import Commissioning.Covering.Calibration
import Commissioning.Device.Activity
import Commissioning.Dimmer.Configure
import Commissioning.Service.Catalogue
import Commissioning.Service.Shared

/-!
Jobs. A call of a service becomes a job when its data have their form, its device is known and is of
the right model. Up to then nothing is asked of any device. A job runs as a procedure on its device;
how it ended is told in the log, and for a covering in an event, too.

    data ──form──▶ entries ──▶ address, options ──▶ device ──▶ model ──▶ job
    job ──▶ procedure ──▶ outcome ──▶ log, event
-/
namespace Commissioning

/-- What a job does. -/
inductive Purpose where
  | configureCovering (o : Covering.Options)
  | readCovering
  | configureDeviceSetup (model : Value) (payloads : DeviceSetup.Payloads)
  | readDeviceSetup
  | configureDimmer (phase minimum : Value)
  | readDimmer

namespace Purpose

/-- The operation of which one device runs one at a time. -/
def operation? : Purpose → Option Operation
  | configureCovering _ => some .calibration
  | configureDeviceSetup .. => some .deviceSetup
  | configureDimmer .. => some .dimmerSetup
  | readCovering | readDeviceSetup | readDimmer => none

/-- The procedure for a purpose. -/
def procedure (p : Purpose) (verbose : Bool) : Procedure Entries :=
  match p with
  | configureCovering o => Covering.configure o verbose
  | readCovering => Covering.readReport
  | configureDeviceSetup model payloads => DeviceSetup.configure model .null payloads verbose
  | readDeviceSetup => DeviceSetup.read
  | configureDimmer phase minimum => Dimmer.configure phase minimum verbose
  | readDimmer => Dimmer.read

end Purpose

/-- An event for other programs of the host. -/
structure Event where
  time : Nat
  name : String
  data : Entries

namespace Event

def complete : String := "ubisys_setup_calibration_complete"

def failed : String := "ubisys_setup_calibration_failed"

end Event

/-- A call of a service that is ready to run. -/
structure Job where
  purpose : Purpose
  /-- The address as locks and messages have it. -/
  address : String
  device : Address

namespace Job

/-- The lock that a job needs. -/
def lock? (j : Job) : Option (Operation × LockKey) :=
  j.purpose.operation?.map fun o => (o, ⟨o.name, j.address⟩)

/-- The data that the events about a covering begin with. -/
def subject (j : Job) (o : Covering.Options) : Entries :=
  [("device_ieee", .str j.address), (Covering.calibrateKey, .bool o.calibrate)]

/-- What the log tells about a job that ended with a fault. -/
def failureLog (j : Job) (e : Fault) : Log :=
  match j.purpose with
  | .configureCovering _ => [⟨.error, s!"J1 configuration failed for {j.address}: " ++ e.message⟩]
  | .configureDeviceSetup model _ =>
    [⟨.error, s!"DeviceSetup configuration failed for {j.address} ({model.text}): " ++ e.message⟩]
  | .configureDimmer .. => [⟨.error, s!"D1 configuration failed for {j.address}: " ++ e.message⟩]
  | _ => []

/-- The event about a job on a covering that began and ended at two times. -/
def event? (j : Job) (began finish : Nat) (outcome : Outcome Entries) : Option Event :=
  match j.purpose, outcome with
  | .configureCovering o, .ok report => some ⟨finish, Event.complete, j.subject o ++ [
      ("duration_s", elapsedValue (finish - began)),
      (Attribute.totalSteps, report.get Attribute.totalSteps)]⟩
  | .configureCovering o, .error e => some ⟨finish, Event.failed, j.subject o ++ [
      ("error", .str e.message), ("error_type", .str e.category.label)]⟩
  | _, _ => none

/-- The log lines at the end of a job. -/
def endLog (j : Job) : Outcome Entries → Log
  | .ok _ => []
  | .error e => j.failureLog e

end Job

/-- A part of data; a key that is missing has nothing. -/
def payloadsOf (given : Entries) : DeviceSetup.Payloads :=
  ⟨given.get Key.inputConfigurations, given.get Key.inputActions, given.get Key.templates⟩

/-- The model that a caller names, else the one that the device tells. -/
def modelFor (given : Entries) (d : Device) : Except Mismatch Value :=
  let named := given.get Key.model
  if named.isTruthy then .ok named
  else do return ((← d.shortModel).map Value.str).getD .null

/-- What a service is to do on a device that is not yet known. Options of a covering are checked
here; for a dimmer the model is checked when the device is known. -/
def Service.purpose (x : Service) (given : Entries) (address : String) :
    Logged (Device → Outcome Purpose) := do
  let dimmer (p : Purpose) (d : Device) : Outcome Purpose := do
    (Model.requireDimmer (← ofMismatch d.shortModel) address).mapError .access
    return p
  match x with
  | configureCovering =>
    let o ← Covering.validate (.dict (given.filter fun (key, _) => key != Key.address))
    return fun _ => .ok (.configureCovering o)
  | readCovering => return fun _ => .ok .readCovering
  | configureDeviceSetup =>
    return fun d => do
      return .configureDeviceSetup (← ofMismatch (modelFor given d)) (payloadsOf given)
  | readDeviceSetup => return fun _ => .ok .readDeviceSetup
  | configureDimmer =>
    return dimmer (.configureDimmer (given.get Key.phaseControlMode) (given.get Key.minimumOnLevel))
  | readDimmer => return dimmer .readDimmer

/-- The device of an address as callers write it. Without a gateway none is found. -/
def Hub.find (h : Hub) (hasGateway : Bool) (address : String) : Except AccessError Device :=
  match Address.read? address with
  | none => .error (.malformedAddress address)
  | some a =>
    if !hasGateway then .error .noGateway
    else match h.device? a with
      | some d => .ok d
      | none => .error (.unknownDevice address)

/-- The job of a call. -/
def Service.job (x : Service) (data : Value) (h : Hub) (hasGateway : Bool) : Logged Job := do
  let given ← .ofOutcome (x.form.check data)
  let address ← .ofOutcome (normalizedAddress (given.get Key.address))
  let purpose ← x.purpose given address
  let d ← .ofOutcome ((h.find hasGateway address).mapError .access)
  return { purpose := ← .ofOutcome (purpose d), address, device := d.address }

end Commissioning
