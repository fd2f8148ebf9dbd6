import Commissioning.Covering.Options
import Commissioning.DeviceSetup.Configure
import Commissioning.Dimmer.Settings
import Commissioning.Service.Form

/-!
The services: for each of the three kinds of devices one that configures and one that reads, with
the form of its data.
-/
namespace Commissioning

/-- A service. -/
inductive Service where
  | configureCovering
  | readCovering
  | configureDeviceSetup
  | readDeviceSetup
  | configureDimmer
  | readDimmer
  deriving DecidableEq, Repr

namespace Service

/-- All services, in the order in which they are registered. -/
def all : List Service := [configureCovering, readCovering, configureDeviceSetup, readDeviceSetup,
  configureDimmer, readDimmer]

def name : Service → String
  | configureCovering => "configure_j1"
  | readCovering => "get_j1_configuration"
  | configureDeviceSetup => "configure_device_setup"
  | readDeviceSetup => "get_device_setup"
  | configureDimmer => "configure_d1"
  | readDimmer => "get_d1_configuration"

/-- The service of a name. -/
def ofName? (s : String) : Option Service := all.find? fun x => x.name == s

theorem ofName?_name (x : Service) : ofName? x.name = some x := by cases x <;> decide

/-- Whether a service gives an answer only, and changes nothing. -/
def onlyAnswers : Service → Bool
  | configureCovering | configureDeviceSetup | configureDimmer => false
  | readCovering | readDeviceSetup | readDimmer => true

end Service

namespace Key

def address : String := "device_ieee"
def model : String := "model"
def inputConfigurations : String := Attribute.inputConfigurations
def inputActions : String := Attribute.inputActions
def templates : String := "input_action_templates"
def phaseControlMode : String := "phase_control_mode"
def minimumOnLevel : String := Attribute.minimumOnLevel

end Key

namespace Form

/-- An integer of one octet. -/
def octet : Check := .integer 255

/-- The field of the address. -/
def addressField : Field := { key := Key.address, check := .text, required := true }

/-- The form of a service that reads. -/
def device : Form := { fields := [addressField] }

/-- The form of the service that configures a covering. -/
def covering : Form where
  fields :=
    [addressField,
      { key := Covering.calibrateKey, check := .flag, default := some (.bool false) },
      { key := Covering.speedKey, check := .real true,
        default := some (.int Covering.defaultSpeed) }] ++
    Covering.baseAttributes.map (fun key => { key, check := octet }) ++
    Covering.overrideAttributes.map (fun key => { key, check := .integer 65535 }) ++
    Covering.conversions.map (fun c => { key := c.source, check := .real false })

/-- The form of the service that configures the setup cluster. -/
def deviceSetup : Form where
  fields := [
    addressField,
    { key := Key.model, check := .text },
    { key := Key.inputConfigurations, check := .listOf octet },
    { key := Key.inputActions, check := .listOf (.listOf octet) },
    { key := Key.templates, check := .mappings }]
  oneOf := [Key.inputConfigurations, Key.inputActions, Key.templates]

/-- The form of the service that configures a dimmer. -/
def dimmer : Form where
  fields := [
    addressField,
    { key := Key.phaseControlMode,
      check := .choice (Dimmer.PhaseControl.all.map Dimmer.PhaseControl.name) },
    { key := Key.minimumOnLevel, check := octet }]
  oneOf := [Key.phaseControlMode, Key.minimumOnLevel]

end Form

/-- The form of the data of a service. -/
def Service.form : Service → Form
  | configureCovering => .covering
  | configureDeviceSetup => .deviceSetup
  | configureDimmer => .dimmer
  | readCovering | readDeviceSetup | readDimmer => .device

end Commissioning
