/-!
The clusters of a device that commissioning talks to, where they are found, and the names of
their attributes and commands.
-/
namespace Commissioning

/-- A cluster that commissioning talks to. -/
inductive Cluster where
  | basic
  | windowCovering
  | deviceSetup
  | dimmerSetup
  | levelControl
  deriving DecidableEq, Repr

namespace Cluster

/-- All clusters, in the order in which they are listed. -/
def all : List Cluster := [basic, windowCovering, deviceSetup, dimmerSetup, levelControl]

def name : Cluster → String
  | basic => "basic"
  | windowCovering => "window_covering"
  | deviceSetup => "device_setup"
  | dimmerSetup => "dimmer_setup"
  | levelControl => "level_control"

/-- The number of the cluster in the cluster library. -/
def id : Cluster → Nat
  | basic => 0x0000
  | windowCovering => 0x0102
  | deviceSetup => 0xFC00
  | dimmerSetup => 0xFC01
  | levelControl => 0x0008

/-- The endpoint of the device that has the cluster. -/
def endpoint : Cluster → Nat
  | basic => 1
  | windowCovering => 2
  | deviceSetup => 232
  | dimmerSetup => 1
  | levelControl => 1

/-- The cluster of a name. -/
def ofName? (s : String) : Option Cluster := all.find? fun c => c.name == s

theorem ofName?_name (c : Cluster) : ofName? c.name = some c := by cases c <;> decide

end Cluster

/-- The code that marks attributes as the manufacturer's own. -/
def manufacturerCode : Int := 0x10F2

/-- The name under which devices of the family register. -/
def manufacturerName : String := "ubisys"

namespace Attribute

def softwareBuild := "sw_build_id"

def coveringType := "window_covering_type"
def closedLimitLift := "physical_closed_limit_lift"
def closedLimitTilt := "physical_closed_limit_tilt"
def positionLift := "current_position_lift"
def positionTilt := "current_position_tilt"
def configStatus := "config_status"
def positionLiftPercentage := "current_position_lift_percentage"
def positionTiltPercentage := "current_position_tilt_percentage"
def operationalStatus := "operational_status"
def installedOpenLift := "installed_open_limit_lift"
def installedClosedLift := "installed_closed_limit_lift"
def installedOpenTilt := "installed_open_limit_tilt"
def installedClosedTilt := "installed_closed_limit_tilt"
def coveringMode := "window_covering_mode"

def turnaroundGuardTime := "turnaround_guard_time"
def transitionSteps := "lift_to_tilt_transition_steps"
def totalSteps := "total_steps"
def transitionSteps2 := "lift_to_tilt_transition_steps2"
def totalSteps2 := "total_steps2"
def additionalSteps := "additional_steps"
def inactivePowerThreshold := "inactive_power_threshold"
def startupSteps := "startup_steps"

def inputConfigurations := "input_configurations"
def inputActions := "input_actions"

def capabilities := "capabilities"
def status := "status"
def mode := "mode"
def minimumOnLevel := "minimum_on_level"

end Attribute

namespace Command

def upOpen := "up_open"
def downClose := "down_close"
def stop := "stop"

/-- The commands of a covering. -/
def all : List String := [upOpen, downClose, stop]

end Command

end Commissioning
