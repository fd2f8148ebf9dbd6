import Commissioning.InputAction.Model
import Commissioning.Zcl.Cluster

/-!
Definitions of the clusters that devices of the family have beyond the standard, and which device
gets which of them. A definition adds a cluster or replaces a standard one; attributes of the
manufacturer's own carry its code, so that they are told apart from standard ones with their number.
-/
namespace Commissioning.Zcl

/-- The definition of an attribute. -/
structure AttributeDefinition where
  name : String
  id : Nat
  type : String
  manufacturer : Option Int
  deriving DecidableEq, Repr

/-- The definition of a cluster. -/
structure ClusterDefinition where
  label : String
  id : Nat
  /-- The name under which an endpoint holds the cluster. -/
  handle : String
  attributes : List AttributeDefinition
  deriving DecidableEq, Repr

namespace ClusterDefinition
open Attribute

/-- Input configurations and input actions; requests carry no manufacturer's code. -/
def deviceSetup : ClusterDefinition where
  label := "UbisysDeviceSetup"
  id := Cluster.deviceSetup.id
  handle := "ubisys_device_setup"
  attributes := [
    ⟨inputConfigurations, 0x0000, "Array", none⟩,
    ⟨inputActions, 0x0001, "Array", none⟩]

/-- Phase control; requests carry no manufacturer's code. -/
def dimmerSetup : ClusterDefinition where
  label := "UbisysDimmerSetup"
  id := Cluster.dimmerSetup.id
  handle := "ubisys_dimmer_setup"
  attributes := [
    ⟨capabilities, 0x0000, "bitmap8", none⟩,
    ⟨status, 0x0001, "bitmap8", none⟩,
    ⟨mode, 0x0002, "bitmap8", none⟩]

/-- The least level has the number of the current level and is told apart by the code. -/
def levelControl : ClusterDefinition where
  label := "UbisysLevelControl"
  id := Cluster.levelControl.id
  handle := "level"
  attributes := [
    ⟨"current_level", 0x0000, "uint8_t", none⟩,
    ⟨minimumOnLevel, 0x0000, "uint8_t", some manufacturerCode⟩]

/-- A covering with its calibration attributes. -/
def windowCovering : ClusterDefinition where
  label := "UbisysWindowCovering"
  id := Cluster.windowCovering.id
  handle := "window_covering"
  attributes := [
    ⟨coveringType, 0x0000, "WindowCoveringType", none⟩,
    ⟨closedLimitLift, 0x0001, "uint16_t", none⟩,
    ⟨closedLimitTilt, 0x0002, "uint16_t", none⟩,
    ⟨positionLift, 0x0003, "uint16_t", none⟩,
    ⟨positionTilt, 0x0004, "uint16_t", none⟩,
    ⟨configStatus, 0x0007, "ConfigStatus", none⟩,
    ⟨positionLiftPercentage, 0x0008, "uint8_t", none⟩,
    ⟨positionTiltPercentage, 0x0009, "uint8_t", none⟩,
    ⟨operationalStatus, 0x000A, "bitmap8", none⟩,
    ⟨installedOpenLift, 0x0010, "uint16_t", none⟩,
    ⟨installedClosedLift, 0x0011, "uint16_t", none⟩,
    ⟨installedOpenTilt, 0x0012, "uint16_t", none⟩,
    ⟨installedClosedTilt, 0x0013, "uint16_t", none⟩,
    ⟨coveringMode, 0x0017, "WindowCoveringMode", none⟩,
    ⟨turnaroundGuardTime, 0x1000, "uint16_t", some manufacturerCode⟩,
    ⟨transitionSteps, 0x1001, "uint16_t", some manufacturerCode⟩,
    ⟨totalSteps, 0x1002, "uint16_t", some manufacturerCode⟩,
    ⟨transitionSteps2, 0x1003, "uint16_t", some manufacturerCode⟩,
    ⟨totalSteps2, 0x1004, "uint16_t", some manufacturerCode⟩,
    ⟨additionalSteps, 0x1005, "uint16_t", some manufacturerCode⟩,
    ⟨inactivePowerThreshold, 0x1006, "uint16_t", some manufacturerCode⟩,
    ⟨startupSteps, 0x1007, "uint16_t", some manufacturerCode⟩]

def all : List ClusterDefinition := [windowCovering, deviceSetup, dimmerSetup, levelControl]

/-- The definition of a label. -/
def ofLabel? (s : String) : Option ClusterDefinition := all.find? fun d => d.label == s

/-- An attribute of a cluster, by its name. -/
def attribute? (d : ClusterDefinition) (name : String) : Option AttributeDefinition :=
  d.attributes.find? fun a => a.name == name

end ClusterDefinition

/-- An attribute of a defined cluster. -/
def findAttribute (label name : String) :
    Except Mismatch (ClusterDefinition × AttributeDefinition) :=
  match ClusterDefinition.ofLabel? label with
  | none => .error (.missingPart "module" label)
  | some d => match d.attribute? name with
    | none => .error (.missingName (Text.quoted name))
    | some a => .ok (d, a)

/-- What a definition does to a device. -/
inductive Extension where
  | adds (endpoint : Nat) (definition : ClusterDefinition)
  | replaces (endpoint : Nat) (definition : ClusterDefinition)

/-- What the definitions do to a model: first what they add, then what they replace. -/
def extensionsOf (m : Model) : List Extension :=
  let setup := Extension.adds Cluster.deviceSetup.endpoint .deviceSetup
  match m with
  | .j1 | .j1R => [setup, .replaces Cluster.windowCovering.endpoint .windowCovering]
  | .d1 | .d1R => [.adds Cluster.dimmerSetup.endpoint .dimmerSetup, setup,
      .replaces Cluster.levelControl.endpoint .levelControl]
  | .s1 | .s1R | .s2 | .s2R | .c4 => [setup]

/-- What the definitions do to a device that gives its manufacturer and its model. -/
def extensions (manufacturer model : String) : List Extension :=
  if manufacturer = manufacturerName then ((Model.ofName? model).map extensionsOf).getD [] else []

end Commissioning.Zcl
