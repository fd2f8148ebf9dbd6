import Commissioning.Fault.Basic

/-!
Templates of input actions. A template names what an input is for; its other fields choose inputs,
endpoint, dimming rate, scenes and groups. Fields are checked one after the other, whether or not
the template's type uses them.
-/
namespace Commissioning

/-- The types of templates. -/
inductive Family where
  | toggle
  | toggleSwitch
  | onOffSwitch
  | on
  | off
  | dimmerSingle
  | dimmerDouble
  | cover
  | coverSwitch
  | coverUp
  | coverDown
  | scene
  | sceneSwitch
  deriving DecidableEq, Repr

namespace Family

/-- All types, in the order in which they are listed. -/
def all : List Family := [toggle, toggleSwitch, onOffSwitch, on, off, dimmerSingle, dimmerDouble,
  cover, coverSwitch, coverUp, coverDown, scene, sceneSwitch]

def name : Family → String
  | toggle => "toggle"
  | toggleSwitch => "toggle_switch"
  | onOffSwitch => "on_off_switch"
  | on => "on"
  | off => "off"
  | dimmerSingle => "dimmer_single"
  | dimmerDouble => "dimmer_double"
  | cover => "cover"
  | coverSwitch => "cover_switch"
  | coverUp => "cover_up"
  | coverDown => "cover_down"
  | scene => "scene"
  | sceneSwitch => "scene_switch"

/-- The type of a name. -/
def ofName? (s : String) : Option Family := all.find? fun f => f.name == s

theorem ofName?_name (f : Family) : ofName? f.name = some f := by cases f <;> decide

/-- Uses a pair of inputs. -/
def isDouble : Family → Bool
  | dimmerDouble | cover | coverSwitch => true
  | _ => false

/-- Drives a covering. -/
def isCover : Family → Bool
  | cover | coverSwitch | coverUp | coverDown => true
  | _ => false

/-- Recalls scenes. -/
def isScene : Family → Bool
  | scene | sceneSwitch => true
  | _ => false

end Family

/-- The commands and the rate of dimming up and down. -/
structure Dimming where
  up : Int
  down : Int
  rate : Numeral
  deriving DecidableEq, Repr

/-- A scene and, if one is named, its group. -/
structure SceneChoice where
  scene : Numeral
  group : Option Int
  deriving DecidableEq, Repr

/-- What an input does, with all that its type needs to know. -/
inductive Behaviour where
  | toggle
  | toggleSwitch
  | onOffSwitch
  | on
  | off
  | dimmerSingle (dimming : Dimming)
  | dimmerDouble (dimming : Dimming)
  | cover
  | coverSwitch
  | coverUp
  | coverDown
  | scene (primary : SceneChoice) (secondary : Option SceneChoice)
  | sceneSwitch (primary : SceneChoice) (secondary : Option SceneChoice)
  deriving DecidableEq, Repr

/-- The type that shows a behaviour. -/
def Behaviour.family : Behaviour → Family
  | toggle => .toggle
  | toggleSwitch => .toggleSwitch
  | onOffSwitch => .onOffSwitch
  | on => .on
  | off => .off
  | dimmerSingle _ => .dimmerSingle
  | dimmerDouble _ => .dimmerDouble
  | cover => .cover
  | coverSwitch => .coverSwitch
  | coverUp => .coverUp
  | coverDown => .coverDown
  | scene .. => .scene
  | sceneSwitch .. => .sceneSwitch

/-- A checked template. -/
structure Template where
  behaviour : Behaviour
  input : Option Numeral
  inputs : Option (Numeral × Numeral)
  endpoint : Option Numeral
  deriving DecidableEq, Repr

namespace Template

/-- Dims without switching on or off. -/
def moveCommand : Int := 0x01

/-- Dims and switches on or off with it. -/
def moveWithOnOffCommand : Int := 0x05

/-- The rate of a dimmer whose template gives none, or gives zero. -/
def defaultRate : Int := 50

/-- The integer from 0 to `maximum` that a field holds. -/
def checkNumber (family : Family) (index : Nat) (key : String) (maximum : Nat) (v : Value) :
    Except TemplateError Numeral :=
  match Numeral.ofValue? v with
  | some n =>
    if 0 ≤ n.number ∧ n.number ≤ maximum then .ok n
    else .error (.fieldRange key family.name index maximum v)
  | none => .error (.fieldRange key family.name index maximum v)

/-- A field that may be left out. -/
def optionalNumber (family : Family) (index : Nat) (fields : Entries) (key : String)
    (maximum : Nat) : Except TemplateError (Option Numeral) :=
  match fields.get key with
  | .null => .ok none
  | v => (checkNumber family index key maximum v).map some

/-- The field with the pair of inputs. -/
def optionalPair (family : Family) (index : Nat) (fields : Entries) :
    Except TemplateError (Option (Numeral × Numeral)) :=
  match fields.get "inputs" with
  | .null => .ok none
  | .list [a, b] | .tuple [a, b] => do
    let first ← checkNumber family index "inputs" 255 a
    let second ← checkNumber family index "inputs" 255 b
    return some (first, second)
  | v => .error (.noInputPair family.name index v)

/-- The type that a template names. -/
def familyOf (index : Nat) (fields : Entries) : Except TemplateError Family :=
  let unknown (v : Value) : TemplateError := .unknownType v index (Family.all.map Family.name)
  match fields.get "type" with
  | .str s => match Family.ofName? s with
    | some family => .ok family
    | none => .error (unknown (.str s))
  | v => .error (unknown v)

/-- Commands and rate of a dimmer. -/
def dimmingOf (fields : Entries) (rate : Option Numeral) : Dimming :=
  let flag key := (fields.get key).isTruthy
  let never := flag "no_onoff"
  { up := if never || flag "no_onoff_up" then moveCommand else moveWithOnOffCommand
    down := if never || flag "no_onoff_down" then moveCommand else moveWithOnOffCommand
    rate := match rate with
      | some n => if n.number = 0 then defaultRate else n
      | none => defaultRate }

/-- Checks a template that stands at position `index`. -/
def ofFields (index : Nat) (fields : Entries) : Except TemplateError Template := do
  let family ← familyOf index fields
  let number := optionalNumber family index fields
  let input ← number "input" 255
  let endpoint ← number "endpoint" 255
  let rate ← number "rate" 255
  let scene ← number "scene_id" 255
  let scene2 ← number "scene_id_2" 255
  let group ← number "group_id" 65535
  let group2 ← number "group_id_2" 65535
  let inputs ← optionalPair family index fields
  let dimming := dimmingOf fields rate
  let secondary := scene2.map fun s => { scene := s, group := group2.map Numeral.number }
  let primary : Except TemplateError SceneChoice := match scene with
    | some s => .ok { scene := s, group := group.map Numeral.number }
    | none => .error (.missingScene family.name index)
  let behaviour ← match family with
    | .toggle => .ok .toggle
    | .toggleSwitch => .ok .toggleSwitch
    | .onOffSwitch => .ok .onOffSwitch
    | .on => .ok .on
    | .off => .ok .off
    | .dimmerSingle => .ok (.dimmerSingle dimming)
    | .dimmerDouble => .ok (.dimmerDouble dimming)
    | .cover => .ok .cover
    | .coverSwitch => .ok .coverSwitch
    | .coverUp => .ok .coverUp
    | .coverDown => .ok .coverDown
    | .scene => primary.map fun choice => .scene choice secondary
    | .sceneSwitch => primary.map fun choice => .sceneSwitch choice secondary
  return { behaviour, input, inputs, endpoint }

end Template

end Commissioning
