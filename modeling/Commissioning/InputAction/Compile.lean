import Commissioning.InputAction.Cursor
import Commissioning.InputAction.Model
import Commissioning.InputAction.Row
import Commissioning.InputAction.Template
import Commissioning.Zcl.Cluster

/-!
Templates compiled into rows. The cursor is placed at each template in turn, the template's
behaviour gives its rows there, and the cursor moves on:

    cursor ──place──▶ rows of template k ──advance──▶ cursor for template k + 1

Compiling stops at the first template that does not compile.
-/
namespace Commissioning

namespace Transition

def releasedToPressed : Int := 0x0D
def pressedToReleased : Int := 0x07
def keptPressedToReleased : Int := 0x0B
def anyToReleased : Int := 0x03
def pressedToKeptPressed : Int := 0x06
/-- The input is kept pressed, and every second time another row applies. -/
def keptPressedAlternate : Int := 0x86
/-- The input is kept pressed for every second time. -/
def keptPressedIsAlternate : Int := 0xC6

end Transition

namespace InputAction

def onOffCluster : Int := 0x0006
def levelCluster : Int := Cluster.levelControl.id
def coveringCluster : Int := Cluster.windowCovering.id
def scenesCluster : Int := 0x0005

/-- A command of the on/off cluster. -/
def onOff (input : Numeral) (transition : Int) (endpoint : Numeral) (command : Int) :
    InputAction :=
  { input, transition, endpoint, cluster := onOffCluster, command }

def offCommand : Int := 0x00
def onCommand : Int := 0x01
def toggleCommand : Int := 0x02

/-- A command of the level cluster. -/
def level (input : Numeral) (transition : Int) (endpoint : Numeral) (command : Int)
    (payload : List Numeral) : InputAction :=
  { input, transition, endpoint, cluster := levelCluster, command, payload }

/-- The direction of a movement, as its command carries it. -/
def upDirection : Int := 0x00
def downDirection : Int := 0x01

def stopMoveCommand : Int := 0x03

/-- Dims up at a rate. -/
def moveUp (input : Numeral) (transition : Int) (endpoint : Numeral) (d : Dimming) :
    InputAction :=
  level input transition endpoint d.up [upDirection, d.rate]

/-- Dims down at a rate. -/
def moveDown (input : Numeral) (transition : Int) (endpoint : Numeral) (d : Dimming) :
    InputAction :=
  level input transition endpoint d.down [downDirection, d.rate]

/-- Ends dimming. -/
def stopMove (input : Numeral) (transition : Int) (endpoint : Numeral) : InputAction :=
  level input transition endpoint stopMoveCommand []

/-- A command of the window covering cluster. -/
def covering (input : Numeral) (transition : Int) (endpoint : Numeral) (command : Int) :
    InputAction :=
  { input, transition, endpoint, cluster := coveringCluster, command }

def openCommand : Int := 0x00
def closeCommand : Int := 0x01
def stopCommand : Int := 0x02

def recallCommand : Int := 0x05

/-- Recalls a scene of a group. -/
def recallScene (input : Numeral) (transition : Int) (endpoint : Numeral) (group : Int)
    (scene : Numeral) : InputAction :=
  { input, transition, endpoint, cluster := scenesCluster, command := recallCommand,
    payload := [↑(group % 256), ↑(group / 256), scene] }

end InputAction

namespace Behaviour
open InputAction Transition

/-- One input opens, the other closes, and both stop on the transition `stop`. -/
def coverPair (up down endpoint : Numeral) (stop : Int) : List InputAction := [
  covering up releasedToPressed endpoint openCommand,
  covering up stop endpoint stopCommand,
  covering down releasedToPressed endpoint closeCommand,
  covering down stop endpoint stopCommand]

/-- Recalls one scene on one transition and perhaps another on another. -/
def scenePair (input endpoint : Numeral) (group first second : Int) (primary : SceneChoice)
    (secondary : Option SceneChoice) : List InputAction :=
  let group := primary.group.getD group
  recallScene input first endpoint group primary.scene ::
    match secondary with
    | none => []
    | some choice => [recallScene input second endpoint (choice.group.getD group) choice.scene]

/-- The group that is in force after a pair of scenes. -/
def groupAfterScenes (group : Int) (primary : SceneChoice) (secondary : Option SceneChoice) : Int :=
  let group := primary.group.getD group
  match secondary with
  | none => group
  | some choice => choice.group.getD group

/-- The rows of a behaviour for inputs `a` and, where it uses two, `b`. -/
def actions (a b endpoint : Numeral) (group : Int) : Behaviour → List InputAction
  | toggle => [onOff a releasedToPressed endpoint toggleCommand]
  | toggleSwitch => [
      onOff a releasedToPressed endpoint toggleCommand,
      onOff a anyToReleased endpoint toggleCommand]
  | onOffSwitch => [
      onOff a releasedToPressed endpoint onCommand,
      onOff a anyToReleased endpoint offCommand]
  | on => [onOff a releasedToPressed endpoint onCommand]
  | off => [onOff a releasedToPressed endpoint offCommand]
  | dimmerSingle d => [
      onOff a pressedToReleased endpoint toggleCommand,
      moveUp a keptPressedAlternate endpoint d,
      moveDown a keptPressedIsAlternate endpoint d,
      stopMove a keptPressedToReleased endpoint]
  | dimmerDouble d => [
      onOff a pressedToReleased endpoint onCommand,
      moveUp a pressedToKeptPressed endpoint d,
      stopMove a keptPressedToReleased endpoint,
      onOff b pressedToReleased endpoint offCommand,
      moveDown b pressedToKeptPressed endpoint d,
      stopMove b keptPressedToReleased endpoint]
  | cover => coverPair a b endpoint pressedToReleased
  | coverSwitch => coverPair a b endpoint anyToReleased
  | coverUp => [covering a releasedToPressed endpoint openCommand]
  | coverDown => [covering a releasedToPressed endpoint closeCommand]
  | scene primary secondary =>
    scenePair a endpoint group pressedToReleased pressedToKeptPressed primary secondary
  | sceneSwitch primary secondary =>
    scenePair a endpoint group releasedToPressed anyToReleased primary secondary

/-- The group that is in force after a behaviour. -/
def groupAfter (group : Int) : Behaviour → Int
  | scene primary secondary | sceneSwitch primary secondary =>
    groupAfterScenes group primary secondary
  | _ => group

end Behaviour

/-- The pair of inputs of a template that uses two: its own, or two in a row from the cursor on. -/
def Template.pair (t : Template) (first : Numeral) : Numeral × Numeral :=
  t.inputs.getD (first, first.plus 1)

/-- The cursor placed at a template of a device. -/
def Cursor.place (model : Model) (c : Cursor Numeral) (t : Template) : Cursor Numeral :=
  let inputs := match t.input with
    | some n => .one n
    | none => c.inputs
  let endpoint := t.endpoint.getD c.endpoint
  { inputs :=
      if t.behaviour.family.isDouble then
        .several [(t.pair inputs.first).1, (t.pair inputs.first).2]
      else inputs
    endpoint := if t.behaviour.family.isCover then model.coverEndpoint endpoint else endpoint
    group := c.group }

/-- The second of two inputs; the only one if there is one. -/
def Inputs.second : Inputs Numeral → Numeral
  | .several (_ :: n :: _) => n
  | inputs => inputs.first

/-- The rows of a template at a cursor that has been placed at it. -/
def Cursor.actions (c : Cursor Numeral) (t : Template) : List InputAction :=
  t.behaviour.actions c.inputs.first c.inputs.second c.endpoint c.group

/-- The cursor for the template that follows `t`, at which `c` stands. -/
def Cursor.leave (c : Cursor Numeral) (t : Template) : Cursor Numeral :=
  { c.advance with group := t.behaviour.groupAfter c.group }

/-- What one template compiled to. -/
structure Expansion where
  family : Family
  inputs : Inputs Numeral
  endpoint : Numeral
  actions : List InputAction

/-- The line that reports the template at position `index`. -/
def Expansion.line (index : Nat) (e : Expansion) : Line :=
  ⟨.debug, s!"Template {index} ({e.family.name}): input(s) {e.inputs.shown.toText}, " ++
    s!"endpoint {e.endpoint.number}, {e.actions.length} row(s)"⟩

/-- All numbers of a row are octets. -/
def rowFits (row : List Int) : Bool := row.all fun n => 0 ≤ n && n ≤ 255

/-- Compiles the checked template at position `index`. -/
def Template.expand (model : Model) (index : Nat) (c : Cursor Numeral) (t : Template) :
    Except TemplateError (Expansion × Cursor Numeral) :=
  let placed := c.place model t
  let actions := placed.actions t
  match actions.find? fun a => !rowFits a.row with
  | some a => .error (.rowRange t.behaviour.family.name index a.numerals)
  | none => .ok (
      { family := t.behaviour.family, inputs := placed.inputs, endpoint := placed.endpoint,
        actions },
      placed.leave t)

/-- Compiles what stands at position `index`, which has to be named values. -/
def compileOne (model : Model) (index : Nat) (c : Cursor Numeral) (v : Value) :
    Outcome (Expansion × Cursor Numeral) :=
  match v with
  | .dict fields =>
    ((Template.ofFields index fields).bind fun t => t.expand model index c).mapError fun e =>
      (Fault.template e).raised
  | v => .error (.mismatch (.missingPart v.typeName "get"))

/-- The templates that compiled, and why the next one did not. -/
structure Compilation where
  done : List Expansion
  fault : Option Fault

namespace Compilation

/-- Compiles templates one after the other, the first one at position `index`. -/
def run (model : Model) (index : Nat) (c : Cursor Numeral) : List Value → Compilation
  | [] => ⟨[], none⟩
  | v :: vs => match compileOne model index c v with
    | .error fault => ⟨[], some fault⟩
    | .ok (expansion, next) =>
      let rest := run model (index + 1) next vs
      ⟨expansion :: rest.done, rest.fault⟩

/-- The rows of all templates, if all compiled. -/
def actions (c : Compilation) : Outcome (List InputAction) :=
  match c.fault with
  | none => .ok (c.done.flatMap Expansion.actions)
  | some fault => .error fault

/-- One line for each template that compiled. -/
def log (c : Compilation) : Log := c.done.mapIdx fun index e => e.line index

end Compilation

/-- The cursor for the first template of a device. -/
def Cursor.start (model : Model) : Cursor Numeral :=
  { inputs := .one (.plain 0), endpoint := model.startingEndpoint }

/-- Compiles a list of templates for a device. -/
def compileTemplates (model : Model) (templates : List Value) : Compilation :=
  .run model 0 (.start model) templates

/-- Compiles templates for a model, both given as values. A single template may stand without a
list around it. -/
def compileInputActions (templates model : Value) : Logged (List InputAction) :=
  let list : Except Mismatch (List Value) := match templates with
    | .dict fields => .ok [Value.dict fields]
    | v => v.items
  match Model.ofValue model with
  | .error fault => .fail fault
  | .ok m => match list with
    | .error e => .fail (.mismatch e)
    | .ok vs =>
      let c := compileTemplates m vs
      ⟨c.log, c.actions⟩

end Commissioning
