import Commissioning.Fault.Basic
import Commissioning.Text.Blank
import Commissioning.Value.Key

/-!
Device models. Their client endpoints follow the endpoints that serve, so the first one that an
input can send from differs.
-/
namespace Commissioning

/-- A model with a known layout of endpoints. -/
inductive Model where
  | s1
  | s1R
  | s2
  | s2R
  | d1
  | d1R
  | j1
  | j1R
  | c4
  deriving DecidableEq, Repr

namespace Model

/-- All models, in the order in which they are listed. -/
def all : List Model := [s1, s1R, s2, s2R, d1, d1R, j1, j1R, c4]

def name : Model → String
  | s1 => "S1"
  | s1R => "S1-R"
  | s2 => "S2"
  | s2R => "S2-R"
  | d1 => "D1"
  | d1R => "D1-R"
  | j1 => "J1"
  | j1R => "J1-R"
  | c4 => "C4"

/-- The model of a name. -/
def ofName? (s : String) : Option Model := all.find? fun m => m.name == s

theorem ofName?_name (m : Model) : ofName? m.name = some m := by cases m <;> decide

/-- The first client endpoint. -/
def startingEndpoint : Model → Int
  | s2 | s2R => 3
  | c4 => 1
  | _ => 2

/-- The first endpoint of a control unit that drives a covering. -/
def firstCoverEndpoint : Int := 5

/-- How far the endpoints for coverings lie behind those for switches. -/
def coverOffset : Int := 4

/-- The endpoint that a covering uses in place of `endpoint`: only the control unit has endpoints
of their own for coverings. -/
def coverEndpoint (m : Model) (endpoint : Numeral) : Numeral :=
  if m = c4 ∧ endpoint.number < firstCoverEndpoint then endpoint.plus coverOffset else endpoint

/-- The models that dim. -/
def dimmers : List Model := [d1, d1R]

/-- The model that a value names. What cannot be a name at all is a mismatch. -/
def ofValue (v : Value) : Outcome Model :=
  match v with
  | .str s => match ofName? s with
    | some m => .ok m
    | none => .error (.template (.unsupportedModel (.str s) (all.map name)))
  | v =>
    if v.isKey then .error (Fault.template (.unsupportedModel v (all.map name))).raised
    else .error (.mismatch (.noKey v))

/-- The short name of a model string: what stands before the first parenthesis, without blanks
around it. -/
def shortName? (s : String) : Option String :=
  match Text.trim (s.toList.takeWhile (· != '(')) with
  | [] => none
  | name => some (String.ofList name)

/-- The short name in what a device tells about its model; what is nothing or empty has none. -/
def shortNameOf (v : Value) : Except Mismatch (Option String) :=
  match v with
  | .str s => .ok (shortName? s)
  | .bytes (_ :: _) => .error .textAmongOctets
  | v => if v.isTruthy then .error (.missingPart v.typeName "split") else .ok none

/-- A device that does not dim is refused where a dimmer is asked for. -/
def requireDimmer (shortName : Option String) (address : String) : Except AccessError Unit :=
  let names := dimmers.map name
  match shortName with
  | some s => if names.contains s then .ok () else .error (.noDimmer address (.str s) names)
  | none => .error (.noDimmer address .null names)

end Model

end Commissioning
