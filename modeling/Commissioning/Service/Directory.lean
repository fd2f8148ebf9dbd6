import Commissioning.Device.Address
import Commissioning.Logged

/-!
The directory of devices. The host keeps a gateway somewhere in what it stores for the radio, in one
of several layouts, and the gateway leads to a table of devices by address:

    object ── gateway_proxy, gateway ──▶ gateway
    named ── gateway ─────────────────▶ gateway    gateway ── application_controller ──▶ devices
    named ── any key ──▶ object or named, as above gateway ── gateway ────────────────▶ devices
-/
namespace Commissioning

/-- A part of what the host stores. -/
inductive Node where
  | object (parts : List (String × Node))
  | named (entries : List (String × Node))
  | table (devices : List (Address × Node))
  | leaf (v : Value)
  deriving Inhabited

namespace Node

/-- All but what is empty, and values that count as false. -/
def isTruthy : Node → Bool
  | .object _ => true
  | .named entries => !entries.isEmpty
  | .table devices => !devices.isEmpty
  | .leaf v => v.isTruthy

def isNull : Node → Bool
  | .leaf v => v.isNull
  | _ => false

/-- The word for the type of a node in messages. -/
def typeName : Node → String
  | .object _ => "SimpleNamespace"
  | .named _ | .table _ => "dict"
  | .leaf v => v.typeName

/-- A part of an object. -/
def part? : Node → String → Option Node
  | .object parts, name => parts.lookup name
  | _, _ => none

/-- A part that has to be there. -/
def part (n : Node) (name : String) : Except Mismatch Node :=
  match n.part? name with
  | some m => .ok m
  | none => .error (.missingPart n.typeName name)

/-- What a dictionary holds. -/
def members : Node → List Node
  | .named entries => entries.map Prod.snd
  | .table devices => devices.map Prod.snd
  | _ => []

/-- The entry of a dictionary. -/
def entry? : Node → String → Option Node
  | .named entries, key => entries.lookup key
  | _, _ => none

/-- The gateway that one candidate leads to. -/
def gatewayOf? (n : Node) : Option Node :=
  [n.part? "gateway_proxy", n.part? "gateway", n.entry? "gateway"].findSome? fun found =>
    found.bind fun g => if g.isTruthy then some g else none

/-- What may lead to a gateway, in the order in which it is tried. -/
def candidates (n : Node) : List Node := n :: n.members

/-- The first gateway that what the host stores leads to. -/
def gateway (n : Node) : Logged (Option Node) := do
  if !n.isTruthy then return none
  match (candidates n).findSome? gatewayOf? with
  | some g => return some g
  | none =>
    .write [⟨.warning, s!"No ZHA gateway found after checking {(candidates n).length} " ++
      "candidates. ZHA data structure may have changed."⟩]
    return none

/-- The table of devices of a gateway. -/
def deviceTable (g : Node) : Outcome Node :=
  match g.part? "application_controller", g.part? "gateway" with
  | some holder, _ | none, some holder => ofMismatch (holder.part "devices")
  | none, none => .error (.access (.noDeviceTable g.typeName))

/-- The part through which a table is asked for an entry. -/
def lookupPart : String := "get"

/-- The device of an address in a table; nothing is no device. No part of an object can be asked. -/
def device? (table : Node) (a : Option Address) : Except Mismatch (Option Node) :=
  match table with
  | .table devices =>
    .ok ((a.bind fun a => devices.lookup a).filter fun d => !d.isNull)
  | .named _ => .ok none
  | n => do
    let part ← n.part lookupPart
    .error (.noCall part.typeName)

/-- The address that a value names. -/
def addressOf (v : Value) : Outcome (Option Address) :=
  match Address.ofValue v with
  | .ok a => .ok a
  | .error .malformed => .error (.access (.malformedAddress v.text))
  | .error (.noText e) => .error (.mismatch e)

/-- The device that a value names. A device may be wrapped in another object. -/
def findDevice (stored : Node) (v : Value) : Logged Node := do
  let a ← .ofOutcome (addressOf v)
  match ← stored.gateway with
  | none => .fail (.access .noGateway)
  | some g =>
    let table ← .ofOutcome g.deviceTable
    match ← .ofOutcome (ofMismatch (table.device? a)) with
    | none => .fail (.access (.unknownDevice v.text))
    | some d => return (d.part? "device").getD d

end Node

end Commissioning
