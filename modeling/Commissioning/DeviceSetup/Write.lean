import Commissioning.Exchange.Request
import Commissioning.Zcl.TypedArray

/-!
Writes of the two array attributes of the setup cluster. Newer firmware takes a structured write,
which addresses the attribute by number and names the type of the elements; older firmware takes a
plain write that carries type and elements as the value. Both carry the same elements.
-/
namespace Commissioning.DeviceSetup

/-- An array attribute of the setup cluster. -/
inductive ArrayAttribute where
  | configurations
  | actions
  deriving DecidableEq, Repr

namespace ArrayAttribute

def all : List ArrayAttribute := [configurations, actions]

def name : ArrayAttribute → String
  | configurations => Attribute.inputConfigurations
  | actions => Attribute.inputActions

def id : ArrayAttribute → Nat
  | configurations => 0x0000
  | actions => 0x0001

/-- The type of the elements: flags of one input each, or rows. -/
def elementType : ArrayAttribute → Zcl.ElementType
  | configurations => .data8
  | actions => .octetString

/-- The attribute that a value names. What cannot be a name at all is another mismatch. -/
def ofValue (v : Value) : Except Mismatch ArrayAttribute :=
  if !v.isKey then .error (.noKey v)
  else match all.find? fun a => v.sameKey (.str a.name) with
    | some a => .ok a
    | none => .error (.noArrayAttribute v)

end ArrayAttribute

/-- A write of an array attribute, in either form. -/
structure ArrayWrite where
  target : ArrayAttribute
  elements : List Value
  structured : Bool

namespace ArrayWrite

/-- An element as it is sent: rows become lists. -/
def element (v : Value) : Value :=
  match v with
  | .tuple items => .list items
  | .bytes bs => .ofOctets bs
  | v => v

/-- The write of a collection of elements. -/
def build (target : ArrayAttribute) (elements : Value) (structured : Bool) :
    Except Mismatch ArrayWrite := do
  return { target, elements := (← elements.items).map element, structured }

/-- The record of the structured form. -/
def asRecord (w : ArrayWrite) : ArrayRecord where
  attrId := w.target.id
  dataType := Zcl.arrayTypeId
  elementType := w.target.elementType.id
  elements := w.elements

/-- The value of the plain form. -/
def asValues (w : ArrayWrite) : Entries :=
  [(w.target.name, .dict [
    ("element_type", .int w.target.elementType.id), ("elements", .list w.elements)])]

/-- Sends a write, without a manufacturer's code. -/
def send (w : ArrayWrite) : Procedure Unit := do
  let form := if w.structured then "structured" else "legacy"
  .log [⟨.debug, s!"DeviceSetup write: {w.target.name} ({w.elements.length} elements, {form})"⟩]
  if w.structured then .writeStructured .deviceSetup [w.asRecord]
  else .write .deviceSetup w.asValues none

end ArrayWrite

end Commissioning.DeviceSetup
