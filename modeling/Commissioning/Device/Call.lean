import Commissioning.Exchange.Request
import Commissioning.Zcl.TypedArray

/-!
Calls of a cluster. A request becomes a call when its arrays are built; what does not fit its type
stops it there, before anything is sent.
-/
namespace Commissioning

/-- An attribute of a structured write with its array, ready to be sent. -/
structure TypedRecord where
  attrId : Int
  type : Int
  array : Value

/-- A call of a cluster. -/
inductive ClusterCall where
  | read (names : List String) (manufacturer : Option Int)
  | write (values : Entries) (manufacturer : Option Int)
  | writeStructured (records : List TypedRecord) (manufacturer : Option Int)
  | command (name : String)

namespace ClusterCall

/-- The general command that writes structured attributes. -/
def writeStructuredCommand : Nat := 0x0F

/-- The key that marks an array by the type of its elements. -/
def elementTypeKey : String := "element_type"

/-- The key of the elements. -/
def elementsKey : String := "elements"

/-- A named value that has to be there. -/
def required (entries : Entries) (key : String) : Except Mismatch Value :=
  match entries.get? key with
  | some v => .ok v
  | none => .error (.missingName (Text.quoted key))

/-- A value as it is sent: one that tells the type of its elements becomes an array. -/
def typedValue (v : Value) : Except Mismatch Value :=
  match v with
  | .dict entries =>
    match Entries.get? entries elementTypeKey with
    | none => .ok v
    | some type => do
      let elements ← required entries elementsKey
      Zcl.buildArray (← Zcl.ElementType.ofValue type) elements
  | v => .ok v

/-- Named values as they are sent. -/
def typedValues : Entries → Except Mismatch Entries
  | [] => .ok []
  | (key, v) :: rest => do
    let v ← typedValue v
    return (key, v) :: (← typedValues rest)

/-- A record as it is sent. -/
def typedRecord (r : ArrayRecord) : Except Mismatch TypedRecord := do
  let array ← Zcl.buildArray (← Zcl.ElementType.ofValue (.int r.elementType)) (.list r.elements)
  let attrId ← Zcl.checkWord false 16 r.attrId
  return { attrId, type := r.dataType, array }

/-- The values that a call carries. -/
def arrays : ClusterCall → List Value
  | .write values _ => values.map Prod.snd
  | .writeStructured records _ => records.map TypedRecord.array
  | _ => []

/-- Why a call does not go on the wire: its first array that has no place there. -/
def unwired? (call : ClusterCall) : Option Mismatch := call.arrays.findSome? Zcl.wireFault?

/-- The call of a request. -/
def ofRequest : Request → Except Mismatch ClusterCall
  | .read _ names manufacturer => .ok (.read names manufacturer)
  | .write _ values manufacturer => do return .write (← typedValues values) manufacturer
  | .command _ name => .ok (.command name)
  | .writeStructured _ records manufacturer => do
    return .writeStructured (← records.mapM typedRecord) manufacturer

end ClusterCall

/-- A manufacturer's code as the log shows it. -/
def manufacturerText : Option Int → String
  | some code => toString code
  | none => "None"

/-- The log line about a request. -/
def Request.line : Request → Line
  | .read c names m =>
    ⟨.debug, s!"Read {c.name} " ++ Value.namesLiteral names ++ s!" (mfg={manufacturerText m})"⟩
  | .write c values m =>
    ⟨.debug, s!"Write {c.name} " ++ (Value.dict values).literal ++ s!" (mfg={manufacturerText m})"⟩
  | .command c name => ⟨.debug, s!"Command {c.name}.{name}"⟩
  | .writeStructured c records m =>
    let ids := records.map fun r =>
      "0x" ++ (String.ofList (Text.hex 4 r.attrId.toNat)).map Char.toUpper
    ⟨.debug, s!"Structured write {c.name} attrs=" ++ Value.namesLiteral ids ++
      s!" (mfg={manufacturerText m})"⟩

end Commissioning
