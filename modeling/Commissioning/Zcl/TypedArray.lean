import Commissioning.Value.Key

/-!
Arrays of the cluster library: a type of elements and the elements. Data octets are kept as lists
that are checked only when they go on the wire; octet strings and numbers are made at once.

    plain elements ──build──▶ typed array ──wire──▶ type | count, low, high | elements
                   ◀─plain──
-/
namespace Commissioning.Zcl

/-- A type of elements. -/
inductive ElementType where
  | data8
  | octetString
  | uint8
  | uint16
  | int8
  deriving DecidableEq, Repr

namespace ElementType

def all : List ElementType := [data8, octetString, uint8, uint16, int8]

/-- The number of a type. -/
def id : ElementType → Nat
  | data8 => 0x08
  | octetString => 0x41
  | uint8 => 0x20
  | uint16 => 0x21
  | int8 => 0x28

/-- The type of a number. -/
def ofId? (n : Int) : Option ElementType := all.find? fun t => (t.id : Int) == n

/-- The type that a value names by its number. -/
def ofValue (v : Value) : Except Mismatch ElementType :=
  if !v.isKey then .error (.noKey v)
  else match all.find? fun t => v.sameKey (.int t.id) with
    | some t => .ok t
    | none => .error (.missingName v.literal)

end ElementType

/-- The number of the type of arrays themselves. -/
def arrayTypeId : Nat := 0x48

/-- A number that fits into a word. -/
def checkWord (signed : Bool) (bits : Nat) (n : Int) : Except Mismatch Int :=
  let low : Int := if signed then -(Nat.pow 2 (bits - 1) : Nat) else 0
  if low ≤ n ∧ n < low + (Nat.pow 2 bits : Nat) then .ok n else .error (.wordRange n signed bits)

/-- A plain element made into one of a type. -/
def coerceElement (t : ElementType) (v : Value) : Except Mismatch Value :=
  match t with
  | .data8 => match v with
    | .bool _ | .int _ | .status _ => .ok (.list [v])
    | v => v.items.map .list
  | .octetString => v.toOctets.map .bytes
  | .uint8 => do return .int (← checkWord false 8 (← v.toInteger))
  | .uint16 => do return .int (← checkWord false 16 (← v.toInteger))
  | .int8 => do return .int (← checkWord true 8 (← v.toInteger))

/-- The array of a type with plain elements. -/
def buildArray (t : ElementType) (elements : Value) : Except Mismatch Value := do
  let made ← (← elements.items).mapM (coerceElement t)
  return .array t.id made

/-- The octets of a word, the low one first. -/
def littleEndian : Nat → Int → List UInt8
  | 0, _ => []
  | size + 1, n => UInt8.ofNat (n % 256).toNat :: littleEndian size (n / 256)

/-- An element on the wire. -/
def wireElement (t : ElementType) (v : Value) : Except Mismatch (List UInt8) :=
  match t, v with
  | .data8, .list [item] => do return littleEndian 1 (← checkWord false 8 (← item.toInteger))
  | .data8, .list items => .error (.fixedLength v items.length)
  | .octetString, .bytes bs =>
    if bs.length < 255 then .ok (UInt8.ofNat bs.length :: bs) else .error .octetsTooLong
  | .uint16, .int n => .ok (littleEndian 2 n)
  | _, .int n => .ok (littleEndian 1 n)
  | _, v => .error (.noInteger v)

/-- An array of a type on the wire. -/
def wireArray (t : ElementType) (elements : List Value) : Except Mismatch (List UInt8) := do
  let count ← checkWord false 16 elements.length
  let octets ← elements.mapM (wireElement t)
  return UInt8.ofNat t.id :: littleEndian 2 count ++ octets.flatten

/-- The wire form of a built array. -/
def wire : Value → Except Mismatch (List UInt8)
  | .array type elements => match ElementType.ofId? type with
    | some t => wireArray t elements
    | none => .error (.missingName (toString type))
  | v => .error (.noItems v)

/-- Why an array does not go on the wire. -/
def wireFault? : Value → Option Mismatch
  | .array type elements => match wire (.array type elements) with
    | .ok _ => none
    | .error e => some e
  | _ => none

/-- The first item of a collection, as an integer. -/
def firstInteger (v : Value) : Except Mismatch Int :=
  match v with
  | .list items | .tuple items => match items with
    | item :: _ => item.toInteger
    | [] => .error (.pastEnd v)
  | .bytes (b :: _) => .ok b.toNat
  | .str s => match s.toList with
    | c :: _ => Value.toInteger (.str c.toString)
    | [] => .error (.pastEnd v)
  | .bytes [] => .error (.pastEnd v)
  | .dict _ => .error (.missingName "0")
  | v => .error (.noPositions v)

/-- The plain elements of an array of data octets. -/
def plainData (elements : List Value) : Except Mismatch Value := do
  return .list ((← elements.mapM firstInteger).map .int)

mutual

/-- A value without arrays, octets and status codes: numbers, texts and lists of them. What stands
in a tuple or under a name is left alone. -/
def plain : Value → Except Mismatch Value
  | .array type elements =>
    if type = ElementType.data8.id then plainData elements
    else (plainItems elements).map .list
  | .typed _ .null => .ok (.list [])
  | .typed type content =>
    if type = ElementType.data8.id then do plainData (← content.items)
    else match content with
      | .list items => (plainItems items).map .list
      | .tuple items => (plainItems items).map .list
      | v => v.items.map .list
  | .bytes bs => .ok (.ofOctets bs)
  | .status code => .ok (.int code)
  | .list items => (plainItems items).map .list
  | v => .ok v

/-- The items of a collection, each one made plain. -/
def plainItems : List Value → Except Mismatch (List Value)
  | [] => .ok []
  | item :: items => do return (← plain item) :: (← plainItems items)

end

end Commissioning.Zcl
