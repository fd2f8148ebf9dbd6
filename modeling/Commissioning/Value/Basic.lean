import Commissioning.Number.Binary64

/-!
Values of requests and of attributes. A request comes from outside and may hold anything under any
key, and a device may answer with anything, so both are kept as they come until they are checked.
-/
namespace Commissioning

/-- A value as a caller or a device gives it. The cluster library has two of its own: a content with
its type, and an array of elements that have been made from plain ones. -/
inductive Value where
  | null
  | bool (b : Bool)
  | int (n : Int)
  | status (code : Int)
  | float (x : Binary64)
  | str (s : String)
  | bytes (bs : List UInt8)
  | list (items : List Value)
  | tuple (items : List Value)
  | dict (entries : List (String × Value))
  | typed (type : Int) (content : Value)
  | array (type : Int) (elements : List Value)
  deriving BEq, Repr, Inhabited

/-- Named values, in the order in which they were put in. -/
abbrev Entries := List (String × Value)

namespace Value

/-- All but nothing, zero, false and what is empty. -/
def isTruthy : Value → Bool
  | .null => false
  | .bool b => b
  | .int n | .status n => n != 0
  | .float x => !x.same (.ofNat 0)
  | .str s => !s.isEmpty
  | .bytes bs => !bs.isEmpty
  | .list items | .tuple items => !items.isEmpty
  | .dict entries => !entries.isEmpty
  | .typed .. | .array .. => true

def isNull : Value → Bool
  | .null => true
  | _ => false

theorem isNull_iff {v : Value} : v.isNull ↔ v = .null := by
  cases v <;> simp [isNull]

/-- The integer that a value is, truth values left out. -/
def asInt? : Value → Option Int
  | .int n | .status n => some n
  | _ => none

/-- The integer that a value is, truth values counting as one and zero. -/
def asIndex? : Value → Option Int
  | .bool b => some (if b then 1 else 0)
  | v => v.asInt?

/-- The same number as `n`. -/
def equalsInt (v : Value) (n : Nat) : Bool :=
  match v with
  | .float x => x.same (.ofNat n)
  | v => v.asIndex? == some (n : Int)

/-- The word for the type of a value in messages. -/
def typeName : Value → String
  | .null => "NoneType"
  | .bool _ => "bool"
  | .int _ => "int"
  | .status _ => "Status"
  | .float _ => "float"
  | .str _ => "str"
  | .bytes _ => "bytes"
  | .list _ => "list"
  | .tuple _ => "tuple"
  | .dict _ => "dict"
  | .typed .. => "TypeValue"
  | .array .. => "Array"

end Value

namespace Entries

/-- The value under a key; a missing key and nothing under a key are told apart. -/
def get? (entries : Entries) (key : String) : Option Value := entries.lookup key

/-- The value under a key, nothing if the key is missing. -/
def get (entries : Entries) (key : String) : Value := (entries.get? key).getD .null

/-- Puts a value under a key: in place if the key is there, else at the end. -/
def put (entries : Entries) (key : String) (v : Value) : Entries :=
  match entries with
  | [] => [(key, v)]
  | (k, w) :: more => if k = key then (key, v) :: more else (k, w) :: put more key v

/-- Puts all entries of the second over the first. -/
def merge (entries new : Entries) : Entries := new.foldl (fun acc (k, v) => put acc k v) entries

end Entries

end Commissioning
